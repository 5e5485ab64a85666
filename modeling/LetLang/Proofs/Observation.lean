import LetLang.CommandLine

/-! Tracing is observation only.

Two things outside of the program decide over the log: a flag on the command line, and the setting of
the environment (`Choice`). A run does the same under all choices, and only what the log shows of its
trace differs (`Options.under_eq`): code and output are the same, and what is written to the error
output is the log of one and the same trace followed by one and the same complaint.

This is so for every way to keep a log. Of a log that nothing is asked of only one thing has to be
known: it leaves out what is of more detail than warnings (`Log.Writer.IsQuiet`). Every event of a
run is, so that nothing is shown of it, and the complaint alone is written (`tracing_observes_only`).
The standard log is a case of this (`Log.standard_isQuiet`). -/
namespace LetLang

namespace Log

/-- If nothing is asked for, nothing is shown of a trace whose events are of more detail than
warnings. -/
def Writer.IsQuiet {F : Type} (writer : Writer F) : Prop :=
  ∀ trace : List Entry, (∀ e, .event e ∈ trace → rank .warn < rank e.level) →
    writer.text writer.quiet trace = ""

/-- Every event is of more detail than warnings. -/
theorem rank_warn_lt (e : Event) : rank .warn < rank e.level := by
  have hdebug : rank .warn < rank .debug := by decide
  have htrace : rank .warn < rank .trace := by decide
  cases e with
  | evaluating s => exact htrace
  | _ => exact hdebug

/-! ### The standard log -/

/-- A filter that asks for no more detail than `most`. -/
def Filter.AsksAtMost (most : Level) (filter : Filter) : Prop :=
  ∀ d ∈ filter, ∀ l, d.level = some l → rank l ≤ rank most

/-- The open spans grant no more detail than `most`. -/
def GrantAtMost (most : Level) (outer : List OpenSpan) : Prop :=
  ∀ o ∈ outer, ∀ l ∈ o.grants, rank l ≤ rank most

theorem Filter.quiet_asksAtMost : Filter.quiet.AsksAtMost .warn := by
  intro d hd l hl
  cases List.mem_singleton.mp hd
  cases hl
  exact Nat.le_refl _

/-- The most precise of some directives is one of them. -/
theorem mem_of_foldl_refine {ds : List Directive} {found : Option Directive} {d : Directive}
    (h : ds.foldl Directive.refine found = some d) : found = some d ∨ d ∈ ds := by
  induction ds generalizing found with
  | nil => exact .inl h
  | cons a ds ih =>
    obtain hfound | hmem := ih h
    · unfold Directive.refine at hfound
      split at hfound
      · cases hfound
        exact .inr (List.mem_cons_self ..)
      · exact .inl hfound
    · exact .inr (List.mem_cons_of_mem _ hmem)

section
variable {filter : Filter} {outer : List OpenSpan} {most level : Level}

theorem includes_eq_false {l : Level} (hl : rank l ≤ rank most) (h : rank most < rank level) :
    includes level l = false := decide_eq_false (Nat.not_le.mpr (Nat.lt_of_le_of_lt hl h))

theorem Filter.AsksAtMost.stands_eq_false (hfilter : filter.AsksAtMost most)
    (concerns : Directive → Bool) (h : rank most < rank level) :
    filter.stands concerns level = false := by
  simp only [Filter.stands]
  cases hl : ((filter.filter fun d => d.stands && concerns d).foldl Directive.refine none).bind
      Directive.level with
  | none => rfl
  | some l =>
    obtain ⟨d, hd, hlevel⟩ := Option.bind_eq_some_iff.mp hl
    obtain hnone | hmem := mem_of_foldl_refine hd
    · cases hnone
    · exact includes_eq_false (hfilter d (List.mem_filter.mp hmem).1 l hlevel) h

theorem GrantAtMost.granted_eq_false (houter : GrantAtMost most outer) (h : rank most < rank level) :
    granted outer level = false := by
  simp only [granted, List.any_eq_false, List.any_eq_true, not_exists, not_and]
  intro o ho l hl
  rw [includes_eq_false (houter o ho l hl) h]
  exact Bool.false_ne_true

theorem mem_of_mem_inForce {d : Directive} (h : d ∈ filter.inForce) : d ∈ filter := by
  induction filter with
  | nil => exact h
  | cons a ds ih =>
    rw [Filter.inForce] at h
    split at h
    · exact List.mem_cons_of_mem _ (ih h)
    · obtain rfl | hd := List.mem_cons.mp h
      · exact List.mem_cons_self ..
      · exact List.mem_cons_of_mem _ (ih hd)

theorem mem_of_mem_caring {s : Span} {d : Directive} (h : d ∈ filter.caring s) : d ∈ filter := by
  unfold Filter.caring at h
  split at h
  · exact mem_of_mem_inForce (List.mem_filter.mp h).1
  · cases h

theorem Filter.AsksAtMost.grantAtMost_openSpan (hfilter : filter.AsksAtMost most)
    (houter : GrantAtMost most outer) (s : Span) :
    GrantAtMost most (filter.openSpan outer s :: outer) := by
  refine List.forall_mem_cons.mpr ⟨fun l hl => ?_, houter⟩
  obtain ⟨d, hd, hgrant⟩ := List.mem_filterMap.mp hl
  unfold Directive.grant? at hgrant
  split at hgrant
  · exact hfilter d (mem_of_mem_caring hd) l hgrant
  · cases hgrant

/-- A filter shows no events of more detail than it asks for. -/
theorem Filter.AsksAtMost.linesWithin_eq_nil (hfilter : filter.AsksAtMost most) (trace : List Entry)
    (h : ∀ e, .event e ∈ trace → rank most < rank e.level) (houter : GrantAtMost most outer) :
    linesWithin filter outer trace = [] := by
  induction trace generalizing outer with
  | nil => rfl
  | cons entry rest ih =>
    have hrest : ∀ e, .event e ∈ rest → rank most < rank e.level :=
      fun e he => h e (List.mem_cons_of_mem _ he)
    cases entry with
    | enter s => exact ih hrest (hfilter.grantAtMost_openSpan houter s)
    | leave s produced => exact ih hrest fun o ho => houter o (List.mem_of_mem_tail ho)
    | event e =>
      have hlevel := h e (List.mem_cons_self ..)
      have hshows : filter.shows outer e = false :=
        Bool.or_eq_false_iff.mpr ⟨hfilter.stands_eq_false _ hlevel, houter.granted_eq_false hlevel⟩
      simp only [linesWithin, hshows]
      exact ih hrest houter

theorem Filter.AsksAtMost.text_eq_empty (hfilter : filter.AsksAtMost most) (trace : List Entry)
    (h : ∀ e, .event e ∈ trace → rank most < rank e.level) : text filter trace = "" := by
  have houter : GrantAtMost most [] := fun _ ho => nomatch ho
  rw [text, lines, hfilter.linesWithin_eq_nil trace h houter]
  rfl

end

theorem standard_isQuiet : standard.IsQuiet :=
  fun trace h => Filter.quiet_asksAtMost.text_eq_empty trace h

end Log

namespace CommandLine

variable {Filter : Type}

/-! ### One run, shown in different ways -/

/-- What decides over the log: the flag and the setting of the environment. -/
structure Choice where
  flag : Bool
  setting : Option String

/-- Nothing is asked of the log. -/
def Choice.off : Choice := ⟨false, none⟩

/-- The filter that a choice comes to. -/
def Choice.filter (c : Choice) (writer : Log.Writer Filter) : Filter :=
  Options.logFilter { Options.initial with trace := c.flag } writer c.setting

theorem Choice.filter_off (writer : Log.Writer Filter) : Choice.off.filter writer = writer.quiet := rfl

/-- A run under a choice, with the other options and surroundings as they are. -/
def Options.under (o : Options) (writer : Log.Writer Filter) (c : Choice) (depth : Nat)
    (w : Surroundings) : Option Output :=
  Options.run { o with trace := c.flag } writer depth { w with logSetting := c.setting }

/-- What a run does, whatever is shown of its trace. -/
structure Conduct where
  code : Nat
  stdout : String
  trace : List Entry
  complaint : String

/-- What comes of it with a filter. -/
def Conduct.shown (r : Conduct) (writer : Log.Writer Filter) (filter : Filter) : Output :=
  ⟨r.code, r.stdout, writer.text filter r.trace ++ r.complaint⟩

/-- What a run does at the end of a script. -/
def Options.conclude (o : Options) (trace : List Entry) : Except Failure Value → Conduct
  | .ok v => ⟨0, if o.pipe then v.render ++ "\n" else "", trace, ""⟩
  | .error e => ⟨1, "", trace, e.message ++ "\n"⟩

/-- What a run does, unless calls are nested deeper than `depth`. -/
def Options.conduct (o : Options) (depth : Nat) (w : Surroundings) : Option Conduct :=
  match o.script with
  | none => (Repl.run depth w.input).map fun t => ⟨0, t.output, t.trace, ""⟩
  | some script =>
    match o.source? w script with
    | none => some ⟨1, "", [], unreadable script ++ "\n"⟩
    | some source =>
      let x := execute depth Store.rootFrame Store.root source
      x.outcome.map (o.conclude x.trace)

theorem Options.finish_eq (o : Options) (writer : Log.Writer Filter) (filter : Filter)
    (trace : List Entry) (outcome : Except Failure Value) :
    o.finish (writer.text filter trace) outcome = (o.conclude trace outcome).shown writer filter := by
  cases outcome with
  | ok v => exact congrArg (Output.mk 0 _) String.append_empty.symm
  | error e => exact congrArg (Output.mk 1 "") String.append_assoc

/-- The run is the same under every choice, and the choice filters its trace. -/
theorem Options.under_eq (o : Options) (writer : Log.Writer Filter) (c : Choice) (depth : Nat)
    (w : Surroundings) :
    o.under writer c depth w = (o.conduct depth w).map (·.shown writer (c.filter writer)) := by
  obtain ⟨file, pipe, flag, script⟩ := o
  cases script with
  | none =>
    show (Repl.run depth w.input).map _ = ((Repl.run depth w.input).map _).map _
    rw [Option.map_map]
    exact Option.map_congr fun t _ => congrArg (Output.mk 0 _) String.append_empty.symm
  | some script =>
    -- What is read does not depend on the choice.
    have hread : Options.source? ⟨file, pipe, c.flag, some script⟩ { w with logSetting := c.setting }
        script = Options.source? ⟨file, pipe, flag, some script⟩ w script := rfl
    simp only [under, run, runScript, conduct, hread]
    cases Options.source? ⟨file, pipe, flag, some script⟩ w script with
    | none => exact congrArg (some ∘ Output.mk 1 "") String.append_assoc
    | some source =>
      simp only [Option.map_map]
      exact Option.map_congr fun outcome _ => Options.finish_eq _ _ _ _ outcome

theorem Options.under_eq_some {o : Options} {writer : Log.Writer Filter} {c : Choice} {depth : Nat}
    {w : Surroundings} {x : Output} (h : o.under writer c depth w = some x) :
    ∃ r, o.conduct depth w = some r ∧ r.shown writer (c.filter writer) = x := by
  rw [o.under_eq] at h
  exact Option.map_eq_some_iff.mp h

/-- The value of the script, if it can be read and has one. -/
def Options.value? (o : Options) (depth : Nat) (w : Surroundings) (script : String) :
    Option Value := do
  let source ← o.source? w script
  let outcome ← (execute depth Store.rootFrame Store.root source).outcome
  outcome.toOption

/-- A script without a value gives nothing but a complaint, and one with a value shows it if it
should. -/
theorem Options.conduct_script {o : Options} {depth : Nat} {w : Surroundings} {script : String}
    {r : Conduct} (hscript : o.script = some script) (h : o.conduct depth w = some r) :
    match o.value? depth w script with
    | some v => r.code = 0 ∧ r.stdout = if o.pipe then v.render ++ "\n" else ""
    | none => r.code = 1 ∧ r.stdout = "" := by
  simp only [conduct, hscript] at h
  unfold value?
  cases hsource : o.source? w script with
  | none =>
    rw [hsource] at h
    cases h
    exact ⟨rfl, rfl⟩
  | some source =>
    rw [hsource] at h
    obtain ⟨outcome, houtcome, rfl⟩ := Option.map_eq_some_iff.mp h
    simp only [Option.bind_eq_bind, Option.bind_some, houtcome]
    cases outcome with
    | ok v => exact ⟨rfl, rfl⟩
    | error e => exact ⟨rfl, rfl⟩

/-- What a run shows apart from the error output. -/
def Output.visible (x : Output) : Nat × String := (x.code, x.stdout)

/-- **Tracing is observation only.**

However the log is kept, and whatever is asked of it, the code and the output are the same. What is
written to the error output ends with what is written there when nothing is asked for, if the log is
quiet then. A script ends with code 0 if and only if it can be read and has a value, and the value is
all that is put out, if it is asked for. -/
theorem tracing_observes_only (writer : Log.Writer Filter) (hwriter : writer.IsQuiet) (o : Options)
    (depth : Nat) (w : Surroundings) :
    (∀ c c', (o.under writer c depth w).map Output.visible =
      (o.under writer c' depth w).map Output.visible) ∧
    (∀ c quiet x, o.under writer .off depth w = some quiet → o.under writer c depth w = some x →
      quiet.stderr.toList <:+ x.stderr.toList) ∧
    ∀ script, o.script = some script → ∀ c x, o.under writer c depth w = some x →
      (x.code = 0 ↔ (o.value? depth w script).isSome) ∧
      x.stdout = match o.value? depth w script with
        | some v => if o.pipe then v.render ++ "\n" else ""
        | none => "" := by
  refine ⟨fun c c' => ?_, fun c quiet x hquiet hx => ?_, fun script hscript c x hx => ?_⟩
  · rw [o.under_eq, o.under_eq, Option.map_map, Option.map_map]
    rfl
  · obtain ⟨r, hr, rfl⟩ := Options.under_eq_some hquiet
    obtain ⟨r', hr', rfl⟩ := Options.under_eq_some hx
    cases Option.some.inj (hr.symm.trans hr')
    have hempty : writer.text writer.quiet r.trace = "" :=
      hwriter r.trace fun e _ => Log.rank_warn_lt e
    show (writer.text (Choice.off.filter writer) r.trace ++ r.complaint).toList <:+
      (writer.text (c.filter writer) r.trace ++ r.complaint).toList
    rw [Choice.filter_off, hempty, String.empty_append, String.toList_append]
    exact List.suffix_append _ _
  · obtain ⟨r, hr, rfl⟩ := Options.under_eq_some hx
    have h := Options.conduct_script hscript hr
    cases hvalue : o.value? depth w script with
    | none =>
      rw [hvalue] at h
      exact ⟨⟨fun hcode => (nomatch h.1.symm.trans hcode), fun hsome => (nomatch hsome)⟩, h.2⟩
    | some v =>
      rw [hvalue] at h
      exact ⟨⟨fun _ => rfl, fun _ => h.1⟩, h.2⟩

/-- A name without a value, with the standard log and without. -/
theorem tracing_observes_only_unbound :
    let writer := Log.standard
    let o : Options := ⟨false, true, false, some "x"⟩
    let w : Surroundings := ⟨fun _ => none, [], none⟩
    writer.IsQuiet ∧
    ∃ quiet x, o.under writer .off 1 w = some quiet ∧ o.under writer ⟨true, none⟩ 1 w = some x ∧
      quiet.stderr = "identifier not found: x\n" ∧
      x.stderr = "TRACE quill::interpreter::evaluator::core: eval statement line=1 statement=x\n" ++
        "identifier not found: x\n" ∧
      quiet.stderr.toList <:+ x.stderr.toList ∧ (x.code = 0 ↔ (o.value? 1 w "x").isSome) := by
  intro writer o w
  have hquiet : (o.under writer .off 1 w).map Output.stderr = some "identifier not found: x\n" := by
    decide +kernel
  have hx : (o.under writer ⟨true, none⟩ 1 w).map Output.stderr =
      some ("TRACE quill::interpreter::evaluator::core: eval statement line=1 statement=x\n" ++
        "identifier not found: x\n") := by
    decide +kernel
  obtain ⟨quiet, hquiet, hq⟩ := Option.map_eq_some_iff.mp hquiet
  obtain ⟨x, hx, hxs⟩ := Option.map_eq_some_iff.mp hx
  obtain ⟨_, hsuffix, hscript⟩ := tracing_observes_only writer Log.standard_isQuiet o 1 w
  exact ⟨Log.standard_isQuiet, quiet, x, hquiet, hx, hq, hxs, hsuffix _ quiet x hquiet hx,
    (hscript "x" rfl _ x hx).1⟩

end CommandLine

end LetLang
