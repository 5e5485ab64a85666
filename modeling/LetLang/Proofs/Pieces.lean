import LetLang.Proofs.Lines
import LetLang.Proofs.Seams
import LetLang.Proofs.Simulation

/-! Running a text in pieces.

Behind a text that is read without errors and ends with a semicolon, another text is read as if it
stood alone (`parse_seam`). So it is run as if it stood alone, in the store that the first text
leaves: the statements of both are evaluated one after another, and only the lines of the tokens
differ, which nothing evaluates. If the first text does not run to its end, the second one is not
reached; and if the second one has errors, nothing is run at all.

A session runs its lines in the same way. Where every line passes, it ends like the script that is
made of its lines (`Repl.session_ends`). -/
namespace LetLang

/-! ### Up to lines -/

namespace Erasure

/-- Forgets on which lines the tokens stand. -/
def lineless : Erasure := .relined fun _ => 0

theorem lineless_keepsDigits : lineless.KeepsDigits := fun _ => rfl

end Erasure

/-- The same error, or values that are alike. -/
inductive Value.LikeOutcome (v : Erasure) (R : Pairing) :
    Except Failure Value → Except Failure Value → Prop where
  | value {x y : Value} (h : x.Alike v R y) : LikeOutcome v R (.ok x) (.ok y)
  | stopped (e : RuntimeError) : LikeOutcome v R (.error (.stopped e)) (.error (.stopped e))

theorem Value.Alike.outcome {v : Erasure} {R : Pairing} {x y : Value} (h : x.Alike v R y) :
    Value.LikeOutcome v R x.outcome y.outcome := by
  cases h with
  | error e => exact .stopped e
  | integer n => exact .value (.integer n)
  | boolean b => exact .value (.boolean b)
  | null => exact .value .null
  | function h => exact .value (.function h)

/-- Both executions end with the same outcome, or neither ends, and the same bindings are left in
the same frames, up to the lines in the code of functions. -/
structure Execution.SameButLines (x y : Execution) : Prop where
  outcome : Option.Rel (Value.LikeOutcome .lineless .identity) x.outcome y.outcome
  store : x.store.Alike .lineless .identity y.store

/-! ### Statements one after another -/

theorem Statement.evalAll_append (call : Calling) (frame : FrameId) (last : Value)
    (ss ss' : List Statement) :
    Statement.evalAll call frame last (ss ++ ss') =
      Statement.evalAll call frame last ss >>= fun v => Statement.evalAll call frame v ss' := by
  induction ss generalizing last with
  | nil => rfl
  | cons s ss ih => simp only [List.cons_append, Statement.evalAll, bind_assoc, ih]

namespace Program

variable {p : Program} {ss : List Statement} {depth : Nat} {i : FrameId} {s : Store}

/-- Do all statements of the program run, with no error and no `return` among them? -/
def completes (depth : Nat) (i : FrameId) (s : Store) (p : Program) : Bool :=
  match Statement.evalAll (Closure.call depth) i .null p.statements (.on s) with
  | .ok _ _ => true
  | .error _ _ => false

theorem completes_iff : p.completes depth i s ↔
    ∃ v m, Statement.evalAll (Closure.call depth) i .null p.statements (.on s) = .ok v m := by
  unfold completes
  cases Statement.evalAll (Closure.call depth) i .null p.statements (.on s) with
  | ok v m => exact iff_of_true rfl ⟨v, m, rfl⟩
  | error i m => exact iff_of_false nofun nofun

theorem completes_eq_false_iff : p.completes depth i s = false ↔
    ∃ k m, Statement.evalAll (Closure.call depth) i .null p.statements (.on s) = .error k m := by
  unfold completes
  cases Statement.evalAll (Closure.call depth) i .null p.statements (.on s) with
  | ok v m => exact iff_of_false nofun nofun
  | error k m => exact iff_of_true rfl ⟨k, m, rfl⟩

theorem exists_outcome_of_completes (h : p.completes depth i s) :
    ∃ v, (p.eval depth i (.on s)).1 = some v := by
  obtain ⟨v, m, hresult⟩ := completes_iff.mp h
  refine ⟨v, ?_⟩
  rw [eval, hresult]

/-- Statements behind an interruption are not reached. -/
theorem eval_append_of_interrupted (h : p.completes depth i s = false) (ss : List Statement) :
    (mk (p.statements ++ ss)).eval depth i (.on s) = p.eval depth i (.on s) := by
  obtain ⟨k, m, hresult⟩ := completes_eq_false_iff.mp h
  rw [eval, eval, Statement.evalAll_append, Run.bind_apply, hresult]

/-- Statements behind a program that completes are a program of their own. -/
theorem eval_append_of_completes (h : p.completes depth i s) (hss : ss ≠ []) :
    (mk (p.statements ++ ss)).eval depth i (.on s) =
      (mk ss).eval depth i (p.eval depth i (.on s)).2 := by
  obtain ⟨t, ts, rfl⟩ := List.exists_cons_of_ne_nil hss
  obtain ⟨v, m, hresult⟩ := completes_iff.mp h
  unfold eval
  rw [Statement.evalAll_append, Run.bind_apply, hresult]
  rfl

/-- Neither the lines of a program nor the events before it make a difference. -/
theorem eval_relined (g : Nat → Nat) (p : Program) (depth : Nat) (i : FrameId) (m : Machine) :
    let x := (p.erase (.relined g)).eval depth i m
    let y := p.eval depth i (.on m.store)
    Option.Rel (Value.Alike .lineless .identity) x.1 y.1 ∧
      x.2.store.Alike .lineless .identity y.2.store := by
  intro x y
  have herase : (p.erase (.relined g)).erase .lineless = p.erase .lineless :=
    p.erase_erase (.relined g) .lineless
  have halike : m.store.Alike .lineless .identity (Machine.on m.store).store :=
    m.store.alike_refl .lineless
  obtain ⟨R, hgrows, hvalue, hstore⟩ :=
    eval_alike depth herase (show Pairing.identity.rel i i from rfl) halike
  obtain rfl := Pairing.eq_identity hgrows.le
  exact ⟨hvalue, hstore⟩

/-- What stands behind a program that completes is run where that has left off. -/
theorem eval_behind {q : Program} (h : p.completes depth i s) (hq : q.statements ≠ [])
    (g : Nat → Nat) :
    let x := (mk (p.statements ++ Statement.eraseAll (.relined g) q.statements)).eval depth i (.on s)
    let y := q.eval depth i (.on (p.eval depth i (.on s)).2.store)
    Option.Rel (Value.Alike .lineless .identity) x.1 y.1 ∧
      x.2.store.Alike .lineless .identity y.2.store := by
  have hss : Statement.eraseAll (.relined g) q.statements ≠ [] := by
    obtain ⟨t, ts, hts⟩ := List.exists_cons_of_ne_nil hq
    rw [hts]
    exact List.cons_ne_nil _ _
  rw [eval_append_of_completes h hss]
  exact eval_relined g q depth i _

end Program

/-! ### Two texts -/

/-- How `x` comes from running two texts in the store `s` one after another, of which the second
stands `n` lines further down. -/
structure Execution.InPieces (depth : Nat) (i : FrameId) (s : Store) (first second : String)
    (n : Nat) (x : Execution) : Prop where
  /-- If the second text has errors, nothing is run. -/
  malformed : (parse second).errors ≠ [] →
    x.outcome = some (.error (.malformed ((parse second).errors.map (.relined (· + n))))) ∧
      x.store = s
  /-- If the first text ends with an error or a `return`, the second one is not reached. -/
  interrupted : (parse second).errors = [] →
    (parse first).program.completes depth i s = false →
    x.outcome = (execute depth i s first).outcome ∧ x.store = (execute depth i s first).store
  /-- If the second text says nothing, the first one has the last word. -/
  silent : (parse second).errors = [] → (parse first).program.completes depth i s →
    (parse second).program.statements = [] →
    x.outcome = (execute depth i s first).outcome ∧
      x.store = (execute depth i (execute depth i s first).store second).store
  /-- Otherwise the second text is run where the first one has left off. -/
  completed : (parse second).errors = [] → (parse first).program.completes depth i s →
    (parse second).program.statements ≠ [] →
    x.SameButLines (execute depth i (execute depth i s first).store second)

/-- A text that ends with a semicolon is run and then the text on the lines behind it. -/
theorem execute_seam {first : String} (herrors : (parse first).errors = [])
    (hend : Parsing.Ended (TokenStream.ofSource first).tokens) (second : String) (depth : Nat)
    (i : FrameId) (s : Store) :
    (execute depth i s (first ++ "\n" ++ second)).InPieces depth i s first second
      (1 + first.toList.count '\n') := by
  obtain ⟨hstatements, hwhole⟩ := parse_seam herrors hend second
  generalize first ++ "\n" ++ second = whole at hstatements hwhole
  generalize 1 + first.toList.count '\n' = n at hstatements hwhole
  have hprogram : (parse whole).program = ⟨(parse first).program.statements ++
      Statement.eraseAll (.relined (· + n)) (parse second).program.statements⟩ :=
    congrArg Program.mk hstatements
  have hclean (hsecond : (parse second).errors = []) : (parse whole).errors = [] := by
    rw [hwhole, hsecond]
    rfl
  obtain ⟨hx₁, hxs₁⟩ := execute_of_errors_eq_nil depth i s herrors
  refine ⟨fun hsecond => ?_, fun hsecond hcompletes => ?_, fun hsecond _ hnil => ?_,
    fun hsecond hcompletes hne => ?_⟩
  · have hmalformed : (parse whole).errors ≠ [] := by
      rw [hwhole]
      exact fun h => hsecond (List.map_eq_nil_iff.mp h)
    obtain ⟨hx, hxs⟩ := execute_of_errors_ne_nil depth i s hmalformed
    exact ⟨hwhole ▸ hx, hxs⟩
  · obtain ⟨hx, hxs⟩ := execute_of_errors_eq_nil depth i s (hclean hsecond)
    rw [hprogram, Program.eval_append_of_interrupted hcompletes] at hx hxs
    exact ⟨hx.trans hx₁.symm, hxs.trans hxs₁.symm⟩
  · obtain ⟨hx, hxs⟩ := execute_of_errors_eq_nil depth i s (hclean hsecond)
    obtain ⟨_, hxs₂⟩ := execute_of_errors_eq_nil depth i (execute depth i s first).store hsecond
    rw [hprogram, hnil, Statement.eraseAll, List.append_nil] at hx hxs
    rw [Program.eval, hnil] at hxs₂
    exact ⟨hx.trans hx₁.symm, hxs.trans (hxs₁.symm.trans hxs₂.symm)⟩
  · obtain ⟨hx, hxs⟩ := execute_of_errors_eq_nil depth i s (hclean hsecond)
    obtain ⟨hx₂, hxs₂⟩ := execute_of_errors_eq_nil depth i (execute depth i s first).store hsecond
    obtain ⟨hvalue, hstore⟩ := Program.eval_behind hcompletes hne (· + n)
    rw [← hprogram, ← hxs₁] at hvalue hstore
    refine ⟨?_, ?_⟩
    · rw [hx, hx₂]
      exact option_rel_map hvalue fun _ _ hvw => hvw.outcome
    · rw [hxs, hxs₂]
      exact hstore

/-- If both texts are run, the whole text leaves the bindings that they leave. -/
theorem Execution.InPieces.store_alike {depth : Nat} {i : FrameId} {s : Store}
    {first second : String} {n : Nat} {x : Execution} (h : x.InPieces depth i s first second n)
    (hsecond : (parse second).errors = []) (hfirst : (parse first).program.completes depth i s) :
    x.store.Alike .lineless .identity
      (execute depth i (execute depth i s first).store second).store := by
  by_cases hnil : (parse second).program.statements = []
  · rw [(h.silent hsecond hfirst hnil).2]
    exact Store.alike_refl .lineless _
  · exact (h.completed hsecond hfirst hnil).store

/-- Texts with the same program are run in the same way. -/
theorem execute_congr {source source' : String} (h : (parse source).errors = [])
    (h' : (parse source').errors = []) (hprogram : (parse source).program = (parse source').program)
    (depth : Nat) (i : FrameId) (s : Store) :
    (execute depth i s source).outcome = (execute depth i s source').outcome ∧
      (execute depth i s source).store = (execute depth i s source').store := by
  obtain ⟨hx, hxs⟩ := execute_of_errors_eq_nil depth i s h
  obtain ⟨hy, hys⟩ := execute_of_errors_eq_nil depth i s h'
  rw [hprogram] at hx hxs
  exact ⟨hx.trans hy.symm, hxs.trans hys.symm⟩

/-! ### Sessions -/

theorem Value.LikeOutcome.showOutcome_eq {v : Erasure} {R : Pairing} (hv : v.KeepsDigits)
    {x y : Except Failure Value} (h : LikeOutcome v R x y) :
    Repl.showOutcome x = Repl.showOutcome y := by
  cases h with
  | value h =>
    show _ ++ "\n" = _ ++ "\n"
    rw [h.render_eq hv]
  | stopped e => rfl

/-- Executions that are the same but for lines are shown in the same way. -/
theorem Execution.SameButLines.shown_eq {x y : Execution} (h : x.SameButLines y) :
    x.outcome.map Repl.showOutcome = y.outcome.map Repl.showOutcome := by
  match x.outcome, y.outcome, h.outcome with
  | none, none, _ => rfl
  | some a, some b, hab =>
    have hshown := (Option.rel_some_some.mp hab).showOutcome_eq Erasure.lineless_keepsDigits
    exact congrArg some hshown

namespace Repl
open Text.Utf8

/-- The answers to some lines, given one after another. -/
def answers (depth : Nat) (s : Store) : List (List UInt8) → Option (List Answer)
  | [] => some []
  | line :: rest =>
    match answer depth line s with
    | none => none
    | some a => (answers depth a.store rest).map (a :: ·)

/-- The store that the last of some answers leaves. -/
def storeAfter (s : Store) (as : List Answer) : Store := as.foldl (fun _ a => a.store) s

/-- What a session shows is its answers, each behind a prompt, and one more prompt. -/
theorem transcript_output (depth : Nat) (s : Store) (ls : List (List UInt8)) :
    (transcript depth s ls).map Transcript.output =
      (answers depth s ls).map fun as =>
        String.join (as.map fun a => prompt ++ a.text) ++ prompt := by
  induction ls generalizing s with
  | nil => rfl
  | cons line rest ih =>
    rw [transcript, answers]
    cases answer depth line s with
    | none => rfl
    | some a =>
      have hrest := congrArg (Option.map (prompt ++ a.text ++ ·)) (ih a.store)
      simp only [Option.map_map] at hrest ⊢
      refine hrest.trans (congrArg (Option.map · _) (funext fun as => ?_))
      simp only [Function.comp_apply, List.map_cons, String.join_cons, String.append_assoc]

/-- A line without errors that ends with a semicolon, and of which all statements run. -/
structure Passes (depth : Nat) (s : Store) (line : List UInt8) : Prop where
  clean : (parse (decodeLossy line)).errors = []
  ended : ∃ t ∈ (TokenStream.ofSource (decodeLossy line)).tokens.getLast?,
    t.kind = .semicolon
  completes :
    (parse (decodeLossy line)).program.completes depth Store.rootFrame s

/-- Each line passes where the lines before it have left off. -/
def AllPass (depth : Nat) (s : Store) : List (List UInt8) → Prop
  | [] => True
  | line :: rest =>
    Passes depth s line ∧
      AllPass depth (execute depth Store.rootFrame s (decodeLossy line)).store rest

/-- A session from the store `s` ends like the execution `x`: it leaves the same bindings, and its
last answer shows the outcome. -/
structure EndsLike (depth : Nat) (s : Store) (ls : List (List UInt8)) (x : Execution)
    (as : List Answer) : Prop where
  given : answers depth s ls = some as
  length : as.length = ls.length
  store : x.store.Alike .lineless .identity (storeAfter s as)
  last : ∀ a ∈ as.getLast?, x.outcome.map showOutcome = some a.text

section
variable {depth : Nat} {s : Store} {line : List UInt8}

/-- A line that passes is answered by its outcome. -/
theorem Passes.answer_eq (h : Passes depth s line) :
    let x := execute depth Store.rootFrame s (decodeLossy line)
    ∃ a, answer depth line s = some a ∧ a.store = x.store ∧
      x.outcome.map showOutcome = some a.text := by
  intro x
  obtain ⟨hx, _⟩ := execute_of_errors_eq_nil depth Store.rootFrame s h.clean
  obtain ⟨v, hv⟩ := Program.exists_outcome_of_completes h.completes
  rw [hv] at hx
  have hanswer : answer depth line s = x.outcome.map _ := rfl
  have hx' : x.outcome = some v.outcome := hx
  rw [hx'] at hanswer ⊢
  exact ⟨_, hanswer, rfl, rfl⟩

theorem Passes.isEnded (h : Passes depth s line) :
    Parsing.Ended (TokenStream.ofSource (decodeLossy line)).tokens := by
  obtain ⟨t, ht, hkind⟩ := h.ended
  intro u hu
  obtain rfl := Option.some.inj ((Option.mem_def.mp ht).symm.trans (Option.mem_def.mp hu))
  exact hkind

theorem Passes.statements_ne_nil (h : Passes depth s line) :
    (parse (decodeLossy line)).program.statements ≠ [] := by
  obtain ⟨t, ht, _⟩ := h.ended
  intro hnil
  rw [(Parsing.parse_statements_eq_nil_iff h.clean).mp hnil] at ht
  cases ht

variable {bs : List UInt8}

/-- A line that passes does so without its line feed. -/
theorem Passes.without_newline (h : Passes depth s (bs ++ [10])) :
    (parse (decodeLossy bs)).errors = [] ∧
      Parsing.Ended (TokenStream.ofSource (decodeLossy bs)).tokens ∧
      (parse (decodeLossy bs)).program = (parse (decodeLossy (bs ++ [10]))).program := by
  have hclean := h.clean
  have hend := h.isEnded
  rw [decodeLossy_line] at hclean hend ⊢
  exact parse_newline hclean hend

/-- A line that passes, read together with the lines behind it. -/
theorem Passes.parse_append (h : Passes depth s (bs ++ [10])) {rest : List UInt8}
    (hrest : (parse (decodeLossy rest)).errors = []) :
    (parse (decodeLossy (bs ++ 10 :: rest))).errors = [] ∧
      (parse (decodeLossy (bs ++ 10 :: rest))).program.statements ≠ [] := by
  obtain ⟨hfirst, hend, hprogram⟩ := h.without_newline
  obtain ⟨hstatements, herrors⟩ := parse_seam hfirst hend (decodeLossy rest)
  rw [← decodeLossy_newline] at hstatements herrors
  rw [herrors, hrest, hstatements, hprogram]
  exact ⟨rfl, List.append_ne_nil_of_left_ne_nil h.statements_ne_nil _⟩

/-- A line that passes, run together with the lines behind it. -/
theorem Passes.inPieces (h : Passes depth s (bs ++ [10])) (rest : List UInt8) :
    (execute depth Store.rootFrame s (decodeLossy (bs ++ 10 :: rest))).InPieces depth
      Store.rootFrame s (decodeLossy (bs ++ [10])) (decodeLossy rest)
      (1 + (decodeLossy bs).toList.count '\n') := by
  obtain ⟨hfirst, hend, hprogram⟩ := h.without_newline
  obtain ⟨houtcome, hstore⟩ := execute_congr hfirst h.clean hprogram depth Store.rootFrame s
  obtain ⟨hmalformed, hinterrupted, hsilent, hcompleted⟩ :=
    execute_seam hfirst hend (decodeLossy rest) depth Store.rootFrame s
  rw [← decodeLossy_newline] at hmalformed hinterrupted hsilent hcompleted
  rw [hprogram, houtcome, hstore] at hinterrupted hsilent
  rw [hprogram, hstore] at hcompleted
  exact ⟨hmalformed, hinterrupted, hsilent, hcompleted⟩

end

theorem EndsLike.eq_nil_iff {depth : Nat} {s : Store} {input : List UInt8} {x : Execution}
    {as : List Answer} (h : EndsLike depth s (lines input) x as) : as = [] ↔ input = [] := by
  have hlength := h.length
  constructor
  · rintro rfl
    by_contra hinput
    exact lines_ne_nil hinput (List.eq_nil_of_length_eq_zero hlength.symm)
  · rintro rfl
    exact List.eq_nil_of_length_eq_zero hlength

/-- A session ends like the execution of its input if the session without its first line does. -/
theorem EndsLike.cons {depth : Nat} {s : Store} {bs rest : List UInt8} {as : List Answer}
    (hline : Passes depth s (bs ++ [10]))
    (hclean : (parse (decodeLossy rest)).errors = [])
    (hstatements : (parse (decodeLossy rest)).program.statements = [] ↔ rest = [])
    (h :
      let s₁ := (execute depth Store.rootFrame s (decodeLossy (bs ++ [10]))).store
      EndsLike depth s₁ (lines rest) (execute depth Store.rootFrame s₁ (decodeLossy rest)) as) :
    ∃ a, EndsLike depth s ((bs ++ [10]) :: lines rest)
      (execute depth Store.rootFrame s (decodeLossy (bs ++ 10 :: rest))) (a :: as) := by
  have hseam := hline.inPieces rest
  have hstore := (hseam.store_alike hclean hline.completes).trans h.store
  obtain ⟨a, ha, hafter, hshown⟩ := hline.answer_eq
  refine ⟨a, ?_, congrArg (· + 1) h.length, ?_, fun b hb => ?_⟩
  · rw [answers, ha]
    show (answers depth a.store (lines rest)).map (a :: ·) = _
    rw [hafter, h.given]
    rfl
  · rw [← hafter] at hstore
    exact hstore
  · -- The last answer is that of this line only if no line is left.
    by_cases hrest : rest = []
    · rw [h.eq_nil_iff.mpr hrest] at hb
      obtain rfl := Option.some.inj hb
      rw [(hseam.silent hclean hline.completes (hstatements.mpr hrest)).1]
      exact hshown
    · obtain ⟨c, cs, rfl⟩ := List.exists_cons_of_ne_nil (mt h.eq_nil_iff.mp hrest)
      rw [List.getLast?_cons_cons] at hb
      have hsame := hseam.completed hclean hline.completes (mt hstatements.mp hrest)
      rw [hsame.shown_eq]
      exact h.last b hb

/-- A session of no line, and the text that says nothing. -/
theorem endsLike_nil (depth : Nat) (s : Store) :
    EndsLike depth s [] (execute depth Store.rootFrame s "") [] := by
  obtain ⟨herrors, hstatements⟩ := parse_empty
  obtain ⟨_, hstore⟩ := execute_of_errors_eq_nil depth Store.rootFrame s herrors
  rw [Program.eval, hstatements] at hstore
  refine ⟨rfl, rfl, ?_, nofun⟩
  rw [hstore]
  exact s.alike_refl .lineless

/-- A session of one line. -/
theorem EndsLike.single {depth : Nat} {s : Store} {line : List UInt8} (h : Passes depth s line) :
    ∃ a, EndsLike depth s [line] (execute depth Store.rootFrame s (decodeLossy line)) [a] := by
  obtain ⟨a, ha, hstore, hshown⟩ := h.answer_eq
  refine ⟨a, ?_, rfl, ?_, fun b hb => ?_⟩
  · rw [answers, ha]
    rfl
  · rw [← hstore]
    exact a.store.alike_refl .lineless
  · obtain rfl := Option.some.inj hb
    exact hshown

/-- A session of lines that pass ends like the script that is made of them. -/
theorem session_ends (depth : Nat) (s : Store) (input : List UInt8)
    (h : AllPass depth s (lines input)) :
    (parse (decodeLossy input)).errors = [] ∧
      ((parse (decodeLossy input)).program.statements = [] ↔ input = []) ∧
      ∃ as, EndsLike depth s (lines input)
        (execute depth Store.rootFrame s (decodeLossy input)) as := by
  by_cases hinput : input = []
  · rw [hinput, decodeLossy_nil]
    exact ⟨parse_empty.1, iff_of_true parse_empty.2 rfl, [], endsLike_nil depth s⟩
  obtain ⟨bs, rest, hsplit, hlines⟩ | hlines := lines_cases input hinput
  · rw [hlines] at h ⊢
    obtain ⟨hline, hrest⟩ := h
    -- The lines behind the first one are a session of their own, from the store that it leaves.
    have hlength : rest.length < input.length := by
      rw [hsplit, List.length_append, List.length_cons]
      omega
    obtain ⟨hclean, hstatements, as, has⟩ := session_ends depth _ rest hrest
    obtain ⟨herrors, hne⟩ := hline.parse_append hclean
    obtain ⟨a, ha⟩ := EndsLike.cons hline hclean hstatements has
    rw [← hsplit] at herrors hne ha
    exact ⟨herrors, iff_of_false hne hinput, a :: as, ha⟩
  · rw [hlines] at h ⊢
    obtain ⟨hline, _⟩ := h
    obtain ⟨a, ha⟩ := EndsLike.single hline
    exact ⟨hline.clean, iff_of_false hline.statements_ne_nil hinput, [a], ha⟩
termination_by input.length

end Repl

/-- **A text may be run in pieces.** Behind a text without errors that has no token or ends with a
semicolon, another text is read as if it stood alone, but for its lines, and it is run as if it
stood alone, in the store that the first text leaves. So a session in which every line passes ends
like the script that is made of its lines. -/
theorem run_in_pieces :
    (∀ first second : String, (parse first).errors = [] →
      Parsing.Ended (TokenStream.ofSource first).tokens →
      let whole := first ++ "\n" ++ second
      let n := 1 + first.toList.count '\n'
      (parse whole).program.statements = (parse first).program.statements ++
          Statement.eraseAll (.relined (· + n)) (parse second).program.statements ∧
        (parse whole).errors = (parse second).errors.map (.relined (· + n)) ∧
        ∀ (depth : Nat) (i : FrameId) (s : Store),
          (execute depth i s whole).InPieces depth i s first second n) ∧
    ∀ (depth : Nat) (s : Store) (input : List UInt8), Repl.AllPass depth s (Repl.lines input) →
      ∃ as, Repl.EndsLike depth s (Repl.lines input)
          (execute depth Store.rootFrame s (Text.Utf8.decodeLossy input)) as ∧
        (Repl.transcript depth s (Repl.lines input)).map Repl.Transcript.output =
          some (String.join (as.map fun a => Repl.prompt ++ a.text) ++ Repl.prompt) := by
  refine ⟨fun first second herrors hend => ?_, fun depth s input hpass => ?_⟩
  · obtain ⟨hstatements, hwhole⟩ := parse_seam herrors hend second
    exact ⟨hstatements, hwhole, execute_seam herrors hend second⟩
  · obtain ⟨_, _, as, has⟩ := Repl.session_ends depth s input hpass
    refine ⟨as, has, ?_⟩
    rw [Repl.transcript_output, has.given]
    rfl

/-- A function that is called by the text behind it, and a session of two lines. -/
theorem run_in_pieces_called :
    let first := "let f = fn(x) \x7b x + 1 \x7d;"
    let second := "f(\n2);"
    let s₁ := (execute 1 Store.rootFrame .root first).store
    let input := "let a = 2;\na * 21;\n".toUTF8.toList
    (parse first).errors = [] ∧ Parsing.Ended (TokenStream.ofSource first).tokens ∧
      (parse second).errors = [] ∧ (parse first).program.completes 1 Store.rootFrame .root ∧
      (parse second).program.statements ≠ [] ∧
      (execute 1 Store.rootFrame .root (first ++ "\n" ++ second)).SameButLines
        (execute 1 Store.rootFrame s₁ second) ∧
      Repl.AllPass 0 .root (Repl.lines input) ∧
      ∃ as, Repl.EndsLike 0 .root (Repl.lines input)
        (execute 0 Store.rootFrame .root (Text.Utf8.decodeLossy input)) as := by
  intro first second s₁ input
  have herrors : (parse first).errors = [] := by decide +kernel
  have hend : Parsing.Ended (TokenStream.ofSource first).tokens := by
    unfold Parsing.Ended
    decide +kernel
  have hsecond : (parse second).errors = [] := by decide +kernel
  have hcompletes : (parse first).program.completes 1 Store.rootFrame .root := by decide +kernel
  have hstatements : (parse second).program.statements ≠ [] := by decide +kernel
  have hlines : Repl.lines input = ["let a = 2;\n".toUTF8.toList, "a * 21;\n".toUTF8.toList] := by
    decide +kernel
  have hpass : Repl.AllPass 0 .root (Repl.lines input) := by
    rw [hlines]
    refine ⟨⟨?_, ?_, ?_⟩, ⟨?_, ?_, ?_⟩, trivial⟩
    all_goals decide +kernel
  obtain ⟨_, _, hpieces⟩ := run_in_pieces.1 first second herrors hend
  obtain ⟨as, has, _⟩ := run_in_pieces.2 0 .root input hpass
  exact ⟨herrors, hend, hsecond, hcompletes, hstatements,
    (hpieces 1 Store.rootFrame .root).completed hsecond hcompletes hstatements, hpass, as, has⟩

end LetLang
