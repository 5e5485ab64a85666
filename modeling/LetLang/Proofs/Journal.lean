import LetLang.Proofs.Judgements
import LetLang.Proofs.Runs

/-! What evaluation records.

A run puts what it records behind what was recorded before, without a look at it, and records
nothing but statements that are evaluated and functions that are called (`Run.Journals`). Every
single step does so, and a chain of steps does if its steps do; so all evaluation does
(`journalling_rules`, `Closure.call_journals`).

So what the statements of a program record is what each of them records by itself, one after
another, up to the one that ends the program (`Statement.evalAll_inTurn`). -/
namespace LetLang

/-! ### What is recorded -/

/-- The machine with more recorded before. -/
def Machine.behind (m : Machine) (earlier : Array Event) : Machine :=
  ⟨m.store, earlier ++ m.events⟩

namespace Run

variable {α β : Type} {Q : α → Prop} {Q' : β → Prop}

/-- A result with more recorded before. -/
def behind (earlier : Array Event) :
    EStateM.Result Interrupt Machine α → EStateM.Result Interrupt Machine α
  | .ok a m => .ok a (m.behind earlier)
  | .error i m => .error i (m.behind earlier)

theorem behind_behind (earlier earliest : Array Event)
    (x : EStateM.Result Interrupt Machine α) :
    behind earliest (behind earlier x) = behind (earliest ++ earlier) x := by
  cases x <;> simp only [behind, Machine.behind, Array.append_assoc]

/-- The run does the same whatever was recorded before, and records nothing but steps of
evaluation; a result is as `Q` says. -/
structure Journals (Q : α → Prop) (r : Run α) : Prop where
  result : ∀ {m a m'}, r m = .ok a m' → Q a
  blind : ∀ m, r m = behind m.events (r (.on m.store))
  steps : ∀ s, ∀ e ∈ (r.after (.on s)).events, e.isStep

/-- What is recorded stands behind what was recorded before. -/
theorem Journals.after_eq {r : Run α} (h : r.Journals Q) (m : Machine) :
    r.after m = (r.after (.on m.store)).behind m.events := by
  unfold after
  rw [h.blind m]
  cases r (.on m.store) <;> rfl

theorem behind_on (m : Machine) : (Machine.on m.store).behind m.events = m := by
  simp only [Machine.behind, Machine.on, Array.append_empty]

/-- A run that changes no more than the store. -/
theorem journals_of_quiet {r : Run α} (hresult : ∀ {m a m'}, r m = .ok a m' → Q a)
    (h : ∀ m, r m = behind m.events (r (.on m.store)))
    (hquiet : ∀ s, (r.after (.on s)).events = #[]) : r.Journals Q := by
  refine ⟨hresult, h, fun s e he => ?_⟩
  rw [hquiet s] at he
  exact absurd he (Array.not_mem_empty e)

theorem journals_pure {a : α} (ha : Q a) : (pure a : Run α).Journals Q := by
  refine journals_of_quiet (fun h => ?_) (fun m => ?_) fun _ => rfl
  · cases h
    exact ha
  · exact congrArg (EStateM.Result.ok a) (behind_on m).symm

theorem journals_throw (i : Interrupt) : (throw i : Run α).Journals Q :=
  journals_of_quiet nofun (fun m => congrArg (EStateM.Result.error i) (behind_on m).symm) fun _ => rfl

theorem journals_record {e : Event} (he : e.isStep) : (record e).Journals fun _ => True := by
  refine ⟨fun _ => trivial, fun m => ?_, fun s e' he' => ?_⟩
  · show EStateM.Result.ok () (Machine.mk m.store (m.events.push e)) =
      .ok () (Machine.mk m.store (m.events ++ #[e]))
    rw [Array.push_eq_append]
  · cases List.mem_singleton.mp he'.val
    exact he

theorem journals_lookup (frame : FrameId) (name : String) :
    (lookup frame name).Journals fun _ => True := by
  refine journals_of_quiet (fun _ => trivial) (fun m => ?_) fun s => ?_
  · have hstore : (Machine.on m.store).store = m.store := rfl
    rw [lookup_apply, lookup_apply, hstore]
    cases m.store.lookup frame name with
    | some v => exact congrArg (EStateM.Result.ok v) (behind_on m).symm
    | none => exact congrArg (EStateM.Result.error _) (behind_on m).symm
  · unfold after
    rw [lookup_apply]
    cases (Machine.on s).store.lookup frame name <;> rfl

/-- A run that does nothing but change the store. -/
theorem journals_modifyGet (f : Store → α × Store) :
    (modifyGet fun m => ((f m.store).1, { m with store := (f m.store).2 }) : Run α).Journals
      fun _ => True := by
  refine journals_of_quiet (fun _ => trivial) (fun m => ?_) fun s => rfl
  show EStateM.Result.ok (f m.store).1 (Machine.mk (f m.store).2 m.events) =
    .ok (f m.store).1 (Machine.mk (f m.store).2 (m.events ++ #[]))
  rw [Array.append_empty]

theorem Journals.bind {r : Run α} {f : α → Run β} (hr : r.Journals Q)
    (hf : ∀ a, Q a → (f a).Journals Q') : (r >>= f).Journals Q' := by
  refine ⟨fun {m b m'} h => ?_, fun m => ?_, fun s e he => ?_⟩
  · rw [bind_apply] at h
    cases hresult : r m with
    | ok a m' =>
      rw [hresult] at h
      exact (hf a (hr.result hresult)).result h
    | error i m' =>
      rw [hresult] at h
      cases h
  · rw [bind_apply, bind_apply, hr.blind m]
    cases hresult : r (.on m.store) with
    | ok a m' =>
      have hfa := hf a (hr.result hresult)
      show f a (m'.behind m.events) = behind m.events (f a m')
      rw [hfa.blind, hfa.blind m', behind_behind]
      rfl
    | error i m' => rfl
  · have hsteps := hr.steps s
    unfold after at hsteps
    rw [after_bind] at he
    cases hresult : r (.on s) with
    | ok a m' =>
      have hfa := hf a (hr.result hresult)
      rw [hresult] at he hsteps
      change e ∈ ((f a).after m').events at he
      rw [hfa.after_eq] at he
      obtain he | he := Array.mem_append.mp he
      · exact hsteps e he
      · exact hfa.steps m'.store e he
    | error i m' =>
      rw [hresult] at he hsteps
      exact hsteps e he

theorem Journals.catchReturn {r : Run Value} (h : r.Journals fun _ => True) :
    (catchReturn r).Journals fun _ => True := by
  refine ⟨fun _ => trivial, fun m => ?_, fun s => ?_⟩
  · rw [catchReturn_apply, catchReturn_apply, h.blind m]
    cases r (.on m.store) with
    | ok v m' => rfl
    | error i m' => cases i <;> rfl
  · rw [after_catchReturn]
    exact h.steps s

/-- The judgement that a run journals, whatever it writes. -/
abbrev journalling : Judgement := fun n Q r _ => r.Journals (Q n)

end Run

theorem journalling_rules (frame : FrameId) :
    Rules .none frame 0 Run.journalling fun _ _ => True where
  pure h := Run.journals_pure (h _ (Nat.le_refl _))
  bind hr hf := hr.bind fun a ha => hf a _ (Nat.le_refl _) ha
  record := Run.journals_record
  integer _ := trivial
  boolean _ := trivial
  null := trivial
  mono _ _ := trivial
  fail _ := Run.journals_throw _
  lookup {_ i} _ _ := Run.journals_lookup frame i.name
  function {_ _ ps b} _ _ := Run.journals_modifyGet fun s =>
    (Value.function ⟨s.functions, ps, b, frame⟩, { s with functions := s.functions + 1 })
  define {_ _ i _ v} _ _ _ := Run.journals_modifyGet fun s => ((), s.define frame i.name v)
  returned _ _ _ := Run.journals_throw _

/-- Calls journal, at any depth. -/
theorem Closure.call_journals (depth : Nat) :
    Calling.Obeys Run.journalling (fun _ _ => True) (Closure.call depth) (Closure.writes depth) := by
  refine Closure.call_obeys (fun _ _ => Run.journals_throw _) (fun g => ?_)
    (fun {call log} hcall g vs n _ _ => ?_) depth
  · exact (Run.journals_record rfl).bind fun _ _ => Run.journals_throw _
  · have hframe : (Run.newFrame (.ofCall g vs)).Journals fun _ => True :=
      Run.journals_modifyGet fun s => (s.frames.size, s.push (.ofCall g vs))
    refine (Run.journals_record rfl).bind fun _ _ => hframe.bind fun i _ => ?_
    exact ((journalling_rules i).block hcall (Nat.zero_le n) g.body trivial).catchReturn

/-! ### Statements in turn -/

section
variable (depth : Nat) (frame : FrameId)

/-- The statements `ss` are evaluated one after another, the first one in the store `s`, and the
events of each, when it is evaluated by itself, are the next of `parts`. They begin with the statement
itself. Each statement but the last in `parts` ends with a value; a last one that does not returns or
fails, and if it does end with a value no statement is left. -/
inductive InTurn : (s : Store) → (ss : List Statement) → (parts : List (List Event)) → Prop where
  | done (s : Store) : InTurn s [] []
  | next {s st ss v m own parts} (h : st.eval (Closure.call depth) frame (.on s) = .ok v m)
    (hevents : m.events.toList = .evaluating st :: own) (hrest : InTurn m.store ss parts) :
    InTurn s (st :: ss) ((.evaluating st :: own) :: parts)
  | returned {s st ss v m own}
    (h : st.eval (Closure.call depth) frame (.on s) = .error (.returned v) m)
    (hevents : m.events.toList = .evaluating st :: own) : InTurn s (st :: ss) [.evaluating st :: own]
  | failed {s st ss e m own}
    (h : st.eval (Closure.call depth) frame (.on s) = .error (.failed e) m)
    (hevents : m.events.toList = .evaluating st :: own) : InTurn s (st :: ss) [.evaluating st :: own]

/-- What a statement records begins with the statement. -/
theorem Statement.eval_begins (st : Statement) (s : Store) :
    ∃ own, ((st.eval (Closure.call depth) frame).after (.on s)).events.toList =
      .evaluating st :: own := by
  obtain ⟨r, l, heval, _, hr⟩ :=
    (journalling_rules frame).content (Closure.call_journals depth) st trivial
  rw [heval, Run.after_bind]
  show ∃ own, (r.after (Machine.mk s #[.evaluating st])).events.toList = _
  rw [(hr 0 (Nat.le_refl 0)).after_eq]
  exact ⟨_, Array.toList_append⟩

theorem Statement.evalAll_journals (last : Value) (ss : List Statement) :
    (Statement.evalAll (Closure.call depth) frame last ss).Journals fun _ => True :=
  (journalling_rules frame).statements (Closure.call_journals depth) (Nat.le_refl 0) last trivial
    ss trivial

/-- What a list of statements records is what they record in turn. -/
theorem Statement.evalAll_inTurn (last : Value) (ss : List Statement) (s : Store)
    (h : ∀ m, Statement.evalAll (Closure.call depth) frame last ss (.on s) ≠ .error .exhausted m) :
    ∃ parts, InTurn depth frame s ss parts ∧
      ((Statement.evalAll (Closure.call depth) frame last ss).after (.on s)).events.toList =
        parts.flatten := by
  induction ss generalizing s last with
  | nil =>
    refine ⟨[], .done s, ?_⟩
    rw [Statement.evalAll]
    rfl
  | cons st ss ih =>
    obtain ⟨own, hbegins⟩ := st.eval_begins depth frame s
    rw [Statement.evalAll, Run.after_bind]
    simp only [Statement.evalAll, Run.bind_apply] at h
    unfold Run.after at hbegins
    cases hst : st.eval (Closure.call depth) frame (.on s) with
    | ok v m =>
      rw [hst] at h hbegins
      have hrest := Statement.evalAll_journals depth frame v ss
      obtain ⟨parts, hparts, hevents⟩ := ih v m.store fun m' hm' => by
        refine h (m'.behind m.events) ?_
        show Statement.evalAll (Closure.call depth) frame v ss m = _
        rw [hrest.blind, hm']
        rfl
      refine ⟨_, .next hst hbegins hparts, ?_⟩
      show ((Statement.evalAll _ frame v ss).after m).events.toList = _
      rw [hrest.after_eq]
      show (m.events ++ _).toList = _
      rw [Array.toList_append, hevents, List.flatten_cons]
      exact congrArg (· ++ parts.flatten) hbegins
    | error i m =>
      rw [hst] at h hbegins
      cases i with
      | returned v => exact ⟨_, .returned hst hbegins, hbegins.trans (List.append_nil _).symm⟩
      | failed e => exact ⟨_, .failed hst hbegins, hbegins.trans (List.append_nil _).symm⟩
      | exhausted => exact absurd rfl (h m)

end

end LetLang
