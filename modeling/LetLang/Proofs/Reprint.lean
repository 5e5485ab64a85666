import LetLang.Session
import LetLang.Proofs.RoundTrip
import LetLang.Proofs.Simulation

/-! Running a printed program.

Printing a program and reading it back changes nothing but the stored tokens, and evaluation
does not look at them: programs that are equal up to tokens, run in paired frames of
corresponding stores, have corresponding outcomes and leave corresponding stores
(`Program.eval_corresponds`). So a text without errors may be replaced by what its program is
printed as. -/
namespace LetLang

variable {v : Erasure} {R : Pairing}

/-- The same error, or corresponding values that print the same text. -/
inductive Value.SameOutcome (v : Erasure) (R : Pairing) :
    Except Failure Value → Except Failure Value → Prop where
  | value {x y : Value} (h : x.Corresponds v R y) (hrender : x.render = y.render) :
      SameOutcome v R (.ok x) (.ok y)
  | stopped (e : RuntimeError) : SameOutcome v R (.error (.stopped e)) (.error (.stopped e))

/-- Both executions end with the same outcome, or neither ends, and corresponding stores are
left. -/
structure Execution.Corresponds (v : Erasure) (R : Pairing) (x y : Execution) : Prop where
  outcome : Option.Rel (Value.SameOutcome v R) x.outcome y.outcome
  store : x.store.Corresponds v R y.store

theorem Value.Corresponds.sameOutcome (hv : v.KeepsDigits) {x y : Value}
    (h : x.Corresponds v R y) : Value.SameOutcome v R x.outcome y.outcome := by
  have hrender := h.render_eq hv
  cases h with
  | error e => exact .stopped e
  | integer n => exact .value (.integer n) hrender
  | boolean b => exact .value (.boolean b) hrender
  | null => exact .value .null hrender
  | function h => exact .value (.function h) hrender

/-- Programs that are equal up to tokens, the digits of numbers apart, do the same. -/
theorem Program.eval_corresponds (depth : Nat) {p q : Program} (h : p.erase .text = q.erase .text)
    {i j : FrameId} (hij : R.rel i j) {m m' : Machine}
    (hm : m.store.Corresponds .text R m'.store) :
    ∃ R', R ≤ R' ∧
      Option.Rel (Value.Corresponds .text R') (p.eval depth i m).1 (q.eval depth j m').1 ∧
      (p.eval depth i m).2.store.Corresponds .text R' (q.eval depth j m').2.store := by
  obtain ⟨halike, hexist⟩ := Store.corresponds_iff_alike.mp hm
  obtain ⟨R', hgrows, hvalue, hstore⟩ := p.eval_alike depth h hij halike
  have hvalue' := option_rel_mono (fun _ _ => Value.corresponds_iff_alike.mpr) hvalue
  refine ⟨R', hgrows.le, hvalue', Store.corresponds_iff_alike.mpr ⟨hstore, ?_⟩⟩
  intro k l hkl
  obtain hkl | ⟨hk, hl⟩ := hgrows.new hkl
  · obtain ⟨hk, hl⟩ := hexist k l hkl
    exact ⟨Nat.lt_of_lt_of_le hk hgrows.left, Nat.lt_of_lt_of_le hl hgrows.right⟩
  · exact ⟨hk.2, hl.2⟩

/-- A text without errors and its printed program, run in corresponding stores. -/
theorem execute_corresponds {source : String} (h : (parse source).errors = []) (depth : Nat)
    {i j : FrameId} (hij : R.rel i j) {s s' : Store} (hs : s.Corresponds .text R s') :
    ∃ R', R ≤ R' ∧ (execute depth i s source).Corresponds .text R'
      (execute depth j s' (parse source).program.render) := by
  obtain ⟨herrors, hprogram⟩ := parse_render _ (parse_wellFormed source)
  have hsame := (parse source).program.canonical_erase.symm
  obtain ⟨R', hR, houtcome, hstore⟩ := Program.eval_corresponds depth hsame hij
    (show (Machine.on s).store.Corresponds .text R (Machine.on s').store from hs)
  obtain ⟨hx, hxs⟩ := execute_of_errors_eq_nil depth i s h
  obtain ⟨hy, hys⟩ := execute_of_errors_eq_nil depth j s' herrors
  rw [hprogram] at hy hys
  refine ⟨R', hR, ?_, ?_⟩
  · rw [hx, hy]
    exact option_rel_map houtcome fun _ _ hxy => hxy.sameOutcome Erasure.text_keepsDigits
  · rw [hxs, hys]
    exact hstore

/-- **Printing keeps the meaning of a program.** A text without errors and the text that its
program is printed as have the same outcome in two fresh stores, and in any two stores that
correspond; and the stores that they leave correspond again. -/
theorem execute_render (source : String) (h : (parse source).errors = []) (depth : Nat) :
    (∃ R : Pairing, R.rel Store.rootFrame Store.rootFrame ∧
      (execute depth Store.rootFrame .root source).Corresponds .text R
        (execute depth Store.rootFrame .root (parse source).program.render)) ∧
    ∀ (R : Pairing) (i j : FrameId) (s s' : Store), R.rel i j → s.Corresponds .text R s' →
      ∃ R', R ≤ R' ∧ (execute depth i s source).Corresponds .text R'
        (execute depth j s' (parse source).program.render) := by
  refine ⟨?_, fun R i j s s' hij hs => execute_corresponds h depth hij hs⟩
  have hroot : (Pairing.single Store.rootFrame Store.rootFrame).rel Store.rootFrame
    Store.rootFrame := ⟨rfl, rfl⟩
  obtain ⟨R, hR, hcorresponds⟩ := execute_corresponds h depth hroot Store.corresponds_root
  exact ⟨R, hR _ _ hroot, hcorresponds⟩

/-- A function whose body holds a number written with leading zeros, called in fresh stores. -/
theorem execute_render_leadingZeros :
    let source := "let f = fn(x) \x7b (x + 007) \x7d; f(1)"
    let R := Pairing.single Store.rootFrame Store.rootFrame
    (parse source).errors = [] ∧ R.rel Store.rootFrame Store.rootFrame ∧
      Store.root.Corresponds .text R .root ∧
      ∃ R', R ≤ R' ∧ (execute 1 Store.rootFrame .root source).Corresponds .text R'
        (execute 1 Store.rootFrame .root (parse source).program.render) := by
  intro source R
  let t := Token.endOfInput 0
  let body : Expr := .binary t (.identifier ⟨t, "x"⟩) .add (.integer ⟨.int, "007", 1⟩ 7)
  let p : Program := ⟨[.letIn t ⟨t, "f"⟩ (.function t [⟨t, "x"⟩] (.mk t [.expression t body])),
    .expression t (.call t (.identifier ⟨t, "f"⟩) [.integer ⟨.int, "1", 1⟩ 1])]⟩
  have hf : IsName "f" := ⟨⟨'f', [], rfl, rfl, List.all_eq_true.mp rfl⟩, by decide⟩
  have hx : IsName "x" := ⟨⟨'x', [], rfl, rfl, List.all_eq_true.mp rfl⟩, by decide⟩
  have h7 : IsNumeral "007" 7 := ⟨by decide, List.all_eq_true.mp rfl, by decide⟩
  have h1 : IsNumeral "1" 1 := ⟨by decide, List.all_eq_true.mp rfl, by decide⟩
  have hparameters : ∀ i ∈ [(⟨t, "x"⟩ : Identifier)], IsName i.name :=
    List.forall_mem_singleton.mpr hx
  have hp : p.WellFormed :=
    ⟨⟨hf, hparameters, ⟨hx, h7⟩, trivial⟩, ⟨hf, h1, trivial⟩, trivial⟩
  have hsource : p.render = source := by rfl
  have herrors : (parse source).errors = [] := hsource ▸ (parse_render p hp).1
  have hroot : R.rel Store.rootFrame Store.rootFrame := ⟨rfl, rfl⟩
  exact ⟨herrors, hroot, Store.corresponds_root,
    (execute_render source herrors 1).2 R _ _ _ _ hroot Store.corresponds_root⟩

end LetLang
