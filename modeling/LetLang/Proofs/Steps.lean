import LetLang.Parsing.Step

/-! What can be said of a step of reading, whatever it reads.

Two questions are asked of every rule of the grammar. Of what kind is the node, if there is one
(`Gives`)? And what does a step that goes well read (`Reads`)? Each is answered here once for every
way of building a step, so that a statement about all rules is one case for each rule; for `Reads`
the answers are equivalences, which turn a rule into a rule about derivations. A list of items is
read without a gap if the items account for their errors (`Accounts`). -/
namespace LetLang.Parsing

theorem expect_cons (endLine : Nat) (kind : TokenKind) (t : Token) (ts : List Token) :
    expect endLine kind (t :: ts) =
      if t.kind = kind then .past t (.done t) else .fail (.unexpectedToken kind t.kind t.line) :=
  rfl

theorem optionalSemicolon_cons {α : Type} (a : α) (t : Token) (ts : List Token) :
    optionalSemicolon a (t :: ts) = if t.kind = .semicolon then .past t (.done a) else .done a :=
  rfl

namespace Step

variable {α β : Type} {tokens : List Token}

/-! ### The node -/

/-- The node, if there is one, is as `P` says. -/
def Gives (s : Step α tokens) (P : α → Prop) : Prop := ∀ a, s.node = some a → P a

theorem gives_done {P : α → Prop} {a : α} (h : P a) : (done a : Step α tokens).Gives P := by
  intro b hb
  cases hb
  exact h

theorem gives_fail {P : α → Prop} (e : SyntaxError) : (fail e : Step α tokens).Gives P := by
  intro b hb
  cases hb

theorem Gives.past {P : α → Prop} {s : Step α tokens} (h : s.Gives P) (t : Token) :
    (s.past t).Gives P := h

theorem Gives.within {P : α → Prop} {s : Step α tokens} (h : s.Gives P) (span : Span) :
    (s.within span).Gives P := h

theorem Gives.map {P : β → Prop} {f : α → β} {s : Step α tokens}
    (h : s.Gives fun a => P (f a)) : (s.map f).Gives P := by
  intro b hb
  obtain ⟨a, ha, rfl⟩ := Option.map_eq_some_iff.mp hb
  exact h a ha

theorem Gives.andThen {P : α → Prop} {Q : β → Prop} {s : Step α tokens}
    {f : α → (rest : List Token) → rest.length ≤ tokens.length → Step β rest} (hs : s.Gives P)
    (hf : ∀ a rest h, rest <:+ tokens → P a → (f a rest h).Gives Q) : (s.andThen f).Gives Q := by
  intro b hb
  unfold Step.andThen at hb
  split at hb
  · cases hb
  · rename_i a ha
    exact hf a s.rest s.rest_length_le s.rest_suffix (hs a ha) b hb

theorem Gives.collect {P : α → Prop} {Q : List α → Prop} {s : Step α tokens}
    {f : (rest : List Token) → rest.length ≤ tokens.length → Step (List α) rest} (hs : s.Gives P)
    (hf : ∀ rest h, rest <:+ tokens → (f rest h).Gives Q)
    (hcons : ∀ a as, P a → Q as → Q (a :: as)) : (s.collect f).Gives Q := by
  intro bs hbs
  obtain ⟨as, has, rfl⟩ := Option.map_eq_some_iff.mp hbs
  have hQ := hf s.rest s.rest_length_le s.rest_suffix as has
  cases hn : s.node with
  | none => exact hQ
  | some a => exact hcons a as (hs a hn) hQ

theorem Gives.recovering {P : α → Prop} {s : Step α tokens} (h : s.Gives P) :
    s.recovering.Gives P := by
  intro a ha
  unfold Step.recovering at ha
  split at ha
  · exact h a ha
  · cases ha

theorem gives_expect (endLine : Nat) (kind : TokenKind) (tokens : List Token) :
    (expect endLine kind tokens).Gives fun t => t ∈ tokens ∧ t.kind = kind := by
  cases tokens with
  | nil => exact gives_fail _
  | cons t ts =>
    rw [expect_cons]
    split
    · rename_i hk
      exact (gives_done ⟨List.mem_cons_self .., hk⟩).past t
    · exact gives_fail _

theorem gives_optionalSemicolon {P : α → Prop} {a : α} (h : P a) (tokens : List Token) :
    (optionalSemicolon a tokens).Gives P := by
  cases tokens with
  | nil => exact gives_done h
  | cons t ts =>
    rw [optionalSemicolon_cons]
    split
    · exact (gives_done h).past t
    · exact gives_done h

/-! ### Errors -/

/-- Without a node an error is listed. -/
def Accounts (s : Step α tokens) : Prop := s.node = none → s.report.errors ≠ []

/-! ### Steps that go well -/

/-- The step gives `a` and leaves `rest`, and no error is listed. -/
structure Reads (s : Step α tokens) (a : α) (rest : List Token) : Prop where
  node : s.node = some a
  left : s.rest = rest
  clean : s.report.errors = []

/-- A step that lists no error reads something. -/
theorem Accounts.reads {s : Step α tokens} (h : s.Accounts) (hs : s.report.errors = []) :
    ∃ a, s.Reads a s.rest := by
  cases hn : s.node with
  | none => exact absurd hs (h hn)
  | some a => exact ⟨a, hn, rfl, hs⟩

variable {a : α} {b : β} {rest : List Token}

@[simp] theorem reads_done_iff {c : α} :
    (done a : Step α tokens).Reads c rest ↔ c = a ∧ rest = tokens := by
  constructor
  · intro h
    exact ⟨(Option.some.inj h.node).symm, h.left.symm⟩
  · intro h
    obtain ⟨rfl, rfl⟩ := h
    exact ⟨rfl, rfl, rfl⟩

@[simp] theorem reads_fail_iff (e : SyntaxError) :
    (fail e : Step α tokens).Reads a rest ↔ False := by
  constructor
  · intro h
    cases h.node
  · exact False.elim

@[simp] theorem reads_past_iff {s : Step α tokens} (t : Token) :
    (s.past t).Reads a rest ↔ s.Reads a rest :=
  ⟨fun h => ⟨h.node, h.left, h.clean⟩, fun h => ⟨h.node, h.left, h.clean⟩⟩

@[simp] theorem reads_within_iff {s : Step α tokens} (span : Span) :
    (s.within span).Reads a rest ↔ s.Reads a rest :=
  ⟨fun h => ⟨h.node, h.left, h.clean⟩, fun h => ⟨h.node, h.left, h.clean⟩⟩

@[simp] theorem reads_map_iff {s : Step α tokens} {f : α → β} :
    (s.map f).Reads b rest ↔ ∃ a, s.Reads a rest ∧ f a = b := by
  constructor
  · intro h
    obtain ⟨a, ha, hb⟩ := Option.map_eq_some_iff.mp h.node
    exact ⟨a, ⟨ha, h.left, h.clean⟩, hb⟩
  · intro h
    obtain ⟨a, h, rfl⟩ := h
    exact ⟨Option.map_eq_some_iff.mpr ⟨a, h.node, rfl⟩, h.left, h.clean⟩

theorem Reads.rest_suffix {s : Step α tokens} (h : s.Reads a rest) : rest <:+ tokens :=
  h.left ▸ s.rest_suffix

/-- What is left is no longer than what was given. -/
theorem Reads.length_le {s : Step α tokens} (h : s.Reads a rest) : rest.length ≤ tokens.length := by
  rw [← h.left]
  exact s.rest_length_le

@[simp] theorem reads_andThen_iff {s : Step α tokens} {f : α → (rest : List Token) → Step β rest} :
    (s.andThen fun a rest _ => f a rest).Reads b rest ↔
      ∃ a mid, s.Reads a mid ∧ (f a mid).Reads b rest := by
  unfold Step.andThen
  split
  · rename_i hn
    constructor
    · intro h
      cases h.node
    · intro h
      obtain ⟨a, mid, h, _⟩ := h
      rw [h.node] at hn
      cases hn
  · rename_i a hn
    constructor
    · intro h
      obtain ⟨hs, hf⟩ := List.append_eq_nil_iff.mp h.clean
      exact ⟨a, s.rest, ⟨hn, rfl, hs⟩, h.node, h.left, hf⟩
    · intro h
      obtain ⟨a', mid, ⟨hn', rfl, hs⟩, hf⟩ := h
      rw [hn] at hn'
      cases hn'
      exact ⟨hf.node, hf.left, List.append_eq_nil_iff.mpr ⟨hs, hf.clean⟩⟩

/-- Where a step accounts for a missing node, a list without errors misses no item. -/
theorem Accounts.reads_collect_iff {s : Step α tokens} (hs : s.Accounts)
    {f : (rest : List Token) → Step (List α) rest} {as : List α} :
    (s.collect fun rest _ => f rest).Reads as rest ↔
      ∃ a mid bs, s.Reads a mid ∧ (f mid).Reads bs rest ∧ as = a :: bs := by
  constructor
  · intro h
    obtain ⟨hc, hf⟩ := List.append_eq_nil_iff.mp h.clean
    obtain ⟨a, ha⟩ := hs.reads hc
    obtain ⟨bs, hbs, hbs'⟩ := Option.map_eq_some_iff.mp h.node
    rw [ha.node] at hbs'
    exact ⟨a, s.rest, bs, ha, ⟨hbs, h.left, hf⟩, hbs'.symm⟩
  · intro h
    obtain ⟨a, mid, bs, ⟨hn, rfl, hc⟩, hf, rfl⟩ := h
    refine ⟨Option.map_eq_some_iff.mpr ⟨bs, hf.node, ?_⟩, hf.left,
      List.append_eq_nil_iff.mpr ⟨hc, hf.clean⟩⟩
    rw [hn]
    rfl

@[simp] theorem reads_recovering_iff {s : Step α tokens} :
    s.recovering.Reads a rest ↔ s.Reads a rest := by
  unfold Step.recovering
  split
  · rfl
  · rename_i hn
    constructor
    · intro h
      cases h.node
    · intro h
      rw [h.node] at hn
      cases hn

@[simp] theorem reads_expect_iff {endLine : Nat} {kind : TokenKind} {t : Token} :
    (expect endLine kind tokens).Reads t rest ↔ tokens = t :: rest ∧ t.kind = kind := by
  cases tokens with
  | nil => simp [expect]
  | cons u us =>
    rw [expect_cons]
    split
    · rename_i hk
      simp only [reads_past_iff, reads_done_iff, List.cons.injEq]
      constructor
      · intro h
        obtain ⟨rfl, rfl⟩ := h
        exact ⟨⟨rfl, rfl⟩, hk⟩
      · intro h
        obtain ⟨⟨rfl, rfl⟩, _⟩ := h
        exact ⟨rfl, rfl⟩
    · rename_i hk
      simp only [reads_fail_iff, List.cons.injEq, false_iff, not_and]
      intro h
      obtain ⟨rfl, _⟩ := h
      exact hk

end Step

/-! ### Semicolons -/

/-- The tokens behind a semicolon, if they start with one. -/
def dropSemicolon : List Token → List Token
  | [] => []
  | t :: ts => if t.kind = .semicolon then ts else t :: ts

theorem Step.reads_optionalSemicolon_iff {α : Type} {a b : α} {tokens rest : List Token} :
    (optionalSemicolon a tokens).Reads b rest ↔ b = a ∧ rest = dropSemicolon tokens := by
  cases tokens with
  | nil => exact reads_done_iff
  | cons t ts =>
    rw [optionalSemicolon_cons, dropSemicolon]
    split
    · exact (reads_past_iff t).trans reads_done_iff
    · exact reads_done_iff

end LetLang.Parsing
