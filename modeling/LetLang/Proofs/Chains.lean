import LetLang.Proofs.Lookahead

/-! Expressions as chains of operands.

However an expression is derived, its tokens are a chain: operands with binary operators
between them, where an operand is an application behind any number of unary operators, and an
application is an atom or a group behind which any number of argument lists stand. Chains are
closed under whatever the grammar does with expressions, and also under running on into the
next one, if that starts with a minus or with a parenthesis (`Chain.merge`).

Reading takes a chain apart by precedence and puts it together in its own way, but in front of
something that ends it, it takes all of it (`Chain.reads`). Each of the relations below holds
between the tokens in front of something and the tokens behind it. -/
namespace LetLang.Parsing
open Step

/-- The kinds of the first token of an atom. -/
def startsAtom : List TokenKind := [.identifier, .int, .trueWord, .falseWord, .ifWord, .fnWord]

section
variable (endLine : Nat)

/-- An atom or a group, and argument lists behind it. -/
inductive Application : List Token → List Token → Prop where
  | atom {t : Token} {ts rest : List Token} (ht : t.kind ∈ startsAtom)
      (h : NoElse rest → ∃ e, (operand endLine t ts).Reads e rest) : Application (t :: ts) rest
  | group {t u : Token} {ts rest : List Token} (ht : t.kind = .leftParen)
      (hu : u.kind = .rightParen)
      (h : ∃ e, (expression endLine .lowest ts).Reads e (u :: rest)) : Application (t :: ts) rest
  | call {t : Token} {tokens ts rest : List Token} (hf : Application tokens (t :: ts))
      (ht : t.kind = .leftParen) (h : ∃ es, (arguments endLine ts).Reads es rest) :
      Application tokens rest

/-- Unary operators, and an application behind them. -/
inductive Operand : List Token → List Token → Prop where
  | application {tokens rest : List Token} (h : Application endLine tokens rest) :
      Operand tokens rest
  | unary {t : Token} {op : UnaryOp} {ts rest : List Token} (ht : t.kind.unaryOp? = some op)
      (h : Operand ts rest) : Operand (t :: ts) rest

/-- Operands with binary operators between them. -/
inductive Chain : List Token → List Token → Prop where
  | operand {tokens rest : List Token} (h : Operand endLine tokens rest) : Chain tokens rest
  | binary {t : Token} {op : BinaryOp} {tokens ts rest : List Token} (hl : Chain tokens (t :: ts))
      (ht : t.kind.binaryOp? = some op) (hr : Operand endLine ts rest) : Chain tokens rest

/-- What a chain in front of `rest` holds behind its first operand. -/
inductive Tail (rest : List Token) : List Token → Prop where
  | nil : Tail rest rest
  | cons {t : Token} {op : BinaryOp} {ts mid : List Token} (ht : t.kind.binaryOp? = some op)
      (h : Operand endLine ts mid) (hs : Tail rest mid) : Tail rest (t :: ts)

end

section
variable {endLine : Nat} {t : Token} {tokens ts rest : List Token}

/-! ### The first token -/

theorem Application.head (h : Application endLine tokens rest) :
    ∃ t ts, tokens = t :: ts ∧ (t.kind = .leftParen ∨ t.kind ∈ startsAtom) := by
  induction h with
  | atom ht _ => exact ⟨_, _, rfl, .inr ht⟩
  | group ht _ _ => exact ⟨_, _, rfl, .inl ht⟩
  | call _ _ _ ih => exact ih

theorem mem_startsOperand_of_unaryOp? {k : TokenKind} {op : UnaryOp} (h : k.unaryOp? = some op) :
    k ∈ startsOperand := by
  cases k <;> first | decide | cases h

theorem Operand.head (h : Operand endLine tokens rest) :
    ∃ t ts, tokens = t :: ts ∧ t.kind ∈ startsOperand := by
  cases h with
  | application h =>
    obtain ⟨t, ts, htokens, ht⟩ := h.head
    refine ⟨t, ts, htokens, ?_⟩
    revert ht
    cases t.kind <;> decide
  | unary ht _ => exact ⟨_, _, rfl, mem_startsOperand_of_unaryOp? ht⟩

theorem Chain.head (h : Chain endLine tokens rest) :
    ∃ t ts, tokens = t :: ts ∧ t.kind ∈ startsOperand := by
  induction h with
  | operand h => exact h.head
  | binary _ _ _ ih => exact ih

/-! ### Closure -/

theorem Operand.call {mid : List Token} (h : Operand endLine tokens mid) (hmid : mid = t :: ts)
    (ht : t.kind = .leftParen) (hes : ∃ es, (arguments endLine ts).Reads es rest) :
    Operand endLine tokens rest := by
  induction h with
  | application h =>
    subst hmid
    exact .application (.call h ht hes)
  | unary hop _ ih => exact .unary hop (ih hmid)

/-- The last operand of a chain takes an argument list. -/
theorem Chain.call (h : Chain endLine tokens (t :: ts)) (ht : t.kind = .leftParen)
    (hes : ∃ es, (arguments endLine ts).Reads es rest) : Chain endLine tokens rest := by
  cases h with
  | operand h => exact .operand (h.call rfl ht hes)
  | binary hl hop hr => exact .binary hl hop (hr.call rfl ht hes)

/-- The first operand of a chain takes a unary operator. -/
theorem Chain.unary (h : Chain endLine ts rest) {op : UnaryOp} (ht : t.kind.unaryOp? = some op) :
    Chain endLine (t :: ts) rest := by
  induction h with
  | operand h => exact .operand (.unary ht h)
  | binary _ hop hr ih => exact .binary ih hop hr

/-- Two chains with a binary operator between them are one. -/
theorem Chain.join {op : BinaryOp} (h : Chain endLine tokens (t :: ts))
    (ht : t.kind.binaryOp? = some op) (h' : Chain endLine ts rest) :
    Chain endLine tokens rest := by
  induction h' with
  | operand hr => exact .binary h ht hr
  | binary _ hop hr ih => exact .binary (ih h) hop hr

/-- An expression does not start with a closing parenthesis. -/
theorem Step.Reads.nextIs_rightParen {p : Precedence} {e : Expr}
    (h : (expression endLine p tokens).Reads e rest) : nextIs .rightParen tokens = false := by
  match tokens, h with
  | [], _ => rfl
  | t :: ts, h =>
    refine beq_false_of_ne fun ht => ?_
    obtain ⟨left, mid, hleft, _⟩ := expression_reads_iff.mp h
    rw [operand] at hleft
    simp only [ht, reads_fail_iff] at hleft

/-- An expression in parentheses is an argument list. -/
theorem group_arguments {u : Token} (hu : u.kind = .rightParen) {e : Expr}
    (h : (expression endLine .lowest tokens).Reads e (u :: rest)) :
    (arguments endLine tokens).Reads [e] rest := by
  have hend : (moreArguments endLine (u :: rest)).Reads [] rest := by
    refine (moreArguments_end_reads_iff (forall_head?_cons ?_ rest)).mpr ⟨u, rfl, hu, rfl⟩
    rw [hu]
    decide
  exact (arguments_cons_reads_iff h.nextIs_rightParen).mpr ⟨e, _, [], h, hend, rfl⟩

theorem Application.merge {mid : List Token} (h : Chain endLine tokens mid)
    (h' : Application endLine mid rest) (hhead : ∀ u ∈ mid.head?, u.kind = .leftParen) :
    Chain endLine tokens rest := by
  induction h' with
  | atom ht _ =>
    rw [hhead _ rfl] at ht
    exact absurd ht (by decide)
  | group ht hu he =>
    obtain ⟨e, he⟩ := he
    exact h.call ht ⟨[e], group_arguments hu he⟩
  | call _ ht hes ih => exact (ih h hhead).call ht hes

/-- A chain runs on into the next one, if that starts with a minus or with a parenthesis. -/
theorem Chain.merge {mid : List Token} (h : Chain endLine tokens mid)
    (h' : Chain endLine mid rest)
    (hhead : ∀ u ∈ mid.head?, u.kind = .minus ∨ u.kind = .leftParen) :
    Chain endLine tokens rest := by
  induction h' with
  | operand hoperand =>
    cases hoperand with
    | application happlication =>
      refine happlication.merge h ?_
      obtain ⟨u, us, rfl, hu⟩ := happlication.head
      refine forall_head?_cons ?_ us
      obtain hminus | hparen := hhead u rfl
      · rw [hminus] at hu
        exact absurd hu (by decide)
      · exact hparen
    | @unary t op ts _ hop hoperand =>
      have hminus : t.kind.binaryOp? = some .sub := by
        obtain hminus | hparen := hhead _ rfl
        · rw [hminus]
          rfl
        · rw [hparen] at hop
          cases hop
      exact .binary h hminus hoperand
  | binary _ hop hr ih => exact .binary (ih h hhead) hop hr

/-! ### Reading -/

/-- An application is read as a whole, and reading goes on with the operators behind it. -/
theorem Application.reads (h : Application endLine tokens rest) (hrest : NoElse rest)
    {p : Precedence} (hp : p < .call) :
    rest.length ≤ tokens.length ∧ ∃ left, ∀ e last,
      (operators endLine p left rest).Reads e last →
        (expression endLine p tokens).Reads e last := by
  induction h with
  | atom _ h =>
    obtain ⟨e, he⟩ := h hrest
    exact ⟨Nat.le_succ_of_le he.length_le, e, fun _ _ h => expression_reads_iff.mpr ⟨e, _, he, h⟩⟩
  | group ht hu h =>
    obtain ⟨e, he⟩ := h
    have hgroup := (operand_group_reads_iff ht).mpr ⟨_, he, hu⟩
    exact ⟨Nat.le_succ_of_le hgroup.length_le, e,
      fun _ _ h => expression_reads_iff.mpr ⟨e, _, hgroup, h⟩⟩
  | @call t tokens ts rest _ ht hes ih =>
    obtain ⟨es, hes⟩ := hes
    have hnoElse : t.kind ≠ .elseWord := by
      rw [ht]
      decide
    obtain ⟨hlength, f, hf⟩ := ih (noElse_cons hnoElse ts)
    have hlength' : rest.length ≤ ts.length := hes.length_le
    refine ⟨by simp only [List.length_cons] at hlength; omega, .call t f es, fun e last h => ?_⟩
    exact hf e last ((operators_call_reads_iff ht hp).mpr ⟨es, _, hes, h⟩)

/-- In front of what binds less tight than a unary operator, so is an operand. -/
theorem Operand.reads (h : Operand endLine tokens rest) (hrest : NoElse rest)
    (hunary : ∀ u ∈ rest.head?, ¬ .unary < u.kind.precedence) {p : Precedence}
    (hp : p < .call) :
    rest.length ≤ tokens.length ∧ ∃ left, ∀ e last,
      (operators endLine p left rest).Reads e last →
        (expression endLine p tokens).Reads e last := by
  induction h generalizing p with
  | application h => exact h.reads hrest hp
  | unary ht _ ih =>
    obtain ⟨hlength, e, he⟩ := ih hrest hunary (show Precedence.unary < .call by decide)
    have hoperand := he e _ ((operators_done_reads_iff hunary).mpr ⟨rfl, rfl⟩)
    have hleft := (operand_unary_reads_iff ht).mpr ⟨e, hoperand, rfl⟩
    exact ⟨Nat.le_succ_of_le hlength, _, fun _ _ h => expression_reads_iff.mpr ⟨_, _, hleft, h⟩⟩

theorem Tail.snoc {op : BinaryOp} (h : Tail endLine (t :: ts) tokens)
    (ht : t.kind.binaryOp? = some op) (hr : Operand endLine ts rest) :
    Tail endLine rest tokens := by
  induction h with
  | nil => exact .cons ht hr .nil
  | cons hop ho _ ih => exact .cons hop ho ih

/-- A chain is an operand with a tail. -/
theorem Chain.split (h : Chain endLine tokens rest) :
    ∃ mid, Operand endLine tokens mid ∧ Tail endLine rest mid := by
  induction h with
  | operand h => exact ⟨_, h, .nil⟩
  | binary _ ht hr ih =>
    obtain ⟨mid, hmid, htail⟩ := ih
    exact ⟨mid, hmid, htail.snoc ht hr⟩

/-- A tail starts with a binary operator, or with what ends it. -/
theorem Tail.follows (h : Tail endLine rest tokens) (hrest : Ends rest) :
    NoElse tokens ∧ ∀ u ∈ tokens.head?, ¬ .unary < u.kind.precedence := by
  cases h with
  | nil =>
    refine ⟨hrest.noElse, fun u hu => ?_⟩
    rw [hrest.lowest u hu]
    decide
  | @cons t op ts mid ht _ _ =>
    have hnoElse : t.kind ≠ .elseWord := by
      intro helse
      rw [helse] at ht
      cases ht
    exact ⟨noElse_cons hnoElse ts, forall_head?_cons (not_unary_lt_of_binaryOp? ht) ts⟩

/-- Reading the operators of a tail stops at a place where the tail can be cut, in front of an
operator that does not bind tight enough. -/
theorem Tail.reads (tokens : List Token) (h : Tail endLine rest tokens) (hrest : Ends rest)
    (p : Precedence) (left : Expr) :
    ∃ e last, (operators endLine p left tokens).Reads e last ∧ Tail endLine rest last ∧
      ∀ u ∈ last.head?, ¬ p < u.kind.precedence := by
  cases h with
  | nil =>
    refine ⟨left, rest, hrest.operators_reads endLine p left, .nil, fun u hu => ?_⟩
    rw [hrest.lowest u hu]
    exact Precedence.not_lt_lowest p
  | @cons t op ts mid ht hoperand hs =>
    by_cases hp : p < t.kind.precedence
    · obtain ⟨hnoElse, hunary⟩ := hs.follows hrest
      obtain ⟨hlength, right, hright⟩ := hoperand.reads hnoElse hunary (lt_call_of_binaryOp? ht)
      -- The right operand takes the operators that bind tighter, and leaves a shorter tail.
      obtain ⟨e, last, he, htail, _⟩ := Tail.reads mid hs hrest t.kind.precedence right
      have hlast := (hright e last he).length_le
      obtain ⟨e', last', he', htail', hbound⟩ :=
        Tail.reads last htail hrest p (.binary t left op e)
      exact ⟨e', last', (operators_binary_reads_iff ht hp).mpr ⟨e, last, hright e last he, he'⟩,
        htail', hbound⟩
    · have hhead : ∀ u ∈ (t :: ts).head?, ¬ p < u.kind.precedence := forall_head?_cons hp ts
      exact ⟨left, t :: ts, (operators_done_reads_iff hhead).mpr ⟨rfl, rfl⟩, .cons ht hoperand hs,
        hhead⟩
termination_by tokens.length

/-- In front of what ends it, a chain is read as a whole. -/
theorem Chain.reads (h : Chain endLine tokens rest) (hrest : Ends rest) :
    ∃ e, (expression endLine .lowest tokens).Reads e rest := by
  obtain ⟨mid, hoperand, htail⟩ := h.split
  obtain ⟨hnoElse, hunary⟩ := htail.follows hrest
  have hcall : Precedence.lowest < .call := by decide
  obtain ⟨_, left, hleft⟩ := hoperand.reads hnoElse hunary hcall
  obtain ⟨e, last, he, hlast, hbound⟩ := htail.reads mid hrest .lowest left
  cases hlast with
  | nil => exact ⟨e, hleft e _ he⟩
  | cons ht _ _ => exact absurd (lowest_lt_of_binaryOp? ht) (hbound _ rfl)

end

end LetLang.Parsing
