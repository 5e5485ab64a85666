import LetLang.Proofs.Extension

/-! Operands, told without the rules of the grammar.

An operand is a primary with any number of argument lists behind it and any number of unary
operators in front of it. Its tree is said of its tokens directly: argument lists are applied from
left to right, and unary operators outside of them from right to left (`Operand`). What stands in
parentheses, between commas, or in a conditional or a function is what it is when it is read alone
(`IsExpression`).

Between operators, operands are read as just that (`Operand.reads`). -/
namespace LetLang

open Parsing Step

/-- Read alone, the tokens are one expression: there are no errors, the one statement is the
expression, and no semicolon ends it. -/
def IsExpression (tokens : List Token) (e : Expr) : Prop :=
  ∃ (t : Token) (endLine : Nat), (TokenStream.mk tokens endLine).parse.errors = [] ∧
    (TokenStream.mk tokens endLine).parse.program.statements = [.expression t e] ∧
    ∀ u ∈ tokens.getLast?, u.kind ≠ .semicolon

namespace Operations

/-! ### Operands -/

/-- The tokens are a primary with this tree. -/
inductive Primary : List Token → Expr → Prop where
  | identifier {t : Token} (ht : t.kind = .identifier) : Primary [t] (.identifier (.ofToken t))
  | integer {t : Token} {n : Int64} (ht : t.kind = .int)
    (hn : Nat.ofDigitChars 10 t.literal.toList 0 = n.toInt) : Primary [t] (.integer t n)
  | trueWord {t : Token} (ht : t.kind = .trueWord) : Primary [t] (.boolean t true)
  | falseWord {t : Token} (ht : t.kind = .falseWord) : Primary [t] (.boolean t false)
  | group {t u : Token} {ts : List Token} {e : Expr} (ht : t.kind = .leftParen)
    (h : IsExpression ts e) (hu : u.kind = .rightParen) : Primary (t :: (ts ++ [u])) e
  | ifThen {t : Token} {ts : List Token} {c : Expr} {b : Block} (ht : t.kind = .ifWord)
    (h : IsExpression (t :: ts) (.ifThen t c b)) : Primary (t :: ts) (.ifThen t c b)
  | ifThenElse {t : Token} {ts : List Token} {c : Expr} {b a : Block} (ht : t.kind = .ifWord)
    (h : IsExpression (t :: ts) (.ifThenElse t c b a)) : Primary (t :: ts) (.ifThenElse t c b a)
  | function {t : Token} {ts : List Token} {ps : List Identifier} {b : Block}
    (ht : t.kind = .fnWord) (h : IsExpression (t :: ts) (.function t ps b)) :
    Primary (t :: ts) (.function t ps b)

/-- The tokens are expressions with commas between them. -/
inductive Items : List Token → List Expr → Prop where
  | last {ts : List Token} {e : Expr} (h : IsExpression ts e) : Items ts [e]
  | cons {t : Token} {ts us : List Token} {e : Expr} {es : List Expr} (h : IsExpression ts e)
    (ht : t.kind = .comma) (hes : Items us es) : Items (ts ++ t :: us) (e :: es)

/-- The tokens are what stands between the parentheses of an argument list. -/
inductive Arguments : List Token → List Expr → Prop where
  | none : Arguments [] []
  | some {ts : List Token} {es : List Expr} (h : Items ts es) : Arguments ts es

/-- The tokens are a primary and argument lists behind it, which are applied from left to right. -/
inductive Applied : List Token → Expr → Prop where
  | primary {ts : List Token} {e : Expr} (h : Primary ts e) : Applied ts e
  | call {t u : Token} {ts us : List Token} {f : Expr} {es : List Expr} (hf : Applied ts f)
    (ht : t.kind = .leftParen) (hes : Arguments us es) (hu : u.kind = .rightParen) :
    Applied (ts ++ t :: (us ++ [u])) (.call t f es)

/-- The tokens are unary operators in front of an applied primary, outside of which they are applied
from right to left. -/
inductive Operand : List Token → Expr → Prop where
  | applied {ts : List Token} {e : Expr} (h : Applied ts e) : Operand ts e
  | unary {t : Token} {op : UnaryOp} {ts : List Token} {e : Expr} (ht : t.kind.unaryOp? = some op)
    (h : Operand ts e) : Operand (t :: ts) (.unary t op e)

end Operations

/-! ### Expressions in other expressions -/

/-- What operators make of an operand is a binary operation or a call, unless there are none. -/
theorem Parsing.operators_reads_cases {endLine : Nat} {p : Precedence} (left : Expr)
    (tokens : List Token) {e : Expr} {rest : List Token}
    (h : (operators endLine p left tokens).Reads e rest) :
    (e = left ∧ rest = tokens) ∨ (∃ t l op r, e = .binary t l op r) ∨ ∃ t f es, e = .call t f es := by
  cases tokens with
  | nil =>
    rw [operators, reads_done_iff] at h
    exact .inl h
  | cons t ts =>
    by_cases hp : p < t.kind.precedence
    · cases hop : t.kind.binaryOp? with
      | some op =>
        obtain ⟨right, mid, hright, he⟩ := (operators_binary_reads_iff hop hp).mp h
        have hlength := hright.length_le
        obtain ⟨rfl, _⟩ | hcases := operators_reads_cases _ mid he
        · exact .inr (.inl ⟨_, _, _, _, rfl⟩)
        · exact .inr hcases
      | none =>
        have ht := leftParen_of_binds hp hop
        have hcall : p < .call := by rwa [ht] at hp
        obtain ⟨es, mid, hes, he⟩ := (operators_call_reads_iff ht hcall).mp h
        have hlength := hes.length_le
        obtain ⟨rfl, _⟩ | hcases := operators_reads_cases _ mid he
        · exact .inr (.inr ⟨_, _, _, rfl⟩)
        · exact .inr hcases
    · exact .inl ((operators_done_reads_iff (forall_head?_cons hp ts)).mp h)
termination_by tokens.length
decreasing_by
  all_goals
    subst_vars
    exact Nat.lt_succ_of_le hlength

variable {tokens more : List Token} {e : Expr}

/-- A statement that is an expression is read as one, and a semicolon behind it is dropped. -/
theorem Parsing.Step.Reads.expression_of_statement {endLine : Nat} {t u : Token}
    {rest : List Token} (h : (statement endLine t tokens).Reads (.expression u e) rest) :
    ∃ mid, (expression endLine .lowest (t :: tokens)).Reads e mid ∧ rest = dropSemicolon mid := by
  obtain ⟨own, after, rfl, hown, rfl⟩ := h.owns
  cases hown with
  | alone _ _ he => exact ⟨after, he, rfl⟩

theorem Parsing.eq_nil_of_statements_reads {endLine : Nat}
    (h : (statements endLine tokens).Reads [] []) : tokens = [] := by
  cases tokens with
  | nil => rfl
  | cons t ts =>
    obtain ⟨_, _, _, _, _, hcons⟩ := statements_reads_iff.mp h
    cases hcons

/-- Where nothing is left behind a semicolon that is dropped, there was nothing or a semicolon. -/
theorem Parsing.dropSemicolon_eq_nil {rest : List Token} (h : [] = dropSemicolon rest) :
    rest = [] ∨ ∃ t, t.kind = .semicolon ∧ rest = [t] := by
  cases rest with
  | nil => exact .inl rfl
  | cons t ts =>
    by_cases ht : t.kind = .semicolon
    · rw [dropSemicolon, if_pos ht] at h
      exact .inr ⟨t, ht, h ▸ rfl⟩
    · rw [dropSemicolon, if_neg ht] at h
      cases h

theorem IsExpression.reads (h : IsExpression tokens e) :
    ∃ endLine, (expression endLine .lowest tokens).Reads e [] := by
  obtain ⟨t, endLine, herrors, hss, hlast⟩ := h
  have hreads := reads_of_errors_eq_nil herrors
  rw [hss] at hreads
  cases tokens with
  | nil =>
    rw [statements, reads_done_iff] at hreads
    cases hreads.1
  | cons u ts =>
    obtain ⟨s, mid, ss, hs, hmid, heq⟩ := statements_reads_iff.mp hreads
    cases heq
    obtain rfl := eq_nil_of_statements_reads hmid
    obtain ⟨rest, he, hrest⟩ := hs.expression_of_statement
    obtain rfl | ⟨v, hv, rfl⟩ := dropSemicolon_eq_nil hrest
    · exact ⟨endLine, he⟩
    · -- The semicolon that was dropped would be the last token.
      obtain ⟨taken, htaken⟩ : [v] <:+ u :: ts := he.left ▸ Step.rest_suffix _
      refine absurd hv (hlast v ?_)
      rw [← htaken, List.getLast?_append]
      rfl

/-- In front of what goes on with no expression, an expression is what it is alone. -/
theorem IsExpression.extends (h : IsExpression tokens e) (hmore : Ends more) (endLine : Nat) :
    (expression endLine .lowest (tokens ++ more)).Reads e more := by
  obtain ⟨_, hreads⟩ := h.reads
  exact expression_extends hmore endLine .lowest tokens hreads

/-- The operand that an expression is, if it is neither a binary operation nor a call. -/
theorem IsExpression.operand {t : Token} (h : IsExpression (t :: tokens) e)
    (hbinary : ∀ t l op r, e ≠ .binary t l op r) (hcall : ∀ t f es, e ≠ .call t f es) :
    ∃ endLine, (operand endLine t tokens).Reads e [] := by
  obtain ⟨endLine, hreads⟩ := h.reads
  obtain ⟨left, mid, hleft, hrest⟩ := expression_reads_iff.mp hreads
  obtain ⟨rfl, rfl⟩ | ⟨_, _, _, _, heq⟩ | ⟨_, _, _, heq⟩ := operators_reads_cases left mid hrest
  · exact ⟨endLine, hleft⟩
  · exact absurd heq (hbinary _ _ _ _)
  · exact absurd heq (hcall _ _ _)

namespace Operations

/-! ### Reading -/

theorem Primary.reads (h : Primary tokens e) :
    ∃ t ts, tokens = t :: ts ∧ t.kind ∈ startsOperand ∧
      ∀ endLine more, NoElse more → (operand endLine t (ts ++ more)).Reads e more := by
  have hmem {t : Token} {k : TokenKind} (ht : t.kind = k) (hk : k ∈ startsOperand) :
      t.kind ∈ startsOperand := ht ▸ hk
  cases h with
  | identifier ht =>
    exact ⟨_, [], rfl, hmem ht (by decide), fun _ _ _ =>
      (operand_identifier_reads_iff ht).mpr ⟨rfl, rfl⟩⟩
  | integer ht hn =>
    exact ⟨_, [], rfl, hmem ht (by decide), fun _ _ _ =>
      (operand_int_reads_iff ht).mpr ⟨_, integerValue?_eq_some_iff.mpr hn, rfl, rfl⟩⟩
  | trueWord ht =>
    exact ⟨_, [], rfl, hmem ht (by decide), fun _ _ _ =>
      (operand_true_reads_iff ht).mpr ⟨rfl, rfl⟩⟩
  | falseWord ht =>
    exact ⟨_, [], rfl, hmem ht (by decide), fun _ _ _ =>
      (operand_false_reads_iff ht).mpr ⟨rfl, rfl⟩⟩
  | group ht h hu =>
    refine ⟨_, _, rfl, hmem ht (by decide), fun endLine more _ => ?_⟩
    rw [List.append_assoc]
    exact (operand_group_reads_iff ht).mpr ⟨_, h.extends (ends_rightParen hu more) endLine, hu⟩
  | ifThen ht h =>
    refine ⟨_, _, rfl, hmem ht (by decide), fun endLine more hmore => ?_⟩
    obtain ⟨_, hreads⟩ := h.operand nofun nofun
    exact hreads.conditional_append ht hmore endLine
  | ifThenElse ht h =>
    refine ⟨_, _, rfl, hmem ht (by decide), fun endLine more hmore => ?_⟩
    obtain ⟨_, hreads⟩ := h.operand nofun nofun
    exact hreads.conditional_append ht hmore endLine
  | function ht h =>
    refine ⟨_, _, rfl, hmem ht (by decide), fun endLine more hmore => ?_⟩
    obtain ⟨_, hreads⟩ := h.operand nofun nofun
    exact hreads.function_append ht endLine more

theorem ends_comma {t : Token} (ht : t.kind = .comma) (ts : List Token) : Ends (t :: ts) := by
  refine ends_cons ?_ ?_ ts <;> rw [ht] <;> decide

theorem moreArguments_rightParen {u : Token} (hu : u.kind = .rightParen) (endLine : Nat)
    (more : List Token) : (moreArguments endLine (u :: more)).Reads [] more := by
  have hcomma : u.kind ≠ .comma := by
    rw [hu]
    decide
  exact (moreArguments_end_reads_iff (forall_head?_cons hcomma more)).mpr ⟨u, rfl, hu, rfl⟩

/-- Behind a comma, items are read up to the closing parenthesis. -/
theorem Items.moreArguments_reads {es : List Expr} (h : Items tokens es) {t u : Token}
    (ht : t.kind = .comma) (hu : u.kind = .rightParen) (endLine : Nat) (more : List Token) :
    (moreArguments endLine (t :: (tokens ++ u :: more))).Reads es more := by
  induction h generalizing t with
  | last h =>
    exact (moreArguments_comma_reads_iff ht).mpr ⟨_, _, [], h.extends (ends_rightParen hu more) _,
      moreArguments_rightParen hu endLine more, rfl⟩
  | cons h ht' _ ih =>
    rw [List.append_assoc, List.cons_append]
    exact (moreArguments_comma_reads_iff ht).mpr
      ⟨_, _, _, h.extends (ends_comma ht' _) _, ih ht', rfl⟩

/-- An argument list is read up to its closing parenthesis. -/
theorem Arguments.reads {es : List Expr} (h : Arguments tokens es) {u : Token}
    (hu : u.kind = .rightParen) (endLine : Nat) (more : List Token) :
    (arguments endLine (tokens ++ u :: more)).Reads es more := by
  cases h with
  | none =>
    have hnext : nextIs .rightParen (u :: more) = true := beq_of_eq hu
    exact (arguments_nil_reads_iff hnext).mpr ⟨u, rfl, hu, rfl⟩
  | some h =>
    cases h with
    | last h =>
      have he := h.extends (ends_rightParen hu more) endLine
      exact (arguments_cons_reads_iff he.nextIs_rightParen).mpr
        ⟨_, _, [], he, moreArguments_rightParen hu endLine more, rfl⟩
    | @cons t ts us e es h ht hes =>
      rw [List.append_assoc, List.cons_append]
      have he := h.extends (ends_comma ht (us ++ u :: more)) endLine
      exact (arguments_cons_reads_iff he.nextIs_rightParen).mpr
        ⟨_, _, _, he, hes.moreArguments_reads ht hu endLine more, rfl⟩

/-- An applied primary is read as a whole, and reading goes on with the operators behind it. -/
theorem Applied.reads (h : Applied tokens e) (hmore : NoElse more) {p : Precedence}
    (hp : p < .call) {endLine : Nat} {e' : Expr} {last : List Token}
    (hlast : (operators endLine p e more).Reads e' last) :
    (expression endLine p (tokens ++ more)).Reads e' last := by
  induction h generalizing more with
  | primary h =>
    obtain ⟨t, ts, rfl, _, hreads⟩ := h.reads
    exact expression_reads_iff.mpr ⟨_, _, hreads endLine more hmore, hlast⟩
  | @call t u ts us f es _ ht hes hu ih =>
    have hnoElse : t.kind ≠ .elseWord := by
      rw [ht]
      decide
    rw [List.append_assoc, List.cons_append, List.append_assoc]
    refine ih (noElse_cons hnoElse _) ?_
    exact (operators_call_reads_iff ht hp).mpr ⟨es, more, hes.reads hu endLine more, hlast⟩

/-- So is an operand, in front of what binds less tight than a unary operator. -/
theorem Operand.reads (h : Operand tokens e) (hmore : NoElse more)
    (hunary : ∀ u ∈ more.head?, ¬ .unary < u.kind.precedence) {p : Precedence} (hp : p < .call)
    {endLine : Nat} {e' : Expr} {last : List Token}
    (hlast : (operators endLine p e more).Reads e' last) :
    (expression endLine p (tokens ++ more)).Reads e' last := by
  induction h generalizing p e' last with
  | applied h => exact h.reads hmore hp hlast
  | @unary t op ts e ht _ ih =>
    have hcall : Precedence.unary < .call := by decide
    have hoperand := ih hcall ((operators_done_reads_iff hunary).mpr ⟨rfl, rfl⟩)
    have hleft := (operand_unary_reads_iff ht).mpr ⟨e, hoperand, rfl⟩
    exact expression_reads_iff.mpr ⟨_, _, hleft, hlast⟩

/-- An operand starts like one. -/
theorem Operand.head (h : Operand tokens e) : ∃ t ts, tokens = t :: ts ∧ t.kind ∈ startsOperand := by
  cases h with
  | applied h =>
    induction h with
    | primary h =>
      obtain ⟨t, ts, rfl, ht, _⟩ := h.reads
      exact ⟨t, ts, rfl, ht⟩
    | call _ _ _ _ ih =>
      obtain ⟨t, ts, rfl, ht⟩ := ih
      exact ⟨t, _, rfl, ht⟩
  | unary ht _ => exact ⟨_, _, rfl, mem_startsOperand_of_unaryOp? ht⟩

end Operations

end LetLang
