import LetLang.Proofs.Lookahead

/-! What the errors of a text are about.

An error names the token that it was found at: what stands there instead of a kind that was asked
for, what starts no operand, or which number is too large (`SyntaxError.About`). Every rule of the
grammar finds its errors from the front to the back of what it reads, so the tokens that the errors
of a text are about stand in the order of the errors (`Blames`, `parse_blames`). -/
namespace LetLang

/-- The error is about the token, and what it says of the token is true. -/
inductive SyntaxError.About (t : Token) : SyntaxError → Prop where
  | unexpectedToken {expected : TokenKind} (h : t.kind ≠ expected) :
      About t (.unexpectedToken expected t.kind t.line)
  | noOperand (h : t.kind ∉ Parsing.startsOperand) : About t (.noOperand t.kind t.line)
  | integerTooLarge (hkind : t.kind = .int) (h : Parsing.integerValue? t.literal = none) :
      About t (.integerTooLarge t.literal t.line)

namespace Parsing
open Step

/-! ### Errors in order -/

/-- The errors are about tokens from `a` on, one after another, and none of these stands behind the
first of `b`. Where no token is left, an error is about the end of the text. -/
inductive Blames (endLine : Nat) : (a b : List Token) → List SyntaxError → Prop where
  | nil {a b : List Token} (h : b <:+ a) : Blames endLine a b []
  | cons {a c b : List Token} {e : SyntaxError} {es : List SyntaxError} (hc : c <:+ a)
      (he : e.About (c.headD (.endOfInput endLine))) (hes : Blames endLine c b es) :
      Blames endLine a b (e :: es)

variable {endLine : Nat}

namespace Blames

variable {a b c : List Token} {es es' : List SyntaxError}

theorem weaken (h : Blames endLine a b es) (ha : a <:+ c) : Blames endLine c b es := by
  cases h with
  | nil hb => exact .nil (hb.trans ha)
  | cons hc he hes => exact .cons (hc.trans ha) he hes

theorem append (h : Blames endLine a b es) (h' : Blames endLine b c es') :
    Blames endLine a c (es ++ es') := by
  induction h with
  | nil hb => exact h'.weaken hb
  | cons hc he _ ih => exact .cons hc he (ih h')

theorem leave (h : Blames endLine a b es) (hc : c <:+ b) : Blames endLine a c es := by
  have hnil : Blames endLine b c [] := .nil hc
  rw [← List.append_nil es]
  exact h.append hnil

/-- Each error is about one of the tokens or about the end. -/
theorem exists_about (h : Blames endLine a b es) :
    ∀ e ∈ es, ∃ t, (t ∈ a ∨ t = .endOfInput endLine) ∧ e.About t := by
  induction h with
  | nil _ => exact fun e he => nomatch he
  | @cons a c b e es hc he _ ih =>
    refine List.forall_mem_cons.mpr ⟨⟨_, ?_, he⟩, fun e' he' => ?_⟩
    · cases c with
      | nil => exact .inr rfl
      | cons t ts => exact .inl (hc.subset (List.mem_cons_self ..))
    · obtain ⟨t, ht, habout⟩ := ih e' he'
      exact ⟨t, ht.imp_left fun hmem => hc.subset hmem, habout⟩

end Blames

/-! ### Steps -/

namespace Step

variable {α β : Type} {tokens start : List Token}

/-- The errors of the step are about tokens from `start` up to the first that it leaves. -/
def Blames (endLine : Nat) (start : List Token) (s : Step α tokens) : Prop :=
  Parsing.Blames endLine start s.rest s.report.errors

theorem blames_done (a : α) : (done a : Step α tokens).Blames endLine tokens :=
  .nil (List.suffix_refl tokens)

theorem blames_fail {e : SyntaxError} (he : e.About (start.headD (.endOfInput endLine)))
    (h : tokens <:+ start) : (fail e : Step α tokens).Blames endLine start :=
  .cons (List.suffix_refl start) he (.nil h)

/-- An error where no token is left is about the end. -/
theorem blames_fail_end {e : SyntaxError} (he : e.About (.endOfInput endLine)) :
    (fail e : Step α []).Blames endLine [] := blames_fail he (List.suffix_refl [])

variable {s : Step α tokens}

/-- Blame may be counted from the token in front of those that are read. -/
theorem Blames.behind (h : s.Blames endLine tokens) (t : Token) :
    s.Blames endLine (t :: tokens) :=
  Parsing.Blames.weaken h (List.suffix_cons t tokens)

theorem Blames.past (h : s.Blames endLine start) (t : Token) : (s.past t).Blames endLine start := h

theorem Blames.within (h : s.Blames endLine start) (span : Span) :
    (s.within span).Blames endLine start := h

theorem Blames.map (h : s.Blames endLine start) (f : α → β) : (s.map f).Blames endLine start := h

theorem Blames.andThen
    {f : α → (rest : List Token) → rest.length ≤ tokens.length → Step β rest}
    (h : s.Blames endLine start) (hf : ∀ a rest hlength, (f a rest hlength).Blames endLine rest) :
    (s.andThen f).Blames endLine start := by
  unfold Step.andThen
  split
  · exact h
  · exact h.append (hf _ s.rest s.rest_length_le)

theorem Blames.collect
    {f : (rest : List Token) → rest.length ≤ tokens.length → Step (List α) rest}
    (h : s.Blames endLine start) (hf : ∀ rest hlength, (f rest hlength).Blames endLine rest) :
    (s.collect f).Blames endLine start :=
  h.append (hf s.rest s.rest_length_le)

theorem Blames.recovering (h : s.Blames endLine start) : s.recovering.Blames endLine start := by
  unfold Step.recovering
  split
  · exact h
  · exact h.leave (recover_suffix s.rest)

theorem blames_expect (endLine : Nat) (kind : TokenKind) (tokens : List Token)
    (hkind : kind ≠ .endOfInput) : (expect endLine kind tokens).Blames endLine tokens := by
  cases tokens with
  | nil => exact blames_fail_end (.unexpectedToken hkind.symm)
  | cons t ts =>
    rw [expect_cons]
    split
    · exact ((blames_done t).behind t).past t
    · rename_i hne
      exact blames_fail (.unexpectedToken hne) (List.suffix_refl (t :: ts))

theorem blames_optionalSemicolon (a : α) (tokens : List Token) :
    (optionalSemicolon a tokens).Blames endLine tokens := by
  cases tokens with
  | nil => exact blames_done a
  | cons t ts =>
    rw [optionalSemicolon_cons]
    split
    · exact ((blames_done a).behind t).past t
    · exact blames_done a

end Step

/-! ### Rules -/

theorem blames_endOfList {α : Type} (endLine : Nat) (tokens : List Token) :
    (endOfList endLine tokens : Step (List α) tokens).Blames endLine tokens :=
  (blames_expect endLine .rightParen tokens (by decide)).map _

theorem moreParameters_blames (endLine : Nat) (tokens : List Token) :
    (moreParameters endLine tokens).Blames endLine tokens := by
  cases tokens with
  | nil =>
    rw [moreParameters]
    exact blames_endOfList endLine []
  | cons t ts =>
    rw [moreParameters]
    split
    · have hname := (blames_expect endLine .identifier ts (by decide)).behind t
      exact (hname.andThen fun name rest _ => (moreParameters_blames endLine rest).map _).past t
    · exact blames_endOfList endLine (t :: ts)
termination_by tokens.length

theorem parameters_blames (endLine : Nat) (tokens : List Token) :
    (parameters endLine tokens).Blames endLine tokens := by
  unfold parameters
  split
  · exact blames_endOfList endLine tokens
  · refine (blames_expect endLine .identifier tokens (by decide)).andThen fun name rest _ => ?_
    exact (moreParameters_blames endLine rest).map _

theorem integerLiteral_blames (endLine : Nat) {t : Token} (hkind : t.kind = .int)
    (tokens : List Token) : (integerLiteral t tokens).Blames endLine (t :: tokens) := by
  unfold integerLiteral
  split
  · exact (blames_done _).behind t
  · rename_i h
    exact blames_fail (.integerTooLarge hkind h) (List.suffix_cons t tokens)

mutual

theorem expression_blames (endLine : Nat) (p : Precedence) (tokens : List Token) :
    (expression endLine p tokens).Blames endLine tokens := by
  cases tokens with
  | nil =>
    rw [expression]
    have hkind : TokenKind.endOfInput ∉ startsOperand := by decide
    exact (blames_fail_end (.noOperand hkind)).within _
  | cons t ts =>
    rw [expression]
    exact (expressionFrom_blames endLine p t ts).past t
termination_by 8 * tokens.length

theorem expressionFrom_blames (endLine : Nat) (p : Precedence) (t : Token) (tokens : List Token) :
    (expressionFrom endLine p t tokens).Blames endLine (t :: tokens) := by
  rw [expressionFrom]
  refine Blames.within ((operand_blames endLine t tokens).andThen fun left rest _ => ?_) _
  exact operators_blames endLine p left rest
termination_by 8 * tokens.length + 7

theorem operand_blames (endLine : Nat) (t : Token) (tokens : List Token) :
    (operand endLine t tokens).Blames endLine (t :: tokens) := by
  have hparen := (blames_expect endLine .leftParen tokens (by decide)).behind t
  rw [operand]
  split
  · exact (blames_done _).behind t
  · exact integerLiteral_blames endLine ‹_› tokens
  · exact (blames_done _).behind t
  · exact (blames_done _).behind t
  · exact ((expression_blames endLine .unary tokens).map _).behind t
  · exact ((expression_blames endLine .unary tokens).map _).behind t
  · refine ((expression_blames endLine .lowest tokens).behind t).andThen fun e rest _ => ?_
    exact (blames_expect endLine .rightParen rest (by decide)).map _
  · refine hparen.andThen fun _ rest _ => ?_
    refine (expression_blames endLine .lowest rest).andThen fun c rest _ => ?_
    refine (blames_expect endLine .rightParen rest (by decide)).andThen fun _ rest _ => ?_
    refine (block_blames endLine rest).andThen fun b rest _ => ?_
    exact alternative_blames endLine t c b rest
  · refine hparen.andThen fun _ rest _ => ?_
    refine (parameters_blames endLine rest).andThen fun ps rest _ => ?_
    exact (block_blames endLine rest).map _
  · have hkind : t.kind ∉ startsOperand := by
      simp only [startsOperand, List.mem_cons, List.not_mem_nil, or_false, not_or]
      exact ⟨‹_›, ‹_›, ‹_›, ‹_›, ‹_›, ‹_›, ‹_›, ‹_›, ‹_›⟩
    exact blames_fail (.noOperand hkind) (List.suffix_cons t tokens)
termination_by 8 * tokens.length + 6

theorem alternative_blames (endLine : Nat) (t : Token) (c : Expr) (b : Block)
    (tokens : List Token) : (alternative endLine t c b tokens).Blames endLine tokens := by
  cases tokens with
  | nil =>
    rw [alternative]
    exact blames_done _
  | cons u ts =>
    rw [alternative]
    split
    · exact (((block_blames endLine ts).map _).behind u).past u
    · exact blames_done _
termination_by 8 * tokens.length

theorem operators_blames (endLine : Nat) (p : Precedence) (left : Expr) (tokens : List Token) :
    (operators endLine p left tokens).Blames endLine tokens := by
  cases tokens with
  | nil =>
    rw [operators]
    exact blames_done left
  | cons t ts =>
    rw [operators]
    split
    · split
      · refine (((expression_blames endLine _ ts).behind t).andThen fun right rest _ => ?_).past t
        exact operators_blames endLine p _ rest
      · refine (((arguments_blames endLine ts).behind t).andThen fun values rest _ => ?_).past t
        exact operators_blames endLine p _ rest
    · exact blames_done left
termination_by 8 * tokens.length + 1

theorem arguments_blames (endLine : Nat) (tokens : List Token) :
    (arguments endLine tokens).Blames endLine tokens := by
  rw [arguments]
  split
  · exact blames_endOfList endLine tokens
  · refine (expression_blames endLine .lowest tokens).andThen fun e rest _ => ?_
    exact (moreArguments_blames endLine rest).map _
termination_by 8 * tokens.length + 2

theorem moreArguments_blames (endLine : Nat) (tokens : List Token) :
    (moreArguments endLine tokens).Blames endLine tokens := by
  cases tokens with
  | nil =>
    rw [moreArguments]
    exact blames_endOfList endLine []
  | cons t ts =>
    rw [moreArguments]
    split
    · have hfirst := (expression_blames endLine .lowest ts).behind t
      exact (hfirst.andThen fun e rest _ => (moreArguments_blames endLine rest).map _).past t
    · exact blames_endOfList endLine (t :: ts)
termination_by 8 * tokens.length + 1

theorem block_blames (endLine : Nat) (tokens : List Token) :
    (block endLine tokens).Blames endLine tokens := by
  rw [block]
  refine (blames_expect endLine .leftBrace tokens (by decide)).andThen fun t rest _ => ?_
  exact (blockBody_blames endLine rest).map _
termination_by 8 * tokens.length + 5

theorem blockBody_blames (endLine : Nat) (tokens : List Token) :
    (blockBody endLine tokens).Blames endLine tokens := by
  cases tokens with
  | nil =>
    rw [blockBody]
    have hkind : TokenKind.endOfInput ≠ .rightBrace := by decide
    exact blames_fail_end (.unexpectedToken hkind)
  | cons t ts =>
    rw [blockBody]
    split
    · exact ((blames_done _).behind t).past t
    · refine Blames.past ((statement_blames endLine t ts).collect fun rest _ => ?_) t
      exact blockBody_blames endLine rest
termination_by 8 * tokens.length + 4

theorem statement_blames (endLine : Nat) (t : Token) (tokens : List Token) :
    (statement endLine t tokens).Blames endLine (t :: tokens) := by
  rw [statement]
  refine Blames.within ?_ _
  split
  · have hname := (blames_expect endLine .identifier tokens (by decide)).behind t
    refine hname.recovering.andThen fun name rest _ => ?_
    refine (blames_expect endLine .assign rest (by decide)).recovering.andThen fun _ rest _ => ?_
    refine (expression_blames endLine .lowest rest).andThen fun value rest _ => ?_
    exact blames_optionalSemicolon _ rest
  · split
    · exact (blames_optionalSemicolon _ tokens).behind t
    · refine ((expression_blames endLine .lowest tokens).behind t).andThen fun value rest _ => ?_
      exact blames_optionalSemicolon _ rest
  · refine (expressionFrom_blames endLine .lowest t tokens).andThen fun e rest _ => ?_
    exact blames_optionalSemicolon _ rest
termination_by 8 * tokens.length + 8

end

theorem statements_blames (endLine : Nat) (tokens : List Token) :
    (statements endLine tokens).Blames endLine tokens := by
  cases tokens with
  | nil =>
    rw [statements]
    exact blames_done _
  | cons t ts =>
    rw [statements]
    refine Blames.past ((statement_blames endLine t ts).collect fun rest _ => ?_) t
    exact statements_blames endLine rest
termination_by tokens.length

end Parsing

/-- **The errors of a text are about tokens of the text, or about its end, in the order in which
these stand.** -/
theorem parse_blames (source : String) :
    Parsing.Blames (TokenStream.ofSource source).endLine (TokenStream.ofSource source).tokens []
      (parse source).errors := by
  have h := Parsing.statements_blames (TokenStream.ofSource source).endLine
    (TokenStream.ofSource source).tokens
  have hrest := (Parsing.statements_complete (TokenStream.ofSource source).endLine
    (TokenStream.ofSource source).tokens).2
  unfold Parsing.Step.Blames at h
  rwa [hrest] at h

end LetLang
