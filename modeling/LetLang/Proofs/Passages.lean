import LetLang.Parsing.Rules
import LetLang.Proofs.Steps

/-! What happens on the way from one place in the text to another.

The rules of the grammar differ in what they look for and are alike in how they go about it. They
take tokens in order; they give up at the first error, unless they read a list of statements, where
the next statement may follow; and what they leave in the trace are spans around expressions and
statements, and the errors (`Passage`). Every rule is such a passage (`expression_passes` and its
like), so that a statement about all traces is an induction over passages, with one case for each
way of going on, whatever the grammar is in detail.

The first tokens of the statements in the node, at any depth, are part of the account. -/
namespace LetLang

/-! ### The statements in a tree -/

mutual

/-- The first tokens of the statements in an expression, at any depth. -/
def Expr.statementTokens : Expr → List Token
  | .identifier _ => []
  | .integer _ _ => []
  | .boolean _ _ => []
  | .unary _ _ e => e.statementTokens
  | .binary _ l _ r => l.statementTokens ++ r.statementTokens
  | .ifThen _ c b => c.statementTokens ++ b.statementTokens
  | .ifThenElse _ c b a => c.statementTokens ++ b.statementTokens ++ a.statementTokens
  | .function _ _ b => b.statementTokens
  | .call _ f es => f.statementTokens ++ Expr.allStatementTokens es

/-- The first tokens of the statements in several expressions. -/
def Expr.allStatementTokens : List Expr → List Token
  | [] => []
  | e :: es => e.statementTokens ++ Expr.allStatementTokens es

/-- The first tokens of the statements in a block, at any depth. -/
def Block.statementTokens : Block → List Token
  | .mk _ ss => Statement.allStatementTokens ss

/-- The first token of a statement, and those of the statements in it. -/
def Statement.statementTokens : Statement → List Token
  | .letIn t _ e => t :: e.statementTokens
  | .returnNothing t => [t]
  | .returnValue t e => t :: e.statementTokens
  | .expression t e => t :: e.statementTokens

/-- The first tokens of several statements, and of those in them. -/
def Statement.allStatementTokens : List Statement → List Token
  | [] => []
  | s :: ss => s.statementTokens ++ Statement.allStatementTokens ss

end

/-- The first tokens of the statements of a program, at any depth. -/
def Program.statementTokens (p : Program) : List Token :=
  Statement.allStatementTokens p.statements

namespace Parsing

/-! ### Passages -/

/-- What a passage is: part of the way through an expression, an expression, what there is to a
statement, a statement, or the statements of a list up to the end of the text or, where the list
is `braced`, up to its closing brace. -/
inductive Extent where
  | part
  | expression
  | content
  | statement
  | items (braced : Bool)

/-- Reading what `x` says in front of the tokens `a` leaves the tokens `b` and reports `r`. Of the
node, if there is one, `kept` are the first tokens of its statements. -/
inductive Passage : (x : Extent) → (a b : List Token) → (kept : Option (List Token)) → Report → Prop
  where
  | done (a : List Token) : Passage .part a a (some []) .empty
  | fail (a : List Token) (e : SyntaxError) : Passage .part a a none (.ofError e)
  | take {a b k r} (t : Token) (h : Passage .part a b k r) : Passage .part (t :: a) b k r
  | andThen {a b c k k' r r'} (h : Passage .part a b (some k) r) (h' : Passage .part b c k' r') :
    Passage .part a c (k'.map (k ++ ·)) (r.append r')
  | nested {a b k r} (h : Passage .expression a b k r) : Passage .part a b k r
  | block {a b k r} (h : Passage (.items true) a b k r) : Passage .part a b k r
  | expression {a b k r} (p : Precedence) (t : Token) (h : Passage .part a b k r) :
    Passage .expression (t :: a) b k (r.within (.expression p (t :: a)) k.isSome)
  | missing (p : Precedence) (e : SyntaxError) :
    Passage .expression [] [] none ((Report.ofError e).within (.expression p []) false)
  | nothing {a b} (hb : b <:+ a) : Passage .content a b (some []) .empty
  | broken {a b} (e : SyntaxError) (hb : b <:+ a) : Passage .content a b none (.ofError e)
  | value {a a' b b' k r} (ha : a' <:+ a) (h : Passage .expression a' b' k r) (hb : b <:+ b') :
    Passage .content a b k r
  | statement {a b k r} (t : Token) (h : Passage .content (t :: a) b k r) (hb : b <:+ a) :
    Passage .statement (t :: a) b (k.map (t :: ·)) (r.within (.statement t a) k.isSome)
  | closed (t : Token) (a : List Token) : Passage (.items true) (t :: a) a (some []) .empty
  | unclosed (e : SyntaxError) : Passage (.items true) [] [] none (.ofError e)
  | ended : Passage (.items false) [] [] (some []) .empty
  | cons {a b c k k' r r' braced} (h : Passage .statement a b k r)
    (h' : Passage (.items braced) b c k' r') :
    Passage (.items braced) a c (k'.map (k.getD [] ++ ·)) (r.append r')

/-- What is left is a suffix of what was there. -/
theorem Passage.suffix {x : Extent} {a b : List Token} {k : Option (List Token)} {r : Report}
    (h : Passage x a b k r) : b <:+ a := by
  induction h with
  | done a => exact List.suffix_refl a
  | fail a e => exact List.suffix_refl a
  | take t _ ih => exact ih.trans (List.suffix_cons t _)
  | andThen _ _ ih ih' => exact ih'.trans ih
  | nested _ ih => exact ih
  | block _ ih => exact ih
  | expression p t _ ih => exact ih.trans (List.suffix_cons t _)
  | missing p e => exact List.suffix_refl []
  | nothing hb => exact hb
  | broken e hb => exact hb
  | value ha _ hb ih => exact hb.trans (ih.trans ha)
  | statement t _ hb _ => exact hb.trans (List.suffix_cons t _)
  | closed t a => exact List.suffix_cons t a
  | unclosed e => exact List.suffix_refl []
  | ended => exact List.suffix_refl []
  | cons _ _ ih ih' => exact ih'.trans ih

/-- Without a node an error is listed. -/
theorem Passage.errors_ne_nil {x : Extent} {a b : List Token} {k : Option (List Token)} {r : Report}
    (h : Passage x a b k r) (hk : k = none) : r.errors ≠ [] := by
  induction h with
  | done a => cases hk
  | fail a e => exact List.cons_ne_nil e []
  | take t _ ih => exact ih hk
  | andThen _ _ _ ih' =>
    exact List.append_ne_nil_of_right_ne_nil _ (ih' (Option.map_eq_none_iff.mp hk))
  | nested _ ih => exact ih hk
  | block _ ih => exact ih hk
  | expression p t _ ih => exact ih hk
  | missing p e => exact List.cons_ne_nil e []
  | nothing hb => cases hk
  | broken e hb => exact List.cons_ne_nil e []
  | value ha _ hb ih => exact ih hk
  | statement t _ hb ih => exact ih (Option.map_eq_none_iff.mp hk)
  | closed t a => cases hk
  | unclosed e => exact List.cons_ne_nil e []
  | ended => cases hk
  | cons _ _ _ ih' =>
    exact List.append_ne_nil_of_right_ne_nil _ (ih' (Option.map_eq_none_iff.mp hk))

theorem Report.append_empty (r : Report) : r.append .empty = r := by
  unfold append empty
  rw [List.append_nil, List.append_nil]

namespace Step

variable {α β : Type} {tokens start before : List Token} {x : Extent}

/-! ### Steps -/

/-- The step is a passage from `start`, and the first tokens of the statements of its node are those
`before` and, behind them, the ones that the passage keeps. -/
def Passes (x : Extent) (start before : List Token) (kept : α → List Token) (s : Step α tokens) :
    Prop :=
  ∃ more, Passage x start s.rest more s.report ∧ s.node.map kept = more.map (before ++ ·)

variable {s : Step α tokens} {kept : α → List Token} {kept' : β → List Token}

theorem Passes.accounts (h : s.Passes x start before kept) : s.Accounts := by
  obtain ⟨more, hpassage, hkept⟩ := h
  intro hnode
  rw [hnode] at hkept
  exact hpassage.errors_ne_nil (Option.map_eq_none_iff.mp hkept.symm)

theorem passes_done {a : α} (h : kept a = before) :
    (done a : Step α tokens).Passes .part tokens before kept := by
  refine ⟨some [], .done tokens, ?_⟩
  simp [done, h]

theorem passes_fail (e : SyntaxError) :
    (fail e : Step α tokens).Passes .part tokens before kept :=
  ⟨none, .fail tokens e, rfl⟩

theorem Passes.past (h : s.Passes .part tokens before kept) (t : Token) :
    (s.past t).Passes .part (t :: tokens) before kept := by
  obtain ⟨more, hpassage, hkept⟩ := h
  exact ⟨more, hpassage.take t, hkept⟩

theorem Passes.map {f : α → β} (h : s.Passes x start [] kept)
    (hf : ∀ a, kept' (f a) = before ++ kept a) : (s.map f).Passes x start before kept' := by
  obtain ⟨more, hpassage, hkept⟩ := h
  refine ⟨more, hpassage, ?_⟩
  obtain ⟨node, rest, report, hsuffix⟩ := s
  cases node <;> cases more <;> simp_all [Step.map]

/-- The same step where more statements were read before. -/
theorem Passes.prepend (h : s.Passes x start [] kept) (before : List Token) :
    s.Passes x start before fun a => before ++ kept a := by
  obtain ⟨more, hpassage, hkept⟩ := h
  refine ⟨more, hpassage, ?_⟩
  cases hnode : s.node <;> cases more <;> simp_all

theorem Passes.andThen {f : α → (rest : List Token) → rest.length ≤ tokens.length → Step β rest}
    (hs : s.Passes .part start before kept)
    (hf : ∀ a rest h, (f a rest h).Passes .part rest (kept a) kept') :
    (s.andThen f).Passes .part start before kept' := by
  obtain ⟨more, hpassage, hkept⟩ := hs
  unfold Step.andThen
  split
  · rename_i hnode
    rw [hnode] at hkept
    obtain rfl := Option.map_eq_none_iff.mp hkept.symm
    exact ⟨none, hpassage, rfl⟩
  · rename_i a hnode
    rw [hnode] at hkept
    obtain ⟨k, rfl, ha⟩ := Option.map_eq_some_iff.mp hkept.symm
    obtain ⟨more', hpassage', hkept'⟩ := hf a s.rest s.rest_length_le
    refine ⟨more'.map (k ++ ·), hpassage.andThen hpassage', ?_⟩
    rw [hkept', Option.map_map]
    refine congrArg (more'.map ·) (funext fun ts => ?_)
    rw [Function.comp_apply, ← ha, List.append_assoc]

/-- The required token is no statement. -/
theorem passes_expect (endLine : Nat) (kind : TokenKind) (before tokens : List Token) :
    (expect endLine kind tokens).Passes .part tokens before fun _ => before := by
  cases tokens with
  | nil => exact passes_fail _
  | cons t ts =>
    rw [expect_cons]
    split
    · exact (passes_done rfl).past t
    · exact passes_fail _

theorem Passes.nested (h : s.Passes .expression start before kept) :
    s.Passes .part start before kept := by
  obtain ⟨more, hpassage, hkept⟩ := h
  exact ⟨more, hpassage.nested, hkept⟩

theorem Passes.block (h : s.Passes (.items true) start before kept) :
    s.Passes .part start before kept := by
  obtain ⟨more, hpassage, hkept⟩ := h
  exact ⟨more, hpassage.block, hkept⟩

/-! ### Spans -/

theorem isSome_eq_of_map_eq {more : Option (List Token)} {o : Option α}
    (h : o.map kept = more.map (before ++ ·)) : o.isSome = more.isSome := by
  rw [← Option.isSome_map, h, Option.isSome_map]

theorem Passes.expression (h : s.Passes .part tokens before kept) (p : Precedence) (t : Token) :
    (s.within (.expression p (t :: tokens))).Passes .expression (t :: tokens) before kept := by
  obtain ⟨more, hpassage, hkept⟩ := h
  refine ⟨more, ?_, hkept⟩
  show Passage _ _ _ _ (s.report.within _ s.node.isSome)
  rw [isSome_eq_of_map_eq hkept]
  exact hpassage.expression p t

/-- The statement that is told by its first token. -/
theorem Passes.statement {t : Token} (h : s.Passes .content (t :: tokens) [t] kept) :
    (s.within (.statement t tokens)).Passes .statement (t :: tokens) [] kept := by
  obtain ⟨more, hpassage, hkept⟩ := h
  refine ⟨more.map (t :: ·), ?_, ?_⟩
  · show Passage _ _ _ _ (s.report.within _ s.node.isSome)
    rw [isSome_eq_of_map_eq hkept]
    exact hpassage.statement t s.rest_suffix
  · rw [Option.map_map]
    exact hkept

/-! ### What there is to a statement -/

/-- The step reads no expression, and reports nothing unless it gives no node. -/
def Quiet (s : Step α tokens) : Prop :=
  (∃ a, s.node = some a ∧ s.report = .empty) ∨ ∃ e, s.node = none ∧ s.report = .ofError e

theorem quiet_expect (endLine : Nat) (kind : TokenKind) (tokens : List Token) :
    (expect endLine kind tokens).Quiet := by
  cases tokens with
  | nil => exact .inr ⟨_, rfl, rfl⟩
  | cons t ts =>
    rw [expect_cons]
    split
    · exact .inl ⟨t, rfl, rfl⟩
    · exact .inr ⟨_, rfl, rfl⟩

theorem Quiet.recovering (h : s.Quiet) : s.recovering.Quiet := by
  unfold Step.recovering
  obtain ⟨a, hnode, hreport⟩ | ⟨e, hnode, hreport⟩ := h
  · split
    · exact .inl ⟨a, hnode, hreport⟩
    · rename_i hnone
      rw [hnode] at hnone
      cases hnone
  · split
    · rename_i b hsome
      rw [hnode] at hsome
      cases hsome
    · exact .inr ⟨e, rfl, hreport⟩

theorem node_optionalSemicolon (a : α) (tokens : List Token) :
    (optionalSemicolon a tokens).node = some a := by
  cases tokens with
  | nil => rfl
  | cons t ts =>
    rw [optionalSemicolon_cons]
    split <;> rfl

theorem report_optionalSemicolon (a : α) (tokens : List Token) :
    (optionalSemicolon a tokens).report = .empty := by
  cases tokens with
  | nil => rfl
  | cons t ts =>
    rw [optionalSemicolon_cons]
    split <;> rfl

/-- A statement of which only a semicolon is left to read. -/
theorem passes_optionalSemicolon {a : α} (h : kept a = before) (hstart : tokens <:+ start) :
    (optionalSemicolon a tokens).Passes .content start before kept := by
  refine ⟨some [], ?_, ?_⟩
  · rw [report_optionalSemicolon]
    exact .nothing ((optionalSemicolon a tokens).rest_suffix.trans hstart)
  · simp [node_optionalSemicolon, h]

/-- A statement of which an expression and a semicolon are left to read. -/
theorem Passes.content {before' : List Token} {f : α → β}
    (h : s.Passes .expression before' [] kept) (hstart : before' <:+ start)
    (hf : ∀ a, kept' (f a) = before ++ kept a) :
    (s.andThen fun a rest _ => optionalSemicolon (f a) rest).Passes .content start before kept' := by
  obtain ⟨more, hpassage, hkept⟩ := h
  unfold Step.andThen
  split
  · rename_i hnode
    rw [hnode] at hkept
    obtain rfl := Option.map_eq_none_iff.mp hkept.symm
    exact ⟨none, hpassage.value hstart (List.suffix_refl _), rfl⟩
  · rename_i a hnode
    rw [hnode] at hkept
    obtain ⟨k, rfl, ha⟩ := Option.map_eq_some_iff.mp hkept.symm
    refine ⟨some k, ?_, ?_⟩
    · show Passage _ _ _ _ (s.report.append _)
      rw [report_optionalSemicolon, Report.append_empty]
      exact hpassage.value hstart (optionalSemicolon (f a) s.rest).rest_suffix
    · simp [node_optionalSemicolon, hf, ← ha]

/-- Something quiet in front of the rest of a statement. -/
theorem Quiet.content {f : α → (rest : List Token) → rest.length ≤ tokens.length → Step β rest}
    (hs : s.Quiet) (hstart : tokens <:+ start)
    (hf : ∀ a rest h, rest <:+ start → (f a rest h).Passes .content start before kept') :
    (s.andThen f).Passes .content start before kept' := by
  have hrest : s.rest <:+ start := s.rest_suffix.trans hstart
  unfold Step.andThen
  obtain ⟨a, hnode, hreport⟩ | ⟨e, hnode, hreport⟩ := hs
  · split
    · rename_i hnone
      rw [hnode] at hnone
      cases hnone
    · rename_i b _
      obtain ⟨more, hpassage, hkept⟩ := hf b s.rest s.rest_length_le hrest
      refine ⟨more, ?_, hkept⟩
      show Passage _ _ _ _ (s.report.append _)
      rw [hreport]
      exact hpassage
  · split
    · refine ⟨none, ?_, rfl⟩
      show Passage _ _ _ _ s.report
      rw [hreport]
      exact .broken e hrest
    · rename_i b hsome
      rw [hnode] at hsome
      cases hsome

/-- A statement in front of a list. -/
theorem Passes.collect {t : Token} {braced : Bool} {kept' : List α → List Token}
    {f : (rest : List Token) → rest.length ≤ tokens.length → Step (List α) rest}
    (hs : s.Passes .statement (t :: tokens) [] kept)
    (hf : ∀ rest h, (f rest h).Passes (.items braced) rest [] kept')
    (hcons : ∀ a as, kept' (a :: as) = kept a ++ kept' as) :
    ((s.collect f).past t).Passes (.items braced) (t :: tokens) [] kept' := by
  obtain ⟨more, hpassage, hkept⟩ := hs
  obtain ⟨more', hpassage', hkept'⟩ := hf s.rest s.rest_length_le
  refine ⟨more'.map (more.getD [] ++ ·), hpassage.cons hpassage', ?_⟩
  show ((f s.rest s.rest_length_le).node.map (s.node.toList ++ ·)).map kept' = _
  revert hkept hkept'
  generalize (f s.rest s.rest_length_le).node = node'
  intro hkept hkept'
  cases hnode : s.node <;> cases more <;> cases node' <;> cases more' <;> simp_all

end Step

open Step

/-! ### Rules -/

theorem integerLiteral_passes (t : Token) (tokens : List Token) :
    (integerLiteral t tokens).Passes .part tokens [] Expr.statementTokens := by
  unfold integerLiteral
  split
  · exact passes_done rfl
  · exact passes_fail _

theorem endOfList_passes {α : Type} {before : List Token} {kept : List α → List Token}
    (h : kept [] = before) (endLine : Nat) (tokens : List Token) :
    (endOfList endLine tokens).Passes .part tokens before kept :=
  (passes_expect endLine .rightParen [] tokens).map fun _ => by rw [h, List.append_nil]

theorem moreParameters_passes (endLine : Nat) (tokens : List Token) :
    (moreParameters endLine tokens).Passes .part tokens [] fun _ => [] := by
  cases tokens with
  | nil =>
    rw [moreParameters]
    exact endOfList_passes rfl endLine []
  | cons t ts =>
    rw [moreParameters]
    split
    · refine ((passes_expect endLine .identifier [] ts).andThen fun name rest h => ?_).past t
      exact (moreParameters_passes endLine rest).map fun _ => rfl
    · exact endOfList_passes rfl endLine _
termination_by tokens.length

theorem parameters_passes (endLine : Nat) (tokens : List Token) :
    (parameters endLine tokens).Passes .part tokens [] fun _ => [] := by
  unfold parameters
  split
  · exact endOfList_passes rfl endLine tokens
  · refine (passes_expect endLine .identifier [] tokens).andThen fun name rest _ => ?_
    exact (moreParameters_passes endLine rest).map fun _ => rfl

mutual

theorem expression_passes (endLine : Nat) (p : Precedence) (tokens : List Token) :
    (expression endLine p tokens).Passes .expression tokens [] Expr.statementTokens := by
  cases tokens with
  | nil =>
    rw [expression]
    exact ⟨none, .missing p _, rfl⟩
  | cons t ts =>
    rw [expression]
    exact expressionFrom_passes endLine p t ts
termination_by 8 * tokens.length

theorem expressionFrom_passes (endLine : Nat) (p : Precedence) (t : Token) (tokens : List Token) :
    (expressionFrom endLine p t tokens).Passes .expression (t :: tokens) []
      Expr.statementTokens := by
  rw [expressionFrom]
  refine ((operand_passes endLine t tokens).andThen fun left rest _ => ?_).expression p t
  exact operators_passes endLine p left rest
termination_by 8 * tokens.length + 7

theorem operand_passes (endLine : Nat) (t : Token) (tokens : List Token) :
    (operand endLine t tokens).Passes .part tokens [] Expr.statementTokens := by
  rw [operand]
  split
  · exact passes_done rfl
  · exact integerLiteral_passes t tokens
  · exact passes_done rfl
  · exact passes_done rfl
  · exact (expression_passes endLine .unary tokens).nested.map fun _ => rfl
  · exact (expression_passes endLine .unary tokens).nested.map fun _ => rfl
  · refine (expression_passes endLine .lowest tokens).nested.andThen fun e rest _ => ?_
    exact (passes_expect endLine .rightParen [] rest).map fun _ => (List.append_nil _).symm
  · refine (passes_expect endLine .leftParen [] tokens).andThen fun _ rest _ => ?_
    refine (expression_passes endLine .lowest rest).nested.andThen fun c rest _ => ?_
    refine (passes_expect endLine .rightParen _ rest).andThen fun _ rest _ => ?_
    refine ((block_passes endLine rest).prepend _).andThen fun b rest _ => ?_
    exact alternative_passes endLine t c b rest
  · refine (passes_expect endLine .leftParen [] tokens).andThen fun _ rest _ => ?_
    refine (parameters_passes endLine rest).andThen fun ps rest _ => ?_
    exact (block_passes endLine rest).map fun _ => rfl
  · exact passes_fail _
termination_by 8 * tokens.length + 6

theorem alternative_passes (endLine : Nat) (t : Token) (c : Expr) (b : Block)
    (tokens : List Token) :
    (alternative endLine t c b tokens).Passes .part tokens (c.statementTokens ++ b.statementTokens)
      Expr.statementTokens := by
  cases tokens with
  | nil =>
    rw [alternative]
    exact passes_done rfl
  | cons u ts =>
    rw [alternative]
    split
    · refine Passes.past ?_ u
      exact (block_passes endLine ts).map fun _ => rfl
    · exact passes_done rfl
termination_by 8 * tokens.length

theorem operators_passes (endLine : Nat) (p : Precedence) (left : Expr) (tokens : List Token) :
    (operators endLine p left tokens).Passes .part tokens left.statementTokens
      Expr.statementTokens := by
  cases tokens with
  | nil =>
    rw [operators]
    exact passes_done rfl
  | cons t ts =>
    rw [operators]
    split
    · split
      · refine (((expression_passes endLine _ ts).nested.prepend _).andThen fun r rest _ => ?_).past t
        exact operators_passes endLine p _ rest
      · refine (((arguments_passes endLine ts).prepend _).andThen fun es rest _ => ?_).past t
        exact operators_passes endLine p _ rest
    · exact passes_done rfl
termination_by 8 * tokens.length + 1

theorem arguments_passes (endLine : Nat) (tokens : List Token) :
    (arguments endLine tokens).Passes .part tokens [] Expr.allStatementTokens := by
  rw [arguments]
  split
  · exact endOfList_passes rfl endLine tokens
  · refine (expression_passes endLine .lowest tokens).nested.andThen fun e rest _ => ?_
    exact (moreArguments_passes endLine rest).map fun _ => rfl
termination_by 8 * tokens.length + 2

theorem moreArguments_passes (endLine : Nat) (tokens : List Token) :
    (moreArguments endLine tokens).Passes .part tokens [] Expr.allStatementTokens := by
  cases tokens with
  | nil =>
    rw [moreArguments]
    exact endOfList_passes rfl endLine []
  | cons t ts =>
    rw [moreArguments]
    split
    · refine ((expression_passes endLine .lowest ts).nested.andThen fun e rest _ => ?_).past t
      exact (moreArguments_passes endLine rest).map fun _ => rfl
    · exact endOfList_passes rfl endLine _
termination_by 8 * tokens.length + 1

theorem block_passes (endLine : Nat) (tokens : List Token) :
    (block endLine tokens).Passes .part tokens [] Block.statementTokens := by
  rw [block]
  refine (passes_expect endLine .leftBrace [] tokens).andThen fun t rest _ => ?_
  exact (blockBody_passes endLine rest).block.map fun _ => rfl
termination_by 8 * tokens.length + 5

theorem blockBody_passes (endLine : Nat) (tokens : List Token) :
    (blockBody endLine tokens).Passes (.items true) tokens [] Statement.allStatementTokens := by
  cases tokens with
  | nil =>
    rw [blockBody]
    exact ⟨none, .unclosed _, rfl⟩
  | cons t ts =>
    rw [blockBody]
    split
    · exact ⟨some [], .closed t ts, rfl⟩
    · refine (statement_passes endLine t ts).collect (fun rest _ => ?_) fun _ _ => rfl
      exact blockBody_passes endLine rest
termination_by 8 * tokens.length + 4

theorem statement_passes (endLine : Nat) (t : Token) (tokens : List Token) :
    (statement endLine t tokens).Passes .statement (t :: tokens) [] Statement.statementTokens := by
  rw [statement]
  refine Passes.statement ?_
  have htokens : tokens <:+ t :: tokens := List.suffix_cons t tokens
  split
  · refine (quiet_expect endLine .identifier tokens).recovering.content htokens fun name rest _ hr => ?_
    refine (quiet_expect endLine .assign rest).recovering.content hr fun _ rest _ hr => ?_
    exact (expression_passes endLine .lowest rest).content hr fun _ => rfl
  · split
    · exact passes_optionalSemicolon rfl htokens
    · exact (expression_passes endLine .lowest tokens).content htokens fun _ => rfl
  · exact (expressionFrom_passes endLine .lowest t tokens).content (List.suffix_refl _) fun _ => rfl
termination_by 8 * tokens.length + 8

end

theorem statements_passes (endLine : Nat) (tokens : List Token) :
    (statements endLine tokens).Passes (.items false) tokens [] Statement.allStatementTokens := by
  cases tokens with
  | nil =>
    rw [statements]
    exact ⟨some [], .ended, rfl⟩
  | cons t ts =>
    rw [statements]
    refine (statement_passes endLine t ts).collect (fun rest _ => ?_) fun _ _ => rfl
    exact statements_passes endLine rest
termination_by tokens.length

end Parsing

end LetLang
