import LetLang.Parsing
import LetLang.Proofs.Lookahead

/-! The tokens that a tree stores.

Listed in the order of the text, the tokens stored in a tree are taken from the text in order,
none of them twice, whether or not errors were reported. If none was reported, nothing is missing
but punctuation: the list and the text agree once parentheses and the other kinds that leave
nothing in a tree are taken out (`storedTokens_parse`).

Each rule of the grammar is asked the same (`Step.Stores`): what it adds to the tokens stored so
far is a part of what it takes, and all of it up to punctuation if it reports nothing. -/
namespace LetLang

/-! ### The tokens of a tree -/

mutual

/-- The tokens of an expression in the order of the text. -/
def Expr.storedTokens : Expr → List Token
  | .identifier i => [i.token]
  | .integer t _ => [t]
  | .boolean t _ => [t]
  | .unary t _ e => t :: e.storedTokens
  | .binary t l _ r => l.storedTokens ++ t :: r.storedTokens
  | .ifThen t c b => t :: (c.storedTokens ++ b.storedTokens)
  | .ifThenElse t c b a => t :: (c.storedTokens ++ (b.storedTokens ++ a.storedTokens))
  | .function t ps b => t :: (ps.map Identifier.token ++ b.storedTokens)
  | .call t f es => f.storedTokens ++ t :: Expr.allStoredTokens es

/-- The tokens of several expressions. -/
def Expr.allStoredTokens : List Expr → List Token
  | [] => []
  | e :: es => e.storedTokens ++ Expr.allStoredTokens es

/-- The brace that opens a block, and the tokens of its statements. -/
def Block.storedTokens : Block → List Token
  | .mk t ss => t :: Statement.allStoredTokens ss

/-- The tokens of a statement; those of an expression alone are the expression's. -/
def Statement.storedTokens : Statement → List Token
  | .letIn t i e => t :: i.token :: e.storedTokens
  | .returnNothing t => [t]
  | .returnValue t e => t :: e.storedTokens
  | .expression _ e => e.storedTokens

/-- The tokens of several statements. -/
def Statement.allStoredTokens : List Statement → List Token
  | [] => []
  | s :: ss => s.storedTokens ++ Statement.allStoredTokens ss

end

/-- The tokens of a program in the order of the text. -/
def Program.storedTokens (p : Program) : List Token := Statement.allStoredTokens p.statements

/-- The kinds that leave no token in a tree, but for the parenthesis that opens a call. -/
def punctuation : List TokenKind :=
  [.leftParen, .rightParen, .rightBrace, .comma, .semicolon, .assign, .elseWord]

/-- The tokens that are of none of the given kinds. -/
def without (kinds : List TokenKind) (ts : List Token) : List Token :=
  ts.filter fun t => t.kind ∉ kinds

theorem without_append (kinds : List TokenKind) (ts us : List Token) :
    without kinds (ts ++ us) = without kinds ts ++ without kinds us := List.filter_append ..

/-- The tokens `stored` are some of `taken`, in order, and if `complete` then all of them up to
punctuation. -/
structure Retains (complete : Prop) (stored taken : List Token) : Prop where
  sublist : stored.Sublist taken
  same : complete → without [.leftParen] stored = without punctuation taken

namespace Retains

variable {P Q : Prop} {stored stored' taken taken' : List Token}

theorem nil : Retains P [] [] := ⟨.slnil, fun _ => rfl⟩

theorem mono (h : Retains P stored taken) (hQ : Q → P) : Retains Q stored taken :=
  ⟨h.sublist, fun hq => h.same (hQ hq)⟩

theorem append (h : Retains P stored taken) (h' : Retains P stored' taken') :
    Retains P (stored ++ stored') (taken ++ taken') := by
  refine ⟨h.sublist.append h'.sublist, fun hP => ?_⟩
  rw [without_append, without_append, h.same hP, h'.same hP]

/-- A token that is stored. -/
theorem single {t : Token} (h : t.kind ∉ punctuation ∨ t.kind = .leftParen) :
    Retains P [t] [t] := by
  refine ⟨.refl _, fun _ => ?_⟩
  obtain h | h := h
  · have hparen : t.kind ≠ .leftParen := fun hk => h (hk ▸ by decide)
    simp [without, h, hparen]
  · simp [without, h, punctuation]

/-- A token that is not stored. -/
theorem dropped {t : Token} (h : t.kind ∈ punctuation) : Retains P [] [t] := by
  refine ⟨List.nil_sublist _, fun _ => ?_⟩
  simp [without, h]

end Retains

/-- The token, unless it is punctuation. -/
def Token.kept (t : Token) : List Token := without punctuation [t]

theorem Token.kept_eq {t : Token} (h : t.kind ∉ punctuation) : t.kept = [t] := by
  simp [kept, without, h]

theorem Token.kept_eq_nil {t : Token} (h : t.kind ∈ punctuation) : t.kept = [] := by
  simp [kept, without, h]

theorem retains_kept (P : Prop) (t : Token) : Retains P t.kept [t] := by
  by_cases h : t.kind ∈ punctuation
  · rw [Token.kept_eq_nil h]
    exact .dropped h
  · rw [Token.kept_eq h]
    exact .single (.inl h)

namespace Parsing.Step

variable {α β : Type} {tokens before : List Token}

/-! ### Steps -/

/-- The tokens of the node are those `before` and, behind them, what is retained of the tokens
that the step takes, all of them if it reports nothing. -/
def Stores (s : Step α tokens) (before : List Token) (stored : α → List Token) : Prop :=
  ∀ a, s.node = some a → ∃ taken more, taken ++ s.rest = tokens ∧ stored a = before ++ more ∧
    Retains (s.report.errors = []) more taken

variable {s : Step α tokens} {stored : α → List Token}

theorem stores_done {a : α} (h : stored a = before) :
    (done a : Step α tokens).Stores before stored := by
  intro b hb
  cases hb
  exact ⟨[], [], rfl, by rw [h, List.append_nil], .nil⟩

theorem stores_fail (e : SyntaxError) : (fail e : Step α tokens).Stores before stored := by
  intro b hb
  cases hb

/-- The token in front is stored as `ts` says. -/
theorem Stores.past {t : Token} {ts : List Token} (h : s.Stores (before ++ ts) stored)
    (ht : ∀ P, Retains P ts [t]) : (s.past t).Stores before stored := by
  intro a ha
  obtain ⟨taken, more, htokens, hstored, hretains⟩ := h a ha
  refine ⟨t :: taken, ts ++ more, congrArg (t :: ·) htokens, ?_, (ht _).append hretains⟩
  rw [hstored, List.append_assoc]

theorem Stores.past_dropped {t : Token} (h : s.Stores before stored) (ht : t.kind ∈ punctuation) :
    (s.past t).Stores before stored :=
  Stores.past (by rwa [List.append_nil]) fun _ => .dropped ht

theorem Stores.past_single {t : Token} (h : s.Stores (before ++ [t]) stored)
    (ht : t.kind ∉ punctuation ∨ t.kind = .leftParen) : (s.past t).Stores before stored :=
  h.past fun _ => .single ht

theorem Stores.within (h : s.Stores before stored) (span : Span) :
    (s.within span).Stores before stored := h

theorem Stores.map {f : α → β} {stored' : β → List Token} (h : s.Stores [] stored)
    (hf : ∀ a, stored' (f a) = before ++ stored a) : (s.map f).Stores before stored' := by
  intro b hb
  obtain ⟨a, ha, rfl⟩ := Option.map_eq_some_iff.mp hb
  obtain ⟨taken, more, htokens, hstored, hretains⟩ := h a ha
  refine ⟨taken, more, htokens, ?_, hretains⟩
  rw [hf, hstored, List.nil_append]

theorem append_rest {taken taken' mid rest : List Token} (h : taken ++ mid = tokens)
    (h' : taken' ++ rest = mid) : taken ++ taken' ++ rest = tokens := by
  rw [List.append_assoc, h', h]

theorem Stores.andThen {stored' : β → List Token}
    {f : α → (rest : List Token) → rest.length ≤ tokens.length → Step β rest}
    (hs : s.Stores before stored) (hf : ∀ a rest h, (f a rest h).Stores (stored a) stored') :
    (s.andThen f).Stores before stored' := by
  intro b hb
  unfold Step.andThen at hb ⊢
  split at hb
  · cases hb
  · rename_i a ha
    obtain ⟨taken, more, htokens, hstored, hretains⟩ := hs a ha
    obtain ⟨taken', more', htokens', hstored', hretains'⟩ :=
      hf a s.rest s.rest_length_le b hb
    refine ⟨taken ++ taken', more ++ more', append_rest htokens htokens', ?_, ?_⟩
    · rw [hstored', hstored, List.append_assoc]
    · exact (hretains.mono fun h => (List.append_eq_nil_iff.mp h).1).append
        (hretains'.mono fun h => (List.append_eq_nil_iff.mp h).2)

/-- An item that starts with the token `t`, and then a list. An item that could not be read adds
nothing, and then something is reported. -/
theorem Stores.collect {t : Token} {stored' : List α → List Token}
    {f : (rest : List Token) → rest.length ≤ tokens.length → Step (List α) rest}
    (hs : s.Stores t.kept stored) (haccounts : s.Accounts)
    (hf : ∀ rest h, (f rest h).Stores [] stored')
    (hcons : ∀ a as, stored' (a :: as) = stored a ++ stored' as) :
    ((s.collect f).past t).Stores [] stored' := by
  intro bs hbs
  obtain ⟨as, has, rfl⟩ := Option.map_eq_some_iff.mp hbs
  obtain ⟨taken', more', htokens', hstored', hretains'⟩ := hf s.rest s.rest_length_le as has
  cases hn : s.node with
  | none =>
    obtain ⟨taken, htokens⟩ := s.rest_suffix
    have herrors : (s.collect f).report.errors ≠ [] :=
      fun h => haccounts hn (List.append_eq_nil_iff.mp h).1
    refine ⟨t :: (taken ++ taken'), more', congrArg (t :: ·) (append_rest htokens htokens'),
      hstored', ?_, fun h => absurd h herrors⟩
    exact hretains'.sublist.trans (List.sublist_append_right (t :: taken) taken')
  | some a =>
    obtain ⟨taken, more, htokens, hstored, hretains⟩ := hs a hn
    refine ⟨t :: (taken ++ taken'), t.kept ++ (more ++ more'),
      congrArg (t :: ·) (append_rest htokens htokens'), ?_, ?_⟩
    · show stored' (a :: as) = _
      rw [hcons, hstored, hstored', List.nil_append, List.nil_append, List.append_assoc]
    · exact (retains_kept _ t).append
        ((hretains.mono fun h => (List.append_eq_nil_iff.mp h).1).append
          (hretains'.mono fun h => (List.append_eq_nil_iff.mp h).2))

theorem Stores.recovering (h : s.Stores before stored) : s.recovering.Stores before stored := by
  unfold Step.recovering
  split
  · exact h
  · intro a ha
    cases ha

/-- The same step with more tokens stored before it. -/
theorem Stores.prepend (h : s.Stores [] stored) (before : List Token) :
    s.Stores before fun a => before ++ stored a := by
  intro a ha
  obtain ⟨taken, more, htokens, hstored, hretains⟩ := h a ha
  exact ⟨taken, more, htokens, congrArg (before ++ ·) hstored, hretains⟩

/-- The required token is stored as `stored` says. -/
theorem stores_expect {kind : TokenKind} {stored : Token → List Token}
    (h : ∀ t P, t.kind = kind → ∃ ts, stored t = before ++ ts ∧ Retains P ts [t]) (endLine : Nat)
    (tokens : List Token) : (expect endLine kind tokens).Stores before stored := by
  cases tokens with
  | nil => exact stores_fail _
  | cons t ts =>
    rw [expect_cons]
    split
    · rename_i hk
      intro u hu
      cases hu
      obtain ⟨us, hus, hretains⟩ := h t _ hk
      exact ⟨[t], us, rfl, hus, hretains⟩
    · exact stores_fail _

/-- The required token is punctuation. -/
theorem stores_expect_dropped {kind : TokenKind} (h : kind ∈ punctuation) (before : List Token)
    (endLine : Nat) (tokens : List Token) :
    (expect endLine kind tokens).Stores before fun _ => before :=
  stores_expect (fun _ _ ht => ⟨[], by rw [List.append_nil], .dropped (ht ▸ h)⟩) endLine tokens

/-- The required token is no punctuation. -/
theorem stores_expect_single {kind : TokenKind} (h : kind ∉ punctuation) (before : List Token)
    (endLine : Nat) (tokens : List Token) :
    (expect endLine kind tokens).Stores before fun t => before ++ [t] :=
  stores_expect (fun t _ ht => ⟨[t], rfl, .single (.inl (ht ▸ h))⟩) endLine tokens

theorem stores_optionalSemicolon {a : α} (tokens : List Token) :
    (optionalSemicolon a tokens).Stores (stored a) stored := by
  cases tokens with
  | nil => exact stores_done rfl
  | cons t ts =>
    rw [optionalSemicolon_cons]
    split
    · rename_i hk
      exact (stores_done rfl).past_dropped (hk ▸ by decide)
    · exact stores_done rfl

end Parsing.Step

namespace Parsing
open Step

/-! ### Rules -/

theorem notMem_of_binaryOp? {k : TokenKind} {op : BinaryOp} (h : k.binaryOp? = some op) :
    k ∉ punctuation := by
  cases k <;> first | decide | cases h

theorem integerLiteral_stores {t : Token} (ht : t.kind = .int) (tokens : List Token) :
    (integerLiteral t tokens).Stores t.kept Expr.storedTokens := by
  unfold integerLiteral
  split
  · exact stores_done (Token.kept_eq (ht ▸ by decide)).symm
  · exact stores_fail _

theorem endOfList_stores {α : Type} {before : List Token} {stored : List α → List Token}
    (h : stored [] = before) (endLine : Nat) (tokens : List Token) :
    (endOfList endLine tokens).Stores before stored :=
  (stores_expect_dropped (by decide) [] endLine tokens).map fun _ => by rw [h, List.append_nil]

theorem moreParameters_stores (endLine : Nat) (tokens : List Token) :
    (moreParameters endLine tokens).Stores [] (List.map Identifier.token) := by
  match tokens with
  | [] =>
    rw [moreParameters]
    exact endOfList_stores rfl endLine []
  | t :: ts =>
    rw [moreParameters]
    split
    · rename_i ht
      refine Stores.past_dropped ?_ (ht ▸ by decide)
      refine (stores_expect_single (by decide) _ endLine ts).andThen fun name rest h => ?_
      exact (moreParameters_stores endLine rest).map fun _ => rfl
    · exact endOfList_stores rfl endLine _
termination_by tokens.length

theorem parameters_stores (endLine : Nat) (tokens : List Token) :
    (parameters endLine tokens).Stores [] (List.map Identifier.token) := by
  unfold parameters
  split
  · exact endOfList_stores rfl endLine tokens
  · refine (stores_expect_single (by decide) _ endLine tokens).andThen fun name rest _ => ?_
    exact (moreParameters_stores endLine rest).map fun _ => rfl

mutual

theorem expression_stores (endLine : Nat) (p : Precedence) (tokens : List Token) :
    (expression endLine p tokens).Stores [] Expr.storedTokens := by
  match tokens with
  | [] =>
    rw [expression]
    exact (stores_fail _).within _
  | t :: ts =>
    rw [expression]
    exact (expressionFrom_stores endLine p t ts).past (retains_kept · t)
termination_by 8 * tokens.length

theorem expressionFrom_stores (endLine : Nat) (p : Precedence) (t : Token) (tokens : List Token) :
    (expressionFrom endLine p t tokens).Stores t.kept Expr.storedTokens := by
  rw [expressionFrom]
  refine Stores.within ((operand_stores endLine t tokens).andThen fun left rest _ => ?_) _
  exact operators_stores endLine p left rest
termination_by 8 * tokens.length + 7

theorem operand_stores (endLine : Nat) (t : Token) (tokens : List Token) :
    (operand endLine t tokens).Stores t.kept Expr.storedTokens := by
  have hkept (h : t.kind ∉ punctuation) : t.kept = [t] := Token.kept_eq h
  rw [operand]
  split <;> rename_i ht
  · exact stores_done (hkept (ht ▸ by decide)).symm
  · exact integerLiteral_stores ht tokens
  · exact stores_done (hkept (ht ▸ by decide)).symm
  · exact stores_done (hkept (ht ▸ by decide)).symm
  · rw [hkept (ht ▸ by decide)]
    exact (expression_stores endLine .unary tokens).map fun _ => rfl
  · rw [hkept (ht ▸ by decide)]
    exact (expression_stores endLine .unary tokens).map fun _ => rfl
  · rw [Token.kept_eq_nil (ht ▸ by decide)]
    refine (expression_stores endLine .lowest tokens).andThen fun e rest _ => ?_
    refine (stores_expect_dropped (by decide) [] endLine rest).map fun _ => ?_
    rw [List.append_nil]
  · rw [hkept (ht ▸ by decide)]
    refine (stores_expect_dropped (by decide) [t] endLine tokens).andThen fun _ rest _ => ?_
    refine ((expression_stores endLine .lowest rest).prepend [t]).andThen fun c rest _ => ?_
    refine (stores_expect_dropped (by decide) _ endLine rest).andThen fun _ rest _ => ?_
    refine ((block_stores endLine rest).prepend _).andThen fun b rest _ => ?_
    exact alternative_stores endLine t c b rest
  · rw [hkept (ht ▸ by decide)]
    refine (stores_expect_dropped (by decide) [t] endLine tokens).andThen fun _ rest _ => ?_
    refine ((parameters_stores endLine rest).prepend [t]).andThen fun ps rest _ => ?_
    exact (block_stores endLine rest).map fun _ => rfl
  · exact stores_fail _
termination_by 8 * tokens.length + 6

theorem alternative_stores (endLine : Nat) (t : Token) (c : Expr) (b : Block)
    (tokens : List Token) :
    (alternative endLine t c b tokens).Stores (t :: (c.storedTokens ++ b.storedTokens))
      Expr.storedTokens := by
  match tokens with
  | [] =>
    rw [alternative]
    exact stores_done rfl
  | u :: ts =>
    rw [alternative]
    split
    · rename_i hu
      refine Stores.past_dropped ?_ (hu ▸ by decide)
      refine (block_stores endLine ts).map fun a => ?_
      simp only [Expr.storedTokens, List.cons_append, List.append_assoc]
    · exact stores_done rfl
termination_by 8 * tokens.length

theorem operators_stores (endLine : Nat) (p : Precedence) (left : Expr) (tokens : List Token) :
    (operators endLine p left tokens).Stores left.storedTokens Expr.storedTokens := by
  match tokens with
  | [] =>
    rw [operators]
    exact stores_done rfl
  | t :: ts =>
    rw [operators]
    split
    · rename_i hp
      split
      · rename_i op hop
        refine Stores.past_single ?_ (.inl (notMem_of_binaryOp? hop))
        refine ((expression_stores endLine _ ts).prepend _).andThen fun r rest _ => ?_
        have hstored : left.storedTokens ++ [t] ++ r.storedTokens =
            (Expr.binary t left op r).storedTokens := by
          rw [Expr.storedTokens, List.append_assoc, List.singleton_append]
        exact hstored ▸ operators_stores endLine p _ rest
      · rename_i hop
        have ht : t.kind = .leftParen := leftParen_of_binds hp hop
        refine Stores.past_single ?_ (.inr ht)
        refine ((arguments_stores endLine ts).prepend _).andThen fun es rest _ => ?_
        have hstored : left.storedTokens ++ [t] ++ Expr.allStoredTokens es =
            (Expr.call t left es).storedTokens := by
          rw [Expr.storedTokens, List.append_assoc, List.singleton_append]
        exact hstored ▸ operators_stores endLine p _ rest
    · exact stores_done rfl
termination_by 8 * tokens.length + 1

theorem arguments_stores (endLine : Nat) (tokens : List Token) :
    (arguments endLine tokens).Stores [] Expr.allStoredTokens := by
  rw [arguments]
  split
  · exact endOfList_stores rfl endLine tokens
  · refine (expression_stores endLine .lowest tokens).andThen fun e rest _ => ?_
    exact (moreArguments_stores endLine rest).map fun _ => rfl
termination_by 8 * tokens.length + 2

theorem moreArguments_stores (endLine : Nat) (tokens : List Token) :
    (moreArguments endLine tokens).Stores [] Expr.allStoredTokens := by
  match tokens with
  | [] =>
    rw [moreArguments]
    exact endOfList_stores rfl endLine []
  | t :: ts =>
    rw [moreArguments]
    split
    · rename_i ht
      refine Stores.past_dropped ?_ (ht ▸ by decide)
      refine (expression_stores endLine .lowest ts).andThen fun e rest _ => ?_
      exact (moreArguments_stores endLine rest).map fun _ => rfl
    · exact endOfList_stores rfl endLine _
termination_by 8 * tokens.length + 1

theorem block_stores (endLine : Nat) (tokens : List Token) :
    (block endLine tokens).Stores [] Block.storedTokens := by
  rw [block]
  refine (stores_expect_single (by decide) [] endLine tokens).andThen fun t rest _ => ?_
  exact (blockBody_stores endLine rest).map fun _ => rfl
termination_by 8 * tokens.length + 5

theorem blockBody_stores (endLine : Nat) (tokens : List Token) :
    (blockBody endLine tokens).Stores [] Statement.allStoredTokens := by
  match tokens with
  | [] =>
    rw [blockBody]
    exact stores_fail _
  | t :: ts =>
    rw [blockBody]
    split
    · rename_i ht
      exact (stores_done rfl).past_dropped (ht ▸ by decide)
    · refine (statement_stores endLine t ts).collect (statement_accounts endLine t ts) ?_
        fun _ _ => rfl
      exact fun rest h => blockBody_stores endLine rest
termination_by 8 * tokens.length + 4

theorem statement_stores (endLine : Nat) (t : Token) (tokens : List Token) :
    (statement endLine t tokens).Stores t.kept Statement.storedTokens := by
  rw [statement]
  refine Stores.within ?_ _
  split <;> rename_i ht
  · rw [Token.kept_eq (ht ▸ by decide)]
    refine (stores_expect_single (by decide) [t] endLine tokens).recovering.andThen
      fun name rest _ => ?_
    refine (stores_expect_dropped (by decide) _ endLine rest).recovering.andThen
      fun _ rest _ => ?_
    refine ((expression_stores endLine .lowest rest).prepend _).andThen fun e rest _ => ?_
    exact stores_optionalSemicolon rest
  · rw [Token.kept_eq (ht ▸ by decide)]
    split
    · exact stores_optionalSemicolon tokens
    · refine ((expression_stores endLine .lowest tokens).prepend [t]).andThen fun e rest _ => ?_
      exact stores_optionalSemicolon rest
  · refine (expressionFrom_stores endLine .lowest t tokens).andThen fun e rest _ => ?_
    exact stores_optionalSemicolon rest
termination_by 8 * tokens.length + 8

end

theorem statements_stores (endLine : Nat) (tokens : List Token) :
    (statements endLine tokens).Stores [] Statement.allStoredTokens := by
  match tokens with
  | [] =>
    rw [statements]
    exact stores_done rfl
  | t :: ts =>
    rw [statements]
    refine (statement_stores endLine t ts).collect (statement_accounts endLine t ts) ?_
      fun _ _ => rfl
    exact fun rest h => statements_stores endLine rest
termination_by tokens.length

end Parsing

/-! ### Lines -/

namespace TokenStream

theorem le_line_ofLexemes (line : Nat) (ls : List Lexeme) :
    ∀ t ∈ (ofLexemes line ls).tokens, line ≤ t.line := by
  induction ls generalizing line with
  | nil => exact fun t ht => nomatch ht
  | cons l ls ih =>
    unfold ofLexemes
    split
    · exact fun t ht => Nat.le_of_succ_le (ih (line + 1) t ht)
    split
    · exact ih line
    · exact List.forall_mem_cons.mpr ⟨Nat.le_refl line, ih line⟩

/-- The lines of the tokens of a text never decrease. -/
theorem lines_ofLexemes (line : Nat) (ls : List Lexeme) :
    (ofLexemes line ls).tokens.Pairwise fun t u => t.line ≤ u.line := by
  induction ls generalizing line with
  | nil => exact .nil
  | cons l ls ih =>
    unfold ofLexemes
    split
    · exact ih (line + 1)
    split
    · exact ih line
    · exact .cons (le_line_ofLexemes line ls) (ih line)

end TokenStream

/-- **No token is lost, doubled or moved.** The tokens that the tree of a text stores are taken
from the text in order, each at most once, so that their lines never decrease; and if no error is
reported, they are all the tokens of the text but for punctuation. -/
theorem storedTokens_parse (source : String) :
    ((parse source).errors = [] →
        without [.leftParen] (parse source).program.storedTokens =
          without punctuation (TokenStream.ofSource source).tokens) ∧
      (parse source).program.storedTokens.Sublist (TokenStream.ofSource source).tokens ∧
      ((parse source).program.storedTokens.map Token.line).Pairwise (· ≤ ·) := by
  let stored := (parse source).program.storedTokens
  let tokens := (TokenStream.ofSource source).tokens
  let endLine := (TokenStream.ofSource source).endLine
  obtain ⟨⟨ss, hss⟩, hrest⟩ := Parsing.statements_complete endLine tokens
  obtain ⟨taken, more, htokens, hstored, hretains⟩ :=
    Parsing.statements_stores endLine tokens ss hss
  have htaken : taken = tokens := by
    rw [← htokens, hrest, List.append_nil]
  have hmore : stored = more := by
    show Statement.allStoredTokens ((Parsing.statements endLine tokens).node.getD []) = more
    rw [hss]
    exact hstored
  rw [htaken, ← hmore] at hretains
  refine ⟨hretains.same, hretains.sublist, ?_⟩
  have hlines : tokens.Pairwise fun t u => t.line ≤ u.line := TokenStream.lines_ofLexemes 1 _
  exact List.pairwise_map.mpr (hlines.sublist hretains.sublist)

/-- A call in a condition, an `else` and a function within a function. -/
theorem storedTokens_parse_nested :
    let source := "if (f(1)) \x7b g \x7d else \x7b fn(a, b) \x7b let c = -(a); \x7d \x7d"
    let stored := (parse source).program.storedTokens
    let tokens := (TokenStream.ofSource source).tokens
    (parse source).errors = [] ∧ without [.leftParen] stored = without punctuation tokens := by
  have herrors : (parse
      "if (f(1)) \x7b g \x7d else \x7b fn(a, b) \x7b let c = -(a); \x7d \x7d").errors = [] := by
    decide +kernel
  exact ⟨herrors, (storedTokens_parse _).1 herrors⟩

end LetLang
