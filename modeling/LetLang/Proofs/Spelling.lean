import Mathlib.Data.List.TakeWhile
import LetLang.Parsing
import LetLang.Proofs.Steps
import LetLang.Proofs.WellFormed

/-! Whatever is read is well formed.

A token that is cut out of a text is spelled as its kind asks (`ofSource_spelled`), and the
rules of the grammar make names and numbers of such tokens alone, also on their way out of an
error: so every tree that comes out of a text is well formed (`parse_wellFormed`). -/
namespace LetLang

/-- Identifiers are names, and numbers are digits. -/
structure Token.Spelled (t : Token) : Prop where
  name : t.kind = .identifier → IsName t.literal
  digits : t.kind = .int → t.literal.toList ≠ [] ∧ ∀ c ∈ t.literal.toList, c.isDigit = true

/-! ### Tokens -/

namespace Lexeme

/-- The token that a lexeme makes. -/
def Spelled (l : Lexeme) : Prop := Token.Spelled ⟨l.kind, String.ofList l.text, 0⟩

theorem spelled_of_kind {l : Lexeme} (hi : l.kind ≠ .identifier) (hn : l.kind ≠ .int) :
    l.Spelled :=
  ⟨fun h => absurd h hi, fun h => absurd h hn⟩

/-- A word that has no kind of its own is not reserved. -/
theorem unreserved_of_wordKind {word : List Char} (h : wordKind word = .identifier) :
    String.ofList word ∉ keywords.map Prod.fst := by
  intro hmem
  unfold wordKind at h
  generalize String.ofList word = w at h hmem
  simp only [keywords, List.map_cons, List.map_nil, List.mem_cons, List.not_mem_nil,
    or_false] at hmem
  rcases hmem with rfl | rfl | rfl | rfl | rfl | rfl | rfl <;> revert h <;> decide

theorem wordKind_ne_int (word : List Char) : wordKind word ≠ .int := by
  unfold wordKind
  generalize String.ofList word = w
  simp only [keywords, List.lookup_cons, List.lookup_nil]
  repeat' split
  all_goals decide

theorem symbolKind_ne (c : Char) : symbolKind c ≠ .identifier ∧ symbolKind c ≠ .int := by
  unfold symbolKind
  split <;> decide

theorem mark_spelled (c : Char) (cs : List Char) : (mark c cs).1.Spelled := by
  unfold mark
  split
  · exact spelled_of_kind (by simp [run]) (by simp [run])
  · exact spelled_of_kind (by simp) (by simp)
  · exact spelled_of_kind (by simp) (by simp)
  · exact spelled_of_kind (symbolKind_ne c).1 (symbolKind_ne c).2

/-- The lexeme at the front of a text is spelled as its kind asks. -/
theorem first_spelled (c : Char) (cs : List Char) : (first c cs).1.Spelled := by
  unfold first
  split
  · exact spelled_of_kind (by simp [run]) (by simp [run])
  split
  · rename_i hd
    refine ⟨fun h => by simp [run] at h, fun _ => ⟨by simp [run], ?_⟩⟩
    intro d hmem
    rw [run, String.toList_ofList] at hmem
    rcases List.mem_cons.mp hmem with rfl | hmem
    · exact hd
    · exact List.mem_takeWhile_imp hmem
  split
  · rename_i hw
    refine ⟨fun h => ⟨?_, unreserved_of_wordKind h⟩, fun h => absurd h (wordKind_ne_int _)⟩
    exact ⟨c, cs.takeWhile continuesWord, String.toList_ofList, hw, fun d => List.mem_takeWhile_imp⟩
  · exact mark_spelled c cs

theorem split_spelled (cs : List Char) : ∀ l ∈ split cs, l.Spelled := by
  fun_induction split cs with
  | case1 => simp
  | case2 c cs ih =>
    intro l hl
    rcases List.mem_cons.mp hl with rfl | hl
    · exact first_spelled c cs
    · exact ih l hl

end Lexeme

namespace TokenStream

theorem ofLexemes_spelled (ls : List Lexeme) (line : Nat) (h : ∀ l ∈ ls, l.Spelled) :
    ∀ t ∈ (ofLexemes line ls).tokens, t.Spelled := by
  induction ls generalizing line with
  | nil => simp [ofLexemes]
  | cons l ls ih =>
    have htail := fun l' hl' => h l' (List.mem_cons_of_mem l hl')
    unfold ofLexemes
    split
    · exact ih _ htail
    split
    · exact ih _ htail
    · intro t ht
      rcases List.mem_cons.mp ht with rfl | ht
      · have hl := h l (List.mem_cons_self ..)
        exact ⟨hl.name, hl.digits⟩
      · exact ih _ htail t ht

/-- Every token of a text is spelled as its kind asks. -/
theorem ofSource_spelled (source : String) : ∀ t ∈ (ofSource source).tokens, t.Spelled :=
  ofLexemes_spelled _ 1 (Lexeme.split_spelled _)

end TokenStream

/-! ### Trees -/

namespace Parsing
open Step

/-- All tokens are spelled as their kinds ask. -/
def AllSpelled (tokens : List Token) : Prop := ∀ t ∈ tokens, t.Spelled

theorem AllSpelled.of_suffix {tokens rest : List Token} (h : AllSpelled tokens)
    (hr : rest <:+ tokens) : AllSpelled rest :=
  fun t ht => h t (hr.subset ht)

theorem AllSpelled.head {t : Token} {ts : List Token} (h : AllSpelled (t :: ts)) : t.Spelled :=
  h t (List.mem_cons_self ..)

theorem AllSpelled.tail {t : Token} {ts : List Token} (h : AllSpelled (t :: ts)) : AllSpelled ts :=
  fun u hu => h u (List.mem_cons_of_mem t hu)

/-- A token that had to be an identifier is a name. -/
theorem expect_gives_name {tokens : List Token} (h : AllSpelled tokens) (endLine : Nat) :
    (expect endLine .identifier tokens).Gives fun t => IsName t.literal := by
  intro t ht
  obtain ⟨hmem, hkind⟩ := gives_expect endLine .identifier tokens t ht
  exact (h t hmem).name hkind

theorem integerLiteral_gives {t : Token} (ht : t.Spelled) (hk : t.kind = .int)
    (tokens : List Token) : (integerLiteral t tokens).Gives Expr.WellFormed := by
  unfold integerLiteral
  split
  · rename_i n hn
    obtain ⟨hne, hd⟩ := ht.digits hk
    exact gives_done ⟨hne, hd, integerValue?_eq_some_iff.mp hn⟩
  · exact gives_fail _

/-- The names of parameters are names. -/
def AllNames (is : List Identifier) : Prop := ∀ i ∈ is, IsName i.name

theorem allNames_cons {t : Token} {is : List Identifier} (ht : IsName t.literal)
    (h : AllNames is) : AllNames (.ofToken t :: is) := by
  intro i hi
  rcases List.mem_cons.mp hi with rfl | hi
  · exact ht
  · exact h i hi

theorem endOfList_gives {α : Type} {P : List α → Prop} (h : P []) (endLine : Nat)
    (tokens : List Token) : (endOfList endLine tokens).Gives P :=
  Gives.map fun _ _ => h

theorem moreParameters_gives (endLine : Nat) (tokens : List Token) (h : AllSpelled tokens) :
    (moreParameters endLine tokens).Gives AllNames := by
  have hnil : AllNames [] := fun i hi => absurd hi List.not_mem_nil
  match tokens, h with
  | [], h =>
    rw [moreParameters]
    exact endOfList_gives hnil endLine []
  | t :: ts, h =>
    rw [moreParameters]
    split
    · refine ((expect_gives_name h.tail endLine).andThen fun name rest hlen hs hn => ?_).past t
      have := moreParameters_gives endLine rest (h.tail.of_suffix hs)
      exact Gives.map fun is his => allNames_cons hn (this is his)
    · exact endOfList_gives hnil endLine _
termination_by tokens.length

theorem parameters_gives (endLine : Nat) (tokens : List Token) (h : AllSpelled tokens) :
    (parameters endLine tokens).Gives AllNames := by
  unfold parameters
  split
  · exact endOfList_gives (fun i hi => absurd hi List.not_mem_nil) endLine tokens
  · refine (expect_gives_name h endLine).andThen fun name rest _ hs hn => ?_
    have := moreParameters_gives endLine rest (h.of_suffix hs)
    exact Gives.map fun is his => allNames_cons hn (this is his)

mutual

theorem expression_gives (endLine : Nat) (p : Precedence) (tokens : List Token)
    (h : AllSpelled tokens) : (expression endLine p tokens).Gives Expr.WellFormed := by
  match tokens, h with
  | [], h =>
    rw [expression]
    exact (gives_fail _).within _
  | t :: ts, h =>
    rw [expression]
    exact (expressionFrom_gives endLine p t ts h.head h.tail).past t
termination_by 8 * tokens.length

theorem expressionFrom_gives (endLine : Nat) (p : Precedence) (t : Token) (tokens : List Token)
    (ht : t.Spelled) (h : AllSpelled tokens) :
    (expressionFrom endLine p t tokens).Gives Expr.WellFormed := by
  rw [expressionFrom]
  refine Gives.within (.andThen (operand_gives endLine t tokens ht h) ?_) _
  intro left rest _ hs hleft
  exact operators_gives endLine p left rest hleft (h.of_suffix hs)
termination_by 8 * tokens.length + 7

theorem operand_gives (endLine : Nat) (t : Token) (tokens : List Token) (ht : t.Spelled)
    (h : AllSpelled tokens) : (operand endLine t tokens).Gives Expr.WellFormed := by
  rw [operand]
  split
  · exact gives_done (ht.name ‹_›)
  · exact integerLiteral_gives ht ‹_› tokens
  · exact gives_done trivial
  · exact gives_done trivial
  · exact Gives.map (expression_gives endLine .unary tokens h)
  · exact Gives.map (expression_gives endLine .unary tokens h)
  · refine (expression_gives endLine .lowest tokens h).andThen fun e rest _ _ he => ?_
    exact Gives.map fun _ _ => he
  · refine (gives_expect endLine .leftParen tokens).andThen fun _ rest _ hs _ => ?_
    have h := h.of_suffix hs
    refine (expression_gives endLine .lowest rest h).andThen fun c rest _ hs hc => ?_
    have h := h.of_suffix hs
    refine (gives_expect endLine .rightParen rest).andThen fun _ rest _ hs _ => ?_
    have h := h.of_suffix hs
    refine (block_gives endLine rest h).andThen fun b rest _ hs hb => ?_
    exact alternative_gives endLine t c b rest hc hb (h.of_suffix hs)
  · refine (gives_expect endLine .leftParen tokens).andThen fun _ rest _ hs _ => ?_
    have h := h.of_suffix hs
    refine (parameters_gives endLine rest h).andThen fun ps rest _ hs hps => ?_
    have hb := block_gives endLine rest (h.of_suffix hs)
    exact Gives.map fun b hb' => ⟨hps, hb b hb'⟩
  · exact gives_fail _
termination_by 8 * tokens.length + 6

theorem alternative_gives (endLine : Nat) (t : Token) (c : Expr) (b : Block) (tokens : List Token)
    (hc : c.WellFormed) (hb : b.WellFormed) (h : AllSpelled tokens) :
    (alternative endLine t c b tokens).Gives Expr.WellFormed := by
  match tokens, h with
  | [], h =>
    rw [alternative]
    exact gives_done ⟨hc, hb⟩
  | u :: ts, h =>
    rw [alternative]
    split
    · have ha := block_gives endLine ts h.tail
      exact Gives.past (Gives.map fun a ha' => ⟨hc, hb, ha a ha'⟩) u
    · exact gives_done ⟨hc, hb⟩
termination_by 8 * tokens.length

theorem operators_gives (endLine : Nat) (p : Precedence) (left : Expr) (tokens : List Token)
    (hleft : left.WellFormed) (h : AllSpelled tokens) :
    (operators endLine p left tokens).Gives Expr.WellFormed := by
  match tokens, h with
  | [], h =>
    rw [operators]
    exact gives_done hleft
  | t :: ts, h =>
    rw [operators]
    split
    · split
      · refine ((expression_gives endLine _ ts h.tail).andThen fun r rest _ hs hr => ?_).past t
        exact operators_gives endLine p _ rest ⟨hleft, hr⟩ (h.tail.of_suffix hs)
      · refine ((arguments_gives endLine ts h.tail).andThen fun es rest _ hs hes => ?_).past t
        exact operators_gives endLine p _ rest ⟨hleft, hes⟩ (h.tail.of_suffix hs)
    · exact gives_done hleft
termination_by 8 * tokens.length + 1

theorem arguments_gives (endLine : Nat) (tokens : List Token) (h : AllSpelled tokens) :
    (arguments endLine tokens).Gives Expr.AllWellFormed := by
  rw [arguments]
  split
  · exact endOfList_gives trivial endLine tokens
  · refine (expression_gives endLine .lowest tokens h).andThen fun e rest _ hs he => ?_
    have hes := moreArguments_gives endLine rest (h.of_suffix hs)
    exact Gives.map fun es hes' => ⟨he, hes es hes'⟩
termination_by 8 * tokens.length + 2

theorem moreArguments_gives (endLine : Nat) (tokens : List Token) (h : AllSpelled tokens) :
    (moreArguments endLine tokens).Gives Expr.AllWellFormed := by
  match tokens, h with
  | [], h =>
    rw [moreArguments]
    exact endOfList_gives trivial endLine []
  | t :: ts, h =>
    rw [moreArguments]
    split
    · refine ((expression_gives endLine .lowest ts h.tail).andThen fun e rest _ hs he => ?_).past t
      have hes := moreArguments_gives endLine rest (h.tail.of_suffix hs)
      exact Gives.map fun es hes' => ⟨he, hes es hes'⟩
    · exact endOfList_gives trivial endLine _
termination_by 8 * tokens.length + 1

theorem block_gives (endLine : Nat) (tokens : List Token) (h : AllSpelled tokens) :
    (block endLine tokens).Gives Block.WellFormed := by
  rw [block]
  refine (gives_expect endLine .leftBrace tokens).andThen fun t rest _ hs _ => ?_
  have hss := blockBody_gives endLine rest (h.of_suffix hs)
  exact Gives.map fun ss hss' => hss ss hss'
termination_by 8 * tokens.length + 5

theorem blockBody_gives (endLine : Nat) (tokens : List Token) (h : AllSpelled tokens) :
    (blockBody endLine tokens).Gives Statement.AllWellFormed := by
  match tokens, h with
  | [], h =>
    rw [blockBody]
    exact gives_fail _
  | t :: ts, h =>
    rw [blockBody]
    split
    · exact (gives_done trivial).past t
    · have hs := statement_gives endLine t ts h.head h.tail
      refine (hs.collect (fun rest _ hs => ?_) fun s ss hs hss => ⟨hs, hss⟩).past t
      exact blockBody_gives endLine rest (h.tail.of_suffix hs)
termination_by 8 * tokens.length + 4

theorem statement_gives (endLine : Nat) (t : Token) (tokens : List Token) (ht : t.Spelled)
    (h : AllSpelled tokens) : (statement endLine t tokens).Gives Statement.WellFormed := by
  rw [statement]
  refine Gives.within ?_ _
  split
  · refine (expect_gives_name h endLine).recovering.andThen fun name rest _ hs hn => ?_
    have h := h.of_suffix hs
    refine (gives_expect endLine .assign rest).recovering.andThen fun _ rest _ hs _ => ?_
    refine (expression_gives endLine .lowest rest (h.of_suffix hs)).andThen fun e rest _ _ he => ?_
    have hs : (Statement.letIn t (.ofToken name) e).WellFormed := ⟨hn, he⟩
    exact gives_optionalSemicolon hs rest
  · split
    · have hs : (Statement.returnNothing t).WellFormed := trivial
      exact gives_optionalSemicolon hs tokens
    · refine (expression_gives endLine .lowest tokens h).andThen fun e rest _ _ he => ?_
      have hs : (Statement.returnValue t e).WellFormed := he
      exact gives_optionalSemicolon hs rest
  · refine (expressionFrom_gives endLine .lowest t tokens ht h).andThen fun e rest _ _ he => ?_
    have hs : (Statement.expression t e).WellFormed := he
    exact gives_optionalSemicolon hs rest
termination_by 8 * tokens.length + 8

end

theorem statements_gives (endLine : Nat) (tokens : List Token) (h : AllSpelled tokens) :
    (statements endLine tokens).Gives Statement.AllWellFormed := by
  match tokens, h with
  | [], h =>
    rw [statements]
    exact gives_done trivial
  | t :: ts, h =>
    rw [statements]
    have hs := statement_gives endLine t ts h.head h.tail
    refine (hs.collect (fun rest _ hs => ?_) fun s ss hs hss => ⟨hs, hss⟩).past t
    exact statements_gives endLine rest (h.tail.of_suffix hs)
termination_by tokens.length

end Parsing

/-- Every tree that comes out of a text is well formed, whether or not errors were reported. -/
theorem parse_wellFormed (source : String) : (parse source).program.WellFormed := by
  have h := Parsing.statements_gives (TokenStream.ofSource source).endLine _
    (TokenStream.ofSource_spelled source)
  show Statement.AllWellFormed (Option.getD _ [])
  cases hn : (Parsing.statements (TokenStream.ofSource source).endLine
      (TokenStream.ofSource source).tokens).node with
  | none => trivial
  | some ss => exact h ss hn

end LetLang
