import Mathlib.Data.List.Forall2
import LetLang.Proofs.Seams

/-! The blocks of a text.

In a text without errors every opening brace is the brace of a block of the tree, and the blocks
follow each other in the tree as their braces do in the text. So the place of a brace among the
other ones says which block of the tree it opens, and that block is what the rule for blocks reads
from the brace on (`blocks_of_reads`). -/
namespace LetLang

/-! ### The blocks of a tree -/

mutual

/-- The blocks in an expression in the order of the text, each in front of those inside of it. -/
def Expr.blocks : Expr → List Block
  | .identifier _ => []
  | .integer _ _ => []
  | .boolean _ _ => []
  | .unary _ _ e => e.blocks
  | .binary _ l _ r => l.blocks ++ r.blocks
  | .ifThen _ c b => c.blocks ++ b.blocks
  | .ifThenElse _ c b a => c.blocks ++ b.blocks ++ a.blocks
  | .function _ _ b => b.blocks
  | .call _ f es => f.blocks ++ Expr.allBlocks es

/-- The blocks in several expressions. -/
def Expr.allBlocks : List Expr → List Block
  | [] => []
  | e :: es => e.blocks ++ Expr.allBlocks es

/-- A block and those in its statements. -/
def Block.blocks : Block → List Block
  | .mk t ss => .mk t ss :: Statement.allBlocks ss

/-- The blocks in a statement. -/
def Statement.blocks : Statement → List Block
  | .letIn _ _ e => e.blocks
  | .returnNothing _ => []
  | .returnValue _ e => e.blocks
  | .expression _ e => e.blocks

/-- The blocks in several statements. -/
def Statement.allBlocks : List Statement → List Block
  | [] => []
  | s :: ss => s.blocks ++ Statement.allBlocks ss

end

/-- The blocks of a program in the order of the text. -/
def Program.blocks (p : Program) : List Block := Statement.allBlocks p.statements

namespace Parsing
open Step

/-! ### The braces of a text -/

/-- The rest of the text from each opening brace on. -/
def openings : List Token → List (List Token)
  | [] => []
  | t :: ts => if t.kind = .leftBrace then (t :: ts) :: openings ts else openings ts

theorem openings_cons {t : Token} (ht : t.kind ≠ .leftBrace) (ts : List Token) :
    openings (t :: ts) = openings ts := by
  rw [openings, if_neg ht]

theorem openings_brace {t : Token} (ht : t.kind = .leftBrace) (ts : List Token) :
    openings (t :: ts) = (t :: ts) :: openings ts := by
  rw [openings, if_pos ht]

/-- The braces of a text are those of its parts. -/
theorem openings_append (ts us : List Token) :
    openings (ts ++ us) = (openings ts).map (· ++ us) ++ openings us := by
  induction ts with
  | nil => rfl
  | cons t ts ih =>
    by_cases ht : t.kind = .leftBrace
    · rw [List.cons_append, openings_brace ht, openings_brace ht, ih]
      rfl
    · rw [List.cons_append, openings_cons ht, openings_cons ht, ih]

/-- The block is what is read from here on. -/
def Opened (endLine : Nat) (tokens : List Token) (b : Block) : Prop :=
  ∃ rest, (block endLine tokens).Reads b rest

/-- The braces from `tokens` up to `rest` open the blocks, one after another. -/
def Opens (endLine : Nat) (tokens rest : List Token) (bs : List Block) : Prop :=
  ∃ os, openings tokens = os ++ openings rest ∧ List.Forall₂ (Opened endLine) os bs

variable {endLine : Nat} {tokens mid rest : List Token} {bs cs : List Block} {t : Token}

theorem opens_refl (endLine : Nat) (tokens : List Token) : Opens endLine tokens tokens [] :=
  ⟨[], rfl, .nil⟩

theorem Opens.trans (h : Opens endLine tokens mid bs) (h' : Opens endLine mid rest cs) :
    Opens endLine tokens rest (bs ++ cs) := by
  obtain ⟨os, htokens, hos⟩ := h
  obtain ⟨ps, hmid, hps⟩ := h'
  refine ⟨os ++ ps, ?_, List.rel_append hos hps⟩
  rw [htokens, hmid, List.append_assoc]

/-- A token that is no brace, in front. -/
theorem Opens.cons (h : Opens endLine tokens rest bs) (ht : t.kind ≠ .leftBrace) :
    Opens endLine (t :: tokens) rest bs := by
  obtain ⟨os, htokens, hos⟩ := h
  exact ⟨os, (openings_cons ht tokens).trans htokens, hos⟩

/-- A token that is no brace, behind. -/
theorem Opens.concat (h : Opens endLine tokens (t :: rest) bs) (ht : t.kind ≠ .leftBrace) :
    Opens endLine tokens rest bs := by
  obtain ⟨os, htokens, hos⟩ := h
  exact ⟨os, by rw [htokens, openings_cons ht], hos⟩

theorem Opens.dropSemicolon (h : Opens endLine tokens rest bs) :
    Opens endLine tokens (dropSemicolon rest) bs := by
  cases rest with
  | nil => exact h
  | cons t rest =>
    rw [Parsing.dropSemicolon]
    split
    · rename_i ht
      exact h.concat (by rw [ht]; decide)
    · exact h

/-! ### Rules -/

theorem moreParameters_opens (tokens : List Token) {is : List Identifier} {rest : List Token}
    (h : (moreParameters endLine tokens).Reads is rest) : Opens endLine tokens rest [] := by
  match tokens with
  | [] =>
    obtain ⟨u, hu, _⟩ := (moreParameters_end_reads_iff (by simp)).mp h
    cases hu
  | t :: ts =>
    by_cases ht : t.kind = .comma
    · obtain ⟨u, us, is', rfl, hu, his, _⟩ := (moreParameters_comma_reads_iff ht).mp h
      exact ((moreParameters_opens us his).cons (by rw [hu]; decide)).cons (by rw [ht]; decide)
    · obtain ⟨u, htokens, hu, _⟩ := (moreParameters_end_reads_iff (forall_head?_cons ht ts)).mp h
      rw [htokens]
      exact (opens_refl endLine rest).cons (by rw [hu]; decide)
termination_by tokens.length

theorem parameters_opens {is : List Identifier} (h : (parameters endLine tokens).Reads is rest) :
    Opens endLine tokens rest [] := by
  cases hnext : nextIs .rightParen tokens with
  | true =>
    obtain ⟨u, rfl, hu, _⟩ := (parameters_nil_reads_iff hnext).mp h
    exact (opens_refl endLine rest).cons (by rw [hu]; decide)
  | false =>
    obtain ⟨u, us, is', rfl, hu, his, _⟩ := (parameters_cons_reads_iff hnext).mp h
    exact (moreParameters_opens us his).cons (by rw [hu]; decide)

mutual

theorem expression_opens (p : Precedence) (tokens : List Token) {e : Expr} {rest : List Token}
    (h : (expression endLine p tokens).Reads e rest) : Opens endLine tokens rest e.blocks := by
  match tokens with
  | [] =>
    rw [expression, reads_within_iff, reads_fail_iff] at h
    exact h.elim
  | t :: ts =>
    obtain ⟨left, mid, hleft, he⟩ := expression_reads_iff.mp h
    have hlength := hleft.length_le
    exact operators_opens p mid he (operand_opens t ts hleft)
termination_by 8 * tokens.length

theorem operand_opens (t : Token) (tokens : List Token) {e : Expr} {rest : List Token}
    (h : (operand endLine t tokens).Reads e rest) : Opens endLine (t :: tokens) rest e.blocks := by
  cases ht : t.kind with
  | identifier =>
    obtain ⟨rfl, rfl⟩ := (operand_identifier_reads_iff ht).mp h
    exact (opens_refl endLine _).cons (by rw [ht]; decide)
  | int =>
    obtain ⟨_, _, rfl, rfl⟩ := (operand_int_reads_iff ht).mp h
    exact (opens_refl endLine _).cons (by rw [ht]; decide)
  | trueWord =>
    obtain ⟨rfl, rfl⟩ := (operand_true_reads_iff ht).mp h
    exact (opens_refl endLine _).cons (by rw [ht]; decide)
  | falseWord =>
    obtain ⟨rfl, rfl⟩ := (operand_false_reads_iff ht).mp h
    exact (opens_refl endLine _).cons (by rw [ht]; decide)
  | bang =>
    obtain ⟨e', he, rfl⟩ := (operand_unary_reads_iff (congrArg TokenKind.unaryOp? ht)).mp h
    exact (expression_opens .unary tokens he).cons (by rw [ht]; decide)
  | minus =>
    obtain ⟨e', he, rfl⟩ := (operand_unary_reads_iff (congrArg TokenKind.unaryOp? ht)).mp h
    exact (expression_opens .unary tokens he).cons (by rw [ht]; decide)
  | leftParen =>
    obtain ⟨u, he, hu⟩ := (operand_group_reads_iff ht).mp h
    exact ((expression_opens .lowest tokens he).cons (by rw [ht]; decide)).concat (by rw [hu]; decide)
  | ifWord =>
    obtain ⟨u, ts, c, v, us, b, mid, htokens, hu, hc, hv, hb, he⟩ :=
      (operand_if_reads_iff ht).mp h
    have htotal : tokens.length = ts.length + 1 := by rw [htokens, List.length_cons]
    have hlength : us.length < ts.length := hc.length_le
    have hlength' := hb.length_le
    have hcondition := (expression_opens .lowest ts hc).concat (by rw [hv]; decide)
    have hblock := hcondition.trans (block_opens us hb)
    rw [htokens]
    exact alternative_opens mid he ((hblock.cons (by rw [hu]; decide)).cons (by rw [ht]; decide))
  | fnWord =>
    obtain ⟨u, ts, ps, mid, b, htokens, hu, hps, hb, rfl⟩ := (operand_fn_reads_iff ht).mp h
    have htotal : tokens.length = ts.length + 1 := by rw [htokens, List.length_cons]
    have hlength := hps.length_le
    have hbody := (parameters_opens hps).trans (block_opens mid hb)
    rw [htokens]
    exact (hbody.cons (by rw [hu]; decide)).cons (by rw [ht]; decide)
  | _ =>
    rw [operand] at h
    simp only [ht, reads_fail_iff] at h
termination_by 8 * tokens.length + 6

theorem alternative_opens {start : List Token} {t : Token} {c : Expr} {b : Block}
    (tokens : List Token) {e : Expr} {rest : List Token}
    (h : (alternative endLine t c b tokens).Reads e rest)
    (hstart : Opens endLine start tokens (c.blocks ++ b.blocks)) :
    Opens endLine start rest e.blocks := by
  match tokens with
  | [] =>
    rw [alternative, reads_done_iff] at h
    obtain ⟨rfl, rfl⟩ := h
    exact hstart
  | u :: ts =>
    by_cases hu : u.kind = .elseWord
    · obtain ⟨a, ha, rfl⟩ := (alternative_else_reads_iff hu).mp h
      exact (hstart.concat (by rw [hu]; decide)).trans (block_opens ts ha)
    · obtain ⟨rfl, rfl⟩ := (alternative_none_reads_iff (noElse_cons hu ts)).mp h
      exact hstart
termination_by 8 * tokens.length

theorem operators_opens {start : List Token} (p : Precedence) {left : Expr} (tokens : List Token)
    {e : Expr} {rest : List Token} (h : (operators endLine p left tokens).Reads e rest)
    (hstart : Opens endLine start tokens left.blocks) : Opens endLine start rest e.blocks := by
  match tokens with
  | [] =>
    rw [operators, reads_done_iff] at h
    obtain ⟨rfl, rfl⟩ := h
    exact hstart
  | t :: ts =>
    by_cases hp : p < t.kind.precedence
    · have ht : t.kind ≠ .leftBrace := by
        intro ht
        rw [ht] at hp
        exact Precedence.not_lt_lowest p hp
      cases hop : t.kind.binaryOp? with
      | some op =>
        obtain ⟨right, mid, hright, he⟩ := (operators_binary_reads_iff hop hp).mp h
        have hlength := hright.length_le
        exact operators_opens p mid he ((hstart.concat ht).trans (expression_opens _ ts hright))
      | none =>
        have hparen := leftParen_of_binds hp hop
        obtain ⟨es, mid, hes, he⟩ :=
          (operators_call_reads_iff hparen (by rwa [hparen] at hp)).mp h
        have hlength := hes.length_le
        exact operators_opens p mid he ((hstart.concat ht).trans (arguments_opens ts hes))
    · obtain ⟨rfl, rfl⟩ := (operators_done_reads_iff (forall_head?_cons hp ts)).mp h
      exact hstart
termination_by 8 * tokens.length + 1

theorem arguments_opens (tokens : List Token) {es : List Expr} {rest : List Token}
    (h : (arguments endLine tokens).Reads es rest) :
    Opens endLine tokens rest (Expr.allBlocks es) := by
  cases hnext : nextIs .rightParen tokens with
  | true =>
    obtain ⟨u, rfl, hu, rfl⟩ := (arguments_nil_reads_iff hnext).mp h
    exact (opens_refl endLine rest).cons (by rw [hu]; decide)
  | false =>
    obtain ⟨e, mid, es', he, hes, rfl⟩ := (arguments_cons_reads_iff hnext).mp h
    have hlength := he.length_le
    exact (expression_opens .lowest tokens he).trans (moreArguments_opens mid hes)
termination_by 8 * tokens.length + 2

theorem moreArguments_opens (tokens : List Token) {es : List Expr} {rest : List Token}
    (h : (moreArguments endLine tokens).Reads es rest) :
    Opens endLine tokens rest (Expr.allBlocks es) := by
  match tokens with
  | [] =>
    obtain ⟨u, hu, _⟩ := (moreArguments_end_reads_iff (by simp)).mp h
    cases hu
  | t :: ts =>
    by_cases ht : t.kind = .comma
    · obtain ⟨e, mid, es', he, hes, rfl⟩ := (moreArguments_comma_reads_iff ht).mp h
      have hlength := he.length_le
      have hmore := (expression_opens .lowest ts he).trans (moreArguments_opens mid hes)
      exact hmore.cons (by rw [ht]; decide)
    · obtain ⟨u, htokens, hu, rfl⟩ := (moreArguments_end_reads_iff (forall_head?_cons ht ts)).mp h
      rw [htokens]
      exact (opens_refl endLine rest).cons (by rw [hu]; decide)
termination_by 8 * tokens.length + 1

theorem block_opens (tokens : List Token) {b : Block} {rest : List Token}
    (h : (block endLine tokens).Reads b rest) : Opens endLine tokens rest b.blocks := by
  obtain ⟨t, ts, ss, rfl, ht, hss, rfl⟩ := block_reads_iff.mp h
  obtain ⟨os, hts, hos⟩ := blockBody_opens ts hss
  exact ⟨_, by rw [openings_brace ht, hts]; rfl, .cons ⟨rest, h⟩ hos⟩
termination_by 8 * tokens.length + 5

theorem blockBody_opens (tokens : List Token) {ss : List Statement} {rest : List Token}
    (h : (blockBody endLine tokens).Reads ss rest) :
    Opens endLine tokens rest (Statement.allBlocks ss) := by
  match tokens with
  | [] =>
    rw [blockBody, reads_fail_iff] at h
    exact h.elim
  | t :: ts =>
    by_cases ht : t.kind = .rightBrace
    · obtain ⟨rfl, rfl⟩ := (blockBody_end_reads_iff ht).mp h
      exact (opens_refl endLine rest).cons (by rw [ht]; decide)
    · obtain ⟨s, mid, ss', hs, hss, rfl⟩ := (blockBody_cons_reads_iff ht).mp h
      have hlength := hs.length_le
      exact (statement_opens t ts hs).trans (blockBody_opens mid hss)
termination_by 8 * tokens.length + 4

theorem statement_opens (t : Token) (tokens : List Token) {s : Statement} {rest : List Token}
    (h : (statement endLine t tokens).Reads s rest) :
    Opens endLine (t :: tokens) rest s.blocks := by
  obtain ⟨own, after, rfl, hown, rfl⟩ := h.owns
  cases hown with
  | letIn ht hu hv he =>
    have hvalue := (expression_opens .lowest _ he).dropSemicolon
    exact ((hvalue.cons (by rw [hv]; decide)).cons (by rw [hu]; decide)).cons (by rw [ht]; decide)
  | returnNothing ht _ => exact (opens_refl endLine after).dropSemicolon.cons (by rw [ht]; decide)
  | returnValue ht he =>
    exact (expression_opens .lowest _ he).dropSemicolon.cons (by rw [ht]; decide)
  | alone _ _ he => exact (expression_opens .lowest (t :: own ++ after) he).dropSemicolon
termination_by 8 * tokens.length + 9

end

theorem statements_opens (tokens : List Token) {ss : List Statement} {rest : List Token}
    (h : (statements endLine tokens).Reads ss rest) :
    Opens endLine tokens rest (Statement.allBlocks ss) := by
  match tokens with
  | [] =>
    rw [statements, reads_done_iff] at h
    obtain ⟨rfl, rfl⟩ := h
    exact opens_refl endLine []
  | t :: ts =>
    obtain ⟨s, mid, ss', hs, hss, rfl⟩ := statements_reads_iff.mp h
    have hlength := hs.length_le
    exact (statement_opens t ts hs).trans (statements_opens mid hss)
termination_by tokens.length

end Parsing

/-! ### Whole texts -/

/-- The blocks of a program that is read without errors are those that its braces open. -/
theorem TokenStream.blocks_opened {s : TokenStream} (h : s.parse.errors = []) :
    List.Forall₂ (Parsing.Opened s.endLine) (Parsing.openings s.tokens) s.parse.program.blocks := by
  obtain ⟨os, hopenings, hos⟩ :=
    Parsing.statements_opens s.tokens (Parsing.reads_of_errors_eq_nil h)
  rw [hopenings, Parsing.openings, List.append_nil]
  exact hos

theorem getElem?_of_forall₂ {α β : Type} {R : α → β → Prop} {as : List α} {bs : List β}
    (h : List.Forall₂ R as bs) {n : Nat} {a : α} (ha : as[n]? = some a) :
    ∃ b, bs[n]? = some b ∧ R a b := by
  induction h generalizing n with
  | nil => cases ha
  | cons hab _ ih =>
    cases n with
    | zero =>
      cases ha
      exact ⟨_, rfl, hab⟩
    | succ n => exact ih ha

/-- The block that a brace opens stands in the program behind those of the braces before it. -/
theorem TokenStream.getElem?_blocks {before rest : List Token} {t : Token} {endLine : Nat}
    (h : (TokenStream.mk (before ++ t :: rest) endLine).parse.errors = [])
    (ht : t.kind = .leftBrace) :
    ∃ b, (TokenStream.mk (before ++ t :: rest) endLine).parse.program.blocks[
        (Parsing.openings before).length]? = some b ∧ Parsing.Opened endLine (t :: rest) b := by
  refine getElem?_of_forall₂ (blocks_opened h) ?_
  rw [Parsing.openings_append, Parsing.openings_brace ht, List.getElem?_append_right (by simp)]
  simp

end LetLang
