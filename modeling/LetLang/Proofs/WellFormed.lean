import LetLang.Syntax
import LetLang.Lexeme

/-! Trees that can be written down.

A tree is well formed if its names are names of the language, which no reserved word is, and
if its numbers store digits that denote the number. Nothing else is asked: any expression may
be called, be an operand or a condition, and any statements may make up a block. -/
namespace LetLang

/-- Letters, digits and underscores, of which the first is no digit. -/
def IsWord (s : String) : Prop :=
  ∃ c cs, s.toList = c :: cs ∧ Lexeme.startsWord c = true ∧ ∀ d ∈ cs, Lexeme.continuesWord d = true

/-- A word that is not reserved. -/
structure IsName (s : String) : Prop where
  word : IsWord s
  unreserved : s ∉ Lexeme.keywords.map Prod.fst

/-- Digits that denote the number `n`, which fits in 64 bits. -/
structure IsNumeral (s : String) (n : Int64) : Prop where
  nonempty : s.toList ≠ []
  digits : ∀ c ∈ s.toList, c.isDigit = true
  value : (Nat.ofDigitChars 10 s.toList 0 : Int) = n.toInt

mutual

/-- All names are names, and all numbers are numerals. -/
def Expr.WellFormed : Expr → Prop
  | .identifier i => IsName i.name
  | .integer t n => IsNumeral t.literal n
  | .boolean _ _ => True
  | .unary _ _ e => e.WellFormed
  | .binary _ l _ r => l.WellFormed ∧ r.WellFormed
  | .ifThen _ c b => c.WellFormed ∧ b.WellFormed
  | .ifThenElse _ c b a => c.WellFormed ∧ b.WellFormed ∧ a.WellFormed
  | .function _ ps b => (∀ i ∈ ps, IsName i.name) ∧ b.WellFormed
  | .call _ f es => f.WellFormed ∧ Expr.AllWellFormed es

/-- All expressions are well formed. -/
def Expr.AllWellFormed : List Expr → Prop
  | [] => True
  | e :: es => e.WellFormed ∧ Expr.AllWellFormed es

/-- The statements of the block are well formed. -/
def Block.WellFormed : Block → Prop
  | .mk _ ss => Statement.AllWellFormed ss

/-- The parts of the statement are well formed. -/
def Statement.WellFormed : Statement → Prop
  | .letIn _ i e => IsName i.name ∧ e.WellFormed
  | .returnNothing _ => True
  | .returnValue _ e => e.WellFormed
  | .expression _ e => e.WellFormed

/-- All statements are well formed. -/
def Statement.AllWellFormed : List Statement → Prop
  | [] => True
  | s :: ss => s.WellFormed ∧ Statement.AllWellFormed ss

end

/-- All statements of the program are well formed. -/
def Program.WellFormed (p : Program) : Prop := Statement.AllWellFormed p.statements

end LetLang
