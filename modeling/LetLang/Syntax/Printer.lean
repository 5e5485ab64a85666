import LetLang.Syntax

/-! Printing a tree as source text.

Operations are wrapped in parentheses, so that the printed text shows how they were read;
nothing else is. A conditional puts parentheses around its condition unless the condition
brings its own. Statements are separated by a space, and an expression followed by another
statement is closed by a semicolon, because `a (b)` would be read as a call. Integers are
printed with the digits they were written with. -/
namespace LetLang

/-- What stands between a statement and the statements after it. -/
def Statement.separator (s : Statement) (rest : List Statement) : String :=
  if rest.isEmpty then "" else if s.isExpression then "; " else " "

/-- Statements between braces, with a space on either side. -/
def braced (isEmpty : Bool) (statements : String) : String :=
  if isEmpty then "\x7b \x7d" else "\x7b " ++ statements ++ " \x7d"

/-- A condition, in parentheses. -/
def parenthesized (isOperation : Bool) (condition : String) : String :=
  if isOperation then condition else "(" ++ condition ++ ")"

/-- Items separated by commas. -/
def commaSeparated (items : List String) : String := ", ".intercalate items

mutual

/-- The text of an expression. -/
def Expr.render : Expr → String
  | .identifier i => i.name
  | .integer t _ => t.literal
  | .boolean _ b => if b then "true" else "false"
  | .unary _ op e => "(" ++ op.symbol ++ e.render ++ ")"
  | .binary _ l op r => "(" ++ l.render ++ " " ++ op.symbol ++ " " ++ r.render ++ ")"
  | .ifThen _ c b => "if " ++ parenthesized c.isOperation c.render ++ " " ++ b.render
  | .ifThenElse _ c b a =>
    "if " ++ parenthesized c.isOperation c.render ++ " " ++ b.render ++ " else " ++ a.render
  | .function _ ps b => "fn(" ++ commaSeparated (ps.map Identifier.name) ++ ") " ++ b.render
  | .call _ f es => f.render ++ "(" ++ commaSeparated (Expr.renderAll es) ++ ")"

/-- The texts of several expressions. -/
def Expr.renderAll : List Expr → List String
  | [] => []
  | e :: es => e.render :: Expr.renderAll es

/-- The text of a block. -/
def Block.render : Block → String
  | .mk _ ss => braced ss.isEmpty (Statement.renderAll ss)

/-- The text of a statement. -/
def Statement.render : Statement → String
  | .letIn _ i e => "let " ++ i.name ++ " = " ++ e.render ++ ";"
  | .returnNothing _ => "return;"
  | .returnValue _ e => "return " ++ e.render ++ ";"
  | .expression _ e => e.render

/-- The text of a sequence of statements. -/
def Statement.renderAll : List Statement → String
  | [] => ""
  | s :: ss => s.render ++ s.separator ss ++ Statement.renderAll ss

end

/-- The canonical text of a program. -/
def Program.render (p : Program) : String := Statement.renderAll p.statements

end LetLang
