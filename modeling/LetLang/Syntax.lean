import LetLang.Operator

/-! The tree of a program.

A program is a list of statements; a statement binds a name, returns, or is an expression;
expressions hold blocks of statements in the branches of a conditional and in the body of a
function. Every node keeps the token it was read from: the operator of a binary operation,
the opening parenthesis of a call, the opening brace of a block, and otherwise the node's
first token. Grouping parentheses leave no node. -/
namespace LetLang

/-- A name, with the token that spells it. -/
structure Identifier where
  token : Token
  name : String
  deriving DecidableEq

/-- The identifier that a token spells. -/
def Identifier.ofToken (t : Token) : Identifier := ⟨t, t.literal⟩

mutual

/-- Something that has a value. -/
inductive Expr where
  | identifier (name : Identifier)
  | integer (token : Token) (value : Int64)
  | boolean (token : Token) (value : Bool)
  | unary (token : Token) (op : UnaryOp) (operand : Expr)
  | binary (token : Token) (left : Expr) (op : BinaryOp) (right : Expr)
  | ifThen (token : Token) (condition : Expr) (consequence : Block)
  | ifThenElse (token : Token) (condition : Expr) (consequence alternative : Block)
  | function (token : Token) (parameters : List Identifier) (body : Block)
  | call (token : Token) (callee : Expr) (arguments : List Expr)

/-- Statements between braces. -/
inductive Block where
  | mk (token : Token) (statements : List Statement)

/-- A step of a program; the last one gives the value. -/
inductive Statement where
  | letIn (token : Token) (name : Identifier) (value : Expr)
  | returnNothing (token : Token)
  | returnValue (token : Token) (value : Expr)
  | expression (token : Token) (expr : Expr)

end

/-- A whole source text. -/
structure Program where
  statements : List Statement

/-- The brace that opens a block. -/
def Block.token : Block → Token
  | .mk t _ => t

/-- The statements of a block. -/
def Block.statements : Block → List Statement
  | .mk _ ss => ss

/-- The first token of a statement. -/
def Statement.token : Statement → Token
  | .letIn t _ _ => t
  | .returnNothing t => t
  | .returnValue t _ => t
  | .expression t _ => t

/-- The token an expression is known by. -/
def Expr.token : Expr → Token
  | .identifier i => i.token
  | .integer t _ => t
  | .boolean t _ => t
  | .unary t _ _ => t
  | .binary t _ _ _ => t
  | .ifThen t _ _ => t
  | .ifThenElse t _ _ _ => t
  | .function t _ _ => t
  | .call t _ _ => t

/-- Is the expression an operation, which brings parentheses of its own when printed? -/
def Expr.isOperation : Expr → Bool
  | .unary _ _ _ => true
  | .binary _ _ _ _ => true
  | _ => false

/-- Is the statement an expression alone? -/
def Statement.isExpression : Statement → Bool
  | .expression _ _ => true
  | _ => false

/-- The text of the first token of a program, empty if it has no statement. -/
def Program.firstLiteral (p : Program) : String :=
  match p.statements with
  | [] => ""
  | s :: _ => s.token.literal

end LetLang
