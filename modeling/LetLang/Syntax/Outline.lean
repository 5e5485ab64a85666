import LetLang.Syntax.Printer

/-! The outline of a tree.

An outline lists the nodes of a tree in preorder, a row for each: how deep the node lies,
which part of its parent it is, what it is, its token, and the detail that its kind and its
children do not tell. -/
namespace LetLang

/-- Which part of its parent a node is. -/
inductive Role where
  | statement
  | name
  | value
  | expr
  | operand
  | left
  | right
  | condition
  | consequence
  | alternative
  | parameter
  | body
  | callee
  | argument

/-- What a node is. -/
inductive NodeKind where
  | letIn
  | returning
  | expression
  | identifier
  | integer
  | boolean
  | unary
  | binary
  | conditional
  | function
  | call
  | block

/-- A node's row in an outline. -/
structure Row where
  depth : Nat
  role : Role
  kind : NodeKind
  token : Token
  detail : String

/-- The row of an identifier. -/
def Identifier.row (depth : Nat) (role : Role) (i : Identifier) : Row :=
  ⟨depth, role, .identifier, i.token, i.name⟩

mutual

/-- The rows of an expression. -/
def Expr.rows (depth : Nat) (role : Role) : Expr → List Row
  | .identifier i => [i.row depth role]
  | .integer t n => [⟨depth, role, .integer, t, toString n.toInt⟩]
  | .boolean t b => [⟨depth, role, .boolean, t, if b then "true" else "false"⟩]
  | .unary t op e => ⟨depth, role, .unary, t, op.symbol⟩ :: e.rows (depth + 1) .operand
  | .binary t l op r =>
    ⟨depth, role, .binary, t, op.symbol⟩ ::
      (l.rows (depth + 1) .left ++ r.rows (depth + 1) .right)
  | .ifThen t c b =>
    ⟨depth, role, .conditional, t, "if"⟩ ::
      (c.rows (depth + 1) .condition ++ b.rows (depth + 1) .consequence)
  | .ifThenElse t c b a =>
    ⟨depth, role, .conditional, t, "if"⟩ ::
      (c.rows (depth + 1) .condition ++ b.rows (depth + 1) .consequence ++
        a.rows (depth + 1) .alternative)
  | .function t ps b =>
    ⟨depth, role, .function, t, "fn"⟩ ::
      (ps.map (Identifier.row (depth + 1) .parameter) ++ b.rows (depth + 1) .body)
  | .call t f es =>
    ⟨depth, role, .call, t, "("⟩ :: (f.rows (depth + 1) .callee ++ Expr.allRows (depth + 1) es)

/-- The rows of the arguments of a call. -/
def Expr.allRows (depth : Nat) : List Expr → List Row
  | [] => []
  | e :: es => e.rows depth .argument ++ Expr.allRows depth es

/-- The rows of a block. -/
def Block.rows (depth : Nat) (role : Role) : Block → List Row
  | .mk t ss => ⟨depth, role, .block, t, "\x7b"⟩ :: Statement.allRows (depth + 1) ss

/-- The rows of a statement. -/
def Statement.rows (depth : Nat) : Statement → List Row
  | .letIn t i e =>
    ⟨depth, .statement, .letIn, t, "let"⟩ :: i.row (depth + 1) .name ::
      e.rows (depth + 1) .value
  | .returnNothing t => [⟨depth, .statement, .returning, t, "return"⟩]
  | .returnValue t e => ⟨depth, .statement, .returning, t, "return"⟩ :: e.rows (depth + 1) .value
  | .expression t e =>
    ⟨depth, .statement, .expression, t, t.literal⟩ :: e.rows (depth + 1) .expr

/-- The rows of a sequence of statements. -/
def Statement.allRows (depth : Nat) : List Statement → List Row
  | [] => []
  | s :: ss => s.rows depth ++ Statement.allRows depth ss

end

/-- The outline of a program, whose statements lie at depth 0. -/
def Program.outline (p : Program) : List Row := Statement.allRows 0 p.statements

end LetLang
