import LetLang.Parsing.Step

/-! The rules of the grammar.

An expression is an operand followed by operators. An operator is taken as long as it binds
tighter than the expression's precedence, and its right operand is an expression of the
operator's own precedence, so that operators of one precedence group to the left. A
statement ends with a semicolon if there is one; a block runs up to its closing brace.

A token that starts no expression is passed over when it is complained about, whereas a
token that is not the required one is left where it is. After a `let` without a name or
without its `=`, reading goes on behind the statement.

`endLine` is the line on which the text ends; it is needed for errors at the end. -/
namespace LetLang.Parsing

/-- The value of a run of digits, if it fits. -/
def integerValue? (literal : String) : Option Int64 :=
  let n := Nat.ofDigitChars 10 literal.toList 0
  if n ≤ Int64.maxValue.toInt then some (Int64.ofNat n) else none

/-- A run of digits has the number it denotes as its value. -/
theorem integerValue?_eq_some_iff {literal : String} {n : Int64} :
    integerValue? literal = some n ↔ Nat.ofDigitChars 10 literal.toList 0 = n.toInt := by
  have hofNat (h : Nat.ofDigitChars 10 literal.toList 0 ≤ Int64.maxValue.toInt) :
      (Int64.ofNat (Nat.ofDigitChars 10 literal.toList 0)).toInt =
        Nat.ofDigitChars 10 literal.toList 0 := by
    rw [Int64.toInt_maxValue] at h
    exact Int64.toInt_ofNat_of_lt (by omega)
  simp only [integerValue?]
  constructor
  · intro h
    split at h
    · rename_i hle
      rw [← Option.some.inj h, hofNat hle]
    · cases h
  · intro h
    have hle : Nat.ofDigitChars 10 literal.toList 0 ≤ Int64.maxValue.toInt := h ▸ n.toInt_le
    rw [if_pos hle]
    exact congrArg some (Int64.toInt_inj.mp ((hofNat hle).trans h))

/-- The operand that an integer literal is. -/
def integerLiteral (t : Token) (tokens : List Token) : Step Expr tokens :=
  match integerValue? t.literal with
  | some n => .done (.integer t n)
  | none => .fail (.integerTooLarge t.literal t.line)

/-- Does `return` give back nothing in front of these tokens? -/
def endsReturn (tokens : List Token) : Bool :=
  tokens.isEmpty || nextIs .semicolon tokens || nextIs .rightBrace tokens

/-- The end of a list in parentheses. -/
def endOfList {α : Type} (endLine : Nat) (tokens : List Token) : Step (List α) tokens :=
  (expect endLine .rightParen tokens).map fun _ => []

/-- The parameter names after the first one, up to the closing parenthesis. -/
def moreParameters (endLine : Nat) (tokens : List Token) : Step (List Identifier) tokens :=
  match tokens with
  | [] => endOfList endLine []
  | t :: ts =>
    if t.kind = .comma then
      .past t <| (expect endLine .identifier ts).andThen fun name rest _ =>
        (moreParameters endLine rest).map (.ofToken name :: ·)
    else endOfList endLine (t :: ts)
termination_by tokens.length

/-- The parameter names of a function, behind the opening parenthesis. -/
def parameters (endLine : Nat) (tokens : List Token) : Step (List Identifier) tokens :=
  if nextIs .rightParen tokens then endOfList endLine tokens
  else
    (expect endLine .identifier tokens).andThen fun name rest _ =>
      (moreParameters endLine rest).map (.ofToken name :: ·)

mutual

/-- An expression all of whose operators bind tighter than `p`. -/
def expression (endLine : Nat) (p : Precedence) (tokens : List Token) : Step Expr tokens :=
  match tokens with
  | [] => .within (.expression p []) (.fail (.noOperand .endOfInput endLine))
  | t :: ts => .past t (expressionFrom endLine p t ts)
termination_by 8 * tokens.length

/-- An expression that starts with the token `t`. -/
def expressionFrom (endLine : Nat) (p : Precedence) (t : Token) (tokens : List Token) :
    Step Expr tokens :=
  .within (.expression p (t :: tokens)) <|
    (operand endLine t tokens).andThen fun left rest _ => operators endLine p left rest
termination_by 8 * tokens.length + 7

/-- The operand that starts with the token `t`. -/
def operand (endLine : Nat) (t : Token) (tokens : List Token) : Step Expr tokens :=
  match t.kind with
  | .identifier => .done (.identifier (.ofToken t))
  | .int => integerLiteral t tokens
  | .trueWord => .done (.boolean t true)
  | .falseWord => .done (.boolean t false)
  | .bang => (expression endLine .unary tokens).map (.unary t .not)
  | .minus => (expression endLine .unary tokens).map (.unary t .negate)
  | .leftParen =>
    (expression endLine .lowest tokens).andThen fun e rest _ =>
      (expect endLine .rightParen rest).map fun _ => e
  | .ifWord =>
    (expect endLine .leftParen tokens).andThen fun _ rest _ =>
      (expression endLine .lowest rest).andThen fun condition rest _ =>
        (expect endLine .rightParen rest).andThen fun _ rest _ =>
          (block endLine rest).andThen fun consequence rest _ =>
            alternative endLine t condition consequence rest
  | .fnWord =>
    (expect endLine .leftParen tokens).andThen fun _ rest _ =>
      (parameters endLine rest).andThen fun names rest _ =>
        (block endLine rest).map (.function t names)
  | kind => .fail (.noOperand kind t.line)
termination_by 8 * tokens.length + 6

/-- A conditional whose consequence has been read: its alternative, if it has one. -/
def alternative (endLine : Nat) (t : Token) (condition : Expr) (consequence : Block)
    (tokens : List Token) : Step Expr tokens :=
  match tokens with
  | [] => .done (.ifThen t condition consequence)
  | u :: ts =>
    if u.kind = .elseWord then
      .past u ((block endLine ts).map (.ifThenElse t condition consequence))
    else .done (.ifThen t condition consequence)
termination_by 8 * tokens.length

/-- The operators after an operand, as long as they bind tighter than `p`. -/
def operators (endLine : Nat) (p : Precedence) (left : Expr) (tokens : List Token) :
    Step Expr tokens :=
  match tokens with
  | [] => .done left
  | t :: ts =>
    if p < t.kind.precedence then
      match t.kind.binaryOp? with
      | some op =>
        .past t <| (expression endLine t.kind.precedence ts).andThen fun right rest _ =>
          operators endLine p (.binary t left op right) rest
      | none =>
        .past t <| (arguments endLine ts).andThen fun values rest _ =>
          operators endLine p (.call t left values) rest
    else .done left
termination_by 8 * tokens.length + 1

/-- The arguments of a call, behind the opening parenthesis. -/
def arguments (endLine : Nat) (tokens : List Token) : Step (List Expr) tokens :=
  if nextIs .rightParen tokens then endOfList endLine tokens
  else
    (expression endLine .lowest tokens).andThen fun e rest _ =>
      (moreArguments endLine rest).map (e :: ·)
termination_by 8 * tokens.length + 2

/-- The arguments after the first one, up to the closing parenthesis. -/
def moreArguments (endLine : Nat) (tokens : List Token) : Step (List Expr) tokens :=
  match tokens with
  | [] => endOfList endLine []
  | t :: ts =>
    if t.kind = .comma then
      .past t <| (expression endLine .lowest ts).andThen fun e rest _ =>
        (moreArguments endLine rest).map (e :: ·)
    else endOfList endLine (t :: ts)
termination_by 8 * tokens.length + 1

/-- Statements between braces. -/
def block (endLine : Nat) (tokens : List Token) : Step Block tokens :=
  (expect endLine .leftBrace tokens).andThen fun t rest _ =>
    (blockBody endLine rest).map (.mk t)
termination_by 8 * tokens.length + 5

/-- The statements of a block, up to its closing brace. -/
def blockBody (endLine : Nat) (tokens : List Token) : Step (List Statement) tokens :=
  match tokens with
  | [] => .fail (.unexpectedToken .rightBrace .endOfInput endLine)
  | t :: ts =>
    if t.kind = .rightBrace then .past t (.done [])
    else .past t <| (statement endLine t ts).collect fun rest _ => blockBody endLine rest
termination_by 8 * tokens.length + 4

/-- The statement that starts with the token `t`. -/
def statement (endLine : Nat) (t : Token) (tokens : List Token) : Step Statement tokens :=
  .within (.statement t tokens) <|
    match t.kind with
    | .letWord =>
      (expect endLine .identifier tokens).recovering.andThen fun name rest _ =>
        (expect endLine .assign rest).recovering.andThen fun _ rest _ =>
          (expression endLine .lowest rest).andThen fun value rest _ =>
            optionalSemicolon (.letIn t (.ofToken name) value) rest
    | .returnWord =>
      if endsReturn tokens then optionalSemicolon (.returnNothing t) tokens
      else
        (expression endLine .lowest tokens).andThen fun value rest _ =>
          optionalSemicolon (.returnValue t value) rest
    | _ =>
      (expressionFrom endLine .lowest t tokens).andThen fun e rest _ =>
        optionalSemicolon (.expression t e) rest
termination_by 8 * tokens.length + 8

end

/-- The statements of a whole text. -/
def statements (endLine : Nat) (tokens : List Token) : Step (List Statement) tokens :=
  match tokens with
  | [] => .done []
  | t :: ts => .past t <| (statement endLine t ts).collect fun rest _ => statements endLine rest
termination_by tokens.length

end LetLang.Parsing
