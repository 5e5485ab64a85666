import LetLang.Lexeme
import LetLang.Proofs.Erasure

/-! The canonical tokens of a tree.

A printed text stands on one line, and its tokens are known without reading it: `tokens` lists
them for every tree. `canonical` is the tree that stores these tokens in place of its own. The
two trees have the same text and differ in nothing else (`Program.canonical_erase`). -/
namespace LetLang

/-! ### Tokens on the first line -/

/-- A word as a token. -/
def Token.word (w : String) : Token := ⟨Lexeme.wordKind w.toList, w, 1⟩

/-- A character that stands alone as a token. -/
def Token.symbol (c : Char) : Token := ⟨Lexeme.symbolKind c, String.ofList [c], 1⟩

/-- Digits as a token. -/
def Token.digits (s : String) : Token := ⟨.int, s, 1⟩

/-- A truth value as a token. -/
def Token.truth (b : Bool) : Token := .word (if b then "true" else "false")

/-- The kind of an operator's token. -/
def UnaryOp.kind : UnaryOp → TokenKind
  | .not => .bang
  | .negate => .minus

/-- The kind of an operator's token. -/
def BinaryOp.kind : BinaryOp → TokenKind
  | .add => .plus
  | .sub => .minus
  | .mul => .asterisk
  | .div => .slash
  | .equal => .equal
  | .notEqual => .notEqual
  | .less => .less
  | .greater => .greater

/-- An operator as a token. -/
def UnaryOp.token (op : UnaryOp) : Token := ⟨op.kind, op.symbol, 1⟩

/-- An operator as a token. -/
def BinaryOp.token (op : BinaryOp) : Token := ⟨op.kind, op.symbol, 1⟩

/-! ### The tokens of a tree -/

/-- Tokens in parentheses, if they are those of an operation. -/
def grouped (isOperation : Bool) (ts : List Token) : List Token :=
  if isOperation then .symbol '(' :: (ts ++ [.symbol ')']) else ts

/-- The names of parameters with commas between them. -/
def Identifier.listTokens : List Identifier → List Token
  | [] => []
  | i :: is => .word i.name :: is.flatMap fun j => [.symbol ',', .word j.name]

mutual

/-- The tokens of an expression without the parentheses that an operation brings. -/
def Expr.innerTokens : Expr → List Token
  | .identifier i => [.word i.name]
  | .integer t _ => [.digits t.literal]
  | .boolean _ b => [.truth b]
  | .unary _ op e => op.token :: grouped e.isOperation e.innerTokens
  | .binary _ l op r =>
    grouped l.isOperation l.innerTokens ++ op.token :: grouped r.isOperation r.innerTokens
  | .ifThen _ c b => .word "if" :: (grouped true c.innerTokens ++ b.tokens)
  | .ifThenElse _ c b a =>
    .word "if" :: (grouped true c.innerTokens ++ (b.tokens ++ .word "else" :: a.tokens))
  | .function _ ps b =>
    .word "fn" :: .symbol '(' :: (Identifier.listTokens ps ++ .symbol ')' :: b.tokens)
  | .call _ f es =>
    grouped f.isOperation f.innerTokens ++ .symbol '(' :: (Expr.listTokens es ++ [.symbol ')'])

/-- The tokens of arguments with commas between them. -/
def Expr.listTokens : List Expr → List Token
  | [] => []
  | e :: es => grouped e.isOperation e.innerTokens ++ Expr.moreTokens es

/-- The tokens of further arguments, each behind a comma. -/
def Expr.moreTokens : List Expr → List Token
  | [] => []
  | e :: es => .symbol ',' :: (grouped e.isOperation e.innerTokens ++ Expr.moreTokens es)

/-- The tokens of a block. -/
def Block.tokens : Block → List Token
  | .mk _ ss => .symbol '\x7b' :: (Statement.allTokens ss ++ [.symbol '\x7d'])

/-- The tokens of a statement. -/
def Statement.tokens : Statement → List Token
  | .letIn _ i e =>
    .word "let" :: .word i.name :: .symbol '=' ::
      (grouped e.isOperation e.innerTokens ++ [.symbol ';'])
  | .returnNothing _ => [.word "return", .symbol ';']
  | .returnValue _ e => .word "return" :: (grouped e.isOperation e.innerTokens ++ [.symbol ';'])
  | .expression _ e => grouped e.isOperation e.innerTokens

/-- The tokens of a sequence of statements. -/
def Statement.allTokens : List Statement → List Token
  | [] => []
  | s :: ss =>
    s.tokens ++ ((if !ss.isEmpty && s.isExpression then [.symbol ';'] else []) ++
      Statement.allTokens ss)

end

/-- The tokens of an expression. -/
def Expr.tokens (e : Expr) : List Token := grouped e.isOperation e.innerTokens

/-! ### The tree that stores them -/

/-- The identifier that its name alone spells. -/
def Identifier.canonical (i : Identifier) : Identifier := .ofToken (.word i.name)

mutual

/-- The expression with its canonical tokens. -/
def Expr.canonical : Expr → Expr
  | .identifier i => .identifier i.canonical
  | .integer t n => .integer (.digits t.literal) n
  | .boolean _ b => .boolean (.truth b) b
  | .unary _ op e => .unary op.token op e.canonical
  | .binary _ l op r => .binary op.token l.canonical op r.canonical
  | .ifThen _ c b => .ifThen (.word "if") c.canonical b.canonical
  | .ifThenElse _ c b a => .ifThenElse (.word "if") c.canonical b.canonical a.canonical
  | .function _ ps b => .function (.word "fn") (ps.map Identifier.canonical) b.canonical
  | .call _ f es => .call (.symbol '(') f.canonical (Expr.allCanonical es)

/-- The expressions with their canonical tokens. -/
def Expr.allCanonical : List Expr → List Expr
  | [] => []
  | e :: es => e.canonical :: Expr.allCanonical es

/-- The block with its canonical tokens. -/
def Block.canonical : Block → Block
  | .mk _ ss => .mk (.symbol '\x7b') (Statement.allCanonical ss)

/-- The statement with its canonical tokens. -/
def Statement.canonical : Statement → Statement
  | .letIn _ i e => .letIn (.word "let") i.canonical e.canonical
  | .returnNothing _ => .returnNothing (.word "return")
  | .returnValue _ e => .returnValue (.word "return") e.canonical
  | .expression _ e => .expression (e.tokens.headD (.endOfInput 1)) e.canonical

/-- The statements with their canonical tokens. -/
def Statement.allCanonical : List Statement → List Statement
  | [] => []
  | s :: ss => s.canonical :: Statement.allCanonical ss

end

/-- The program with its canonical tokens. -/
def Program.canonical (p : Program) : Program := ⟨Statement.allCanonical p.statements⟩

/-! ### What canonical tokens leave as it is -/

theorem Identifier.map_canonical_erase (is : List Identifier) :
    (is.map canonical).map (erase .text) = is.map (erase .text) := by
  rw [List.map_map]
  rfl

mutual

theorem Expr.canonical_erase (e : Expr) : e.canonical.erase .text = e.erase .text := by
  cases e with
  | identifier i => rfl
  | integer t n => rfl
  | boolean t b => rfl
  | unary t op e => simp only [Expr.canonical, Expr.erase, Expr.canonical_erase e]; rfl
  | binary t l op r =>
    simp only [Expr.canonical, Expr.erase, Expr.canonical_erase l, Expr.canonical_erase r]; rfl
  | ifThen t c b =>
    simp only [Expr.canonical, Expr.erase, Expr.canonical_erase c, Block.canonical_erase b]; rfl
  | ifThenElse t c b a =>
    simp only [Expr.canonical, Expr.erase, Expr.canonical_erase c, Block.canonical_erase b,
      Block.canonical_erase a]; rfl
  | function t ps b =>
    simp only [Expr.canonical, Expr.erase, Identifier.map_canonical_erase,
      Block.canonical_erase b]; rfl
  | call t f es =>
    simp only [Expr.canonical, Expr.erase, Expr.canonical_erase f, Expr.allCanonical_eraseAll es]
    rfl

theorem Expr.allCanonical_eraseAll (es : List Expr) :
    Expr.eraseAll .text (Expr.allCanonical es) = Expr.eraseAll .text es := by
  cases es with
  | nil => rfl
  | cons e es =>
    simp only [Expr.allCanonical, Expr.eraseAll, Expr.canonical_erase e,
      Expr.allCanonical_eraseAll es]

theorem Block.canonical_erase (b : Block) : b.canonical.erase .text = b.erase .text := by
  cases b with
  | mk t ss =>
    simp only [Block.canonical, Block.erase, Statement.allCanonical_eraseAll ss]; rfl

theorem Statement.canonical_erase (s : Statement) :
    s.canonical.erase .text = s.erase .text := by
  cases s with
  | letIn t i e => simp only [Statement.canonical, Statement.erase, Expr.canonical_erase e]; rfl
  | returnNothing t => rfl
  | returnValue t e =>
    simp only [Statement.canonical, Statement.erase, Expr.canonical_erase e]; rfl
  | expression t e =>
    simp only [Statement.canonical, Statement.erase, Expr.canonical_erase e]; rfl

theorem Statement.allCanonical_eraseAll (ss : List Statement) :
    Statement.eraseAll .text (Statement.allCanonical ss) = Statement.eraseAll .text ss := by
  cases ss with
  | nil => rfl
  | cons s ss =>
    simp only [Statement.allCanonical, Statement.eraseAll, Statement.canonical_erase s,
      Statement.allCanonical_eraseAll ss]

end

/-- Canonical tokens change nothing but tokens, and no digit of a number. -/
theorem Program.canonical_erase (p : Program) : p.canonical.erase .text = p.erase .text :=
  congrArg Program.mk (Statement.allCanonical_eraseAll p.statements)

/-- The tree with canonical tokens has the same shape. -/
theorem Program.canonical_shape (p : Program) : p.canonical.erase .shape = p.erase .shape :=
  Program.erase_eq_of_erase_eq .text .shape p.canonical_erase

/-- The tree with canonical tokens prints the same text. -/
theorem Program.canonical_render (p : Program) : p.canonical.render = p.render :=
  Program.render_eq_of_erase_eq Erasure.text_keepsDigits p.canonical_erase

end LetLang
