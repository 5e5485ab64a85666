import LetLang.Syntax.Printer

/-! Trees up to the tokens they store.

Two trees may be the same program although they were read from different texts: they differ
in the tokens that their nodes keep. An `Erasure` says what is left of the tokens of numbers,
whose digits are printed, and of all other tokens, which nothing prints or evaluates. What two
trees have in common is then an equation between erased trees: `Erasure.shape` forgets every
token, `Erasure.text` keeps the digits of numbers, and `erase_render` says that an erasure that
keeps the digits keeps the printed text. -/
namespace LetLang

/-- What is left of the stored tokens. -/
structure Erasure where
  number : Token → Token
  other : Token → Token

namespace Erasure

/-- Forgets every token. -/
def shape : Erasure := ⟨fun _ => .endOfInput 0, fun _ => .endOfInput 0⟩

/-- Forgets nothing. -/
def exact : Erasure := ⟨id, id⟩

/-- Keeps the digits of numbers and nothing else. -/
def text : Erasure := ⟨fun t => ⟨.int, t.literal, 0⟩, fun _ => .endOfInput 0⟩

/-- One erasure after another. -/
def andThen (v w : Erasure) : Erasure := ⟨w.number ∘ v.number, w.other ∘ v.other⟩

/-- Does the erasure keep how numbers are written? -/
def KeepsDigits (v : Erasure) : Prop := ∀ t, (v.number t).literal = t.literal

theorem text_keepsDigits : text.KeepsDigits := fun _ => rfl

end Erasure

/-- The identifier with its token erased. -/
def Identifier.erase (v : Erasure) (i : Identifier) : Identifier := ⟨v.other i.token, i.name⟩

mutual

/-- The expression with its tokens erased. -/
def Expr.erase (v : Erasure) : Expr → Expr
  | .identifier i => .identifier (i.erase v)
  | .integer t n => .integer (v.number t) n
  | .boolean t b => .boolean (v.other t) b
  | .unary t op e => .unary (v.other t) op (e.erase v)
  | .binary t l op r => .binary (v.other t) (l.erase v) op (r.erase v)
  | .ifThen t c b => .ifThen (v.other t) (c.erase v) (b.erase v)
  | .ifThenElse t c b a => .ifThenElse (v.other t) (c.erase v) (b.erase v) (a.erase v)
  | .function t ps b => .function (v.other t) (ps.map (Identifier.erase v)) (b.erase v)
  | .call t f es => .call (v.other t) (f.erase v) (Expr.eraseAll v es)

/-- The expressions with their tokens erased. -/
def Expr.eraseAll (v : Erasure) : List Expr → List Expr
  | [] => []
  | e :: es => e.erase v :: Expr.eraseAll v es

/-- The block with its tokens erased. -/
def Block.erase (v : Erasure) : Block → Block
  | .mk t ss => .mk (v.other t) (Statement.eraseAll v ss)

/-- The statement with its tokens erased. -/
def Statement.erase (v : Erasure) : Statement → Statement
  | .letIn t i e => .letIn (v.other t) (i.erase v) (e.erase v)
  | .returnNothing t => .returnNothing (v.other t)
  | .returnValue t e => .returnValue (v.other t) (e.erase v)
  | .expression t e => .expression (v.other t) (e.erase v)

/-- The statements with their tokens erased. -/
def Statement.eraseAll (v : Erasure) : List Statement → List Statement
  | [] => []
  | s :: ss => s.erase v :: Statement.eraseAll v ss

end

/-- The program with its tokens erased. -/
def Program.erase (v : Erasure) (p : Program) : Program := ⟨Statement.eraseAll v p.statements⟩

/-! ### Erasing nothing -/

theorem Identifier.map_erase_exact (is : List Identifier) : is.map (erase .exact) = is :=
  List.map_id is

mutual

theorem Expr.erase_exact (e : Expr) : e.erase .exact = e := by
  cases e with
  | identifier i => rfl
  | integer t n => rfl
  | boolean t b => rfl
  | unary t op e => simp only [Expr.erase, Expr.erase_exact e]; rfl
  | binary t l op r => simp only [Expr.erase, Expr.erase_exact l, Expr.erase_exact r]; rfl
  | ifThen t c b => simp only [Expr.erase, Expr.erase_exact c, Block.erase_exact b]; rfl
  | ifThenElse t c b a =>
    simp only [Expr.erase, Expr.erase_exact c, Block.erase_exact b, Block.erase_exact a]; rfl
  | function t ps b =>
    simp only [Expr.erase, Identifier.map_erase_exact, Block.erase_exact b]; rfl
  | call t f es => simp only [Expr.erase, Expr.erase_exact f, Expr.eraseAll_exact es]; rfl

theorem Expr.eraseAll_exact (es : List Expr) : Expr.eraseAll .exact es = es := by
  cases es with
  | nil => rfl
  | cons e es => simp only [Expr.eraseAll, Expr.erase_exact e, Expr.eraseAll_exact es]

theorem Block.erase_exact (b : Block) : b.erase .exact = b := by
  cases b with
  | mk t ss => simp only [Block.erase, Statement.eraseAll_exact ss]; rfl

theorem Statement.erase_exact (s : Statement) : s.erase .exact = s := by
  cases s with
  | letIn t i e => simp only [Statement.erase, Expr.erase_exact e]; rfl
  | returnNothing t => rfl
  | returnValue t e => simp only [Statement.erase, Expr.erase_exact e]; rfl
  | expression t e => simp only [Statement.erase, Expr.erase_exact e]; rfl

theorem Statement.eraseAll_exact (ss : List Statement) : Statement.eraseAll .exact ss = ss := by
  cases ss with
  | nil => rfl
  | cons s ss =>
    simp only [Statement.eraseAll, Statement.erase_exact s, Statement.eraseAll_exact ss]

end

/-! ### Erasing twice -/

section Composition
variable (v w : Erasure)

theorem Identifier.erase_erase (i : Identifier) : (i.erase v).erase w = i.erase (v.andThen w) := rfl

theorem Identifier.map_erase_erase (is : List Identifier) :
    (is.map (erase v)).map (erase w) = is.map (erase (v.andThen w)) := by
  rw [List.map_map]
  rfl

mutual

theorem Expr.erase_erase (e : Expr) : (e.erase v).erase w = e.erase (v.andThen w) := by
  cases e with
  | identifier i => rfl
  | integer t n => rfl
  | boolean t b => rfl
  | unary t op e => simp only [Expr.erase, Expr.erase_erase e]; rfl
  | binary t l op r => simp only [Expr.erase, Expr.erase_erase l, Expr.erase_erase r]; rfl
  | ifThen t c b => simp only [Expr.erase, Expr.erase_erase c, Block.erase_erase b]; rfl
  | ifThenElse t c b a =>
    simp only [Expr.erase, Expr.erase_erase c, Block.erase_erase b, Block.erase_erase a]; rfl
  | function t ps b =>
    simp only [Expr.erase, Identifier.map_erase_erase, Block.erase_erase b]; rfl
  | call t f es => simp only [Expr.erase, Expr.erase_erase f, Expr.eraseAll_eraseAll es]; rfl

theorem Expr.eraseAll_eraseAll (es : List Expr) :
    Expr.eraseAll w (Expr.eraseAll v es) = Expr.eraseAll (v.andThen w) es := by
  cases es with
  | nil => rfl
  | cons e es => simp only [Expr.eraseAll, Expr.erase_erase e, Expr.eraseAll_eraseAll es]

theorem Block.erase_erase (b : Block) : (b.erase v).erase w = b.erase (v.andThen w) := by
  cases b with
  | mk t ss => simp only [Block.erase, Statement.eraseAll_eraseAll ss]; rfl

theorem Statement.erase_erase (s : Statement) : (s.erase v).erase w = s.erase (v.andThen w) := by
  cases s with
  | letIn t i e => simp only [Statement.erase, Identifier.erase_erase, Expr.erase_erase e]; rfl
  | returnNothing t => rfl
  | returnValue t e => simp only [Statement.erase, Expr.erase_erase e]; rfl
  | expression t e => simp only [Statement.erase, Expr.erase_erase e]; rfl

theorem Statement.eraseAll_eraseAll (ss : List Statement) :
    Statement.eraseAll w (Statement.eraseAll v ss) = Statement.eraseAll (v.andThen w) ss := by
  cases ss with
  | nil => rfl
  | cons s ss =>
    simp only [Statement.eraseAll, Statement.erase_erase s, Statement.eraseAll_eraseAll ss]

end

theorem Program.erase_erase (p : Program) : (p.erase v).erase w = p.erase (v.andThen w) :=
  congrArg Program.mk (Statement.eraseAll_eraseAll v w p.statements)

/-- Trees that agree under an erasure agree under every coarser one. -/
theorem Program.erase_eq_of_erase_eq {p q : Program} (h : p.erase v = q.erase v) :
    p.erase (v.andThen w) = q.erase (v.andThen w) := by
  rw [← Program.erase_erase, ← Program.erase_erase, h]

end Composition

/-! ### Printing -/

section Printing
variable {v : Erasure}

theorem Identifier.map_name_erase (is : List Identifier) :
    (is.map (erase v)).map name = is.map name := by
  rw [List.map_map]
  rfl

theorem Expr.isOperation_erase (e : Expr) : (e.erase v).isOperation = e.isOperation := by
  cases e <;> rfl

theorem Statement.separator_erase (s : Statement) (ss : List Statement) :
    (s.erase v).separator (Statement.eraseAll v ss) = s.separator ss := by
  cases s <;> cases ss <;> rfl

theorem Statement.isEmpty_eraseAll (ss : List Statement) :
    (Statement.eraseAll v ss).isEmpty = ss.isEmpty := by
  cases ss <;> rfl

mutual

/-- Printing shows of the stored tokens only the digits of numbers. -/
theorem Expr.erase_render (hv : v.KeepsDigits) (e : Expr) : (e.erase v).render = e.render := by
  cases e with
  | identifier i => rfl
  | integer t n => exact hv t
  | boolean t b => rfl
  | unary t op e => simp only [Expr.erase, Expr.render, Expr.erase_render hv e]
  | binary t l op r =>
    simp only [Expr.erase, Expr.render, Expr.erase_render hv l, Expr.erase_render hv r]
  | ifThen t c b =>
    simp only [Expr.erase, Expr.render, Expr.isOperation_erase, Expr.erase_render hv c,
      Block.erase_render hv b]
  | ifThenElse t c b a =>
    simp only [Expr.erase, Expr.render, Expr.isOperation_erase, Expr.erase_render hv c,
      Block.erase_render hv b, Block.erase_render hv a]
  | function t ps b =>
    simp only [Expr.erase, Expr.render, Identifier.map_name_erase, Block.erase_render hv b]
  | call t f es =>
    simp only [Expr.erase, Expr.render, Expr.erase_render hv f, Expr.eraseAll_renderAll hv es]

theorem Expr.eraseAll_renderAll (hv : v.KeepsDigits) (es : List Expr) :
    Expr.renderAll (Expr.eraseAll v es) = Expr.renderAll es := by
  cases es with
  | nil => rfl
  | cons e es =>
    simp only [Expr.eraseAll, Expr.renderAll, Expr.erase_render hv e, Expr.eraseAll_renderAll hv es]

theorem Block.erase_render (hv : v.KeepsDigits) (b : Block) : (b.erase v).render = b.render := by
  cases b with
  | mk t ss =>
    simp only [Block.erase, Block.render, Statement.isEmpty_eraseAll,
      Statement.eraseAll_renderAll hv ss]

theorem Statement.erase_render (hv : v.KeepsDigits) (s : Statement) :
    (s.erase v).render = s.render := by
  cases s with
  | letIn t i e => simp only [Statement.erase, Statement.render, Expr.erase_render hv e]; rfl
  | returnNothing t => rfl
  | returnValue t e => simp only [Statement.erase, Statement.render, Expr.erase_render hv e]
  | expression t e => simp only [Statement.erase, Statement.render, Expr.erase_render hv e]

theorem Statement.eraseAll_renderAll (hv : v.KeepsDigits) (ss : List Statement) :
    Statement.renderAll (Statement.eraseAll v ss) = Statement.renderAll ss := by
  cases ss with
  | nil => rfl
  | cons s ss =>
    simp only [Statement.eraseAll, Statement.renderAll, Statement.erase_render hv s,
      Statement.separator_erase, Statement.eraseAll_renderAll hv ss]

end

/-- Programs that agree up to tokens, the digits of numbers apart, print the same text. -/
theorem Program.render_eq_of_erase_eq (hv : v.KeepsDigits) {p q : Program}
    (h : p.erase v = q.erase v) : p.render = q.render := by
  have hp := Statement.eraseAll_renderAll hv p.statements
  have hq := Statement.eraseAll_renderAll hv q.statements
  have hpq := congrArg Program.statements h
  show Statement.renderAll p.statements = Statement.renderAll q.statements
  rw [← hp, ← hq]
  exact congrArg Statement.renderAll hpq

end Printing

end LetLang
