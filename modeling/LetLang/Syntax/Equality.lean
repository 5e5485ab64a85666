import LetLang.Syntax

/-! Equality of trees, stored tokens included.

`==` on expressions, blocks, statements and programs decides equality. -/
namespace LetLang

mutual

/-- Are two expressions the same tree with the same tokens? -/
def Expr.same : Expr → Expr → Bool
  | .identifier i, .identifier j => i == j
  | .integer t n, .integer u m => t == u && n == m
  | .boolean t b, .boolean u c => t == u && b == c
  | .unary t o e, .unary u p f => t == u && o == p && e.same f
  | .binary t l o r, .binary u m p s => t == u && o == p && l.same m && r.same s
  | .ifThen t c b, .ifThen u d f => t == u && c.same d && b.same f
  | .ifThenElse t c b a, .ifThenElse u d f g => t == u && c.same d && b.same f && a.same g
  | .function t ps b, .function u qs f => t == u && ps == qs && b.same f
  | .call t f es, .call u g fs => t == u && f.same g && Expr.allSame es fs
  | _, _ => false

/-- Are two lists of expressions the same, item by item? -/
def Expr.allSame : List Expr → List Expr → Bool
  | [], [] => true
  | e :: es, f :: fs => e.same f && Expr.allSame es fs
  | _, _ => false

/-- Are two blocks the same? -/
def Block.same : Block → Block → Bool
  | .mk t ss, .mk u rs => t == u && Statement.allSame ss rs

/-- Are two statements the same? -/
def Statement.same : Statement → Statement → Bool
  | .letIn t i e, .letIn u j f => t == u && i == j && e.same f
  | .returnNothing t, .returnNothing u => t == u
  | .returnValue t e, .returnValue u f => t == u && e.same f
  | .expression t e, .expression u f => t == u && e.same f
  | _, _ => false

/-- Are two lists of statements the same, item by item? -/
def Statement.allSame : List Statement → List Statement → Bool
  | [], [] => true
  | s :: ss, r :: rs => s.same r && Statement.allSame ss rs
  | _, _ => false

end

mutual

/-- Two expressions are the same exactly when they are equal. -/
theorem Expr.same_iff (e f : Expr) : e.same f = true ↔ e = f := by
  cases e with
  | identifier i => cases f <;> simp [Expr.same]
  | integer t n => cases f <;> simp [Expr.same]
  | boolean t b => cases f <;> simp [Expr.same]
  | unary t o e => cases f <;> simp [Expr.same, Expr.same_iff e, and_assoc]
  | binary t l o r =>
    cases f <;> simp [Expr.same, Expr.same_iff l, Expr.same_iff r, and_assoc]
    grind
  | ifThen t c b => cases f <;> simp [Expr.same, Expr.same_iff c, Block.same_iff b, and_assoc]
  | ifThenElse t c b a =>
    cases f <;> simp [Expr.same, Expr.same_iff c, Block.same_iff b, Block.same_iff a, and_assoc]
  | function t ps b => cases f <;> simp [Expr.same, Block.same_iff b, and_assoc]
  | call t g es => cases f <;> simp [Expr.same, Expr.same_iff g, Expr.allSame_iff es, and_assoc]

theorem Expr.allSame_iff (es fs : List Expr) : Expr.allSame es fs = true ↔ es = fs := by
  match es, fs with
  | [], [] => simp [Expr.allSame]
  | [], _ :: _ => simp [Expr.allSame]
  | _ :: _, [] => simp [Expr.allSame]
  | e :: es, f :: fs => simp [Expr.allSame, Expr.same_iff e f, Expr.allSame_iff es fs]

theorem Block.same_iff (b c : Block) : b.same c = true ↔ b = c := by
  match b, c with
  | .mk t ss, .mk u rs => simp [Block.same, Statement.allSame_iff ss rs]

theorem Statement.same_iff (s r : Statement) : s.same r = true ↔ s = r := by
  cases s with
  | letIn t i e => cases r <;> simp [Statement.same, Expr.same_iff e, and_assoc]
  | returnNothing t => cases r <;> simp [Statement.same]
  | returnValue t e => cases r <;> simp [Statement.same, Expr.same_iff e]
  | expression t e => cases r <;> simp [Statement.same, Expr.same_iff e]

theorem Statement.allSame_iff (ss rs : List Statement) :
    Statement.allSame ss rs = true ↔ ss = rs := by
  match ss, rs with
  | [], [] => simp [Statement.allSame]
  | [], _ :: _ => simp [Statement.allSame]
  | _ :: _, [] => simp [Statement.allSame]
  | s :: ss, r :: rs =>
    simp [Statement.allSame, Statement.same_iff s r, Statement.allSame_iff ss rs]

end

instance : DecidableEq Expr := fun e f => decidable_of_iff _ (Expr.same_iff e f)

instance : DecidableEq Block := fun b c => decidable_of_iff _ (Block.same_iff b c)

instance : DecidableEq Statement := fun s r => decidable_of_iff _ (Statement.same_iff s r)

deriving instance DecidableEq for Program

end LetLang
