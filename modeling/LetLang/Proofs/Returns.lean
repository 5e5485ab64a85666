import LetLang.Proofs.Contracts

/-! A `return` never leaves its function.

Wherever a `return` stands in the body of a function, in an operand, a condition, an argument or a
callee, it ends the call of that function and nothing else: no call is ever interrupted by a
`return`, and so neither is code that has none outside of its function literals, whatever functions
are there to be called. -/
namespace LetLang

/-! ### Code without `return` -/

mutual

/-- Is there no `return` in an expression, outside of function literals? -/
def Expr.isReturnFree : Expr → Bool
  | .identifier _ => true
  | .integer _ _ => true
  | .boolean _ _ => true
  | .unary _ _ e => e.isReturnFree
  | .binary _ l _ r => l.isReturnFree && r.isReturnFree
  | .ifThen _ c b => c.isReturnFree && b.isReturnFree
  | .ifThenElse _ c b a => c.isReturnFree && (b.isReturnFree && a.isReturnFree)
  | .function _ _ _ => true
  | .call _ f es => f.isReturnFree && Expr.allReturnFree es

/-- Is there no `return` in a list of expressions? -/
def Expr.allReturnFree : List Expr → Bool
  | [] => true
  | e :: es => e.isReturnFree && Expr.allReturnFree es

/-- Is there no `return` in a block? -/
def Block.isReturnFree : Block → Bool
  | .mk _ ss => Statement.allReturnFree ss

/-- Is a statement neither a `return` nor one that contains one? -/
def Statement.isReturnFree : Statement → Bool
  | .letIn _ _ e => e.isReturnFree
  | .returnNothing _ => false
  | .returnValue _ _ => false
  | .expression _ e => e.isReturnFree

/-- Is there no `return` in a list of statements? -/
def Statement.allReturnFree : List Statement → Bool
  | [] => true
  | s :: ss => s.isReturnFree && Statement.allReturnFree ss

end

/-- The code has no `return` outside of its function literals. -/
def Condition.returnFree : Condition where
  expr e := e.isReturnFree
  exprs es := Expr.allReturnFree es
  block b := b.isReturnFree
  statement s := s.isReturnFree
  statements ss := Statement.allReturnFree ss
  unary h := h
  binary h := Bool.and_eq_true_iff.mp h
  ifThen h := Bool.and_eq_true_iff.mp h
  ifThenElse h := (Bool.and_eq_true_iff.mp h).imp_right Bool.and_eq_true_iff.mp
  call h := Bool.and_eq_true_iff.mp h
  cons h := Bool.and_eq_true_iff.mp h
  content h := h
  letIn h := h
  returnValue h := nomatch h
  expression h := h
  next h := Bool.and_eq_true_iff.mp h

/-! ### Runs without `return` -/

/-- From no store is the run interrupted by a `return`. -/
def Run.NeverReturns {α : Type} (r : Run α) : Prop := ∀ m v m', r m ≠ .error (.returned v) m'

theorem Run.Meets.neverReturns {α : Type} {Q : α → Prop} {r : Run α}
    (h : r.Meets (fun _ => True) (Interrupt.Beyond fun _ => True) Q) : r.NeverReturns := by
  intro m v m' hresult
  have hm := h m trivial
  rw [hresult] at hm
  exact hm.2

/-- Any store and any values will do where only the way a run ends matters. -/
theorem contract_trivial : CallContract .none (fun _ => True) (fun _ => True) (fun _ => True)
    fun _ => True where
  null := trivial
  integer _ := trivial
  boolean _ := trivial
  function _ _ _ := trivial
  lookup _ _ _ _ := trivial
  define _ _ _ _ := trivial
  count _ _ := trivial
  fail _ := trivial
  unbound _ := trivial
  returned _ _ _ := trivial
  body _ := trivial
  push _ _ _ := ⟨trivial, trivial⟩
  caught _ _ := trivial
  exhausted := trivial

theorem contract_returnFree : Contract .returnFree (fun _ => True) (fun _ => True) (fun _ => True)
    (Interrupt.Beyond fun _ => True) where
  null := trivial
  integer _ := trivial
  boolean _ := trivial
  function _ _ _ := trivial
  lookup _ _ _ _ := trivial
  define _ _ _ _ := trivial
  count _ _ := trivial
  fail _ := trivial
  unbound _ := trivial
  -- A statement without a `return` is none itself.
  returned {s _} hs hreturn _ := by cases s <;> first | cases hs | cases hreturn

/-- **A `return` never crosses the boundary of a function.** Code without a `return` outside of its
function literals ends with a value or an error, unless calls are nested too deeply; and so does
every call, whatever the body of its function is. The value that the body returns is the value of
the call. -/
theorem return_stays_inside (depth : Nat) (frame : FrameId) :
    (∀ e : Expr, e.isReturnFree → (e.eval (Closure.call depth) frame).NeverReturns) ∧
    (∀ es : List Expr, Expr.allReturnFree es →
      (Expr.evalAll (Closure.call depth) frame es).NeverReturns) ∧
    (∀ b : Block, b.isReturnFree → (b.eval (Closure.call depth) frame).NeverReturns) ∧
    (∀ s : Statement, s.isReturnFree → (s.eval (Closure.call depth) frame).NeverReturns) ∧
    (∀ (last : Value) (ss : List Statement), Statement.allReturnFree ss →
      (Statement.evalAll (Closure.call depth) frame last ss).NeverReturns) ∧
    (∀ (g : Closure) (arguments : List Value), (g.call depth arguments).NeverReturns) ∧
    ∀ (g : Closure) (arguments : List Value) (v : Value) (m m' : Machine),
      g.arity = arguments.length →
      g.body.eval (Closure.call depth) m.store.frames.size (m.entering g arguments) =
        .error (.returned v) m' →
      g.call (depth + 1) arguments m = .ok v m' := by
  have hcall := contract_trivial.calls depth
  have c : Rules .returnFree frame 0 _ _ := contract_returnFree.rules trivial
  refine ⟨fun e he => ?_, fun es hes => ?_, fun b hb => ?_, fun s hs => ?_, fun last ss hss => ?_,
    fun g vs => ?_, fun g vs v m m' harity hbody => ?_⟩
  · exact Run.Meets.neverReturns (c.expr hcall (Nat.le_refl 0) e he)
  · exact Run.Meets.neverReturns (c.exprs hcall (Nat.le_refl 0) es hes)
  · exact Run.Meets.neverReturns (c.block hcall (Nat.le_refl 0) b hb)
  · exact Run.Meets.neverReturns (c.statement hcall (Nat.le_refl 0) s hs)
  · exact Run.Meets.neverReturns (c.statements hcall (Nat.le_refl 0) last trivial ss hss)
  · exact Run.Meets.neverReturns (hcall g vs 0 trivial fun _ _ => trivial)
  · rw [Closure.call_succ_apply harity, Run.catchReturn_apply, hbody]

/-- `1 + if (true) { return 2 }` as the body of a function, called where its literal stands. -/
theorem return_stays_inside_operand :
    let t : Token := .endOfInput 0
    let two : Expr := .integer t 2
    let body : Block := .mk t [.expression t
      (.binary t (.integer t 1) .add (.ifThen t (.boolean t true) (.mk t [.returnValue t two])))]
    let e : Expr := .call t (.function t [⟨t, "x"⟩] body) [two]
    let s : Statement := .letIn t ⟨t, "y"⟩ e
    let g : Closure := ⟨0, [⟨t, "x"⟩], body, Store.rootFrame⟩
    let m : Machine := .on Store.root
    let started : Machine := m.entering g [.null]
    let returned : Machine := (body.eval (Closure.call 1) 1).after started
    e.isReturnFree ∧ (e.eval (Closure.call 1) Store.rootFrame).NeverReturns ∧
      Expr.allReturnFree [e, e] ∧
      (Expr.evalAll (Closure.call 1) Store.rootFrame [e, e]).NeverReturns ∧
      (Block.mk t [s]).isReturnFree ∧
      ((Block.mk t [s]).eval (Closure.call 1) Store.rootFrame).NeverReturns ∧
      s.isReturnFree ∧ (s.eval (Closure.call 1) Store.rootFrame).NeverReturns ∧
      Statement.allReturnFree [s, s] ∧
      (Statement.evalAll (Closure.call 1) Store.rootFrame .null [s, s]).NeverReturns ∧
      g.arity = [Value.null].length ∧
      body.eval (Closure.call 1) 1 started = .error (.returned (.integer 2)) returned ∧
      g.call 2 [.null] m = .ok (.integer 2) returned := by
  intro t x body e s g m started returned
  obtain ⟨hexpr, hexprs, hblock, hstatement, hstatements, _, hreturned⟩ :=
    return_stays_inside 1 Store.rootFrame
  have he : e.isReturnFree := rfl
  have hs : s.isReturnFree := rfl
  have hbody : body.eval (Closure.call 1) 1 started = .error (.returned (.integer 2)) returned :=
    rfl
  exact ⟨he, hexpr e he, rfl, hexprs _ rfl, rfl, hblock _ rfl, hs, hstatement s hs, rfl,
    hstatements .null _ rfl, rfl, hbody, hreturned g _ _ m returned rfl hbody⟩

end LetLang
