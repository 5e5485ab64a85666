import LetLang.Proofs.Writes

/-! Judgements about evaluation.

A judgement says something of a run and of its log: what the run keeps, what comes of it, what it
writes. That it holds of evaluation is a matter of single steps. Here the way from these to trees
is gone once, for all judgements: if a judgement obeys the rules for single steps (`Rules`), and
holds of calls, it holds of the evaluation of every tree (`Rules.expr`, `Rules.statements`). That it
holds of calls, nested up to any depth, is then an induction on the depth, which is also made once
(`Closure.call_obeys`).

Some rules are asked for only where the code satisfies a condition, as that a name occurs in it that
may be bound. Such a condition is a parameter, and goes over to the parts that are evaluated in the
same frame (`Condition`). What is said of values may depend on how many frames there are, as that a
function captured one of them; frames are never lost, so it stays true (`Rules.mono`). -/
namespace LetLang

/-! ### Operations -/

/-- A value that holds no function. -/
def Value.IsPlain : Value → Prop
  | .integer _ => True
  | .boolean _ => True
  | _ => False

/-- An error that is about values and not about a name. -/
def RuntimeError.IsNameless : RuntimeError → Prop
  | .unknownIdentifier _ => False
  | _ => True

/-- Does an event belong to evaluation? -/
def Event.isStep : Event → Bool
  | .evaluating _ => true
  | .calling _ => true
  | _ => false

theorem Value.ofInt_isPlain {n : Int} {e : RuntimeError} {x : Value}
    (h : Value.ofInt n e = .ok x) : x.IsPlain := by
  unfold Value.ofInt at h
  split at h
  · cases h
    trivial
  · cases h

theorem Value.ofInt_isNameless {n : Int} {e e' : RuntimeError} (h : ofInt n e = .error e')
    (he : e.IsNameless) : e'.IsNameless := by
  unfold ofInt at h
  split at h <;> cases h
  exact he

theorem UnaryOp.apply_isPlain {op : UnaryOp} {x y : Value} (h : op.apply x = .ok y) :
    y.IsPlain := by
  unfold UnaryOp.apply at h
  split at h
  · cases h
    trivial
  · exact Value.ofInt_isPlain h
  · cases h

theorem BinaryOp.apply_isPlain {op : BinaryOp} {x y z : Value} (h : op.apply x y = .ok z) :
    z.IsPlain := by
  unfold BinaryOp.apply at h
  split at h
  · unfold BinaryOp.applyIntegers at h
    split at h
    · exact Value.ofInt_isPlain h
    · exact Value.ofInt_isPlain h
    · exact Value.ofInt_isPlain h
    · split at h
      · cases h
      · exact Value.ofInt_isPlain h
    all_goals
      cases h
      trivial
  · unfold BinaryOp.applyBooleans at h
    split at h <;> cases h <;> trivial
  · split at h <;> cases h

theorem UnaryOp.apply_isNameless {op : UnaryOp} {v : Value} {e : RuntimeError}
    (h : op.apply v = .error e) : e.IsNameless := by
  unfold UnaryOp.apply at h
  split at h
  · cases h
  · exact Value.ofInt_isNameless h trivial
  · cases h
    trivial

theorem BinaryOp.apply_isNameless {op : BinaryOp} {v w : Value} {e : RuntimeError}
    (h : op.apply v w = .error e) : e.IsNameless := by
  unfold BinaryOp.apply at h
  split at h
  · unfold BinaryOp.applyIntegers at h
    split at h
    case h_4 =>
      split at h
      · cases h
        trivial
      · exact Value.ofInt_isNameless h trivial
    all_goals first | exact Value.ofInt_isNameless h trivial | cases h
  · unfold BinaryOp.applyBooleans at h
    split at h <;> cases h
    trivial
  · split at h <;> cases h <;> trivial

/-! ### Conditions on code -/

/-- Does a statement end the call that it stands in? -/
def Statement.isReturn : Statement → Bool
  | .returnNothing _ => true
  | .returnValue _ _ => true
  | _ => false

/-- A condition on code, which goes over to the parts that are evaluated in the same frame: to all of
them but the bodies of function literals. -/
structure Condition where
  expr : Expr → Prop
  exprs : List Expr → Prop
  block : Block → Prop
  statement : Statement → Prop
  statements : List Statement → Prop
  unary : ∀ {t op e}, expr (.unary t op e) → expr e
  binary : ∀ {t l op r}, expr (.binary t l op r) → expr l ∧ expr r
  ifThen : ∀ {t c b}, expr (.ifThen t c b) → expr c ∧ block b
  ifThenElse : ∀ {t c b a}, expr (.ifThenElse t c b a) → expr c ∧ block b ∧ block a
  call : ∀ {t f es}, expr (.call t f es) → expr f ∧ exprs es
  cons : ∀ {e es}, exprs (e :: es) → expr e ∧ exprs es
  content : ∀ {t ss}, block (.mk t ss) → statements ss
  letIn : ∀ {t i e}, statement (.letIn t i e) → expr e
  returnValue : ∀ {t e}, statement (.returnValue t e) → expr e
  expression : ∀ {t e}, statement (.expression t e) → expr e
  next : ∀ {s ss}, statements (s :: ss) → statement s ∧ statements ss

/-- No condition. -/
def Condition.none : Condition where
  expr _ := True
  exprs _ := True
  block _ := True
  statement _ := True
  statements _ := True
  unary h := h
  binary h := ⟨h, h⟩
  ifThen h := ⟨h, h⟩
  ifThenElse h := ⟨h, h, h⟩
  call h := ⟨h, h⟩
  cons h := ⟨h, h⟩
  content h := h
  letIn h := h
  returnValue h := h
  expression h := h
  next h := ⟨h, h⟩

/-! ### Rules -/

/-- What is said of a run and its log, where at least `n` frames exist. Results are said to be as `Q`
says, which depends on the number of frames too. -/
abbrev Judgement := {α : Type} → (n : Nat) → (Q : Nat → α → Prop) → Run α → Log → Prop

/-- What a judgement owes to chains of steps. -/
structure Judgement.Structural (J : Judgement) : Prop where
  pure : ∀ {α : Type} {n : Nat} {Q : Nat → α → Prop} {a : α}, (∀ k, n ≤ k → Q k a) →
    J n Q (pure a) .nothing
  bind : ∀ {α β : Type} {n : Nat} {P : Nat → α → Prop} {Q : Nat → β → Prop} {r : Run α} {l : Log}
    {f : α → Run β} {g : α → Log}, J n P r l → (∀ a k, n ≤ k → P k a → J k Q (f a) (g a)) →
      J n Q (r >>= f) (r.follow l g)
  record : ∀ {n : Nat} {e : Event}, e.isStep → J n (fun _ _ => True) (Run.record e) .nothing

/-- What a judgement owes to the steps of evaluation in `frame`, where at least `n₀` frames exist, the
code is as `S` says, and values are as `V` says. -/
structure Rules (S : Condition) (frame : FrameId) (n₀ : Nat) (J : Judgement)
    (V : Nat → Value → Prop) : Prop extends Judgement.Structural J where
  integer : ∀ {n} (k : Int64), V n (.integer k)
  boolean : ∀ {n} (b : Bool), V n (.boolean b)
  null : ∀ {n}, V n .null
  mono : ∀ {n k v}, V n v → n ≤ k → V k v
  fail : ∀ {α : Type} {n : Nat} {Q : Nat → α → Prop} {e : RuntimeError}, e.IsNameless →
    J n Q (Run.fail e) .nothing
  lookup : ∀ {n i}, n₀ ≤ n → S.expr (.identifier i) → J n V (Run.lookup frame i.name) .nothing
  function : ∀ {n t ps b}, n₀ ≤ n → S.expr (.function t ps b) →
    J n V (Run.newFunction ps b frame) .nothing
  define : ∀ {n t i e v}, n₀ ≤ n → S.statement (.letIn t i e) → V n v →
    J n (fun _ _ => True) (Run.define frame i.name v) fun _ => [.binding frame i.name v]
  returned : ∀ {n s v}, S.statement s → s.isReturn → V n v →
    J n V (throw (.returned v)) .nothing

/-- A judgement holds of calls of functions and on values as `V` says. -/
def Calling.Obeys (J : Judgement) (V : Nat → Value → Prop) (call : Calling) (log : Logging) : Prop :=
  ∀ g vs n, V n (.function g) → (∀ v ∈ vs, V n v) → J n V (call g vs) (log g vs)

namespace Rules

variable {S : Condition} {frame : FrameId} {n₀ n : Nat} {J : Judgement} {V : Nat → Value → Prop}
  {call : Calling} {log : Logging}

/-- A run and something that writes nothing. -/
theorem andThen (c : Rules S frame n₀ J V) {α β : Type} {P : Nat → α → Prop} {Q : Nat → β → Prop}
    {r : Run α} {l : Log} {f : α → Run β} (hr : J n P r l)
    (hf : ∀ a k, n ≤ k → P k a → J k Q (f a) .nothing) : J n Q (r >>= f) l :=
  r.follow_nothing l ▸ c.bind hr hf

theorem plain (c : Rules S frame n₀ J V) {v : Value} (h : v.IsPlain) : V n v := by
  cases v with
  | integer k => exact c.integer k
  | boolean b => exact c.boolean b
  | _ => exact h.elim

theorem ofExcept (c : Rules S frame n₀ J V) {x : Except RuntimeError Value}
    (hok : ∀ v, x = .ok v → v.IsPlain) (herror : ∀ e, x = .error e → e.IsNameless) :
    J n V (Run.ofExcept x) .nothing := by
  cases x with
  | ok v => exact c.pure fun _ _ => c.plain (hok v rfl)
  | error e => exact c.fail (herror e rfl)

/-- A run behind an event. -/
theorem recorded (c : Rules S frame n₀ J V) (hn : n₀ ≤ n) {e : Event} (he : e.isStep)
    {r : Run Value} {l : Log} (h : ∀ k, n₀ ≤ k → J k V r l) :
    J n V (Run.record e >>= fun _ => r) ((Run.record e).follow .nothing fun _ => l) :=
  c.bind (c.record he) fun _ k hk _ => h k (Nat.le_trans hn hk)

/-! ### Trees -/

mutual

theorem expr (c : Rules S frame n₀ J V) (hcall : call.Obeys J V log) {n : Nat} (hn : n₀ ≤ n)
    (e : Expr) (he : S.expr e) : J n V (e.eval call frame) (e.writes call log frame) := by
  match e, he with
  | .identifier i, he =>
    rw [Expr.eval, Expr.writes]
    exact c.lookup hn he
  | .integer _ k, _ =>
    rw [Expr.eval, Expr.writes]
    exact c.pure fun _ _ => c.integer k
  | .boolean _ b, _ =>
    rw [Expr.eval, Expr.writes]
    exact c.pure fun _ _ => c.boolean b
  | .unary _ op e, he =>
    rw [Expr.eval, Expr.writes]
    refine c.andThen (c.expr hcall hn e (S.unary he)) fun v k _ _ => ?_
    exact c.ofExcept (fun _ h => UnaryOp.apply_isPlain h) fun _ h => UnaryOp.apply_isNameless h
  | .binary _ l op r, he =>
    obtain ⟨hl, hr⟩ := S.binary he
    rw [Expr.eval, Expr.writes]
    refine c.bind (c.expr hcall hn l hl) fun v k hk _ => ?_
    refine c.andThen (c.expr hcall (Nat.le_trans hn hk) r hr) fun w _ _ _ => ?_
    exact c.ofExcept (fun _ h => BinaryOp.apply_isPlain h) fun _ h => BinaryOp.apply_isNameless h
  | .ifThen _ e b, he =>
    obtain ⟨he, hb⟩ := S.ifThen he
    rw [Expr.eval, Expr.writes]
    refine c.bind (c.expr hcall hn e he) fun v k hk _ => ?_
    split
    · exact c.block hcall (Nat.le_trans hn hk) b hb
    · exact c.pure fun _ _ => c.null
  | .ifThenElse _ e b a, he =>
    obtain ⟨he, hb, ha⟩ := S.ifThenElse he
    rw [Expr.eval, Expr.writes]
    refine c.bind (c.expr hcall hn e he) fun v k hk _ => ?_
    split
    · exact c.block hcall (Nat.le_trans hn hk) b hb
    · exact c.block hcall (Nat.le_trans hn hk) a ha
  | .function _ ps b, he =>
    rw [Expr.eval, Expr.writes]
    exact c.function hn he
  | .call _ f es, he =>
    obtain ⟨hf, hes⟩ := S.call he
    rw [Expr.eval, Expr.writes]
    refine c.bind (c.expr hcall hn f hf) fun v k hk hv => ?_
    cases v with
    | function g =>
      refine c.bind (c.exprs hcall (Nat.le_trans hn hk) es hes) fun vs k' hk' hvs => ?_
      exact hcall _ _ _ (c.mono hv hk') hvs
    | _ => exact c.fail trivial

theorem exprs (c : Rules S frame n₀ J V) (hcall : call.Obeys J V log) {n : Nat} (hn : n₀ ≤ n)
    (es : List Expr) (hes : S.exprs es) :
    J n (fun k vs => ∀ v ∈ vs, V k v) (Expr.evalAll call frame es)
      (Expr.writesAll call log frame es) := by
  match es, hes with
  | [], _ =>
    rw [Expr.evalAll, Expr.writesAll]
    exact c.pure fun _ _ => List.forall_mem_nil _
  | e :: es, hes =>
    obtain ⟨he, hes⟩ := S.cons hes
    rw [Expr.evalAll, Expr.writesAll]
    refine c.bind (c.expr hcall hn e he) fun v k hk hv => ?_
    refine c.andThen (c.exprs hcall (Nat.le_trans hn hk) es hes) fun vs k' hk' hvs => ?_
    -- Frames may have been made since the values were there.
    refine c.pure fun k'' hk'' => List.forall_mem_cons.mpr ⟨?_, fun w hw => ?_⟩
    · exact c.mono hv (Nat.le_trans hk' hk'')
    · exact c.mono (hvs w hw) hk''

theorem block (c : Rules S frame n₀ J V) (hcall : call.Obeys J V log) {n : Nat} (hn : n₀ ≤ n)
    (b : Block) (hb : S.block b) : J n V (b.eval call frame) (b.writes call log frame) := by
  match b, hb with
  | .mk _ ss, hb =>
    rw [Block.eval, Block.writes]
    exact c.statements hcall hn .null c.null ss (S.content hb)

/-- A statement is recorded, and what there is to it then is judged as its parts are. -/
theorem content (c : Rules S frame n₀ J V) (hcall : call.Obeys J V log) (s : Statement)
    (hs : S.statement s) :
    ∃ r l, s.eval call frame = (Run.record (.evaluating s) >>= fun _ => r) ∧
      s.writes call log frame = (Run.record (.evaluating s)).follow .nothing (fun _ => l) ∧
      ∀ n, n₀ ≤ n → J n V r l := by
  refine ⟨_, _, Statement.eval.eq_def .., Statement.writes.eq_def .., fun n hn => ?_⟩
  match s, hs with
  | .letIn _ i e, hs =>
    refine c.bind (c.expr hcall hn e (S.letIn hs)) fun v k hk hv => ?_
    refine c.andThen (c.define (Nat.le_trans hn hk) hs hv) fun _ k' hk' _ => ?_
    exact c.pure fun _ hle => c.mono hv (Nat.le_trans hk' hle)
  | .returnNothing _, hs => exact c.returned hs rfl c.null
  | .returnValue _ e, hs =>
    refine c.andThen (c.expr hcall hn e (S.returnValue hs)) fun v _ _ hv => ?_
    exact c.returned hs rfl hv
  | .expression _ e, hs => exact c.expr hcall hn e (S.expression hs)

theorem statements (c : Rules S frame n₀ J V) (hcall : call.Obeys J V log) {n : Nat} (hn : n₀ ≤ n)
    (last : Value) (hlast : V n last) (ss : List Statement) (hss : S.statements ss) :
    J n V (Statement.evalAll call frame last ss) (Statement.writesAll call log frame ss) := by
  match ss, hss with
  | [], _ =>
    rw [Statement.evalAll, Statement.writesAll]
    exact c.pure fun _ hk => c.mono hlast hk
  | s :: ss, hss =>
    obtain ⟨hs, hss⟩ := S.next hss
    obtain ⟨r, l, heval, hwrites, hr⟩ := c.content hcall s hs
    rw [Statement.evalAll, Statement.writesAll, heval, hwrites]
    refine c.bind (c.recorded hn rfl hr) fun v k hk hv => ?_
    exact c.statements hcall (Nat.le_trans hn hk) v hv ss hss

end

theorem statement (c : Rules S frame n₀ J V) (hcall : call.Obeys J V log) (hn : n₀ ≤ n)
    (s : Statement) (hs : S.statement s) :
    J n V (s.eval call frame) (s.writes call log frame) := by
  obtain ⟨r, l, heval, hwrites, hr⟩ := c.content hcall s hs
  rw [heval, hwrites]
  exact c.recorded hn rfl hr

end Rules

/-! ### Calls -/

/-- A function is entered: its body runs in a new frame, up to a `return`. -/
def Closure.enter (call : Calling) : Calling := fun g arguments => do
  Run.record (.calling g.arity)
  let frame ← Run.newFrame (.ofCall g arguments)
  Run.catchReturn (g.body.eval call frame)

/-- What entering a function writes. -/
def Closure.entryWrites (call : Calling) (log : Logging) : Logging := fun g arguments m =>
  let i := m.store.frames.size
  g.passing arguments i ++ g.body.writes call log i (m.entering g arguments)

theorem Closure.enter_apply (call : Calling) (g : Closure) (arguments : List Value) (m : Machine) :
    Closure.enter call g arguments m =
      Run.catchReturn (g.body.eval call m.store.frames.size) (m.entering g arguments) := rfl

/-- A call on as many values as there are parameters enters the function. -/
theorem Closure.call_succ {g : Closure} {arguments : List Value} (h : g.arity = arguments.length)
    (depth : Nat) : g.call (depth + 1) arguments = Closure.enter (Closure.call depth) g arguments := by
  rw [Closure.call, if_pos h]
  rfl

/-- A call on as many values as there are parameters runs the body up to a `return`. -/
theorem Closure.call_succ_apply {g : Closure} {arguments : List Value}
    (h : g.arity = arguments.length) (depth : Nat) (m : Machine) :
    g.call (depth + 1) arguments m =
      Run.catchReturn (g.body.eval (Closure.call depth) m.store.frames.size)
        (m.entering g arguments) := by
  rw [Closure.call_succ h, Closure.enter_apply]

/-- What holds of entering functions if it holds of the calls in their bodies, and of calls that fail
for their arguments or are nested too deeply, holds of calls at any depth. -/
theorem Closure.call_obeys {J : Judgement} {V : Nat → Value → Prop}
    (count : ∀ {n} (g : Closure) (vs : List Value),
      J n V (Run.fail (.argumentCount g.arity vs.length)) .nothing)
    (deep : ∀ {n} (g : Closure), J n V (do Run.record (.calling g.arity); throw .exhausted) .nothing)
    (enter : ∀ {call log}, Calling.Obeys J V call log →
      Calling.Obeys J V (Closure.enter call) (Closure.entryWrites call log))
    (depth : Nat) : Calling.Obeys J V (Closure.call depth) (Closure.writes depth) := by
  induction depth with
  | zero =>
    intro g vs n _ _
    have hlog : g.writes 0 vs = .nothing := by
      funext m
      rw [Closure.writes]
      split <;> rfl
    rw [hlog, Closure.call]
    split
    · exact deep g
    · exact count g vs
  | succ depth ih =>
    intro g vs n hg hvs
    by_cases harity : g.arity = vs.length
    · have hlog : g.writes (depth + 1) vs =
          Closure.entryWrites (Closure.call depth) (Closure.writes depth) g vs := by
        funext m
        rw [Closure.writes, if_pos harity]
        rfl
      rw [hlog, Closure.call_succ harity]
      exact enter ih g vs n hg hvs
    · have hlog : g.writes (depth + 1) vs = .nothing := by
        funext m
        rw [Closure.writes, if_neg harity]
        rfl
      rw [hlog, Closure.call, if_neg harity]
      exact count g vs

end LetLang
