import LetLang.Proofs.Preservation

/-! Where functions come from.

Evaluation makes functions of the function literals of the code that it runs and of nothing else:
the code may stand in the program at hand, or in the body of a function, which is a part of an
earlier literal. So if all functions that are bound in a store were made of literals of some texts,
this is still so after one more text was run, with the literals of that text added
(`Store.Binds.execute`). -/
namespace LetLang

/-! ### Function literals -/

mutual

/-- The function literals of an expression, with those inside of others. -/
def Expr.literals : Expr → List Expr
  | .identifier _ => []
  | .integer _ _ => []
  | .boolean _ _ => []
  | .unary _ _ e => e.literals
  | .binary _ l _ r => l.literals ++ r.literals
  | .ifThen _ c b => c.literals ++ b.literals
  | .ifThenElse _ c b a => c.literals ++ (b.literals ++ a.literals)
  | .function t ps b => .function t ps b :: b.literals
  | .call _ f es => f.literals ++ Expr.allLiterals es

/-- The function literals of several expressions. -/
def Expr.allLiterals : List Expr → List Expr
  | [] => []
  | e :: es => e.literals ++ Expr.allLiterals es

/-- The function literals of a block. -/
def Block.literals : Block → List Expr
  | .mk _ ss => Statement.allLiterals ss

/-- The function literals of a statement. -/
def Statement.literals : Statement → List Expr
  | .letIn _ _ e => e.literals
  | .returnNothing _ => []
  | .returnValue _ e => e.literals
  | .expression _ e => e.literals

/-- The function literals of several statements. -/
def Statement.allLiterals : List Statement → List Expr
  | [] => []
  | s :: ss => s.literals ++ Statement.allLiterals ss

end

/-- The function literals of a program. -/
def Program.literals (p : Program) : List Expr := Statement.allLiterals p.statements

mutual

theorem Expr.wellFormed_literals (e : Expr) (he : e.WellFormed) : ∀ l ∈ e.literals, l.WellFormed := by
  match e, he with
  | .identifier _, _ => exact nofun
  | .integer _ _, _ => exact nofun
  | .boolean _ _, _ => exact nofun
  | .unary _ _ e, he => exact e.wellFormed_literals he
  | .binary _ l _ r, he =>
    exact List.forall_mem_append.mpr ⟨l.wellFormed_literals he.1, r.wellFormed_literals he.2⟩
  | .ifThen _ c b, he =>
    exact List.forall_mem_append.mpr ⟨c.wellFormed_literals he.1, b.wellFormed_literals he.2⟩
  | .ifThenElse _ c b a, he =>
    exact List.forall_mem_append.mpr ⟨c.wellFormed_literals he.1,
      List.forall_mem_append.mpr ⟨b.wellFormed_literals he.2.1, a.wellFormed_literals he.2.2⟩⟩
  | .function _ _ b, he => exact List.forall_mem_cons.mpr ⟨he, b.wellFormed_literals he.2⟩
  | .call _ f es, he =>
    exact List.forall_mem_append.mpr ⟨f.wellFormed_literals he.1, Expr.wellFormed_allLiterals es he.2⟩

theorem Expr.wellFormed_allLiterals (es : List Expr) (hes : Expr.AllWellFormed es) :
    ∀ l ∈ Expr.allLiterals es, l.WellFormed := by
  match es, hes with
  | [], _ => exact nofun
  | e :: es, hes =>
    exact List.forall_mem_append.mpr ⟨e.wellFormed_literals hes.1, Expr.wellFormed_allLiterals es hes.2⟩

theorem Block.wellFormed_literals (b : Block) (hb : b.WellFormed) :
    ∀ l ∈ b.literals, l.WellFormed := by
  match b, hb with
  | .mk _ ss, hb => exact Statement.wellFormed_allLiterals ss hb

theorem Statement.wellFormed_literals (s : Statement) (hs : s.WellFormed) :
    ∀ l ∈ s.literals, l.WellFormed := by
  match s, hs with
  | .letIn _ _ e, hs => exact e.wellFormed_literals hs.2
  | .returnNothing _, _ => exact nofun
  | .returnValue _ e, hs => exact e.wellFormed_literals hs
  | .expression _ e, hs => exact e.wellFormed_literals hs

theorem Statement.wellFormed_allLiterals (ss : List Statement) (hss : Statement.AllWellFormed ss) :
    ∀ l ∈ Statement.allLiterals ss, l.WellFormed := by
  match ss, hss with
  | [], _ => exact nofun
  | s :: ss, hss =>
    exact List.forall_mem_append.mpr
      ⟨s.wellFormed_literals hss.1, Statement.wellFormed_allLiterals ss hss.2⟩

end

/-- With a function literal, those of its body are among the literals. -/
def Closed (literals : Expr → Prop) : Prop :=
  ∀ ⦃t : Token⦄ ⦃ps : List Identifier⦄ ⦃b : Block⦄, literals (.function t ps b) →
    ∀ l ∈ b.literals, literals l

theorem closed_append {ls ls' : List Expr} (h : Closed (· ∈ ls)) (h' : Closed (· ∈ ls')) :
    Closed (· ∈ ls ++ ls') := by
  intro t ps b hmem l hl
  obtain hmem | hmem := List.mem_append.mp hmem
  · exact List.mem_append_left _ (h hmem l hl)
  · exact List.mem_append_right _ (h' hmem l hl)

mutual

theorem Expr.closed_literals (e : Expr) : Closed (· ∈ e.literals) := by
  match e with
  | .identifier _ => exact nofun
  | .integer _ _ => exact nofun
  | .boolean _ _ => exact nofun
  | .unary _ _ e => exact e.closed_literals
  | .binary _ l _ r => exact closed_append l.closed_literals r.closed_literals
  | .ifThen _ c b => exact closed_append c.closed_literals b.closed_literals
  | .ifThenElse _ c b a =>
    exact closed_append c.closed_literals (closed_append b.closed_literals a.closed_literals)
  | .function _ ps b =>
    intro t' ps' b' hmem l hl
    obtain heq | hmem := List.mem_cons.mp hmem
    · cases heq
      exact List.mem_cons_of_mem _ hl
    · exact List.mem_cons_of_mem _ (b.closed_literals hmem l hl)
  | .call _ f es => exact closed_append f.closed_literals (Expr.closed_allLiterals es)

theorem Expr.closed_allLiterals (es : List Expr) : Closed (· ∈ Expr.allLiterals es) := by
  match es with
  | [] => exact nofun
  | e :: es => exact closed_append e.closed_literals (Expr.closed_allLiterals es)

theorem Block.closed_literals (b : Block) : Closed (· ∈ b.literals) := by
  match b with
  | .mk _ ss => exact Statement.closed_allLiterals ss

theorem Statement.closed_literals (s : Statement) : Closed (· ∈ s.literals) := by
  match s with
  | .letIn _ _ e => exact e.closed_literals
  | .returnNothing _ => exact nofun
  | .returnValue _ e => exact e.closed_literals
  | .expression _ e => exact e.closed_literals

theorem Statement.closed_allLiterals (ss : List Statement) :
    Closed (· ∈ Statement.allLiterals ss) := by
  match ss with
  | [] => exact nofun
  | s :: ss => exact closed_append s.closed_literals (Statement.closed_allLiterals ss)

end

/-- The function literals of the code are among the literals. -/
def Condition.literals (literals : Expr → Prop) : Condition where
  expr e := ∀ l ∈ e.literals, literals l
  exprs es := ∀ l ∈ Expr.allLiterals es, literals l
  block b := ∀ l ∈ b.literals, literals l
  statement s := ∀ l ∈ s.literals, literals l
  statements ss := ∀ l ∈ Statement.allLiterals ss, literals l
  unary h := h
  binary h := List.forall_mem_append.mp h
  ifThen h := List.forall_mem_append.mp h
  ifThenElse h := (List.forall_mem_append.mp h).imp_right List.forall_mem_append.mp
  call h := List.forall_mem_append.mp h
  cons h := List.forall_mem_append.mp h
  content h := h
  letIn h := h
  returnValue h := h
  expression h := h
  next h := List.forall_mem_append.mp h

/-! ### What functions are made of -/

/-- The expression is a function literal, and the function has its parameters and its body. -/
def Expr.Makes (g : Closure) : Expr → Prop
  | .function _ ps b => ps = g.parameters ∧ b = g.body
  | _ => False

/-- If the value is a function, it was made of one of the literals. -/
def Value.MadeOf (literals : Expr → Prop) : Value → Prop
  | .function g => ∃ l, literals l ∧ l.Makes g
  | _ => True

section
variable {literals : Expr → Prop}

/-! ### Evaluation -/

theorem Value.MadeOf.body (hclosed : Closed literals) {g : Closure}
    (h : (Value.function g).MadeOf literals) : ∀ l ∈ g.body.literals, literals l := by
  obtain ⟨l, hl, hmakes⟩ := h
  cases l with
  | function t ps b =>
    obtain ⟨rfl, rfl⟩ := hmakes
    exact hclosed hl
  | _ => exact hmakes.elim

theorem Store.madeOf_contract (hclosed : Closed literals) :
    CallContract (.literals literals) (Store.Binds (Value.MadeOf literals)) (fun _ => True)
      (Value.MadeOf literals) (Interrupt.Returns (Value.MadeOf literals)) where
  null := trivial
  integer _ := trivial
  boolean _ := trivial
  function _ h _ := ⟨_, h _ (List.mem_cons_self ..), rfl, rfl⟩
  lookup _ hs _ hv := hs.lookup _ hv
  define _ hs _ hv := hs.define _ _ hv
  count _ hs := hs
  fail _ := trivial
  unbound _ := trivial
  returned _ _ hv := hv
  body hg := hg.body hclosed
  push hs _ hvs := ⟨hs.enter _ hvs, trivial⟩
  caught _ hv := hv
  exhausted := trivial

end

/-- Only values are outcomes that are not failures. -/
theorem Value.eq_of_outcome_eq_ok {v w : Value} (h : v.outcome = .ok w) : w = v := by
  cases v with
  | error e => cases h
  | _ => exact (Except.ok.inj h).symm

/-- The value of a program, and what is bound when it has ended, were made of the literals. -/
theorem Program.eval_madeOf {literals : Expr → Prop} (hclosed : Closed literals) (depth : Nat)
    (frame : FrameId) {p : Program} (hp : ∀ l ∈ p.literals, literals l) {m : Machine}
    (hm : m.store.Binds (Value.MadeOf literals)) :
    (p.eval depth frame m).2.store.Binds (Value.MadeOf literals) ∧
      ∀ v, (p.eval depth frame m).1 = some v → v.MadeOf literals :=
  (Store.madeOf_contract hclosed).program (fun _ _ => trivial) depth trivial hp hm

/-! ### Texts -/

/-- The function literals of those of the texts that have no errors. -/
def literalsOf (sources : List String) (l : Expr) : Prop :=
  ∃ source ∈ sources, (parse source).errors = [] ∧ l ∈ (parse source).program.literals

theorem closed_literalsOf (sources : List String) : Closed (literalsOf sources) := by
  intro t ps b h l hl
  obtain ⟨source, hsource, herrors, hmem⟩ := h
  exact ⟨source, hsource, herrors, Statement.closed_allLiterals _ hmem l hl⟩

theorem literalsOf_cons {sources : List String} (source : String) {l : Expr}
    (h : literalsOf sources l) : literalsOf (source :: sources) l := by
  obtain ⟨source', hsource', h⟩ := h
  exact ⟨source', List.mem_cons_of_mem _ hsource', h⟩

theorem wellFormed_of_literalsOf {sources : List String} {l : Expr} (h : literalsOf sources l) :
    l.WellFormed := by
  obtain ⟨source, _, _, hmem⟩ := h
  exact Statement.wellFormed_allLiterals _ (parse_wellFormed source) l hmem

theorem Value.MadeOf.cons {sources : List String} {v : Value} (h : v.MadeOf (literalsOf sources))
    (source : String) : v.MadeOf (literalsOf (source :: sources)) := by
  cases v with
  | function g =>
    obtain ⟨l, hl, hmakes⟩ := h
    exact ⟨l, literalsOf_cons source hl, hmakes⟩
  | _ => trivial

/-- Running a text makes functions of the literals of that text and of those that functions were
made of before. -/
theorem Store.Binds.execute {sources : List String} {s : Store}
    (h : s.Binds (Value.MadeOf (literalsOf sources))) (depth : Nat) (frame : FrameId)
    (source : String) :
    (LetLang.execute depth frame s source).store.Binds (Value.MadeOf (literalsOf (source :: sources))) ∧
      ∀ v, (LetLang.execute depth frame s source).outcome = some (.ok v) →
        v.MadeOf (literalsOf (source :: sources)) := by
  have hs : s.Binds (Value.MadeOf (literalsOf (source :: sources))) := h.mono fun v hv => hv.cons source
  by_cases herrors : (parse source).errors = []
  · obtain ⟨houtcome, hstore⟩ := execute_of_errors_eq_nil depth frame s herrors
    have hprogram : ∀ l ∈ (parse source).program.literals, literalsOf (source :: sources) l :=
      fun l hl => ⟨source, List.mem_cons_self .., herrors, hl⟩
    have hon : (Machine.on s).store.Binds (Value.MadeOf (literalsOf (source :: sources))) := hs
    obtain ⟨hbinds, hvalue⟩ :=
      Program.eval_madeOf (closed_literalsOf (source :: sources)) depth frame hprogram hon
    rw [houtcome, hstore]
    refine ⟨hbinds, fun v hv => ?_⟩
    obtain ⟨w, hw, houtcome⟩ := Option.map_eq_some_iff.mp hv
    rw [Value.eq_of_outcome_eq_ok houtcome]
    exact hvalue w hw
  · obtain ⟨houtcome, hstore⟩ := execute_of_errors_ne_nil depth frame s herrors
    rw [houtcome, hstore]
    exact ⟨hs, nofun⟩

end LetLang
