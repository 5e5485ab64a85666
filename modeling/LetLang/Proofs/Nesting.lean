import LetLang.Session
import LetLang.Proofs.Diagnosis
import LetLang.Proofs.Journal

/-! The trace of an execution is well nested.

A trace has two phases. The first one is that of parsing, and it is a forest: every span is closed
behind all that was opened in it, and errors are the leaves (`Node`). On the ground stand spans of
statements alone, so that every expression and every error is inside of a statement, and a statement
has one expression directly in it at the most (`Node.Proper`). The second phase is that of evaluation
and has no spans: it is what the statements record in turn (`execute_traces`).

The shape of the first phase is read off a passage, one step on the way at a time. -/
namespace LetLang

/-! ### Forests -/

/-- Something in a trace: a span with all that is in it, and whether a node came out of it; or an
error. -/
inductive Node where
  | span (s : Span) (produced : Bool) (inner : List Node)
  | error (e : SyntaxError)

namespace Node

mutual

/-- The entries of a node: what is in a span stands between its opening and its closing entry. -/
def entries : Node → List Entry
  | span s produced inner => .enter s :: (allEntries inner ++ [.leave s produced])
  | error e => [.event (.syntaxError e)]

/-- The entries of several nodes, one after another. -/
def allEntries : List Node → List Entry
  | [] => []
  | n :: ns => n.entries ++ allEntries ns

end

/-- Is a node the span of a statement? -/
def isStatement : Node → Bool
  | span s _ _ => s.isStatement
  | error _ => false

/-- Is a node the span of an expression? -/
def isExpression : Node → Bool
  | span s _ _ => !s.isStatement
  | error _ => false

/-- Of the spans directly in that of a statement, here and further in, one is that of an expression
at the most. -/
inductive Proper : Node → Prop where
  | error (e : SyntaxError) : Proper (.error e)
  | expression (p : Precedence) (ahead : List Token) (produced : Bool) (inner : List Node)
    (h : ∀ n ∈ inner, n.Proper) : Proper (.span (.expression p ahead) produced inner)
  | statement (t : Token) (rest : List Token) (produced : Bool) (inner : List Node)
    (hone : inner.countP isExpression ≤ 1) (h : ∀ n ∈ inner, n.Proper) :
    Proper (.span (.statement t rest) produced inner)

theorem allEntries_append (ns ns' : List Node) :
    allEntries (ns ++ ns') = allEntries ns ++ allEntries ns' := by
  induction ns with
  | nil => rfl
  | cons n ns ih => rw [List.cons_append, allEntries, allEntries, ih, List.append_assoc]

end Node

namespace Parsing

/-- What nodes there are to a part of the way: statements alone in a list of statements that is not
inside braces, and one expression at the most in what there is to a statement. -/
def Extent.Grows (forest : List Node) : Extent → Prop
  | .expression | .content => forest.countP Node.isExpression ≤ 1
  | .statement | .items false => ∀ n ∈ forest, n.isStatement
  | .part | .items true => True

/-- The trace of a part of the way is that of a forest. -/
structure Grows (x : Extent) (r : Report) (forest : List Node) : Prop where
  trace : r.trace = Node.allEntries forest
  proper : ∀ n ∈ forest, n.Proper
  extent : x.Grows forest

variable {x x' : Extent} {r r' : Report} {forest forest' : List Node}

theorem Grows.append (h : Grows x r forest) (h' : Grows x' r' forest') {x'' : Extent}
    (hx : x''.Grows (forest ++ forest')) : Grows x'' (r.append r') (forest ++ forest') where
  trace := by rw [Node.allEntries_append, ← h.trace, ← h'.trace, Report.append]
  proper := List.forall_mem_append.mpr ⟨h.proper, h'.proper⟩
  extent := hx

theorem Grows.within (h : Grows x r forest) {s : Span} {produced : Bool}
    (hproper : (Node.span s produced forest).Proper) (hx : x'.Grows [.span s produced forest]) :
    Grows x' (r.within s produced) [.span s produced forest] where
  trace := by
    show .enter s :: (r.trace ++ [.leave s produced]) =
      .enter s :: (Node.allEntries forest ++ [.leave s produced]) ++ []
    rw [List.append_nil, h.trace]
  proper := List.forall_mem_singleton.mpr hproper
  extent := hx

theorem grows_empty (hx : x.Grows []) : Grows x .empty [] := ⟨rfl, fun _ hn => (nomatch hn), hx⟩

theorem grows_ofError {e : SyntaxError} (hx : x.Grows [.error e]) :
    Grows x (.ofError e) [.error e] :=
  ⟨rfl, List.forall_mem_singleton.mpr (.error e), hx⟩

/-- Every passage leaves the trace of a forest. -/
theorem Passage.grows {x : Extent} {a b : List Token} {k : Option (List Token)} {r : Report}
    (h : Passage x a b k r) : ∃ forest, Grows x r forest := by
  induction h with
  | done a => exact ⟨_, grows_empty trivial⟩
  | fail a e => exact ⟨_, grows_ofError trivial⟩
  | take t _ ih => exact ih
  | andThen _ _ ih ih' =>
    obtain ⟨forest, h⟩ := ih
    obtain ⟨forest', h'⟩ := ih'
    exact ⟨_, h.append h' trivial⟩
  | nested _ ih =>
    obtain ⟨forest, h⟩ := ih
    exact ⟨forest, h.trace, h.proper, trivial⟩
  | block _ ih =>
    obtain ⟨forest, h⟩ := ih
    exact ⟨forest, h.trace, h.proper, trivial⟩
  | expression p t _ ih =>
    obtain ⟨forest, h⟩ := ih
    exact ⟨_, h.within (.expression _ _ _ _ h.proper) (Nat.le_refl 1)⟩
  | missing p e =>
    have h : Grows .part (.ofError e) [.error e] := grows_ofError trivial
    exact ⟨_, h.within (.expression _ _ _ _ h.proper) (Nat.le_refl 1)⟩
  | nothing hb => exact ⟨_, grows_empty (Nat.zero_le 1)⟩
  | broken e hb => exact ⟨_, grows_ofError (Nat.zero_le 1)⟩
  | value ha _ hb ih =>
    obtain ⟨forest, h⟩ := ih
    exact ⟨forest, h.trace, h.proper, h.extent⟩
  | statement t _ hb ih =>
    obtain ⟨forest, h⟩ := ih
    exact ⟨_, h.within (.statement _ _ _ _ h.extent h.proper) (List.forall_mem_singleton.mpr rfl)⟩
  | closed t a => exact ⟨_, grows_empty trivial⟩
  | unclosed e => exact ⟨_, grows_ofError trivial⟩
  | ended => exact ⟨_, grows_empty fun _ hn => (nomatch hn)⟩
  | @cons a b c k k' r r' braced _ _ ih ih' =>
    obtain ⟨forest, h⟩ := ih
    obtain ⟨forest', h'⟩ := ih'
    cases braced with
    | true => exact ⟨_, h.append h' trivial⟩
    | false => exact ⟨_, h.append h' (List.forall_mem_append.mpr ⟨h.extent, h'.extent⟩)⟩

end Parsing

/-! ### Executions -/

/-- Nothing that is recorded by evaluation is an error in the text. -/
theorem reported_steps {events : List Event} (h : ∀ e ∈ events, e.isStep) :
    reported (events.map .event) = [] := by
  rw [reported, List.filterMap_map, List.filterMap_eq_nil_iff]
  intro e he
  have hstep := h e he
  cases e with
  | syntaxError err => cases hstep
  | _ => rfl

section
variable (depth : Nat) (frame : FrameId)

/-- A program records steps of evaluation alone. -/
theorem Program.eval_steps (p : Program) (s : Store) :
    ∀ e ∈ (p.eval depth frame (.on s)).2.events.toList, e.isStep := by
  intro e he
  rw [p.eval_after] at he
  exact (Statement.evalAll_journals depth frame .null p.statements).steps s e
    (Array.mem_toList_iff.mp he)

/-- The statements of a program that comes to an end are evaluated in turn. -/
theorem Program.eval_inTurn (p : Program) (s : Store) (h : (p.eval depth frame (.on s)).1.isSome) :
    ∃ parts, (p.eval depth frame (.on s)).2.events.toList = parts.flatten ∧
      InTurn depth frame s p.statements parts := by
  rw [p.eval_after]
  obtain ⟨parts, hparts, hevents⟩ :=
    Statement.evalAll_inTurn depth frame .null p.statements s fun m hm => by
      unfold Program.eval at h
      rw [hm] at h
      cases h
  exact ⟨parts, hevents, hparts⟩

variable {source : String}

theorem execute_trace_of_errors_eq_nil (s : Store) (h : (parse source).errors = []) :
    (execute depth frame s source).trace = (parse source).trace ++
      ((parse source).program.eval depth frame (.on s)).2.events.toList.map .event := by
  simp [execute, h]

theorem execute_trace_of_errors_ne_nil (s : Store) (h : (parse source).errors ≠ []) :
    (execute depth frame s source).trace = (parse source).trace := by
  simp [execute, h]

end

/-- **The trace of an execution is well nested, and agrees with what was read and evaluated.**

First comes a forest, with nothing but spans of statements on the ground, and the errors in it are
those of the text, in order. What is recorded behind it are steps of evaluation. There are none if
there are errors, and then the errors are the outcome; otherwise, unless calls are nested too deeply,
they are those of the statements in turn. -/
theorem execute_traces (depth : Nat) (frame : FrameId) (s : Store) (source : String) :
    ∃ (forest : List Node) (events : List Event),
      (execute depth frame s source).trace = Node.allEntries forest ++ events.map .event ∧
      ((∀ n ∈ forest, n.isStatement ∧ n.Proper) ∧
        reported (Node.allEntries forest) = (parse source).errors) ∧
      ((∀ e ∈ events, e.isStep) ∧ reported (events.map .event) = []) ∧
      ((parse source).errors ≠ [] → events = [] ∧
        (execute depth frame s source).outcome = some (.error (.malformed (parse source).errors))) ∧
      ((parse source).errors = [] → (execute depth frame s source).outcome.isSome →
        ∃ parts, events = parts.flatten ∧
          InTurn depth frame s (parse source).program.statements parts) := by
  obtain ⟨forest, htrace, hproper, hstatement⟩ := (TokenStream.ofSource source).passage.grows
  have hreported : reported (Node.allEntries forest) = (parse source).errors :=
    htrace ▸ (TokenStream.ofSource source).diagnoses.reported
  have hforest : ∀ n ∈ forest, n.isStatement ∧ n.Proper :=
    fun n hn => ⟨hstatement n hn, hproper n hn⟩
  have hparse : (parse source).trace = Node.allEntries forest := htrace
  by_cases herrors : (parse source).errors = []
  · have hsteps := (parse source).program.eval_steps depth frame s
    refine ⟨forest, _, ?_, ⟨hforest, hreported⟩, ⟨hsteps, reported_steps hsteps⟩,
      fun h => absurd herrors h, fun _ houtcome => ?_⟩
    · rw [execute_trace_of_errors_eq_nil depth frame s herrors, hparse]
    · rw [(execute_of_errors_eq_nil depth frame s herrors).1, Option.isSome_map] at houtcome
      exact (parse source).program.eval_inTurn depth frame s houtcome
  · refine ⟨forest, [], ?_, ⟨hforest, hreported⟩, ⟨fun _ he => (nomatch he), rfl⟩,
      fun _ => ⟨rfl, (execute_of_errors_ne_nil depth frame s herrors).1⟩,
      fun h => absurd h herrors⟩
    rw [execute_trace_of_errors_ne_nil depth frame s herrors, hparse]
    exact (List.append_nil _).symm

/-- A program that returns before its last statement, and a text that is none. -/
theorem execute_traces_return :
    let source := "let a = 1; return a; 2"
    let broken := "let 1"
    let run := execute 1 Store.rootFrame .root
    ((parse source).errors = [] ∧ (run source).outcome.isSome ∧
      ∃ forest parts, (run source).trace = Node.allEntries forest ++ parts.flatten.map .event ∧
        InTurn 1 Store.rootFrame .root (parse source).program.statements parts) ∧
      ((parse broken).errors ≠ [] ∧ ∃ forest, (run broken).trace = Node.allEntries forest ∧
        ∀ n ∈ forest, n.isStatement ∧ n.Proper) := by
  intro source broken run
  have hsource : (parse source).errors = [] := by decide +kernel
  have houtcome : (run source).outcome.isSome := by decide +kernel
  have hbroken : (parse broken).errors ≠ [] := by decide +kernel
  obtain ⟨forest, events, htrace, _, _, _, hturn⟩ := execute_traces 1 Store.rootFrame .root source
  obtain ⟨parts, rfl, hparts⟩ := hturn hsource houtcome
  obtain ⟨forest', events', htrace', ⟨hforest, _⟩, _, hempty, _⟩ :=
    execute_traces 1 Store.rootFrame .root broken
  obtain ⟨rfl, _⟩ := hempty hbroken
  exact ⟨⟨hsource, houtcome, forest, parts, htrace, hparts⟩, hbroken, forest',
    htrace'.trans (List.append_nil _), hforest⟩

end LetLang
