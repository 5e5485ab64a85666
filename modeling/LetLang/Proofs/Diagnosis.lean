import LetLang.Proofs.Progress

/-! Every error stands for a statement that could not be read.

Reading tries to read statements, and inside a try there are others, in the blocks of functions and
conditionals. A try that fails reports one error, apart from what the tries inside it report, and a
try that succeeds reports none (`Diagnoses`). So errors are as many as failed tries, and since a
statement that fails is missing from the tree, with all that is inside it, a text is free of errors
exactly if its tree has all the statements that were begun (`parse_diagnoses`). -/
namespace LetLang

/-! ### Tries -/

/-- A try at reading a statement: the token that it begins at, how many errors are reported in it
but in none of the tries inside it, and whether a statement comes of it. -/
structure Attempt where
  first : Token
  ownErrors : Nat
  produced : Bool

/-- The tries that end in a trace, in this order. Before the trace, `own` errors were reported in the
innermost try that was still open, and `around` in those around it. -/
def attempts (own : Nat) (around : List Nat) : List Entry → List Attempt
  | [] => []
  | .enter (.statement _ _) :: es => attempts 0 (own :: around) es
  | .enter (.expression _ _) :: es => attempts own around es
  | .leave (.statement t _) produced :: es =>
    ⟨t, own, produced⟩ :: attempts (around.headD 0) around.tail es
  | .leave (.expression _ _) _ :: es => attempts own around es
  | .event (.syntaxError _) :: es => attempts (own + 1) around es
  | .event _ :: es => attempts own around es

/-- The token at which a span begins a statement. -/
def Span.first? : Span → Option Token
  | .statement t _ => some t
  | .expression _ _ => none

/-- The tokens at which statements are begun in a trace, in order. -/
def begun (trace : List Entry) : List Token := (spans trace).filterMap Span.first?

@[simp] theorem begun_append (trace trace' : List Entry) :
    begun (trace ++ trace') = begun trace ++ begun trace' := by
  rw [begun, spans_append, List.filterMap_append]
  rfl

theorem length_begun (trace : List Entry) :
    (begun trace).length = (statementSpans trace).length := by
  have hfirst : Span.isStatement = fun span => span.first?.isSome := by
    funext span
    cases span <;> rfl
  rw [begun, statementSpans, List.length_filterMap_eq_countP, List.countP_eq_length_filter, hfirst]

/-- The error that an entry tells of. -/
def Entry.syntaxError? : Entry → Option SyntaxError
  | .event (.syntaxError e) => some e
  | _ => none

/-- The errors that a trace tells of, in order. -/
def reported (trace : List Entry) : List SyntaxError := trace.filterMap Entry.syntaxError?

@[simp] theorem reported_append (trace trace' : List Entry) :
    reported (trace ++ trace') = reported trace ++ reported trace' := List.filterMap_append

namespace Parsing

/-! ### Errors along a passage -/

/-- How many errors a passage reports outside of the tries in it. In a list of statements all errors
are inside of tries, but for the missing brace. -/
def Extent.ownErrors (x : Extent) (k : Option (List Token)) : Nat :=
  match x with
  | .statement => 0
  | .items false => 0
  | _ => if k.isSome then 0 else 1

/-- In a passage there are the tries `tries`, of which those that fail have one error of their own,
and the others none. -/
structure Diagnoses (x : Extent) (k : Option (List Token)) (r : Report) (tries : List Attempt) :
    Prop where
  attempts_eq : ∀ own around es,
    attempts own around (r.trace ++ es) = tries ++ attempts (own + x.ownErrors k) around es
  own : ∀ a ∈ tries, a.ownErrors = if a.produced then 0 else 1
  begun : (tries.map Attempt.first).Perm (begun r.trace)
  reported : reported r.trace = r.errors
  length : r.errors.length = tries.countP (!·.produced) + x.ownErrors k

section
variable {x x' x'' : Extent} {k k' k'' : Option (List Token)} {r r' : Report}
  {tries tries' : List Attempt}

theorem diagnoses_empty (h : x.ownErrors k = 0) : Diagnoses x k .empty [] := by
  constructor <;> simp [h, Report.empty, LetLang.begun, LetLang.reported, spans]

theorem diagnoses_ofError (e : SyntaxError) (h : x.ownErrors k = 1) :
    Diagnoses x k (.ofError e) [] := by
  constructor <;>
    simp [h, Report.ofError, attempts, LetLang.begun, LetLang.reported, spans, Entry.entered?,
      Entry.syntaxError?]

/-- The same tries where a passage is part of a longer one. -/
theorem Diagnoses.congr (h : Diagnoses x k r tries) (hx : x'.ownErrors k' = x.ownErrors k) :
    Diagnoses x' k' r tries :=
  ⟨hx ▸ h.attempts_eq, h.own, h.begun, h.reported, hx ▸ h.length⟩

theorem Diagnoses.append (h : Diagnoses x k r tries) (h' : Diagnoses x' k' r' tries')
    (hx : x''.ownErrors k'' = x.ownErrors k + x'.ownErrors k') :
    Diagnoses x'' k'' (r.append r') (tries ++ tries') where
  attempts_eq own around es := by
    show attempts own around (r.trace ++ r'.trace ++ es) = _
    rw [List.append_assoc, h.attempts_eq, h'.attempts_eq, List.append_assoc, hx, Nat.add_assoc]
  own := List.forall_mem_append.mpr ⟨h.own, h'.own⟩
  begun := by
    show (List.map _ _).Perm (LetLang.begun (r.trace ++ r'.trace))
    rw [List.map_append, begun_append]
    exact h.begun.append h'.begun
  reported := by
    show LetLang.reported (r.trace ++ r'.trace) = r.errors ++ r'.errors
    rw [reported_append, h.reported, h'.reported]
  length := by
    show (r.errors ++ r'.errors).length = _
    rw [List.length_append, h.length, h'.length, List.countP_append, hx]
    omega

/-- A span around an expression is no try. -/
theorem Diagnoses.expression (h : Diagnoses x k r tries) (p : Precedence) (ahead : List Token)
    (produced : Bool) (hx : x'.ownErrors k' = x.ownErrors k) :
    Diagnoses x' k' (r.within (.expression p ahead) produced) tries where
  attempts_eq own around es := by
    show attempts own around (r.trace ++ [.leave (.expression p ahead) produced] ++ es) = _
    rw [List.append_assoc, h.attempts_eq, hx]
    rfl
  own := h.own
  begun := by
    show (List.map _ _).Perm
      (LetLang.begun (r.trace ++ [.leave (.expression p ahead) produced]))
    rw [begun_append]
    exact (List.append_nil _).symm ▸ h.begun
  reported := by
    show LetLang.reported (r.trace ++ [.leave (.expression p ahead) produced]) = r.errors
    rw [reported_append, h.reported]
    exact List.append_nil _
  length := hx ▸ h.length

/-- A span around a statement is a try: what was reported outside of the tries in it is its own. -/
theorem Diagnoses.statement (h : Diagnoses .content k r tries) (t : Token) (rest : List Token) :
    Diagnoses .statement k' (r.within (.statement t rest) k.isSome)
      (tries ++ [⟨t, Extent.content.ownErrors k, k.isSome⟩]) where
  attempts_eq own around es := by
    show attempts 0 (own :: around) (r.trace ++ [.leave (.statement t rest) k.isSome] ++ es) = _
    rw [List.append_assoc, h.attempts_eq, Nat.zero_add, List.append_assoc]
    rfl
  own := List.forall_mem_append.mpr ⟨h.own, List.forall_mem_singleton.mpr rfl⟩
  begun := by
    show (List.map _ _).Perm
      (t :: LetLang.begun (r.trace ++ [.leave (.statement t rest) k.isSome]))
    rw [List.map_append, begun_append]
    refine List.perm_append_comm.trans (List.Perm.cons t ?_)
    exact (List.append_nil _).symm ▸ h.begun
  reported := by
    show LetLang.reported (r.trace ++ [.leave (.statement t rest) k.isSome]) = r.errors
    rw [reported_append, h.reported]
    exact List.append_nil _
  length := by
    show r.errors.length = _
    rw [h.length, List.countP_append]
    cases k <;> rfl

end

theorem Extent.ownErrors_map (x : Extent) (k : Option (List Token)) (f : List Token → List Token) :
    x.ownErrors (k.map f) = x.ownErrors k := by
  unfold ownErrors
  rw [Option.isSome_map]

theorem Passage.diagnoses {x : Extent} {a b : List Token} {k : Option (List Token)} {r : Report}
    (h : Passage x a b k r) : ∃ tries, Diagnoses x k r tries := by
  induction h with
  | done a => exact ⟨[], diagnoses_empty rfl⟩
  | fail a e => exact ⟨[], diagnoses_ofError e rfl⟩
  | take t _ ih => exact ih
  | @andThen a b c k k' r r' _ _ ih ih' =>
    obtain ⟨tries, ih⟩ := ih
    obtain ⟨tries', ih'⟩ := ih'
    refine ⟨tries ++ tries', ih.append ih' ?_⟩
    rw [Extent.ownErrors_map]
    exact (Nat.zero_add _).symm
  | nested _ ih => exact ih.imp fun tries ih => ih.congr rfl
  | block _ ih => exact ih.imp fun tries ih => ih.congr rfl
  | expression p t _ ih => exact ih.imp fun tries ih => ih.expression p _ _ rfl
  | missing p e =>
    exact ⟨[], (diagnoses_ofError (x := .part) (k := none) e rfl).expression p _ _ rfl⟩
  | nothing hb => exact ⟨[], diagnoses_empty rfl⟩
  | broken e hb => exact ⟨[], diagnoses_ofError e rfl⟩
  | value _ _ _ ih => exact ih.imp fun tries ih => ih.congr rfl
  | statement t _ _ ih =>
    obtain ⟨tries, ih⟩ := ih
    exact ⟨_, ih.statement t _⟩
  | closed t a => exact ⟨[], diagnoses_empty rfl⟩
  | unclosed e => exact ⟨[], diagnoses_ofError e rfl⟩
  | ended => exact ⟨[], diagnoses_empty rfl⟩
  | cons _ _ ih ih' =>
    obtain ⟨tries, ih⟩ := ih
    obtain ⟨tries', ih'⟩ := ih'
    refine ⟨tries ++ tries', ih.append ih' ?_⟩
    rw [Extent.ownErrors_map]
    exact (Nat.zero_add _).symm

/-! ### Statements along a passage -/

/-- The statements in the node of a passage are among those that were begun, and without errors they
are all of them. Where there are errors, some statement is missing. -/
structure Keeps (k : Option (List Token)) (r : Report) : Prop where
  sublist : ∀ ts, k = some ts → ts.Sublist (begun r.trace)
  whole : r.errors = [] → k = some (begun r.trace)
  lossy : r.errors ≠ [] → ∀ ts, k = some ts → ts.length < (begun r.trace).length

section
variable {k k' : Option (List Token)} {r r' : Report}

theorem keeps_empty : Keeps (some []) .empty :=
  ⟨fun _ h => Option.some.inj h ▸ List.nil_sublist _, fun _ => rfl, fun h => absurd rfl h⟩

theorem keeps_none (h : r.errors ≠ []) : Keeps none r :=
  ⟨nofun, fun hnil => absurd hnil h, nofun⟩

theorem Keeps.expression (h : Keeps k r) (p : Precedence) (ahead : List Token) (produced : Bool) :
    Keeps k (r.within (.expression p ahead) produced) := by
  have hbegun : begun (r.within (.expression p ahead) produced).trace = begun r.trace := by
    show begun (r.trace ++ [.leave (.expression p ahead) produced]) = _
    rw [begun_append]
    exact List.append_nil _
  constructor <;> rw [hbegun]
  exacts [h.sublist, h.whole, h.lossy]

theorem Keeps.statement (h : Keeps k r) (t : Token) (rest : List Token) (produced : Bool) :
    Keeps (k.map (t :: ·)) (r.within (.statement t rest) produced) := by
  have hbegun : begun (r.within (.statement t rest) produced).trace = t :: begun r.trace := by
    show t :: begun (r.trace ++ [.leave (.statement t rest) produced]) = _
    rw [begun_append]
    exact congrArg (t :: ·) (List.append_nil _)
  constructor <;> rw [hbegun]
  · intro us hus
    obtain ⟨ts, hts, rfl⟩ := Option.map_eq_some_iff.mp hus
    exact (h.sublist ts hts).cons_cons t
  · intro herrors
    rw [h.whole herrors]
    rfl
  · intro herrors us hus
    obtain ⟨ts, hts, rfl⟩ := Option.map_eq_some_iff.mp hus
    exact Nat.succ_lt_succ (h.lossy herrors ts hts)

theorem Keeps.append {ts : List Token} (h : Keeps (some ts) r) (h' : Keeps k' r') :
    Keeps (k'.map (ts ++ ·)) (r.append r') := by
  have hbegun : begun (r.append r').trace = begun r.trace ++ begun r'.trace := begun_append ..
  have hsublist := h.sublist ts rfl
  constructor <;> rw [hbegun]
  · intro us hus
    obtain ⟨ts', hts', rfl⟩ := Option.map_eq_some_iff.mp hus
    exact hsublist.append (h'.sublist ts' hts')
  · intro herrors
    obtain ⟨hr, hr'⟩ := List.append_eq_nil_iff.mp herrors
    rw [h'.whole hr', Option.some.inj (h.whole hr)]
    rfl
  · intro herrors us hus
    obtain ⟨ts', hts', rfl⟩ := Option.map_eq_some_iff.mp hus
    have hle := hsublist.length_le
    have hle' := (h'.sublist ts' hts').length_le
    rw [List.length_append, List.length_append]
    by_cases hr : r.errors = []
    · have hr' : r'.errors ≠ [] := fun hr' => herrors (List.append_eq_nil_iff.mpr ⟨hr, hr'⟩)
      have hlt := h'.lossy hr' ts' hts'
      omega
    · have hlt := h.lossy hr ts rfl
      omega

/-- A failed statement was begun and is missing. -/
theorem Keeps.skip (h : Keeps none r) (hbegun : begun r.trace ≠ []) (h' : Keeps k' r') :
    Keeps k' (r.append r') := by
  have hsplit : begun (r.append r').trace = begun r.trace ++ begun r'.trace := begun_append ..
  have hpos := List.length_pos_iff.mpr hbegun
  constructor <;> rw [hsplit]
  · intro ts hts
    exact (h'.sublist ts hts).trans (List.sublist_append_right _ _)
  · intro herrors
    cases h.whole (List.append_eq_nil_iff.mp herrors).1
  · intro _ ts hts
    have hle := (h'.sublist ts hts).length_le
    rw [List.length_append]
    omega

end

theorem Passage.begun_ne_nil {a b : List Token} {k : Option (List Token)} {r : Report}
    (h : Passage .statement a b k r) : begun r.trace ≠ [] := by
  cases h with
  | statement t _ _ => exact List.cons_ne_nil t _

theorem Passage.keeps {x : Extent} {a b : List Token} {k : Option (List Token)} {r : Report}
    (h : Passage x a b k r) : Keeps k r := by
  induction h with
  | done a => exact keeps_empty
  | fail a e => exact keeps_none (List.cons_ne_nil e [])
  | take t _ ih => exact ih
  | andThen _ _ ih ih' => exact ih.append ih'
  | nested _ ih => exact ih
  | block _ ih => exact ih
  | expression p t _ ih => exact ih.expression p _ _
  | missing p e => exact (keeps_none (List.cons_ne_nil e [])).expression p _ _
  | nothing hb => exact keeps_empty
  | broken e hb => exact keeps_none (List.cons_ne_nil e [])
  | value _ _ _ ih => exact ih
  | statement t _ _ ih => exact ih.statement t _ _
  | closed t a => exact keeps_empty
  | unclosed e => exact keeps_none (List.cons_ne_nil e [])
  | ended => exact keeps_empty
  | @cons a b c k k' r r' braced h _ ih ih' =>
    cases k with
    | some ts => exact ih.append ih'
    | none => simpa using ih.skip h.begun_ne_nil ih'

end Parsing

/-! ### Whole texts -/

/-- The tries at reading statements that were made for a program. -/
def Parsed.attempts (p : Parsed) : List Attempt := LetLang.attempts 0 [] p.trace

/-- The tries that are made for a program are those in the passage through its text. -/
theorem TokenStream.diagnoses (s : TokenStream) :
    Parsing.Diagnoses (.items false) (some s.parse.program.statementTokens) s.read.report
      s.parse.attempts := by
  obtain ⟨tries, hdiagnoses⟩ := s.passage.diagnoses
  have htries : s.parse.attempts = tries := by
    have heq := hdiagnoses.attempts_eq 0 [] []
    rw [List.append_nil] at heq
    exact heq.trans (List.append_nil tries)
  exact htries ▸ hdiagnoses

/-- No statement is begun twice at a token, so that there are no more tries than tokens. -/
theorem TokenStream.attempts_length_le (s : TokenStream) :
    s.parse.attempts.length ≤ s.tokens.length :=
  calc s.parse.attempts.length
      = (s.parse.attempts.map Attempt.first).length := (List.length_map _).symm
    _ = (begun s.parse.trace).length := s.diagnoses.begun.length_eq
    _ = (statementSpans s.parse.trace).length := length_begun _
    _ ≤ s.tokens.length := (statementSpans_climbs s).length_le

/-- **One error for each statement that fails.** A try at reading a statement, at whatever depth,
reports one error of its own if it fails and none if it succeeds; the tries are those that are begun.
So there are as many errors as failed tries, and no more than tokens. The statements of the program
are among those that were begun, and they are all of them exactly if there are no errors. -/
theorem parse_diagnoses (source : String) :
    (∀ a ∈ (parse source).attempts, a.ownErrors = if a.produced then 0 else 1) ∧
      ((parse source).attempts.map Attempt.first).Perm (begun (parse source).trace) ∧
      reported (parse source).trace = (parse source).errors ∧
      (parse source).errors.length = (parse source).attempts.countP (!·.produced) ∧
      (parse source).errors.length ≤ (TokenStream.ofSource source).tokens.length ∧
      (parse source).program.statementTokens.Sublist (begun (parse source).trace) ∧
      ((parse source).errors = [] ↔
        (parse source).program.statementTokens = begun (parse source).trace) := by
  have hdiagnoses := (TokenStream.ofSource source).diagnoses
  have hkeeps := (TokenStream.ofSource source).passage.keeps
  have hcount : (parse source).errors.length = (parse source).attempts.countP (!·.produced) :=
    hdiagnoses.length
  refine ⟨hdiagnoses.own, hdiagnoses.begun, hdiagnoses.reported, hcount, ?_, hkeeps.sublist _ rfl,
    fun herrors => Option.some.inj (hkeeps.whole herrors), fun heq => ?_⟩
  · rw [hcount]
    exact Nat.le_trans List.countP_le_length (TokenStream.ofSource source).attempts_length_le
  · by_contra herrors
    have hlt : (parse source).program.statementTokens.length < (begun (parse source).trace).length :=
      hkeeps.lossy herrors _ rfl
    exact Nat.ne_of_lt hlt (congrArg List.length heq)

end LetLang
