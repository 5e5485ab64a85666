import LetLang.Proofs.Framing

/-! Rejected lines leave no trace.

A line with errors is answered by them and changes nothing, whatever well-formed statements stand
next to the faulty ones. So if lines with errors are taken out of an input, each line that is left
finds the same store, and what the session shows loses the answers to the lines that are gone, with
their prompts, and nothing else (`rejected_lines_leave_no_trace`). -/
namespace LetLang.Repl
open Text.Utf8

/-- A line, whether it is taken out, and the text that answers it. -/
structure Turn where
  line : List UInt8
  omitted : Bool
  text : String

/-- What a session of some turns shows. -/
def shown (turns : List Turn) : String :=
  String.join ((turns.map Turn.text).map (prompt ++ ·)) ++ prompt

/-- Lines are still lines when some are left out. -/
theorem AreLines.sublist {ls ls' : List (List UInt8)} (h : AreLines ls) (hsub : ls'.Sublist ls) :
    AreLines ls' := by
  induction h generalizing ls' with
  | nil =>
    rw [List.sublist_nil.mp hsub]
    exact .nil
  | last hne hbs =>
    rcases List.sublist_singleton.mp hsub with rfl | rfl
    · exact .nil
    · exact .last hne hbs
  | line hbs _ ih =>
    cases hsub with
    | cons _ hsub => exact ih hsub
    | cons_cons _ hsub => exact .line hbs (ih hsub)

/-- The texts that answer some lines. -/
def answerTexts (depth : Nat) (s : Store) (ls : List (List UInt8)) : Option (List String) :=
  (answers depth s ls).map (List.map Answer.text)

variable {depth : Nat} {s : Store} {line : List UInt8}

theorem answerTexts_of_none (h : answer depth line s = none) (rest : List (List UInt8)) :
    answerTexts depth s (line :: rest) = none := by
  rw [answerTexts, answers, h]
  rfl

theorem answerTexts_of_some {a : Answer} (h : answer depth line s = some a)
    (rest : List (List UInt8)) :
    answerTexts depth s (line :: rest) = (answerTexts depth a.store rest).map (a.text :: ·) := by
  simp only [answerTexts, answers, h, Option.map_map]
  rfl

/-- The texts of turns answer the lines, and the same texts answer the lines that are left. -/
structure Accords (depth : Nat) (s : Store) (marked : List (List UInt8 × Bool))
    (turns : List Turn) : Prop where
  lines : turns.map (fun t => (t.line, t.omitted)) = marked
  all : answerTexts depth s (marked.map Prod.fst) = some (turns.map Turn.text)
  kept : answerTexts depth s ((marked.filter fun l => !l.2).map Prod.fst) =
    some ((turns.filter fun t => !t.omitted).map Turn.text)
  omitted : ∀ t ∈ turns, t.omitted = true → t.text = complaints t.line

theorem Accords.omit {marked : List (List UInt8 × Bool)} {turns : List Turn}
    (h : Accords depth s marked turns) (hline : (parse (decodeLossy line)).errors ≠ []) :
    Accords depth s ((line, true) :: marked) (⟨line, true, complaints line⟩ :: turns) := by
  obtain ⟨a, ha, htext, hstore⟩ := answer_of_errors_ne_nil hline depth s
  refine ⟨congrArg ((line, true) :: ·) h.lines, ?_, h.kept, ?_⟩
  · rw [List.map_cons, answerTexts_of_some ha, hstore, h.all, htext]
    rfl
  · exact List.forall_mem_cons.mpr ⟨fun _ => rfl, h.omitted⟩

theorem Accords.keep {a : Answer} {marked : List (List UInt8 × Bool)} {turns : List Turn}
    (h : Accords depth a.store marked turns) (ha : answer depth line s = some a) :
    Accords depth s ((line, false) :: marked) (⟨line, false, a.text⟩ :: turns) := by
  refine ⟨congrArg ((line, false) :: ·) h.lines, ?_, ?_, ?_⟩
  · rw [List.map_cons, answerTexts_of_some ha, h.all]
    rfl
  · rw [List.filter_cons_of_pos rfl, List.map_cons, answerTexts_of_some ha, h.kept]
    rfl
  · exact List.forall_mem_cons.mpr ⟨nofun, h.omitted⟩

/-- Lines are answered with and without lines that have errors, or neither way. -/
theorem exists_accords (depth : Nat) (s : Store) (marked : List (List UInt8 × Bool))
    (h : ∀ l ∈ marked, l.2 = true → (parse (decodeLossy l.1)).errors ≠ []) :
    (answerTexts depth s (marked.map Prod.fst) = none ∧
        answerTexts depth s ((marked.filter fun l => !l.2).map Prod.fst) = none) ∨
      ∃ turns, Accords depth s marked turns := by
  induction marked generalizing s with
  | nil => exact .inr ⟨[], rfl, rfl, rfl, nofun⟩
  | cons l rest ih =>
    obtain ⟨line, mark⟩ := l
    obtain ⟨hline, hrest⟩ := List.forall_mem_cons.mp h
    cases mark with
    | true =>
      obtain ⟨a, ha, _, hstore⟩ := answer_of_errors_ne_nil (hline rfl) depth s
      obtain ⟨hall, hkept⟩ | ⟨turns, hturns⟩ := ih s hrest
      · refine .inl ⟨?_, hkept⟩
        rw [List.map_cons, answerTexts_of_some ha, hstore, hall]
        rfl
      · exact .inr ⟨_, hturns.omit (hline rfl)⟩
    | false =>
      have hfilter : ((line, false) :: rest).filter (fun l => !l.2) =
          (line, false) :: rest.filter fun l => !l.2 := List.filter_cons_of_pos rfl
      rw [hfilter, List.map_cons, List.map_cons]
      cases ha : answer depth line s with
      | none => exact .inl ⟨answerTexts_of_none ha _, answerTexts_of_none ha _⟩
      | some a =>
        obtain ⟨hall, hkept⟩ | ⟨turns, hturns⟩ := ih a.store hrest
        · rw [answerTexts_of_some ha, answerTexts_of_some ha, hall, hkept]
          exact .inl ⟨rfl, rfl⟩
        · exact .inr ⟨_, hturns.keep ha⟩

/-- What a session shows, from the texts of its answers. -/
theorem run_output_texts (depth : Nat) (input : List UInt8) :
    (run depth input).map Transcript.output =
      (answerTexts depth Store.root (lines input)).map fun texts =>
        String.join (texts.map (prompt ++ ·)) ++ prompt := by
  rw [run_output, answerTexts, Option.map_map]
  rfl

/-- **Rejected lines leave no trace.** Let some lines of an input be marked that all have errors.
The input without them is cut into the lines that are left. Its session ends exactly if the session
of the whole input does, and shows the same, but for the prompts in front of the marked lines and
their errors, each of which stands on a line of its own behind a tab: every other line is answered
by the same text. -/
theorem rejected_lines_leave_no_trace (depth : Nat) (input : List UInt8)
    (marked : List (List UInt8 × Bool)) (hlines : marked.map Prod.fst = lines input)
    (herrors : ∀ l ∈ marked, l.2 = true → (parse (decodeLossy l.1)).errors ≠ []) :
    let kept := (marked.filter fun l => !l.2).map Prod.fst
    lines kept.flatten = kept ∧
      (run depth kept.flatten = none ↔ run depth input = none) ∧
      ∀ t, run depth input = some t → ∃ (t' : Transcript) (turns : List Turn),
        turns.map (fun u => (u.line, u.omitted)) = marked ∧
          (∀ u ∈ turns, u.omitted = true → u.text = complaints u.line) ∧
          run depth kept.flatten = some t' ∧
          t.output = shown turns ∧ t'.output = shown (turns.filter fun u => !u.omitted) := by
  intro kept
  have hsub : kept.Sublist (lines input) := by
    rw [← hlines]
    exact List.filter_sublist.map Prod.fst
  have hkept : lines kept.flatten = kept := ((areLines_lines input).sublist hsub).lines_flatten
  have hinput := run_output_texts depth input
  have hrun := run_output_texts depth kept.flatten
  rw [hkept] at hrun
  rw [← hlines] at hinput
  refine ⟨hkept, ?_⟩
  obtain ⟨hall, hnone⟩ | ⟨turns, hturns⟩ := exists_accords depth Store.root marked herrors
  · -- Neither session ends.
    rw [hall] at hinput
    rw [hnone] at hrun
    rw [Option.map_eq_none_iff.mp hinput, Option.map_eq_none_iff.mp hrun]
    exact ⟨Iff.rfl, nofun⟩
  · rw [hturns.all] at hinput
    rw [hturns.kept] at hrun
    obtain ⟨t, ht, hshown⟩ := Option.map_eq_some_iff.mp hinput
    obtain ⟨t', ht', hshown'⟩ := Option.map_eq_some_iff.mp hrun
    rw [ht, ht']
    refine ⟨iff_of_false nofun nofun, fun u hu => ?_⟩
    obtain rfl := Option.some.inj hu
    exact ⟨t', turns, hturns.lines, hturns.omitted, rfl, hshown, hshown'⟩

/-- A line that would bind a name anew if it were not for its end. -/
theorem rejected_lines_leave_no_trace_binding :
    let input := "let a = 1;\nlet a = 2; )\na\n".toUTF8.toList
    let marked := [("let a = 1;\n".toUTF8.toList, false), ("let a = 2; )\n".toUTF8.toList, true),
      ("a\n".toUTF8.toList, false)]
    marked.map Prod.fst = lines input ∧
      (∀ l ∈ marked, l.2 = true → (parse (decodeLossy l.1)).errors ≠ []) ∧
      ∃ t t' turns, run 0 input = some t ∧ run 0 "let a = 1;\na\n".toUTF8.toList = some t' ∧
        t.output = shown turns ∧ t'.output = shown (turns.filter fun u => !u.omitted) := by
  intro input marked
  have hlines : marked.map Prod.fst = lines input := by decide +kernel
  have herrors : ∀ l ∈ marked, l.2 = true → (parse (decodeLossy l.1)).errors ≠ [] := by
    decide +kernel
  have hkept : ((marked.filter fun l => !l.2).map Prod.fst).flatten =
      "let a = 1;\na\n".toUTF8.toList := by decide +kernel
  have hends : (run 0 input).isSome := by decide +kernel
  obtain ⟨t, ht⟩ := Option.isSome_iff_exists.mp hends
  obtain ⟨_, _, hshown⟩ := rejected_lines_leave_no_trace 0 input marked hlines herrors
  obtain ⟨t', turns, _, _, ht', houtput, houtput'⟩ := hshown t ht
  rw [hkept] at ht'
  exact ⟨hlines, herrors, t, t', turns, ht, ht', houtput, houtput'⟩

end LetLang.Repl
