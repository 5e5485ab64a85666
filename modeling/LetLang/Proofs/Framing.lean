import LetLang.Proofs.Inline
import LetLang.Proofs.Pieces

/-! A session shows one answer for each line.

There is one way to cut an input into lines (`lines_unique`). Each line is answered alone: if it has
errors, by these, each on a line of its own behind a tab; and otherwise by its value, on one line,
in the store that the lines before it have left (`Reply`). No text that is shown breaks the line
that it is shown on, since the store never holds anything but well-formed functions, so the answers
can be told apart in what a session shows (`session_framed`). -/
namespace LetLang.Repl
open Text.Utf8

/-! ### Lines -/

/-- Each line ends with its only line feed. The last one may lack it, unless it is empty. -/
inductive AreLines : List (List UInt8) → Prop where
  | nil : AreLines []
  | last {bs : List UInt8} (hne : bs ≠ []) (hbs : 10 ∉ bs) : AreLines [bs]
  | line {bs : List UInt8} {ls : List (List UInt8)} (hbs : 10 ∉ bs) (hls : AreLines ls) :
      AreLines ((bs ++ [10]) :: ls)

theorem lines_append_newline {bs : List UInt8} (h : 10 ∉ bs) (rest : List UInt8) :
    lines (bs ++ 10 :: rest) = (bs ++ [10]) :: lines rest := by
  induction bs with
  | nil => rw [List.nil_append, lines, if_pos rfl, List.nil_append]
  | cons b bs ih =>
    obtain ⟨hb, hbs⟩ := List.forall_mem_cons.mp (List.forall_mem_ne.mpr h)
    rw [List.cons_append, lines, if_neg (Ne.symm hb), ih (List.forall_mem_ne.mp hbs)]
    rfl

theorem lines_of_no_newline {bs : List UInt8} (hne : bs ≠ []) (h : 10 ∉ bs) : lines bs = [bs] := by
  obtain ⟨cs, rest, rfl, _⟩ | hlines := lines_cases bs hne
  · exact absurd (by simp) h
  · exact hlines

/-- Lines that are put together are cut apart again. -/
theorem AreLines.lines_flatten {ls : List (List UInt8)} (h : AreLines ls) :
    lines ls.flatten = ls := by
  induction h with
  | nil => rfl
  | @last bs hne hbs => rw [List.flatten_singleton, lines_of_no_newline hne hbs]
  | @line bs ls hbs _ ih =>
    rw [List.flatten_cons, List.append_assoc, List.singleton_append, lines_append_newline hbs, ih]

theorem areLines_lines (input : List UInt8) : AreLines (lines input) := by
  induction input with
  | nil => exact .nil
  | cons b bs ih =>
    rw [lines]
    split
    · rename_i hb
      have hempty : AreLines (([] ++ [10]) :: lines bs) := .line List.not_mem_nil ih
      exact hb ▸ hempty
    · rename_i hb
      generalize lines bs = ls at ih
      have hmem {cs : List UInt8} (hcs : 10 ∉ cs) : 10 ∉ b :: cs := by
        simpa [hcs] using Ne.symm hb
      cases ih with
      | nil => exact .last (List.cons_ne_nil b []) (hmem List.not_mem_nil)
      | @last cs _ hcs => exact .last (List.cons_ne_nil b cs) (hmem hcs)
      | line hcs hls => exact .line (hmem hcs) hls

theorem flatten_lines (input : List UInt8) : (lines input).flatten = input := by
  induction input with
  | nil => rfl
  | cons b bs ih =>
    rw [lines]
    split
    · rw [List.flatten_cons, ih]
      rfl
    · revert ih
      cases lines bs with
      | nil => exact fun ih => congrArg (b :: ·) ih
      | cons l ls => exact fun ih => congrArg (b :: ·) ih

/-- There is one way to cut an input into lines. -/
theorem lines_unique (input : List UInt8) (ls : List (List UInt8)) :
    AreLines ls ∧ ls.flatten = input ↔ ls = lines input := by
  constructor
  · rintro ⟨hls, rfl⟩
    exact hls.lines_flatten.symm
  · rintro rfl
    exact ⟨areLines_lines input, flatten_lines input⟩

/-! ### Answers -/

/-- The errors of a line, each on a line of its own behind a tab. -/
def complaints (line : List UInt8) : String :=
  String.join ((parse (decodeLossy line)).errors.map fun e => "\t" ++ e.message ++ "\n")

/-- How a line is answered in the store `s` by a text that leaves the store `s'`. -/
structure Reply (depth : Nat) (s : Store) (line : List UInt8) (text : String) (s' : Store) :
    Prop where
  /-- A line with errors is answered by these and changes nothing. -/
  rejected : (parse (decodeLossy line)).errors ≠ [] → text = complaints line ∧ s' = s
  /-- Any other line is answered by its value in the store. -/
  evaluated : (parse (decodeLossy line)).errors = [] →
    let x := (parse (decodeLossy line)).program.eval depth Store.rootFrame (.on s)
    ∃ v, x.1 = some v ∧ text = v.render ++ "\n" ∧ s' = x.2.store ∧ Unbroken v.render ∧
      ∀ e, v = .error e → Unbroken e.message
  /-- No error of the line breaks the line that it is shown on. -/
  messages : ∀ e ∈ (parse (decodeLossy line)).errors, Unbroken e.message
  /-- Nor would any value that is bound. -/
  bound : ∀ {i : FrameId} {f : Frame} {name : String} {v : Value}, s'.frames[i]? = some f →
    f.get? name = some v → Unbroken v.render

/-- The texts answer the lines one by one, each in the store that the answers before it have
left. -/
inductive Replies (depth : Nat) : Store → List (List UInt8) → List String → Prop where
  | nil (s : Store) : Replies depth s [] []
  | cons {s s' : Store} {line : List UInt8} {ls : List (List UInt8)} {text : String}
      {texts : List String} (h : Reply depth s line text s') (hs : Replies depth s' ls texts) :
      Replies depth s (line :: ls) (text :: texts)

/-- The execution of each line ends, where the lines before it have left off. -/
def AllEnd (depth : Nat) (s : Store) : List (List UInt8) → Prop
  | [] => True
  | line :: rest =>
    let x := execute depth Store.rootFrame s (decodeLossy line)
    x.outcome.isSome ∧ AllEnd depth x.store rest

variable {depth : Nat} {s : Store} {line : List UInt8}

theorem showOutcome_outcome (v : Value) : showOutcome v.outcome = v.render ++ "\n" := by
  cases v <;> rfl

/-- The answer to a line with errors. -/
theorem answer_of_errors_ne_nil (h : (parse (decodeLossy line)).errors ≠ []) (depth : Nat)
    (s : Store) : ∃ a, answer depth line s = some a ∧ a.text = complaints line ∧ a.store = s := by
  obtain ⟨houtcome, hstore⟩ := execute_of_errors_ne_nil depth Store.rootFrame s h
  have hanswer : answer depth line s = _ := congrArg (Option.map _) houtcome
  exact ⟨_, hanswer, rfl, hstore⟩

/-- A line whose execution ends is answered. -/
theorem exists_reply (hs : s.WellFormed)
    (hend : (execute depth Store.rootFrame s (decodeLossy line)).outcome.isSome) :
    ∃ a, answer depth line s = some a ∧
      a.store = (execute depth Store.rootFrame s (decodeLossy line)).store ∧
      a.store.WellFormed ∧ Reply depth s line a.text a.store := by
  have hmessages : ∀ e ∈ (parse (decodeLossy line)).errors, Unbroken e.message :=
    fun e he => (parse_errors_inline _ e he).unbroken
  have hbound {s' : Store} (hs' : s'.WellFormed) {i : FrameId} {f : Frame} {name : String}
      {v : Value} (hf : s'.frames[i]? = some f) (hv : f.get? name = some v) : Unbroken v.render :=
    (Value.inline_render (hs' hf hv)).unbroken
  by_cases herrors : (parse (decodeLossy line)).errors = []
  · obtain ⟨houtcome, hstore⟩ := execute_of_errors_eq_nil depth Store.rootFrame s herrors
    obtain ⟨hs', hvalue⟩ :=
      Program.eval_wellFormed (parse_wellFormed (decodeLossy line)) depth Store.rootFrame
        (show (Machine.on s).store.WellFormed from hs)
    rw [houtcome, Option.isSome_map] at hend
    obtain ⟨v, hv⟩ := Option.isSome_iff_exists.mp hend
    rw [hv, Option.map_some] at houtcome
    have hwell := hvalue v hv
    refine ⟨_, by rw [answer, houtcome, Option.map_some], rfl, hstore ▸ hs', ?_⟩
    refine ⟨fun h => absurd herrors h, fun _ => ?_, hmessages, hbound (hstore ▸ hs')⟩
    refine ⟨v, hv, showOutcome_outcome v, hstore, (Value.inline_render hwell).unbroken, ?_⟩
    rintro e rfl
    exact (RuntimeError.inline_message hwell).unbroken
  · obtain ⟨a, ha, htext, hstore⟩ := answer_of_errors_ne_nil herrors depth s
    obtain ⟨_, hafter⟩ := execute_of_errors_ne_nil depth Store.rootFrame s herrors
    refine ⟨a, ha, hstore.trans hafter.symm, hstore ▸ hs, ?_⟩
    exact ⟨fun _ => ⟨htext, hstore⟩, fun h => absurd h herrors, hmessages, hbound (hstore ▸ hs)⟩

/-- If the execution of each line ends, all lines are answered. -/
theorem exists_replies {s : Store} (hs : s.WellFormed) (ls : List (List UInt8))
    (h : AllEnd depth s ls) :
    ∃ as, answers depth s ls = some as ∧ Replies depth s ls (as.map Answer.text) := by
  induction ls generalizing s with
  | nil => exact ⟨[], rfl, .nil s⟩
  | cons line rest ih =>
    obtain ⟨hend, hrest⟩ := h
    obtain ⟨a, ha, hstore, hwell, hreply⟩ := exists_reply hs hend
    rw [← hstore] at hrest
    obtain ⟨as, has, hreplies⟩ := ih hwell hrest
    refine ⟨a :: as, ?_, .cons hreply hreplies⟩
    rw [answers, ha]
    exact congrArg (Option.map (a :: ·)) has

/-- What a session shows is the texts of its answers, each behind a prompt, and one more prompt. -/
theorem run_output (depth : Nat) (input : List UInt8) :
    (run depth input).map Transcript.output =
      (answers depth Store.root (lines input)).map fun as =>
        String.join ((as.map Answer.text).map (prompt ++ ·)) ++ prompt := by
  rw [run, transcript_output]
  simp only [List.map_map]
  rfl

/-- **What a session shows is framed, one answer for each line.** If the execution of each line
ends, a session shows as many answers as there are lines, each behind a prompt, and one more prompt.
A line with errors is answered by these, one by one, each on a line of its own behind a tab; any
other line by its value in the store that the lines before it have left. No value and no error
breaks the line that it is shown on or starts with a tab, whatever the input is. -/
theorem session_framed (depth : Nat) (input : List UInt8)
    (h : AllEnd depth Store.root (lines input)) :
    (∀ ls, AreLines ls ∧ ls.flatten = input ↔ ls = lines input) ∧
      ∃ t texts, run depth input = some t ∧
        t.output = String.join (texts.map (prompt ++ ·)) ++ prompt ∧
        Replies depth Store.root (lines input) texts := by
  refine ⟨lines_unique input, ?_⟩
  obtain ⟨as, has, hreplies⟩ := exists_replies Store.root_wellFormed (lines input) h
  have houtput := run_output depth input
  rw [has, Option.map_some] at houtput
  obtain ⟨t, ht, htext⟩ := Option.map_eq_some_iff.mp houtput
  exact ⟨t, _, ht, htext, hreplies⟩

/-- A binding, two errors on one line, and a function that the last line shows. -/
theorem session_framed_rejection :
    let input := "let f = fn(x) \x7b x \x7d;\n) let 1\nf".toUTF8.toList
    AllEnd 0 Store.root (lines input) ∧
      ∃ t texts, run 0 input = some t ∧
        t.output = String.join (texts.map (prompt ++ ·)) ++ prompt ∧
        Replies 0 Store.root (lines input) texts := by
  intro input
  have hlines : lines input = ["let f = fn(x) \x7b x \x7d;\n".toUTF8.toList,
      ") let 1\n".toUTF8.toList, "f".toUTF8.toList] := by decide +kernel
  have hend : AllEnd 0 Store.root (lines input) := by
    rw [hlines]
    refine ⟨?_, ?_, ?_, trivial⟩
    all_goals decide +kernel
  exact ⟨hend, (session_framed 0 input hend).2⟩

end LetLang.Repl
