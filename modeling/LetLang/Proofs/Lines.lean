import LetLang.Repl

/-! The lines of an input and their texts.

A line feed is a byte of its own wherever it stands: no character goes on across it, not even one
whose bytes are cut short. So the text of an input is put together from the texts of its lines
(`decodeLossy_newline`). -/
namespace LetLang

namespace Text.Utf8

/-- What is missing of a character does not come behind a line feed. -/
theorem follow_newline {number : Nat} {rs : List Bounds} (hrs : ∀ r ∈ rs, 10 < r.low)
    (bs ds : List UInt8) :
    follow number rs (bs ++ 10 :: ds) =
      ((follow number rs bs).1, (follow number rs bs).2 ++ 10 :: ds) := by
  fun_induction follow number rs bs with
  | case1 => rfl
  | case2 number r rs =>
    obtain ⟨hr, _⟩ := List.forall_mem_cons.mp hrs
    exact if_neg fun h => absurd h.1 (UInt8.not_le.mpr hr)
  | case3 number r rs b bs h ih =>
    rw [List.cons_append, follow, if_pos h]
    exact ih (List.forall_mem_cons.mp hrs).2
  | case4 number r rs b bs h =>
    rw [List.cons_append, follow, if_neg h]

theorem newline_lt_of_lead? {b : UInt8} {number : Nat} {rs : List Bounds}
    (h : lead? b = some (number, rs)) : ∀ r ∈ rs, 10 < r.low := by
  unfold lead? at h
  repeat' split at h
  all_goals cases h
  all_goals decide

theorem first_newline (b : UInt8) (bs ds : List UInt8) :
    first b (bs ++ 10 :: ds) = ((first b bs).1, (first b bs).2 ++ 10 :: ds) := by
  unfold first
  cases hlead : lead? b with
  | none => rfl
  | some lead => exact follow_newline (newline_lt_of_lead? hlead) bs ds

theorem decode_newline (bs ds : List UInt8) :
    decode (bs ++ 10 :: ds) = decode bs ++ some '\n' :: decode ds := by
  fun_induction decode bs with
  | case1 =>
    rw [List.nil_append, decode]
    rfl
  | case2 b bs ih => rw [List.cons_append, decode, first_newline, ih, List.cons_append]

/-- The text of an input, cut behind a line feed. -/
theorem decodeLossy_newline (bs ds : List UInt8) :
    decodeLossy (bs ++ 10 :: ds) = decodeLossy bs ++ "\n" ++ decodeLossy ds := by
  refine String.toList_inj.mp ?_
  simp only [decodeLossy, decode_newline, String.toList_append, String.toList_ofList,
    List.map_append, List.map_cons, List.append_assoc]
  rfl

theorem decodeLossy_nil : decodeLossy [] = "" := by
  rw [decodeLossy, decode]
  rfl

/-- The text of a line. -/
theorem decodeLossy_line (bs : List UInt8) : decodeLossy (bs ++ [10]) = decodeLossy bs ++ "\n" := by
  rw [decodeLossy_newline, decodeLossy_nil, String.append_empty]

end Text.Utf8

namespace Repl

/-- The first line of an input ends with a line feed, or it is all of the input. -/
theorem lines_cases (input : List UInt8) (h : input ≠ []) :
    (∃ bs rest, input = bs ++ 10 :: rest ∧ lines input = (bs ++ [10]) :: lines rest) ∨
      lines input = [input] := by
  induction input with
  | nil => exact absurd rfl h
  | cons b bs ih =>
    by_cases hb : b = 10
    · exact .inl ⟨[], bs, by rw [hb]; rfl, by rw [lines, if_pos hb, hb]; rfl⟩
    rw [lines, if_neg hb]
    by_cases hbs : bs = []
    · rw [hbs]
      exact .inr rfl
    obtain ⟨cs, rest, hcs, hlines⟩ | hlines := ih hbs
    · exact .inl ⟨b :: cs, rest, congrArg (b :: ·) hcs, by rw [hlines]; rfl⟩
    · exact .inr (by rw [hlines])

theorem lines_ne_nil {input : List UInt8} (h : input ≠ []) : lines input ≠ [] := by
  obtain ⟨bs, rest, _, hlines⟩ | hlines := lines_cases input h
  · rw [hlines]
    exact List.cons_ne_nil _ _
  · rw [hlines]
    exact List.cons_ne_nil _ _

end Repl

end LetLang
