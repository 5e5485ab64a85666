import Mathlib.Algebra.Group.Nat.Defs
import Mathlib.Data.List.Forall2
import LetLang.Proofs.Blame
import LetLang.Proofs.StoredTokens
import LetLang.Proofs.Tokenization

/-! The errors of a text tell the truth, in the order of the text.

Every error is read against the stream of tokens: the token that it is about can be pointed out
there, and what the error says of it is so (`SyntaxError.TrueOf`). The tokens of one error after
another never go back (`parse_truthful`), and so neither do the lines. -/
namespace LetLang

namespace Parsing

/-! ### What starts no operand -/

/-- No operand starts with a token of this kind: there is nothing to read, whatever follows. -/
def Refused (kind : TokenKind) : Prop :=
  ∀ endLine literal line tokens,
    operand endLine ⟨kind, literal, line⟩ tokens = .fail (.noOperand kind line)

theorem refused_iff (kind : TokenKind) : Refused kind ↔ kind ∉ startsOperand := by
  constructor
  · intro h hmem
    have herrors := congrArg (fun s => s.report.errors) (h 1 "" 1 [])
    simp only [startsOperand, List.mem_cons, List.not_mem_nil, or_false] at hmem
    rcases hmem with rfl | rfl | rfl | rfl | rfl | rfl | rfl | rfl | rfl
    all_goals simp [operand, integerLiteral, expression, expect, Step.andThen, Step.map,
      Step.within, Step.fail, Step.done, Report.ofError, Report.empty, Report.within,
      integerValue?, Int64.toInt_maxValue] at herrors
  · intro hmem endLine literal line tokens
    rw [operand]
    split
    case h_10 => rfl
    all_goals
      rename_i hkind
      obtain rfl : kind = _ := hkind
      exact absurd (by decide) hmem

end Parsing

/-! ### What an error says of a token -/

/-- What the error says is true of the token: it stands on the line; it is of the kind that was
found, which is not the expected one or starts no operand; or it is a number that is too large. -/
def SyntaxError.TrueOf (t : Token) : SyntaxError → Prop
  | unexpectedToken expected found line => t.kind = found ∧ expected ≠ found ∧ t.line = line
  | noOperand found line => t.kind = found ∧ Parsing.Refused found ∧ t.line = line
  | integerTooLarge literal line =>
    t.kind = .int ∧ t.literal = literal ∧ literal ≠ "" ∧ (∀ c ∈ literal.toList, c.isDigit = true) ∧
      2 ^ 63 - 1 < Nat.ofDigitChars 10 literal.toList 0 ∧ t.line = line

theorem SyntaxError.TrueOf.line_eq {t : Token} {e : SyntaxError} (h : e.TrueOf t) :
    e.line = t.line := by
  cases e with
  | unexpectedToken expected found line => exact h.2.2.symm
  | noOperand found line => exact h.2.2.symm
  | integerTooLarge literal line => exact h.2.2.2.2.2.symm

/-- A number without a value is larger than every value. -/
theorem Parsing.lt_of_integerValue?_eq_none {literal : String}
    (h : integerValue? literal = none) : 2 ^ 63 - 1 < Nat.ofDigitChars 10 literal.toList 0 := by
  simp only [integerValue?, Int64.toInt_maxValue] at h
  split at h
  · cases h
  · omega

/-- A token that is a number is written with digits alone. -/
theorem Tokenizes.digits {before cs : List Char} {ts : List Token} (h : Tokenizes before cs ts) :
    ∀ t ∈ ts, t.kind = .int → ∀ c ∈ t.literal.toList, c.isDigit = true := by
  induction h with
  | done _ => exact fun t ht => nomatch ht
  | @token before gap rest t ts _ ht _ _ ih =>
    refine List.forall_mem_cons.mpr ⟨fun hkind => ?_, ih⟩
    rw [hkind] at ht
    cases ht with
    | number _ hcs _ => exact hcs
    | keyword h _ =>
      have hall : ∀ w ∈ Lexeme.keywords, w.2 ≠ .int := by decide
      exact absurd rfl (hall _ h)
    | symbol h _ =>
      have hall : ∀ s ∈ symbols, s.2 ≠ .int := by decide
      exact absurd rfl (hall _ h)

namespace TokenStream

/-- The token at a place of the stream is one of the tokens or the end. -/
theorem nth_mem (s : TokenStream) (i : Nat) :
    s.nth i ∈ s.tokens ∨ s.nth i = .endOfInput s.endLine := by
  rw [nth_eq]
  cases h : s.tokens[i]? with
  | none => exact .inr rfl
  | some t => exact .inl (List.mem_of_getElem? h)

theorem endLine_ofSource (source : String) :
    (ofSource source).endLine = 1 + source.toList.count '\n' := by
  obtain ⟨ts, hts⟩ := exists_tokenizes [] source.toList
  rw [ofSource_eq_of_tokenizes hts]

theorem trueOf_of_about {source : String} {i : Nat} {e : SyntaxError}
    (h : e.About ((ofSource source).nth i)) : e.TrueOf ((ofSource source).nth i) := by
  cases h with
  | unexpectedToken h => exact ⟨rfl, fun heq => h heq.symm, rfl⟩
  | noOperand h => exact ⟨rfl, (Parsing.refused_iff _).mpr h, rfl⟩
  | integerTooLarge hkind h =>
    obtain hmem | hend := nth_mem (ofSource source) i
    · obtain ⟨ts, hts⟩ := exists_tokenizes [] source.toList
      rw [ofSource_eq_of_tokenizes hts] at hmem hkind h ⊢
      exact ⟨hkind, rfl, (hts.visible _ hmem).1, hts.digits _ hmem hkind,
        Parsing.lt_of_integerValue?_eq_none h, rfl⟩
    · rw [hend] at hkind
      cases hkind

/-! ### Lines -/

theorem le_endLine_ofLexemes (line : Nat) (ls : List Lexeme) :
    line ≤ (ofLexemes line ls).endLine ∧
      ∀ t ∈ (ofLexemes line ls).tokens, t.line ≤ (ofLexemes line ls).endLine := by
  induction ls generalizing line with
  | nil => exact ⟨Nat.le_refl line, fun t ht => nomatch ht⟩
  | cons l ls ih =>
    unfold ofLexemes
    split
    · obtain ⟨hle, hall⟩ := ih (line + 1)
      exact ⟨Nat.le_of_succ_le hle, hall⟩
    split
    · exact ih line
    · obtain ⟨hle, hall⟩ := ih line
      exact ⟨hle, List.forall_mem_cons.mpr ⟨hle, hall⟩⟩

/-- Further on in the stream the lines do not decrease. -/
theorem line_nth_mono (source : String) {i j : Nat} (h : i ≤ j) :
    ((ofSource source).nth i).line ≤ ((ofSource source).nth j).line := by
  have hend := (le_endLine_ofLexemes 1 (Lexeme.split source.toList)).2
  have hlines := lines_ofLexemes 1 (Lexeme.split source.toList)
  change (ofSource source).tokens.Pairwise _ at hlines
  rw [nth_eq, nth_eq]
  cases hj : (ofSource source).tokens[j]? with
  | none =>
    cases hi : (ofSource source).tokens[i]? with
    | none => exact Nat.le_refl _
    | some t => exact hend t (List.mem_of_getElem? hi)
  | some u =>
    obtain ⟨hjlength, rfl⟩ := List.getElem?_eq_some_iff.mp hj
    rw [List.getElem?_eq_getElem (Nat.lt_of_le_of_lt h hjlength)]
    obtain hij | rfl := Nat.lt_or_eq_of_le h
    · exact List.pairwise_iff_getElem.mp hlines i j _ hjlength hij
    · exact Nat.le_refl _

/-- Every line of the stream is one of the lines of the text. -/
theorem line_nth_bounds (source : String) (i : Nat) :
    1 ≤ ((ofSource source).nth i).line ∧
      ((ofSource source).nth i).line ≤ 1 + source.toList.count '\n' := by
  obtain ⟨hone, hend⟩ := le_endLine_ofLexemes 1 (Lexeme.split source.toList)
  rw [← endLine_ofSource]
  obtain hmem | heq := nth_mem (ofSource source) i
  · exact ⟨le_line_ofLexemes 1 _ _ hmem, hend _ hmem⟩
  · rw [heq]
    exact ⟨hone, Nat.le_refl _⟩

end TokenStream

/-! ### Places -/

/-- Tokens further and further on have places that never go back. -/
theorem Parsing.Blames.exists_places {s : TokenStream} {a b : List Token} {es : List SyntaxError}
    (h : Blames s.endLine a b es) (ha : a <:+ s.tokens) :
    ∃ places : List Nat,
      List.Forall₂ (fun i e => i ≤ s.tokens.length ∧ e.About (s.nth i)) places es ∧
        places.Pairwise (· ≤ ·) ∧ ∀ i ∈ places, s.tokens.length - a.length ≤ i := by
  induction h with
  | nil _ => exact ⟨[], .nil, .nil, fun i hi => nomatch hi⟩
  | @cons a c b e es hc he _ ih =>
    obtain ⟨places, hplaces, hordered, hbound⟩ := ih (hc.trans ha)
    obtain ⟨before, htokens⟩ := hc.trans ha
    have hplace : s.tokens.length - c.length = before.length := by
      rw [← htokens, List.length_append, Nat.add_sub_cancel]
    have hnth : s.nth before.length = c.headD (.endOfInput s.endLine) := by
      rw [TokenStream.nth_eq, ← htokens, List.getElem?_append_right (Nat.le_refl _), Nat.sub_self]
      cases c <;> rfl
    refine ⟨before.length :: places, .cons ⟨?_, hnth ▸ he⟩ hplaces, ?_, ?_⟩
    · exact hplace ▸ Nat.sub_le _ _
    · exact .cons (fun i hi => hplace ▸ hbound i hi) hordered
    · have hle : s.tokens.length - a.length ≤ s.tokens.length - c.length :=
        Nat.sub_le_sub_left hc.length_le _
      refine List.forall_mem_cons.mpr ⟨hplace ▸ hle, fun i hi => ?_⟩
      exact Nat.le_trans hle (hbound i hi)

/-- **Errors are truthful and come in the order of the text.** Each error of a text is about a
token of the stream, the end of the input included: a token of the kind that was found instead of
another that was expected, or that starts no operand, or a number above the largest. The places of
these tokens never go back along the list. So the lines never decrease, and all of them are lines
of the text. -/
theorem parse_truthful (source : String) :
    (∃ places : List Nat,
      List.Forall₂ (fun i e => i ≤ (TokenStream.ofSource source).tokens.length ∧
          e.TrueOf ((TokenStream.ofSource source).nth i)) places (parse source).errors ∧
        places.Pairwise (· ≤ ·)) ∧
      ((parse source).errors.map SyntaxError.line).Pairwise (· ≤ ·) ∧
      ∀ e ∈ (parse source).errors, 1 ≤ e.line ∧ e.line ≤ 1 + source.toList.count '\n' := by
  have hblames := parse_blames source
  obtain ⟨places, hplaces, hordered, _⟩ := hblames.exists_places (List.suffix_refl _)
  have htrue : List.Forall₂ (fun i e => i ≤ (TokenStream.ofSource source).tokens.length ∧
      e.TrueOf ((TokenStream.ofSource source).nth i)) places (parse source).errors :=
    hplaces.imp fun i e h => ⟨h.1, TokenStream.trueOf_of_about h.2⟩
  have hlines : places.map (fun i => ((TokenStream.ofSource source).nth i).line) =
      (parse source).errors.map SyntaxError.line := by
    rw [← List.forall₂_eq_eq_eq, List.forall₂_map_left_iff, List.forall₂_map_right_iff]
    exact htrue.imp fun i e h => h.2.line_eq.symm
  refine ⟨⟨places, htrue, hordered⟩, ?_, fun e he => ?_⟩
  · rw [← hlines]
    exact List.pairwise_map.mpr (hordered.imp fun h => TokenStream.line_nth_mono source h)
  · have hmem : e.line ∈ places.map fun i => ((TokenStream.ofSource source).nth i).line := by
      rw [hlines]
      exact List.mem_map_of_mem he
    obtain ⟨i, _, hi⟩ := List.mem_map.mp hmem
    exact hi ▸ TokenStream.line_nth_bounds source i

end LetLang
