import LetLang.TokenStream

/-! Taking tokens off the front of a text.

`scan` is what a text, or the rest of one, holds from a given line on. A word, a number or a
symbol at its front is its first token wherever the lexeme cannot go on: a word in front of a
character that continues no word, a number in front of something that is no digit, and most
symbols anywhere. -/
namespace LetLang

/-- The text does not start with a character that `p` holds of. -/
def Stops (p : Char → Bool) (cs : List Char) : Prop := ∀ c ∈ cs.head?, p c = false

theorem stops_nil (p : Char → Bool) : Stops p [] := by
  intro c hc
  cases hc

theorem stops_cons {p : Char → Bool} {c : Char} (h : p c = false) (cs : List Char) :
    Stops p (c :: cs) := by
  intro d hd
  cases hd
  exact h

theorem Stops.mono {p q : Char → Bool} {cs : List Char} (h : Stops p cs)
    (hpq : ∀ c, p c = false → q c = false) : Stops q cs :=
  fun c hc => hpq c (h c hc)

theorem Stops.takeWhile {p : Char → Bool} {cs : List Char} (h : Stops p cs) :
    cs.takeWhile p = [] := by
  cases cs with
  | nil => rfl
  | cons c cs => rw [List.takeWhile_cons, h c rfl]; rfl

theorem Stops.dropWhile {p : Char → Bool} {cs : List Char} (h : Stops p cs) :
    cs.dropWhile p = cs := by
  cases cs with
  | nil => rfl
  | cons c cs => rw [List.dropWhile_cons, h c rfl]; rfl

namespace Lexeme

/-- A run ends where its text does if the text after it does not continue it. -/
theorem run_stops (kind : List Char → TokenKind) {p : Char → Bool} (c : Char) {ds cs : List Char}
    (hds : ∀ d ∈ ds, p d = true) (hcs : Stops p cs) :
    run kind p c (ds ++ cs) = (⟨kind (c :: ds), c :: ds⟩, cs) := by
  rw [run, List.takeWhile_append_of_pos hds, List.dropWhile_append_of_pos hds, hcs.takeWhile,
    hcs.dropWhile, List.append_nil]

theorem isBlank_of_isDigit {c : Char} (h : c.isDigit = true) : isBlank c = false := by
  simp only [Char.isDigit, isBlank, Bool.and_eq_true, Bool.or_eq_false_iff, beq_eq_false_iff_ne]
    at h ⊢
  refine ⟨⟨⟨?_, ?_⟩, ?_⟩, ?_⟩ <;> rintro rfl <;> revert h <;> decide

theorem isBlank_of_startsWord {c : Char} (h : startsWord c = true) : isBlank c = false := by
  cases hb : isBlank c with
  | false => rfl
  | true =>
    simp only [isBlank, Bool.or_eq_true, beq_iff_eq] at hb
    rcases hb with ((rfl | rfl) | rfl) | rfl <;> revert h <;> decide

theorem isDigit_of_startsWord {c : Char} (h : startsWord c = true) : c.isDigit = false := by
  cases hd : c.isDigit with
  | false => rfl
  | true =>
    delta startsWord Char.isAlpha Char.isUpper Char.isLower at h
    simp only [Char.isDigit, Bool.or_eq_true, Bool.and_eq_true, decide_eq_true_eq,
      beq_iff_eq] at h hd
    change ((65 ≤ c.toNat ∧ c.toNat ≤ 90) ∨ (97 ≤ c.toNat ∧ c.toNat ≤ 122)) ∨ c = '_' at h
    change 48 ≤ c.toNat ∧ c.toNat ≤ 57 at hd
    rcases h with (h | h) | rfl
    · omega
    · omega
    · revert hd
      decide

theorem isDigit_of_not_continuesWord {c : Char} (h : continuesWord c = false) :
    c.isDigit = false := by
  simp only [continuesWord, Char.isAlphanum, Bool.or_eq_false_iff] at h
  exact h.1.2

theorem first_word {c : Char} {ds cs : List Char} (hc : startsWord c = true)
    (hds : ∀ d ∈ ds, continuesWord d = true) (hcs : Stops continuesWord cs) :
    first c (ds ++ cs) = (⟨wordKind (c :: ds), c :: ds⟩, cs) := by
  rw [first, isBlank_of_startsWord hc, isDigit_of_startsWord hc, hc, if_neg Bool.false_ne_true,
    if_neg Bool.false_ne_true, if_pos rfl, run_stops wordKind c hds hcs]

theorem first_digits {c : Char} {ds cs : List Char} (hc : c.isDigit = true)
    (hds : ∀ d ∈ ds, d.isDigit = true) (hcs : Stops Char.isDigit cs) :
    first c (ds ++ cs) = (⟨.int, c :: ds⟩, cs) := by
  rw [first, isBlank_of_isDigit hc, hc, if_neg Bool.false_ne_true, if_pos rfl,
    run_stops _ c hds hcs]

/-- A word is no layout. -/
theorem wordKind_isLayout (word : List Char) : (wordKind word).isLayout = false := by
  unfold wordKind
  generalize String.ofList word = w
  simp only [keywords, List.lookup_cons, List.lookup_nil]
  repeat' split
  all_goals rfl

end Lexeme

namespace TokenStream

/-- The tokens of a text whose first line is `line`. -/
def scan (line : Nat) (cs : List Char) : TokenStream := ofLexemes line (Lexeme.split cs)

/-- The stream with some tokens in front of it. -/
def prepend (ts : List Token) (s : TokenStream) : TokenStream := ⟨ts ++ s.tokens, s.endLine⟩

@[simp] theorem prepend_prepend (ts us : List Token) (s : TokenStream) :
    (s.prepend us).prepend ts = s.prepend (ts ++ us) := by
  simp only [prepend, List.append_assoc]

@[simp] theorem scan_nil (line : Nat) : scan line [] = ⟨[], line⟩ := by
  rw [scan, Lexeme.split]
  rfl

/-- The first lexeme of a text is its first token, unless it is layout. -/
theorem scan_cons {c : Char} {cs rest : List Char} {l : Lexeme} (line : Nat)
    (h : Lexeme.first c cs = (l, rest)) (hl : l.kind.isLayout = false) :
    scan line (c :: cs) = (scan line rest).prepend [⟨l.kind, String.ofList l.text, line⟩] := by
  have hn : l.kind ≠ .newline := by
    intro hn
    rw [hn] at hl
    cases hl
  rw [scan, Lexeme.split, h, ofLexemes, if_neg hn, hl, if_neg Bool.false_ne_true]
  rfl

/-! ### Words and numbers -/

section
variable {c : Char} {ds cs : List Char} (line : Nat)

theorem scan_word (hc : Lexeme.startsWord c = true) (hds : ∀ d ∈ ds, Lexeme.continuesWord d = true)
    (hcs : Stops Lexeme.continuesWord cs) :
    scan line (c :: (ds ++ cs)) =
      (scan line cs).prepend [⟨Lexeme.wordKind (c :: ds), String.ofList (c :: ds), line⟩] :=
  scan_cons line (Lexeme.first_word hc hds hcs) (Lexeme.wordKind_isLayout _)

theorem scan_digits (hc : c.isDigit = true) (hds : ∀ d ∈ ds, d.isDigit = true)
    (hcs : Stops Char.isDigit cs) :
    scan line (c :: (ds ++ cs)) = (scan line cs).prepend [⟨.int, String.ofList (c :: ds), line⟩] :=
  scan_cons line (Lexeme.first_digits hc hds hcs) rfl

end

/-! ### Layout -/

/-- A blank makes no token and changes none of those after it. -/
theorem scan_blank {c : Char} (line : Nat) (cs : List Char) (hc : Lexeme.isBlank c = true) :
    scan line (c :: cs) = scan line cs := by
  have hrun : ∀ d ds, Lexeme.isBlank d = true →
      scan line (d :: ds) = scan line (ds.dropWhile Lexeme.isBlank) := by
    intro d ds hd
    rw [scan, Lexeme.split, Lexeme.first, hd, if_pos rfl]
    rfl
  rw [hrun c cs hc]
  cases cs with
  | nil => rfl
  | cons d ds =>
    cases hd : Lexeme.isBlank d with
    | false => rw [List.dropWhile_cons, hd]; rfl
    | true => rw [List.dropWhile_cons, hd, hrun d ds hd]; rfl

/-- A line feed makes no token, and what follows stands on the next line. -/
theorem scan_newline (line : Nat) (cs : List Char) : scan line ('\n' :: cs) = scan (line + 1) cs := by
  rw [scan, Lexeme.split]
  rfl

/-- A comment makes no token; it takes all of its line. -/
theorem scan_comment (line : Nat) {ds cs : List Char}
    (hds : ∀ d ∈ ds, Lexeme.continuesComment d = true) (hcs : Stops Lexeme.continuesComment cs) :
    scan line ('/' :: '/' :: (ds ++ cs)) = scan line cs := by
  have hslashes : ∀ d ∈ '/' :: ds, Lexeme.continuesComment d = true :=
    List.forall_mem_cons.mpr ⟨rfl, hds⟩
  have hrun := Lexeme.run_stops (fun _ => .comment) '/' hslashes hcs
  have hfirst : Lexeme.first '/' ('/' :: (ds ++ cs)) = (⟨.comment, '/' :: '/' :: ds⟩, cs) := hrun
  rw [scan, Lexeme.split, hfirst]
  rfl

end TokenStream

end LetLang
