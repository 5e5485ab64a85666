import LetLang.Proofs.Blame
import LetLang.Proofs.Preservation
import LetLang.Proofs.Printed

/-! What is shown stays on its line.

The texts of values and of errors are put together from fixed words, from numbers in decimal and
from pieces of the program: its names and the digits of its numbers. None of these holds anything
but printable characters of ASCII, whatever else stands in the program. So no text of a well-formed
value and of an error about a token that is spelled as its kind asks breaks the line that it is
shown on, or seems to start with a tab (`Inline.unbroken`). -/
namespace LetLang

/-- All characters are printable ones of ASCII. -/
def Inline (s : String) : Prop := ∀ c ∈ s.toList, ' ' ≤ c ∧ c ≤ '~'

-- The characters of the text are tested, and not all characters there are.
instance (s : String) : Decidable (Inline s) := List.decidableBAll _ s.toList

/-- The text has no line feed and no carriage return, and does not start with a tab. -/
structure Unbroken (s : String) : Prop where
  newline : '\n' ∉ s.toList
  carriageReturn : '\r' ∉ s.toList
  tab : s.toList.head? ≠ some '\t'

theorem Inline.unbroken {s : String} (h : Inline s) : Unbroken s := by
  refine ⟨fun hmem => ?_, fun hmem => ?_, fun hhead => ?_⟩
  · exact absurd (h _ hmem) (by decide)
  · exact absurd (h _ hmem) (by decide)
  · exact absurd (h _ (List.mem_of_mem_head? hhead)) (by decide)

/-! ### Pieces -/

@[simp] theorem inline_append {s t : String} : Inline (s ++ t) ↔ Inline s ∧ Inline t := by
  unfold Inline
  simp only [String.toList_append, List.mem_append, or_imp]
  exact forall_and

theorem inline_commaSeparated {ss : List String} (h : ∀ s ∈ ss, Inline s) :
    Inline (commaSeparated ss) := by
  cases ss with
  | nil => decide
  | cons s ss =>
    obtain ⟨hs, hss⟩ := List.forall_mem_cons.mp h
    intro c hc
    rw [TokenStream.commaSeparated_cons, List.mem_append, TokenStream.moreItems,
      List.mem_flatMap] at hc
    obtain hc | ⟨t, ht, hc⟩ := hc
    · exact hs c hc
    · rcases List.mem_cons.mp hc with rfl | hc
      · decide
      rcases List.mem_cons.mp hc with rfl | hc
      · decide
      · exact hss t ht c hc

theorem inline_of_digits {s : String} (h : ∀ c ∈ s.toList, c.isDigit = true) : Inline s := by
  intro c hc
  have hdigit := h c hc
  simp only [Char.isDigit, Bool.and_eq_true, decide_eq_true_eq] at hdigit
  simp only [Char.le_def]
  grind

@[simp] theorem inline_nat (n : Nat) : Inline n.repr := by
  refine inline_of_digits fun c hc => ?_
  rw [Nat.toList_repr] at hc
  exact Nat.isDigit_of_mem_toDigits (by decide) (by decide) hc

@[simp] theorem inline_int (n : Int) : Inline n.repr := by
  rw [Int.repr_eq_if]
  split
  · exact inline_nat _
  · exact inline_append.mpr ⟨by decide, inline_nat _⟩

theorem inline_of_continuesWord {c : Char} (h : Lexeme.continuesWord c = true) :
    ' ' ≤ c ∧ c ≤ '~' := by
  simp only [Lexeme.continuesWord, Bool.or_eq_true, beq_iff_eq] at h
  rcases h with h | rfl
  · delta Char.isAlphanum Char.isAlpha Char.isUpper Char.isLower Char.isDigit at h
    simp only [Bool.or_eq_true, Bool.and_eq_true, decide_eq_true_eq] at h
    simp only [Char.le_def]
    grind
  · decide

theorem IsWord.inline {s : String} (h : IsWord s) : Inline s := by
  obtain ⟨c, cs, hs, hc, hcs⟩ := h
  intro d hd
  rw [hs] at hd
  rcases List.mem_cons.mp hd with rfl | hd
  · refine inline_of_continuesWord ?_
    simp only [Lexeme.startsWord, Lexeme.continuesWord, Char.isAlphanum, Bool.or_eq_true] at hc ⊢
    exact hc.imp_left .inl
  · exact inline_of_continuesWord (hcs d hd)

theorem inline_names {ps : List Identifier} (h : ∀ i ∈ ps, IsName i.name) :
    Inline (commaSeparated (ps.map Identifier.name)) := by
  refine inline_commaSeparated fun s hs => ?_
  obtain ⟨i, hi, rfl⟩ := List.mem_map.mp hs
  exact (h i hi).word.inline

@[simp] theorem UnaryOp.inline_symbol (op : UnaryOp) : Inline op.symbol := by
  cases op <;> decide

@[simp] theorem BinaryOp.inline_symbol (op : BinaryOp) : Inline op.symbol := by
  cases op <;> decide

@[simp] theorem ValueKind.inline_name (k : ValueKind) : Inline k.name := by
  cases k <;> decide

@[simp] theorem TokenKind.inline_name (k : TokenKind) : Inline k.name := by
  cases k <;> decide

/-! ### Trees -/

theorem inline_braced {isEmpty : Bool} {s : String} (h : Inline s) : Inline (braced isEmpty s) := by
  unfold braced
  split
  · decide
  · simp +decide [h]

theorem inline_parenthesized {isOperation : Bool} {s : String} (h : Inline s) :
    Inline (parenthesized isOperation s) := by
  unfold parenthesized
  split
  · exact h
  · simp +decide [h]

@[simp] theorem Statement.inline_separator (s : Statement) (rest : List Statement) :
    Inline (s.separator rest) := by
  unfold separator
  split
  · decide
  · split <;> decide

mutual

theorem Expr.inline_render (e : Expr) (he : e.WellFormed) : Inline e.render := by
  match e, he with
  | .identifier i, he =>
    rw [Expr.render]
    exact IsWord.inline he.word
  | .integer t n, he =>
    rw [Expr.render]
    exact inline_of_digits he.digits
  | .boolean _ b, _ =>
    rw [Expr.render]
    cases b <;> decide
  | .unary _ op e, he =>
    simp +decide [Expr.render, e.inline_render he]
  | .binary _ l op r, he =>
    simp +decide [Expr.render, l.inline_render he.1, r.inline_render he.2]
  | .ifThen _ c b, he =>
    simp +decide [Expr.render, inline_parenthesized (c.inline_render he.1), b.inline_render he.2]
  | .ifThenElse _ c b a, he =>
    simp +decide [Expr.render, inline_parenthesized (c.inline_render he.1), b.inline_render he.2.1,
      a.inline_render he.2.2]
  | .function _ ps b, he =>
    simp +decide [Expr.render, inline_names he.1, b.inline_render he.2]
  | .call _ f es, he =>
    simp +decide [Expr.render, f.inline_render he.1,
      inline_commaSeparated (Expr.inline_renderAll es he.2)]

theorem Expr.inline_renderAll (es : List Expr) (hes : Expr.AllWellFormed es) :
    ∀ s ∈ Expr.renderAll es, Inline s := by
  match es, hes with
  | [], _ => exact fun s hs => nomatch hs
  | e :: es, hes =>
    rw [Expr.renderAll]
    exact List.forall_mem_cons.mpr ⟨e.inline_render hes.1, Expr.inline_renderAll es hes.2⟩

theorem Block.inline_render (b : Block) (hb : b.WellFormed) : Inline b.render := by
  match b, hb with
  | .mk _ ss, hb =>
    rw [Block.render]
    exact inline_braced (Statement.inline_renderAll ss hb)

theorem Statement.inline_render (s : Statement) (hs : s.WellFormed) : Inline s.render := by
  match s, hs with
  | .letIn _ i e, hs =>
    simp +decide [Statement.render, hs.1.word.inline, e.inline_render hs.2]
  | .returnNothing _, _ =>
    rw [Statement.render]
    decide
  | .returnValue _ e, hs =>
    simp +decide [Statement.render, e.inline_render hs]
  | .expression _ e, hs =>
    rw [Statement.render]
    exact e.inline_render hs

theorem Statement.inline_renderAll (ss : List Statement) (hss : Statement.AllWellFormed ss) :
    Inline (Statement.renderAll ss) := by
  match ss, hss with
  | [], _ =>
    rw [Statement.renderAll]
    decide
  | s :: ss, hss =>
    simp [Statement.renderAll, s.inline_render hss.1,
      Statement.inline_renderAll ss hss.2]

end

/-! ### Values and errors -/

theorem RuntimeError.inline_message {e : RuntimeError} (h : e.WellFormed) : Inline e.message := by
  unfold message
  cases e with
  | unknownIdentifier name =>
    simp +decide [h.word.inline]
  | unknownUnaryOp op k =>
    simp +decide
  | unknownBinaryOp l op r =>
    simp +decide [BinaryOp.between]
  | typeMismatch l op r =>
    simp +decide [BinaryOp.between]
  | divisionByZero => decide
  | overflow l op r =>
    simp +decide [BinaryOp.between]
  | negationOverflow n =>
    simp +decide
  | notAFunction k =>
    simp +decide
  | argumentCount n m =>
    simp +decide

/-- The text of a well-formed value stays on its line. -/
theorem Value.inline_render {v : Value} (h : v.WellFormed) : Inline v.render := by
  cases v with
  | integer n => exact inline_int n.toInt
  | boolean b => cases b <;> decide
  | null => decide
  | function g =>
    simp +decide [render, Closure.render, inline_names h.parameters, g.body.inline_render h.body]
  | error e =>
    simp +decide [render, RuntimeError.inline_message h]

/-- The text of an error about a token stays on its line. -/
theorem SyntaxError.About.inline_message {t : Token} {e : SyntaxError} (h : e.About t)
    (ht : t.Spelled) : Inline e.message := by
  unfold message complaint
  cases h with
  | unexpectedToken h =>
    simp +decide [line]
  | noOperand h =>
    simp +decide [line]
  | integerTooLarge hkind h =>
    simp +decide [line, inline_of_digits (ht.digits hkind).2]

/-- The texts of the errors of a text stay on their lines, whatever the text holds. -/
theorem parse_errors_inline (source : String) : ∀ e ∈ (parse source).errors, Inline e.message := by
  intro e he
  obtain ⟨t, ht, habout⟩ := (parse_blames source).exists_about e he
  refine habout.inline_message ?_
  rcases ht with ht | rfl
  · exact TokenStream.ofSource_spelled source t ht
  · exact ⟨nofun, nofun⟩

end LetLang
