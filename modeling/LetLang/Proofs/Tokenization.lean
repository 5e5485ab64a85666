import Mathlib.Data.List.TakeWhile
import LetLang.Proofs.Scanning
import LetLang.Proofs.WellFormed

/-! The one way to cut a text into tokens.

A text is cut into tokens with gaps of white space and comments before, between and behind them.
`Tokenizes` says which cuts count, without saying how to find one: a gap holds nothing but white
space and whole comments, a token is written as its kind asks and could not go on into what
follows it (`TokenKind.Cut`), and its line is counted by the line feeds before it. Every text has
exactly one such cut, and it is the stream of its tokens (`tokenization_unique`). -/
namespace LetLang

/-! ### What counts as a cut -/

/-- The characters of white space. -/
def whiteSpace : List Char := [' ', '\t', '\r', '\x0c', '\n']

/-- White space and comments in front of `rest`; a comment takes all of its line. -/
inductive Gap (rest : List Char) : List Char → Prop where
  | nil : Gap rest []
  | space {c : Char} {g : List Char} (hc : c ∈ whiteSpace) (hg : Gap rest g) : Gap rest (c :: g)
  | comment {cs g : List Char} (hcs : ∀ c ∈ cs, c ≠ '\n' ∧ c ≠ '\r')
      (hend : ∀ c ∈ (g ++ rest).head?, c = '\n' ∨ c = '\r') (hg : Gap rest g) :
      Gap rest ('/' :: '/' :: (cs ++ g))

/-- The operators and delimiters, and how they are written. -/
def symbols : List (List Char × TokenKind) :=
  [(['='], .assign), (['+'], .plus), (['-'], .minus), (['*'], .asterisk), (['/'], .slash),
    (['!'], .bang), (['=', '='], .equal), (['!', '='], .notEqual), (['<'], .less),
    (['>'], .greater), ([','], .comma), ([';'], .semicolon), (['('], .leftParen),
    ([')'], .rightParen), (['{'], .leftBrace), (['}'], .rightBrace)]

/-- Can the character be the first one of a number, a word, an operator or a delimiter? -/
def StartsToken (c : Char) : Prop :=
  c.isDigit = true ∨ Lexeme.startsWord c = true ∨ ∃ s ∈ symbols, s.1.head? = some c

/-- The character that makes something else of a symbol when it stands right behind it. -/
def continuation? : List Char → Option Char
  | ['='] => some '='
  | ['!'] => some '='
  | ['/'] => some '/'
  | _ => none

/-- The text in front of `rest` is a whole token: it is written as its kind asks, and what follows
does not continue it. -/
inductive TokenKind.Cut (rest : List Char) : TokenKind → List Char → Prop where
  | number {cs : List Char} (hne : cs ≠ []) (hcs : ∀ c ∈ cs, c.isDigit = true)
      (hrest : Stops Char.isDigit rest) : Cut rest .int cs
  | identifier {cs : List Char} (h : IsName (String.ofList cs))
      (hrest : Stops Lexeme.continuesWord rest) : Cut rest .identifier cs
  | keyword {cs : List Char} {k : TokenKind} (h : (String.ofList cs, k) ∈ Lexeme.keywords)
      (hrest : Stops Lexeme.continuesWord rest) : Cut rest k cs
  | symbol {cs : List Char} {k : TokenKind} (h : (cs, k) ∈ symbols)
      (hrest : ∀ c ∈ rest.head?, continuation? cs ≠ some c) : Cut rest k cs
  | illegal {c : Char} (hspace : c ∉ whiteSpace) (hc : ¬ StartsToken c) : Cut rest .illegal [c]

/-- The text behind `before` is cut into `ts`: gaps alternate with the literals of the tokens, and
every token stands on the line that the line feeds before it make. -/
inductive Tokenizes : (before text : List Char) → List Token → Prop where
  | done {before gap : List Char} (hgap : Gap [] gap) : Tokenizes before gap []
  | token {before gap rest : List Char} {t : Token} {ts : List Token}
      (hgap : Gap (t.literal.toList ++ rest) gap) (ht : t.kind.Cut rest t.literal.toList)
      (hline : t.line = 1 + (before ++ gap).count '\n')
      (hts : Tokenizes (before ++ gap ++ t.literal.toList) rest ts) :
      Tokenizes before (gap ++ (t.literal.toList ++ rest)) (t :: ts)

/-! ### Words and symbols -/

namespace Lexeme

theorem mem_keywords_of_lookup {w : String} {k : TokenKind} (h : keywords.lookup w = some k) :
    (w, k) ∈ keywords := by
  obtain ⟨l, r, hlr, _⟩ := List.lookup_eq_some_iff.mp h
  rw [hlr]
  exact List.mem_append_right l (List.mem_cons_self ..)

/-- A reserved word is a word, and no other kind has it. -/
theorem isWord_and_lookup_of_mem_keywords {w : String} {k : TokenKind} (h : (w, k) ∈ keywords) :
    IsWord w ∧ keywords.lookup w = some k := by
  simp only [keywords, List.mem_cons, Prod.mk.injEq, List.not_mem_nil, or_false] at h
  rcases h with ⟨rfl, rfl⟩ | ⟨rfl, rfl⟩ | ⟨rfl, rfl⟩ | ⟨rfl, rfl⟩ | ⟨rfl, rfl⟩ | ⟨rfl, rfl⟩ | ⟨rfl, rfl⟩
  all_goals exact ⟨⟨_, _, rfl, rfl, List.all_eq_true.mp rfl⟩, by decide⟩

theorem lookup_eq_none_of_isName {w : String} (h : IsName w) : keywords.lookup w = none := by
  refine Option.eq_none_iff_forall_not_mem.mpr fun k hk => h.unreserved ?_
  exact List.mem_map.mpr ⟨(w, k), mem_keywords_of_lookup hk, rfl⟩

/-- What neither blanks, numbers nor words start with. -/
theorem first_eq_mark {c : Char} (hb : isBlank c = false) (hd : c.isDigit = false)
    (hw : startsWord c = false) (cs : List Char) : first c cs = mark c cs := by
  rw [first, hb, hd, hw]
  rfl

/-- A symbol that nothing continues is a lexeme alone. -/
theorem mark_of_not_continued {c : Char} {cs : List Char}
    (h : ∀ d ∈ cs.head?, continuation? [c] ≠ some d) : mark c cs = (⟨symbolKind c, [c]⟩, cs) := by
  unfold mark
  split
  · exact absurd rfl (h '/' rfl)
  · exact absurd rfl (h '=' rfl)
  · exact absurd rfl (h '=' rfl)
  · rfl

/-- The operators and delimiters are those written with `==`, with `!=` or with one character. -/
theorem symbol_cases {cs : List Char} {k : TokenKind} (h : (cs, k) ∈ symbols) :
    (∃ c, cs = [c] ∧ symbolKind c = k ∧ isBlank c = false ∧ c.isDigit = false ∧
      startsWord c = false) ∨ (cs = ['=', '='] ∧ k = .equal) ∨ (cs = ['!', '='] ∧ k = .notEqual) := by
  simp only [symbols, List.mem_cons, Prod.mk.injEq, List.not_mem_nil, or_false] at h
  rcases h with ⟨rfl, rfl⟩ | ⟨rfl, rfl⟩ | ⟨rfl, rfl⟩ | ⟨rfl, rfl⟩ | ⟨rfl, rfl⟩ | ⟨rfl, rfl⟩ |
    ⟨rfl, rfl⟩ | ⟨rfl, rfl⟩ | ⟨rfl, rfl⟩ | ⟨rfl, rfl⟩ | ⟨rfl, rfl⟩ | ⟨rfl, rfl⟩ | ⟨rfl, rfl⟩ |
    ⟨rfl, rfl⟩ | ⟨rfl, rfl⟩ | ⟨rfl, rfl⟩
  case inr.inr.inr.inr.inr.inr.inl => exact .inr (.inl ⟨rfl, rfl⟩)
  case inr.inr.inr.inr.inr.inr.inr.inl => exact .inr (.inr ⟨rfl, rfl⟩)
  all_goals exact .inl ⟨_, rfl, rfl, rfl, rfl, rfl⟩

/-- A character that is no white space is an operator or a delimiter, or it starts no token. -/
theorem symbolKind_cases (c : Char) (hspace : c ≠ '\n') :
    ([c], symbolKind c) ∈ symbols ∨ symbolKind c = .illegal ∧ ∀ s ∈ symbols, s.1.head? ≠ some c := by
  unfold symbolKind
  split
  · exact absurd rfl hspace
  all_goals first | exact .inl (by decide) | refine .inr ⟨rfl, ?_⟩
  simp only [symbols, List.forall_mem_cons, List.head?_cons, ne_eq, Option.some.injEq]
  grind

end Lexeme

/-! ### A cut is what scanning finds -/

namespace TokenKind.Cut

variable {rest cs : List Char} {k : TokenKind}

/-- A token that is whole is the first lexeme. -/
theorem first_eq (h : k.Cut rest cs) :
    ∃ c ds, cs = c :: ds ∧ Lexeme.first c (ds ++ rest) = (⟨k, cs⟩, rest) := by
  cases h with
  | number hne hcs hrest =>
    obtain ⟨c, ds, rfl⟩ := List.exists_cons_of_ne_nil hne
    obtain ⟨hc, hds⟩ := List.forall_mem_cons.mp hcs
    exact ⟨c, ds, rfl, Lexeme.first_digits hc hds hrest⟩
  | identifier h hrest =>
    obtain ⟨c, ds, hcs, hc, hds⟩ := h.word
    rw [String.toList_ofList] at hcs
    subst hcs
    have hkind : Lexeme.wordKind (c :: ds) = .identifier := by
      rw [Lexeme.wordKind, Lexeme.lookup_eq_none_of_isName h]
      rfl
    have hfirst := Lexeme.first_word hc hds hrest
    rw [hkind] at hfirst
    exact ⟨c, ds, rfl, hfirst⟩
  | keyword h hrest =>
    obtain ⟨⟨c, ds, hcs, hc, hds⟩, hlookup⟩ := Lexeme.isWord_and_lookup_of_mem_keywords h
    rw [String.toList_ofList] at hcs
    subst hcs
    have hkind : Lexeme.wordKind (c :: ds) = k := by
      rw [Lexeme.wordKind, hlookup]
      rfl
    have hfirst := Lexeme.first_word hc hds hrest
    rw [hkind] at hfirst
    exact ⟨c, ds, rfl, hfirst⟩
  | symbol h hrest =>
    obtain ⟨c, rfl, rfl, hb, hd, hw⟩ | ⟨rfl, rfl⟩ | ⟨rfl, rfl⟩ := Lexeme.symbol_cases h
    · refine ⟨c, [], rfl, ?_⟩
      rw [List.nil_append, Lexeme.first_eq_mark hb hd hw, Lexeme.mark_of_not_continued hrest]
    · exact ⟨'=', ['='], rfl, rfl⟩
    · exact ⟨'!', ['='], rfl, rfl⟩
  | @illegal c hspace hc =>
    obtain ⟨hd, hw, hsymbol⟩ : c.isDigit = false ∧ Lexeme.startsWord c = false ∧
        ∀ s ∈ symbols, s.1.head? ≠ some c := by
      simpa [StartsToken] using hc
    have hb : Lexeme.isBlank c = false := by
      simp only [whiteSpace, List.mem_cons, List.not_mem_nil, or_false, not_or] at hspace
      simp [Lexeme.isBlank, hspace]
    have hkind : Lexeme.symbolKind c = .illegal := by
      refine (Lexeme.symbolKind_cases c fun h => hspace (h ▸ by decide)).elim (fun h => ?_) And.left
      exact absurd rfl (hsymbol _ h)
    have hcontinues : ∀ d ∈ rest.head?, continuation? [c] ≠ some d := by
      intro d _ hd
      unfold continuation? at hd
      split at hd
      · exact hsymbol (['='], .assign) (by decide) (by simp_all)
      · exact hsymbol (['!'], .bang) (by decide) (by simp_all)
      · exact hsymbol (['/'], .slash) (by decide) (by simp_all)
      · cases hd
    refine ⟨c, [], rfl, ?_⟩
    rw [List.nil_append, Lexeme.first_eq_mark hb hd hw, Lexeme.mark_of_not_continued hcontinues, hkind]

/-- No token holds a line feed. -/
theorem newline_notMem (h : k.Cut rest cs) : '\n' ∉ cs := by
  have hword {w : String} (hw : IsWord w) : '\n' ∉ w.toList := by
    obtain ⟨c, ds, hcs, hc, hds⟩ := hw
    rw [hcs]
    intro hmem
    rcases List.mem_cons.mp hmem with rfl | hmem
    · exact absurd hc (by decide)
    · exact absurd (hds _ hmem) (by decide)
  cases h with
  | number _ hcs _ => exact fun hmem => absurd (hcs _ hmem) (by decide)
  | identifier h _ => simpa using hword h.word
  | keyword h _ => simpa using hword (Lexeme.isWord_and_lookup_of_mem_keywords h).1
  | symbol h _ =>
    have hall : ∀ s ∈ symbols, '\n' ∉ s.1 := by decide
    exact hall _ h
  | illegal hspace _ =>
    rw [List.mem_singleton]
    rintro rfl
    exact hspace (by decide)

/-- No token is layout or the end of the input. -/
theorem kind_ne (h : k.Cut rest cs) : k.isLayout = false ∧ k ≠ .endOfInput := by
  cases h with
  | keyword h _ =>
    have hall : ∀ w ∈ Lexeme.keywords, w.2.isLayout = false ∧ w.2 ≠ .endOfInput := by decide
    exact hall _ h
  | symbol h _ =>
    have hall : ∀ s ∈ symbols, s.2.isLayout = false ∧ s.2 ≠ .endOfInput := by decide
    exact hall _ h
  | number | identifier | illegal => exact ⟨rfl, nofun⟩

end TokenKind.Cut

namespace TokenStream

/-- A whole token is the first one. -/
theorem scan_cut {rest cs : List Char} {k : TokenKind} (h : k.Cut rest cs) (line : Nat) :
    scan line (cs ++ rest) = (scan line rest).prepend [⟨k, String.ofList cs, line⟩] := by
  obtain ⟨c, ds, rfl, hfirst⟩ := h.first_eq
  exact scan_cons line hfirst h.kind_ne.1

/-- A gap makes no token, and its line feeds count. -/
theorem scan_gap {rest g : List Char} (h : Gap rest g) (line : Nat) :
    scan line (g ++ rest) = scan (line + g.count '\n') rest := by
  induction h generalizing line with
  | nil => rfl
  | @space c g hc _ ih =>
    by_cases hn : c = '\n'
    · rw [hn, List.cons_append, scan_newline, ih, List.count_cons_self, Nat.add_right_comm,
        Nat.add_assoc]
    · have hb : Lexeme.isBlank c = true := by
        simp only [whiteSpace, List.mem_cons, List.not_mem_nil, or_false] at hc
        simpa [Lexeme.isBlank, hn, or_assoc] using hc
      rw [List.cons_append, scan_blank line _ hb, ih, List.count_cons_of_ne hn]
  | @comment cs g hcs hend _ ih =>
    have hds : ∀ d ∈ cs, Lexeme.continuesComment d = true := by
      simpa [Lexeme.continuesComment] using hcs
    have hstop : Stops Lexeme.continuesComment (g ++ rest) := by
      intro c hc
      rcases hend c hc with rfl | rfl <;> rfl
    have hcount : ('/' :: '/' :: (cs ++ g)).count '\n' = g.count '\n' := by
      have hzero : cs.count '\n' = 0 := List.count_eq_zero.mpr fun hmem => (hcs _ hmem).1 rfl
      simp [hzero]
    rw [hcount, ← ih line, List.cons_append, List.cons_append, List.append_assoc,
      scan_comment line hds hstop]

/-- Whatever cuts a text into tokens is what scanning it gives. -/
theorem scan_eq_of_tokenizes {before cs : List Char} {ts : List Token} (h : Tokenizes before cs ts) :
    scan (1 + before.count '\n') cs = ⟨ts, 1 + (before ++ cs).count '\n'⟩ := by
  induction h with
  | @done before gap hgap =>
    have hscan := scan_gap hgap (1 + before.count '\n')
    rw [List.append_nil, scan_nil] at hscan
    rw [hscan, List.count_append, Nat.add_assoc]
  | @token before gap rest t ts hgap ht hline _ ih =>
    have hzero : t.literal.toList.count '\n' = 0 := List.count_eq_zero.mpr ht.newline_notMem
    have hcount : (before ++ gap ++ t.literal.toList).count '\n' = (before ++ gap).count '\n' := by
      rw [List.count_append, hzero, Nat.add_zero]
    rw [hcount, ← hline] at ih
    have hgapline : 1 + before.count '\n' + gap.count '\n' = t.line := by
      rw [hline, List.count_append, Nat.add_assoc]
    rw [scan_gap hgap, hgapline, scan_cut ht, ih, String.ofList_toList]
    simp only [prepend, List.append_assoc]
    rfl

theorem ofSource_eq_of_tokenizes {source : String} {ts : List Token}
    (h : Tokenizes [] source.toList ts) :
    ofSource source = ⟨ts, 1 + source.toList.count '\n'⟩ := scan_eq_of_tokenizes h

end TokenStream

/-! ### Every text can be cut -/

theorem Gap.append {rest g g' : List Char} (h : Gap (g' ++ rest) g) (h' : Gap rest g') :
    Gap rest (g ++ g') := by
  induction h with
  | nil => exact h'
  | space hc _ ih => exact .space hc ih
  | @comment cs g hcs hend _ ih =>
    rw [List.cons_append, List.cons_append, List.append_assoc]
    exact .comment hcs (by rwa [List.append_assoc]) ih

theorem gap_of_whiteSpace {rest g : List Char} (h : ∀ c ∈ g, c ∈ whiteSpace) : Gap rest g := by
  induction g with
  | nil => exact .nil
  | cons c g ih =>
    obtain ⟨hc, hg⟩ := List.forall_mem_cons.mp h
    exact .space hc (ih hg)

/-- A gap in front of a text that is cut into tokens. -/
theorem Tokenizes.gap_append {before g cs : List Char} {ts : List Token} (hg : Gap cs g)
    (h : Tokenizes (before ++ g) cs ts) : Tokenizes before (g ++ cs) ts := by
  cases h with
  | done hgap => exact .done (Gap.append (by rwa [List.append_nil]) hgap)
  | token hgap ht hline hts =>
    rw [← List.append_assoc]
    rw [List.append_assoc before] at hline hts
    exact .token (hg.append hgap) ht hline hts

theorem stops_dropWhile (p : Char → Bool) (cs : List Char) : Stops p (cs.dropWhile p) := by
  intro c hc
  have h := List.head?_dropWhile_not p cs
  rw [Option.mem_def.mp hc] at h
  exact h

namespace Lexeme

theorem mem_whiteSpace_of_isBlank {c : Char} (h : isBlank c = true) : c ∈ whiteSpace := by
  simp only [isBlank, Bool.or_eq_true, beq_iff_eq] at h
  rcases h with ((rfl | rfl) | rfl) | rfl <;> decide

/-- A comment that takes its line is a gap. -/
theorem gap_of_comment (cs : List Char) :
    Gap (cs.dropWhile continuesComment) ('/' :: '/' :: cs.takeWhile continuesComment) := by
  rw [← List.append_nil (cs.takeWhile continuesComment)]
  refine .comment (fun d hd => ?_) (fun d hd => ?_) .nil
  · simpa [continuesComment] using List.mem_takeWhile_imp hd
  · have hstop := stops_dropWhile continuesComment cs d hd
    simp only [continuesComment, Bool.and_eq_false_iff, bne_eq_false_iff_eq] at hstop
    exact hstop

/-- A character that starts no run and that nothing continues is white space or a whole token. -/
theorem symbolKind_gap_or_cut {c : Char} {cs : List Char} (hb : isBlank c = false)
    (hd : c.isDigit = false) (hw : startsWord c = false)
    (hcontinues : ∀ d ∈ cs.head?, continuation? [c] ≠ some d) :
    Gap cs [c] ∧ (symbolKind c).isLayout = true ∨ (symbolKind c).Cut cs [c] := by
  by_cases hn : c = '\n'
  · exact .inl ⟨.space (hn ▸ by decide) .nil, hn ▸ rfl⟩
  obtain hsymbol | ⟨hkind, hsymbol⟩ := symbolKind_cases c hn
  · exact .inr (.symbol hsymbol hcontinues)
  · have hspace : c ∉ whiteSpace := by
      intro hmem
      simp only [whiteSpace, List.mem_cons, List.not_mem_nil, or_false] at hmem
      rcases hmem with rfl | rfl | rfl | rfl | rfl
      case inr.inr.inr.inr => exact hn rfl
      all_goals exact absurd hb (by decide)
    have hstart : ¬ StartsToken c := by
      simpa [StartsToken, hd, hw] using hsymbol
    rw [hkind]
    exact .inr (.illegal hspace hstart)

/-- A lexeme that starts no run is a gap or a whole token. -/
theorem mark_gap_or_cut {c : Char} {cs : List Char} (hb : isBlank c = false)
    (hd : c.isDigit = false) (hw : startsWord c = false) :
    Gap (mark c cs).2 (mark c cs).1.text ∧ (mark c cs).1.kind.isLayout = true ∨
      (mark c cs).1.kind.Cut (mark c cs).2 (mark c cs).1.text := by
  by_cases hcontinues : ∀ d ∈ cs.head?, continuation? [c] ≠ some d
  · rw [mark_of_not_continued hcontinues]
    exact symbolKind_gap_or_cut hb hd hw hcontinues
  · obtain ⟨d, ds, rfl, hcont⟩ : ∃ d ds, cs = d :: ds ∧ continuation? [c] = some d := by
      cases cs with
      | nil => exact absurd (fun d hd => nomatch hd) hcontinues
      | cons d ds => exact ⟨d, ds, rfl, by simpa using hcontinues⟩
    unfold continuation? at hcont
    split at hcont <;> cases hcont <;> rename_i heq <;> obtain rfl := List.singleton_inj.mp heq
    · have hequal : (['=', '='], .equal) ∈ symbols := by decide
      exact .inr (.symbol hequal fun _ _ => nofun)
    · have hnotEqual : (['!', '='], .notEqual) ∈ symbols := by decide
      exact .inr (.symbol hnotEqual fun _ _ => nofun)
    · exact .inl ⟨gap_of_comment ds, rfl⟩

/-- The lexeme at the front of a text is a gap, which is layout, or a whole token. -/
theorem first_gap_or_cut (c : Char) (cs : List Char) :
    Gap (first c cs).2 (first c cs).1.text ∧ (first c cs).1.kind.isLayout = true ∨
      (first c cs).1.kind.Cut (first c cs).2 (first c cs).1.text := by
  unfold first
  split
  · rename_i hb
    exact .inl ⟨gap_of_whiteSpace (List.forall_mem_cons.mpr
      ⟨mem_whiteSpace_of_isBlank hb, fun d hd => mem_whiteSpace_of_isBlank (List.mem_takeWhile_imp hd)⟩),
      rfl⟩
  rename_i hb
  split
  · rename_i hd
    have hdigits : ∀ d ∈ c :: cs.takeWhile Char.isDigit, d.isDigit = true :=
      List.forall_mem_cons.mpr ⟨hd, fun d => List.mem_takeWhile_imp⟩
    exact .inr (.number (by simp [run]) hdigits (stops_dropWhile Char.isDigit cs))
  rename_i hd
  split
  · rename_i hw
    have hword : IsWord (String.ofList (c :: cs.takeWhile continuesWord)) :=
      ⟨c, _, String.toList_ofList, hw, fun d => List.mem_takeWhile_imp⟩
    have hstop := stops_dropWhile continuesWord cs
    refine .inr ?_
    simp only [run, wordKind]
    cases hlookup : keywords.lookup (String.ofList (c :: cs.takeWhile continuesWord)) with
    | some k => exact .keyword (mem_keywords_of_lookup hlookup) hstop
    | none =>
      refine .identifier ⟨hword, fun hmem => ?_⟩ hstop
      obtain ⟨⟨w, k⟩, hk, rfl⟩ := List.mem_map.mp hmem
      rw [(isWord_and_lookup_of_mem_keywords hk).2] at hlookup
      cases hlookup
  · rename_i hw
    exact mark_gap_or_cut (eq_false_of_ne_true hb) (eq_false_of_ne_true hd) (eq_false_of_ne_true hw)

end Lexeme

/-- A token with nothing in front of it. -/
theorem Tokenizes.cons {before rest : List Char} {t : Token} {ts : List Token}
    (ht : t.kind.Cut rest t.literal.toList) (hline : t.line = 1 + before.count '\n')
    (hts : Tokenizes (before ++ t.literal.toList) rest ts) :
    Tokenizes before (t.literal.toList ++ rest) (t :: ts) :=
  .token .nil ht (by rwa [List.append_nil]) (by rwa [List.append_nil])

/-- Every text can be cut into tokens, whatever stands before it. -/
theorem exists_tokenizes (before cs : List Char) : ∃ ts, Tokenizes before cs ts := by
  match cs with
  | [] => exact ⟨[], .done .nil⟩
  | c :: cs =>
    have hlength := Lexeme.length_first_rest c cs
    have happend := Lexeme.first_append c cs
    obtain ⟨ts, hts⟩ :=
      exists_tokenizes (before ++ (Lexeme.first c cs).1.text) (Lexeme.first c cs).2
    obtain ⟨hgap, _⟩ | hcut := Lexeme.first_gap_or_cut c cs
    · exact ⟨ts, happend ▸ hts.gap_append hgap⟩
    · let t : Token :=
        ⟨(Lexeme.first c cs).1.kind, String.ofList (Lexeme.first c cs).1.text,
          1 + before.count '\n'⟩
      have hliteral : t.literal.toList = (Lexeme.first c cs).1.text := String.toList_ofList
      refine ⟨t :: ts, ?_⟩
      rw [← happend, ← hliteral]
      exact .cons (hliteral ▸ hcut) rfl (hliteral ▸ hts)
termination_by cs.length

namespace TokenStream

/-- The token that the call number `n` for the next token gives, counted from 0. -/
def nth (s : TokenStream) : Nat → Token
  | 0 => s.next.1
  | n + 1 => s.next.2.nth n

theorem nth_eq (s : TokenStream) (n : Nat) :
    s.nth n = (s.tokens[n]?).getD (.endOfInput s.endLine) := by
  obtain ⟨ts, line⟩ := s
  induction n generalizing ts with
  | zero => cases ts <;> rfl
  | succ n ih =>
    cases ts with
    | nil => exact ih []
    | cons t ts => exact ih ts

end TokenStream

/-- The tokens of a cut have a text, and none is layout or the end of the input. -/
theorem Tokenizes.visible {before cs : List Char} {ts : List Token} (h : Tokenizes before cs ts) :
    ∀ t ∈ ts, t.literal ≠ "" ∧ t.kind.isLayout = false ∧ t.kind ≠ .endOfInput := by
  induction h with
  | done _ => exact fun t ht => nomatch ht
  | token _ ht _ _ ih =>
    refine List.forall_mem_cons.mpr ⟨⟨fun hempty => ?_, ht.kind_ne⟩, ih⟩
    obtain ⟨c, ds, hcs, _⟩ := ht.first_eq
    rw [hempty] at hcs
    cases hcs

/-- **The stream of tokens is the one way to cut a text.** A list of tokens cuts the text into gaps
and whole tokens exactly if it is the list in the stream. None of them is empty, layout or the end
of the input; and reading on yields them one by one and then the end of the input, on the last
line, again and again. -/
theorem tokenization_unique (source : String) :
    (∀ ts, Tokenizes [] source.toList ts ↔ ts = (TokenStream.ofSource source).tokens) ∧
      (∀ t ∈ (TokenStream.ofSource source).tokens,
        t.literal ≠ "" ∧ t.kind.isLayout = false ∧ t.kind ≠ .endOfInput) ∧
      ∀ n, (TokenStream.ofSource source).nth n =
        ((TokenStream.ofSource source).tokens[n]?).getD
          ⟨.endOfInput, "", 1 + source.toList.count '\n'⟩ := by
  obtain ⟨ts, hts⟩ := exists_tokenizes [] source.toList
  have hsource := TokenStream.ofSource_eq_of_tokenizes hts
  rw [hsource]
  refine ⟨fun us => ⟨fun hus => ?_, fun hus => ?_⟩, hts.visible, fun n => ?_⟩
  · have hstream := (TokenStream.ofSource_eq_of_tokenizes hus).symm.trans hsource
    exact congrArg TokenStream.tokens hstream
  · rw [hus]
    exact hts
  · exact TokenStream.nth_eq ..

/-- A comment between two lines, and operators that are the start of others. -/
theorem tokenization_unique_comment :
    let ts : List Token := [⟨.identifier, "a", 1⟩, ⟨.equal, "==", 1⟩, ⟨.slash, "/", 1⟩,
      ⟨.assign, "=", 1⟩, ⟨.int, "7", 2⟩]
    Tokenizes [] "a== / =//b\n7".toList ts ∧
      (∀ us, Tokenizes [] "a== / =//b\n7".toList us → us = ts) ∧
      (TokenStream.ofSource "a== / =//b\n7").nth 5 = ⟨.endOfInput, "", 2⟩ := by
  have hts : (TokenStream.ofSource "a== / =//b\n7").tokens = [⟨.identifier, "a", 1⟩,
      ⟨.equal, "==", 1⟩, ⟨.slash, "/", 1⟩, ⟨.assign, "=", 1⟩, ⟨.int, "7", 2⟩] := by
    decide +kernel
  obtain ⟨hcut, _, hnth⟩ := tokenization_unique "a== / =//b\n7"
  rw [hts] at hcut hnth
  exact ⟨(hcut _).mpr rfl, fun us hus => (hcut us).mp hus, hnth 5⟩

end LetLang
