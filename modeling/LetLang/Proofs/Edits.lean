import LetLang.Proofs.Layout

/-! Changing one token of a text.

A text is changed at one of its tokens, whose text is rewritten while everything around it stays as
it is (`Lexeme.edit`). What such a change makes of the tokens is decided there and nowhere else, as
long as what it puts in keeps apart from what stands around it and holds no line feed
(`Edit.Sound`). A semicolon behind a token is one more token, and a blank in place of a semicolon is
one less (`ofSource_addSemicolon`, `ofSource_blankOut`). -/
namespace LetLang

/-! ### The change -/

/-- The text of some lexemes, with `f` applied to the text of the token number `n`, counted from
0. -/
def Lexeme.edit (f : List Char → List Char) : Nat → List Lexeme → List Char
  | _, [] => []
  | n, l :: ls =>
    if l.kind.isLayout then l.text ++ edit f n ls
    else
      match n with
      | 0 => f l.text ++ ls.flatMap text
      | n + 1 => l.text ++ edit f n ls

section
variable {f : List Char → List Char} {l : Lexeme}

theorem Lexeme.edit_layout (hl : l.kind.isLayout = true) (n : Nat) (ls : List Lexeme) :
    edit f n (l :: ls) = l.text ++ edit f n ls := by
  cases n <;> exact if_pos hl

theorem Lexeme.edit_zero (hl : l.kind.isLayout = false) (ls : List Lexeme) :
    edit f 0 (l :: ls) = f l.text ++ ls.flatMap text :=
  if_neg (ne_true_of_eq_false hl)

theorem Lexeme.edit_succ (hl : l.kind.isLayout = false) (n : Nat) (ls : List Lexeme) :
    edit f (n + 1) (l :: ls) = l.text ++ edit f n ls :=
  if_neg (ne_true_of_eq_false hl)

end

/-- The text with a semicolon right behind the token number `n`. -/
def addSemicolon (n : Nat) (source : String) : String :=
  .ofList (Lexeme.edit (· ++ [';']) n (Lexeme.split source.toList))

/-- The text with a blank in place of the token number `n`. -/
def blankOut (n : Nat) (source : String) : String :=
  .ofList (Lexeme.edit (fun _ => [' ']) n (Lexeme.split source.toList))

/-! ### What stands in front of it -/

/-- The text starts as before, or with a blank instead of a semicolon. -/
def StartsLike (old new : List Char) : Prop :=
  new.head? = old.head? ∨ old.head? = some ';' ∧ new.head? = some ' '

theorem startsLike_append {cs : List Char} (hcs : cs ≠ []) (ds es : List Char) :
    StartsLike (cs ++ ds) (cs ++ es) := by
  obtain ⟨c, cs, rfl⟩ := List.exists_cons_of_ne_nil hcs
  exact .inl rfl

/-- What is a gap in front of a text stays one. -/
theorem Gap.startsLike {old new g : List Char} (h : Gap old g) (hnew : StartsLike old new) :
    Gap new g := by
  induction h with
  | nil => exact .nil
  | space hc _ ih => exact .space hc ih
  | @comment cs g hcs hend _ ih =>
    refine .comment hcs (fun c hc => ?_) ih
    cases g with
    | cons d g => exact hend c hc
    | nil =>
      obtain hsame | ⟨hold, _⟩ := hnew
      · exact hend c (hsame ▸ hc)
      · -- A comment goes on up to the end of its line, so that no semicolon stands behind it.
        exact absurd (hend ';' hold) (by decide)

/-- What is a whole token in front of a text stays one. -/
theorem TokenKind.Cut.startsLike {k : TokenKind} {old new cs : List Char} (h : k.Cut old cs)
    (hnew : StartsLike old new) : k.Cut new cs := by
  obtain hsame | ⟨_, hblank⟩ := hnew
  · cases h with
    | number hne hcs hrest => exact .number hne hcs fun c hc => hrest c (hsame ▸ hc)
    | identifier h hrest => exact .identifier h fun c hc => hrest c (hsame ▸ hc)
    | keyword h hrest => exact .keyword h fun c hc => hrest c (hsame ▸ hc)
    | symbol h hrest => exact .symbol h fun c hc => hrest c (hsame ▸ hc)
    | illegal hspace hc => exact .illegal hspace hc
  · refine h.separate fun c hc => ?_
    obtain rfl := Option.some.inj (hblank.symm.trans hc)
    decide

/-! ### What it makes of the tokens -/

/-- The lines of the tokens depend on the line feeds in front of them alone. -/
theorem Tokenizes.behind {before cs : List Char} {ts : List Token} (h : Tokenizes before cs ts)
    {before' : List Char} (hcount : before'.count '\n' = before.count '\n') :
    Tokenizes before' cs ts := by
  induction h generalizing before' with
  | done hgap => exact .done hgap
  | @token before gap rest t ts hgap ht hline _ ih =>
    refine .token hgap ht ?_ (ih ?_)
    · rw [hline, List.count_append, List.count_append, hcount]
    · rw [List.count_append, List.count_append, List.count_append, List.count_append, hcount]

/-- A change of a token: what its text becomes, and which tokens it makes. -/
structure Edit where
  text : List Char → List Char
  tokens : Token → List Token

/-- The change makes the tokens of `t` that it says, and no other token is concerned. -/
structure Edit.Sound (e : Edit) (t : Token) : Prop where
  starts : ∀ rest, StartsLike (t.literal.toList ++ rest) (e.text t.literal.toList ++ rest)
  inLine : '\n' ∉ e.text t.literal.toList
  cut : ∀ {before rest : List Char} {ts : List Token}, t.kind.Cut rest t.literal.toList →
    t.line = 1 + before.count '\n' → Tokenizes (before ++ t.literal.toList) rest ts →
      Tokenizes before (e.text t.literal.toList ++ rest) (e.tokens t ++ ts)

/-- The changed text `new` of `cs` is cut into the changed tokens. -/
structure Edit.Changes (e : Edit) (before cs new : List Char) (ts : List Token) (n : Nat)
    (t : Token) : Prop where
  cut : Tokenizes before new (ts.take n ++ (e.tokens t ++ ts.drop (n + 1)))
  starts : StartsLike cs new
  count : new.count '\n' = cs.count '\n'

/-- Every text can be cut so that a sound change of one of its tokens changes that token alone. -/
theorem exists_tokenizes_edit (e : Edit) (before cs : List Char) :
    ∃ ts, Tokenizes before cs ts ∧ ∀ n t, ts[n]? = some t → e.Sound t →
      e.Changes before cs (Lexeme.edit e.text n (Lexeme.split cs)) ts n t := by
  match cs with
  | [] => exact ⟨[], .done .nil, fun n t ht => nomatch ht⟩
  | c :: cs =>
    have hlength := Lexeme.length_first_rest c cs
    have happend := Lexeme.first_append c cs
    have hne := Lexeme.first_text_ne_nil c cs
    have hcut := Lexeme.first_gap_or_cut c cs
    rw [Lexeme.split]
    generalize (Lexeme.first c cs).1 = l at happend hne hcut
    generalize (Lexeme.first c cs).2 = rest at hlength happend hcut
    obtain ⟨ts, hts, hedit⟩ := exists_tokenizes_edit e (before ++ l.text) rest
    rw [← happend]
    obtain ⟨hgap, hlayout⟩ | hcut := hcut
    · refine ⟨ts, hts.gap_append hgap, fun n t ht hsound => ?_⟩
      obtain ⟨hnew, hstarts, hcount⟩ := hedit n t ht hsound
      rw [Lexeme.edit_layout hlayout]
      refine ⟨hnew.gap_append (hgap.startsLike hstarts), startsLike_append hne _ _, ?_⟩
      rw [List.count_append, List.count_append, hcount]
    · let t : Token := ⟨l.kind, String.ofList l.text, 1 + before.count '\n'⟩
      have hliteral : t.literal.toList = l.text := String.toList_ofList
      have htoken {rest : List Char} {ts : List Token} (hcut : l.kind.Cut rest l.text)
          (hts : Tokenizes (before ++ l.text) rest ts) : Tokenizes before (l.text ++ rest) (t :: ts) := by
        rw [← hliteral] at hcut hts ⊢
        exact .cons hcut rfl hts
      refine ⟨t :: ts, htoken hcut hts, fun n u hu hsound => ?_⟩
      cases n with
      | zero =>
        obtain rfl : t = u := Option.some.inj hu
        rw [Lexeme.edit_zero hcut.kind_ne.1, Lexeme.flatMap_text_split]
        have hzero : l.text.count '\n' = 0 := List.count_eq_zero.mpr hcut.newline_notMem
        have hzero' : (e.text l.text).count '\n' = 0 :=
          List.count_eq_zero.mpr (hliteral ▸ hsound.inLine)
        rw [← hliteral] at hcut hts hzero hzero' ⊢
        refine ⟨hsound.cut hcut rfl hts, hsound.starts rest, ?_⟩
        rw [List.count_append, List.count_append, hzero, hzero']
      | succ n =>
        obtain ⟨hnew, hstarts, hcount⟩ := hedit n u hu hsound
        rw [Lexeme.edit_succ hcut.kind_ne.1]
        refine ⟨htoken (hcut.startsLike hstarts) hnew, startsLike_append hne _ _, ?_⟩
        rw [List.count_append, List.count_append, hcount]
termination_by cs.length

/-- A sound change of a token of a source text. -/
theorem TokenStream.ofSource_edit (e : Edit) {source : String} {front back : List Token} {t : Token}
    (h : (ofSource source).tokens = front ++ t :: back) (hsound : e.Sound t) :
    ofSource (.ofList (Lexeme.edit e.text front.length (Lexeme.split source.toList))) =
      ⟨front ++ (e.tokens t ++ back), (ofSource source).endLine⟩ := by
  obtain ⟨ts, hts, hedit⟩ := exists_tokenizes_edit e [] source.toList
  rw [ofSource_eq_of_tokenizes hts] at h ⊢
  obtain rfl : ts = front ++ t :: back := h
  obtain ⟨hnew, _, hcount⟩ := hedit front.length t (by simp) hsound
  rw [List.take_left, List.drop_length_add_append, List.drop_one, List.tail_cons,
    ← String.toList_ofList (l := Lexeme.edit e.text front.length _)] at hnew
  rw [ofSource_eq_of_tokenizes hnew, String.toList_ofList, hcount]

/-- The tokens of a source text are whole. -/
theorem TokenStream.cut_of_mem {source : String} {t : Token} (h : t ∈ (ofSource source).tokens) :
    ∃ rest, t.kind.Cut rest t.literal.toList := by
  obtain ⟨ts, hts⟩ := exists_tokenizes [] source.toList
  rw [ofSource_eq_of_tokenizes hts] at h
  exact hts.cut t h

/-! ### Semicolons -/

/-- A semicolon behind a token. -/
def Edit.semicolon : Edit := ⟨(· ++ [';']), fun t => [t, ⟨.semicolon, ";", t.line⟩]⟩

/-- A blank in place of a token. -/
def Edit.blank : Edit := ⟨fun _ => [' '], fun _ => []⟩

theorem TokenKind.Cut.semicolon_text {rest cs : List Char} {k : TokenKind} (h : k.Cut rest cs)
    (hk : k = .semicolon) : cs = [';'] := by
  cases h with
  | number | identifier | illegal => cases hk
  | keyword h _ =>
    have hall : ∀ w ∈ Lexeme.keywords, w.2 ≠ .semicolon := by decide
    exact absurd hk (hall _ h)
  | symbol h _ =>
    have hall : ∀ s ∈ symbols, s.2 = .semicolon → s.1 = [';'] := by decide
    exact hall _ h hk

theorem count_behind_cut {before rest cs : List Char} {k : TokenKind} (h : k.Cut rest cs) :
    (before ++ cs).count '\n' = before.count '\n' := by
  rw [List.count_append, List.count_eq_zero.mpr h.newline_notMem, Nat.add_zero]

theorem Edit.semicolon_sound {t : Token} (ht : ∃ rest, t.kind.Cut rest t.literal.toList) :
    Edit.semicolon.Sound t := by
  obtain ⟨rest', hcut'⟩ := ht
  refine ⟨fun rest => ?_, ?_, fun {before rest ts} hcut hline hts => ?_⟩
  · obtain ⟨c, ds, hliteral, _⟩ := hcut'.first_eq
    rw [hliteral]
    exact .inl rfl
  · have hnot := hcut'.newline_notMem
    simpa [semicolon] using hnot
  · let u : Token := ⟨.semicolon, ";", t.line⟩
    have hcount : (before ++ t.literal.toList).count '\n' = before.count '\n' :=
      count_behind_cut hcut
    have hliteral : u.literal.toList = [';'] := String.toList_ofList (l := [';'])
    have hsymbol : ([';'], TokenKind.semicolon) ∈ symbols := by decide
    have hu : u.kind.Cut rest u.literal.toList := by
      rw [hliteral]
      exact .symbol hsymbol fun _ _ h => nomatch h
    have hrest : Tokenizes (before ++ t.literal.toList) (u.literal.toList ++ rest) (u :: ts) :=
      .cons hu (hline.trans (congrArg (1 + ·) hcount.symm)) (hts.behind (count_behind_cut hu))
    rw [hliteral] at hrest
    have hfront : t.kind.Cut ([';'] ++ rest) t.literal.toList :=
      hcut.separate fun c hc => Option.some.inj hc ▸ List.mem_cons_self
    show Tokenizes before (t.literal.toList ++ [';'] ++ rest) (t :: u :: ts)
    rw [List.append_assoc]
    exact .cons hfront hline hrest

theorem Edit.blank_sound {t : Token} (ht : ∃ rest, t.kind.Cut rest t.literal.toList)
    (hkind : t.kind = .semicolon) : Edit.blank.Sound t := by
  obtain ⟨rest', hcut'⟩ := ht
  have hliteral := hcut'.semicolon_text hkind
  have hinLine : '\n' ∉ [' '] := by decide
  refine ⟨fun rest => ?_, hinLine, fun {before rest ts} hcut _ hts => ?_⟩
  · rw [hliteral]
    exact .inr ⟨rfl, rfl⟩
  · have hgap : Gap rest [' '] := .space (by decide) .nil
    refine Tokenizes.gap_append hgap (hts.behind ?_)
    rw [count_behind_cut hcut, List.count_append]
    rfl

/-- A semicolon right behind a token is one more token there. -/
theorem ofSource_addSemicolon {source : String} {front back : List Token} {t : Token}
    (h : (TokenStream.ofSource source).tokens = front ++ t :: back) :
    TokenStream.ofSource (addSemicolon front.length source) =
      ⟨front ++ t :: ⟨.semicolon, ";", t.line⟩ :: back, (TokenStream.ofSource source).endLine⟩ := by
  have hmem : t ∈ (TokenStream.ofSource source).tokens := by
    rw [h]
    exact List.mem_append_right front List.mem_cons_self
  exact TokenStream.ofSource_edit .semicolon h (Edit.semicolon_sound (TokenStream.cut_of_mem hmem))

/-- A blank in place of a semicolon takes the token away. -/
theorem ofSource_blankOut {source : String} {front back : List Token} {t : Token}
    (h : (TokenStream.ofSource source).tokens = front ++ t :: back) (ht : t.kind = .semicolon) :
    TokenStream.ofSource (blankOut front.length source) =
      ⟨front ++ back, (TokenStream.ofSource source).endLine⟩ := by
  have hmem : t ∈ (TokenStream.ofSource source).tokens := by
    rw [h]
    exact List.mem_append_right front List.mem_cons_self
  exact TokenStream.ofSource_edit .blank h (Edit.blank_sound (TokenStream.cut_of_mem hmem) ht)

end LetLang
