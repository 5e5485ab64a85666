import LetLang.Proofs.Pieces

/-! Laying out the same tokens in another way.

White space and comments separate tokens and mean nothing else. A text that holds the literals of
another one in the same order, whatever layout stands between them, is cut into the same tokens on
other lines (`LaidOut.tokenizes`): a token that is whole stays whole in front of white space. The
rules of the grammar do not look at lines and nothing evaluates them, so such texts are the same
program and run in the same way (`layout_irrelevant`). -/
namespace LetLang

/-! ### What counts as layout -/

/-- White space and comments; a line feed or a carriage return closes each comment. -/
inductive Layout : List Char → Prop where
  | nil : Layout []
  | space {c : Char} {g : List Char} (hc : c ∈ whiteSpace) (hg : Layout g) : Layout (c :: g)
  | comment {c : Char} {cs g : List Char} (hcs : ∀ c ∈ cs, c ≠ '\n' ∧ c ≠ '\r')
      (hc : c = '\n' ∨ c = '\r') (hg : Layout g) : Layout ('/' :: '/' :: (cs ++ c :: g))

/-- Layout at the end of a text: nothing need close its last comment. -/
inductive EndLayout : List Char → Prop where
  | closed {g : List Char} (hg : Layout g) : EndLayout g
  | comment {cs g : List Char} (hcs : ∀ c ∈ cs, c ≠ '\n' ∧ c ≠ '\r') (hg : Layout g) :
      EndLayout (g ++ '/' :: '/' :: cs)

/-- The text behind a token that holds some more literals: white space stands first in each gap and
at the end, unless nothing follows the last literal. -/
inductive LaidBehind : List String → List Char → Prop where
  | done {g : List Char} (hg : EndLayout g) (hfirst : ∀ c ∈ g.head?, c ∈ whiteSpace) :
      LaidBehind [] g
  | literal {g rest : List Char} {l : String} {ls : List String} (hg : Layout g)
      (hfirst : ∃ c ∈ g.head?, c ∈ whiteSpace) (hrest : LaidBehind ls rest) :
      LaidBehind (l :: ls) (g ++ (l.toList ++ rest))

/-- The text holds the literals in their order, with layout around them. -/
inductive LaidOut : List String → List Char → Prop where
  | nothing {g : List Char} (hg : EndLayout g) : LaidOut [] g
  | literal {g rest : List Char} {l : String} {ls : List String} (hg : Layout g)
      (hrest : LaidBehind ls rest) : LaidOut (l :: ls) (g ++ (l.toList ++ rest))

theorem Layout.gap {g : List Char} (h : Layout g) (rest : List Char) : Gap rest g := by
  induction h with
  | nil => exact .nil
  | space hc _ ih => exact .space hc ih
  | @comment c cs g hcs hc _ ih =>
    have hspace : c ∈ whiteSpace := by
      rcases hc with rfl | rfl <;> decide
    refine .comment hcs (fun d hd => ?_) (.space hspace ih)
    obtain rfl := Option.some.inj hd
    exact hc

theorem EndLayout.gap {g : List Char} (h : EndLayout g) : Gap [] g := by
  cases h with
  | closed hg => exact hg.gap []
  | @comment cs g hcs hg =>
    have hcomment : Gap [] ('/' :: '/' :: (cs ++ [])) := .comment hcs nofun .nil
    rw [List.append_nil] at hcomment
    exact (hg.gap _).append hcomment

/-- Nothing stands behind a token, or white space does. -/
theorem LaidBehind.separate {ls : List String} {text : List Char} (h : LaidBehind ls text) :
    ∀ c ∈ text.head?, c ∈ whiteSpace := by
  cases h with
  | done _ hfirst => exact hfirst
  | @literal g _ _ _ _ hfirst _ =>
    obtain ⟨c, hc, hspace⟩ := hfirst
    intro d hd
    rw [List.head?_append, Option.mem_def.mp hc] at hd
    obtain rfl := Option.some.inj hd
    exact hspace

/-! ### The same tokens -/

/-- White space goes on no token, and neither does a semicolon. -/
theorem separates_of_mem {c : Char} (h : c ∈ ';' :: whiteSpace) :
    c.isDigit = false ∧ Lexeme.continuesWord c = false ∧
      ∀ s ∈ symbols, continuation? s.1 ≠ some c := by
  simp only [whiteSpace, List.mem_cons, List.not_mem_nil, or_false] at h
  rcases h with rfl | rfl | rfl | rfl | rfl | rfl <;> decide

/-- A token that is whole is so in front of white space, of a semicolon and at the end of a text. -/
theorem TokenKind.Cut.separate {k : TokenKind} {rest cs : List Char} (h : k.Cut rest cs)
    {rest' : List Char} (hrest' : ∀ c ∈ rest'.head?, c ∈ ';' :: whiteSpace) : k.Cut rest' cs := by
  have hstop (c : Char) (hc : c ∈ rest'.head?) := separates_of_mem (hrest' c hc)
  cases h with
  | number hne hcs _ => exact .number hne hcs fun c hc => (hstop c hc).1
  | identifier h _ => exact .identifier h fun c hc => (hstop c hc).2.1
  | keyword h _ => exact .keyword h fun c hc => (hstop c hc).2.1
  | symbol h _ => exact .symbol h fun c hc => (hstop c hc).2.2 _ h
  | illegal hspace hc => exact .illegal hspace hc

/-- The tokens of a cut are whole. -/
theorem Tokenizes.cut {before cs : List Char} {ts : List Token} (h : Tokenizes before cs ts) :
    ∀ t ∈ ts, ∃ rest, t.kind.Cut rest t.literal.toList := by
  induction h with
  | done _ => exact fun t ht => nomatch ht
  | token _ ht _ _ ih => exact List.forall_mem_cons.mpr ⟨⟨_, ht⟩, ih⟩

/-- Some text is cut into tokens that differ from `ts` in their lines at most. -/
def CutLike (before text : List Char) (ts : List Token) : Prop :=
  ∃ us, Tokenizes before text us ∧
    us.map (Token.relined fun _ => 0) = ts.map (Token.relined fun _ => 0)

theorem cutLike_nil {before g : List Char} (hg : EndLayout g) : CutLike before g [] :=
  ⟨[], .done hg.gap, rfl⟩

/-- One more token, behind layout. -/
theorem CutLike.cons {before g rest : List Char} {t : Token} {ts : List Token} (hg : Layout g)
    (ht : ∃ rest, t.kind.Cut rest t.literal.toList)
    (hrest : ∀ c ∈ rest.head?, c ∈ whiteSpace)
    (h : CutLike (before ++ g ++ t.literal.toList) rest ts) :
    CutLike before (g ++ (t.literal.toList ++ rest)) (t :: ts) := by
  obtain ⟨_, hcut⟩ := ht
  obtain ⟨us, hus, hsame⟩ := h
  let u : Token := { t with line := 1 + (before ++ g).count '\n' }
  have hu : u.relined (fun _ => 0) = t.relined fun _ => 0 := rfl
  have hhead : u.kind.Cut rest u.literal.toList :=
    hcut.separate fun c hc => List.mem_cons_of_mem _ (hrest c hc)
  refine ⟨u :: us, .token (hg.gap _) hhead rfl hus, ?_⟩
  rw [List.map_cons, List.map_cons, hu, hsame]

theorem LaidBehind.cutLike {text : List Char} {ts : List Token}
    (hts : ∀ t ∈ ts, ∃ rest, t.kind.Cut rest t.literal.toList)
    (h : LaidBehind (ts.map Token.literal) text) (before : List Char) :
    CutLike before text ts := by
  induction ts generalizing before text with
  | nil =>
    cases h with
    | done hg _ => exact cutLike_nil hg
  | cons t ts ih =>
    obtain ⟨ht, hts⟩ := List.forall_mem_cons.mp hts
    cases h with
    | literal hg _ hrest => exact .cons hg ht hrest.separate (ih hts hrest _)

/-- Tokens that are laid out anew are cut as before. -/
theorem LaidOut.cutLike {text : List Char} {ts : List Token}
    (hts : ∀ t ∈ ts, ∃ rest, t.kind.Cut rest t.literal.toList)
    (h : LaidOut (ts.map Token.literal) text) : CutLike [] text ts := by
  cases ts with
  | nil =>
    cases h with
    | nothing hg => exact cutLike_nil hg
  | cons t ts =>
    obtain ⟨ht, hts⟩ := List.forall_mem_cons.mp hts
    cases h with
    | literal hg hrest => exact .cons hg ht hrest.separate (hrest.cutLike hts _)

theorem TokenStream.ofSource_laidOut {source other : String}
    (h : LaidOut ((ofSource source).tokens.map Token.literal) other.toList) :
    (ofSource other).tokens.map (Token.relined fun _ => 0) =
      (ofSource source).tokens.map (Token.relined fun _ => 0) := by
  obtain ⟨ts, hts⟩ := exists_tokenizes [] source.toList
  rw [ofSource_eq_of_tokenizes hts] at h ⊢
  obtain ⟨us, hus, hsame⟩ := h.cutLike hts.cut
  rw [ofSource_eq_of_tokenizes hus]
  exact hsame

/-! ### The same program -/

/-- Texts are read alike up to lines. -/
structure ReadAlike (source other : String) : Prop where
  program : (parse other).program.erase .lineless = (parse source).program.erase .lineless
  errors : (parse other).errors.map (SyntaxError.relined fun _ => 0) =
    (parse source).errors.map (SyntaxError.relined fun _ => 0)

/-- A stream is read like its tokens on one line. -/
theorem TokenStream.parse_lineless (s : TokenStream) :
    let t : TokenStream := ⟨s.tokens.map (Token.relined fun _ => 0), 0⟩
    t.parse.program = s.parse.program.erase .lineless ∧
      t.parse.errors = s.parse.errors.map (SyntaxError.relined fun _ => 0) := by
  intro t
  have hplaced : Parsing.Placed True (fun _ => 0) [] s.endLine 0 := ⟨fun _ => rfl, fun _ => rfl⟩
  obtain ⟨hnode, _, herrors⟩ := Parsing.statements_tracks hplaced s.tokens (.inl trivial)
  obtain ⟨⟨ss, hss⟩, _⟩ := Parsing.statements_complete s.endLine s.tokens
  rw [Parsing.moved, List.append_nil] at hnode herrors
  rw [hss] at hnode
  refine ⟨congrArg Program.mk ?_, herrors⟩
  simp only [TokenStream.parse]
  rw [hnode, hss]
  rfl

/-- Texts with the same tokens, on whatever lines, are read alike. -/
theorem readAlike_of_tokens {source other : String}
    (h : (TokenStream.ofSource other).tokens.map (Token.relined fun _ => 0) =
      (TokenStream.ofSource source).tokens.map (Token.relined fun _ => 0)) :
    ReadAlike source other := by
  obtain ⟨hprogram, herrors⟩ := (TokenStream.ofSource source).parse_lineless
  obtain ⟨hprogram', herrors'⟩ := (TokenStream.ofSource other).parse_lineless
  rw [h] at hprogram' herrors'
  exact ⟨hprogram'.symm.trans hprogram, herrors'.symm.trans herrors⟩

/-! ### The same outcome -/

/-- What an outcome shows, but for the lines of its errors. -/
def shownLineless : Except Failure Value → Except Failure String
  | .ok v => .ok v.render
  | .error (.stopped e) => .error (.stopped e)
  | .error (.malformed es) => .error (.malformed (es.map (SyntaxError.relined fun _ => 0)))

theorem Value.LikeOutcome.shownLineless_eq {R : Pairing} {x y : Except Failure Value}
    (h : LikeOutcome .lineless R x y) : shownLineless x = shownLineless y := by
  cases h with
  | value h => exact congrArg Except.ok (h.render_eq Erasure.lineless_keepsDigits)
  | stopped e => rfl

/-- Texts that are read alike have outcomes that differ in the lines of errors at most. -/
theorem ReadAlike.outcome {source other : String} (h : ReadAlike source other) (depth : Nat)
    (i : FrameId) (s : Store) :
    (execute depth i s other).outcome.map shownLineless =
      (execute depth i s source).outcome.map shownLineless := by
  by_cases herrors : (parse source).errors = []
  · have herrors' : (parse other).errors = [] := by
      have hnone := h.errors
      rw [herrors] at hnone
      exact List.map_eq_nil_iff.mp hnone
    obtain ⟨hx, _⟩ := execute_of_errors_eq_nil depth i s herrors
    obtain ⟨hy, _⟩ := execute_of_errors_eq_nil depth i s herrors'
    have halike : (Machine.on s).store.Alike .lineless .identity (Machine.on s).store :=
      s.alike_refl .lineless
    obtain ⟨R, _, hvalue, _⟩ :=
      Program.eval_alike depth h.program (show Pairing.identity.rel i i from rfl) halike
    rw [hx, hy]
    generalize ((parse source).program.eval depth i (.on s)).1 = v at hvalue ⊢
    generalize ((parse other).program.eval depth i (.on s)).1 = w at hvalue ⊢
    cases hvalue with
    | none => rfl
    | some hvw => exact congrArg some hvw.outcome.shownLineless_eq
  · have herrors' : (parse other).errors ≠ [] := by
      intro hnil
      have hnone := h.errors
      rw [hnil] at hnone
      exact herrors (List.map_eq_nil_iff.mp hnone.symm)
    obtain ⟨hx, _⟩ := execute_of_errors_ne_nil depth i s herrors
    obtain ⟨hy, _⟩ := execute_of_errors_ne_nil depth i s herrors'
    rw [hx, hy]
    show some (Except.error (Failure.malformed _)) = some (Except.error (Failure.malformed _))
    rw [h.errors]

/-- **Layout never changes a program.** A text that holds the literals of `source` in their order,
with any layout around them, has tokens of the same kinds; it is read as the same program and with
the same errors, but for lines; and executing either where the same bindings are made, as in a store
with none, ends for both or for neither, and shows the same value, the same error or the same syntax
errors but for lines. -/
theorem layout_irrelevant (source other : String)
    (h : LaidOut ((TokenStream.ofSource source).tokens.map Token.literal) other.toList) :
    (TokenStream.ofSource other).tokens.map (fun t => (t.kind, t.literal)) =
        (TokenStream.ofSource source).tokens.map (fun t => (t.kind, t.literal)) ∧
      (parse other).program.erase .lineless = (parse source).program.erase .lineless ∧
      (parse other).errors.map (SyntaxError.relined fun _ => 0) =
        (parse source).errors.map (SyntaxError.relined fun _ => 0) ∧
      ∀ (depth : Nat) (i : FrameId) (s : Store),
        (execute depth i s other).outcome.map shownLineless =
          (execute depth i s source).outcome.map shownLineless := by
  have htokens := TokenStream.ofSource_laidOut h
  obtain ⟨hprogram, herrors⟩ := readAlike_of_tokens htokens
  refine ⟨?_, hprogram, herrors, ReadAlike.outcome ⟨hprogram, herrors⟩⟩
  have hkinds := congrArg (List.map fun t : Token => (t.kind, t.literal)) htokens
  rw [List.map_map, List.map_map] at hkinds
  exact hkinds

/-- Comments before, between and behind tokens, one of which starts no operand. -/
theorem layout_irrelevant_comments :
    let source := "-1;@"
    let other := "//a\n- 1\t//b\r;\n@ //c"
    LaidOut ((TokenStream.ofSource source).tokens.map Token.literal) other.toList ∧
      (parse other).errors.map (SyntaxError.relined fun _ => 0) = [.noOperand .illegal 0] ∧
      (execute 0 Store.rootFrame .root other).outcome.map shownLineless =
        (execute 0 Store.rootFrame .root source).outcome.map shownLineless := by
  intro source other
  have hliterals : (TokenStream.ofSource source).tokens.map Token.literal =
      ["-", "1", ";", "@"] := by decide +kernel
  have herrors : (parse source).errors.map (SyntaxError.relined fun _ => 0) =
      [.noOperand .illegal 0] := by decide +kernel
  have hlaid : LaidOut ((TokenStream.ofSource source).tokens.map Token.literal) other.toList := by
    have htext : other.toList = '/' :: '/' :: (['a'] ++ ['\n']) ++ ("-".toList ++ ([' '] ++
        ("1".toList ++ ('\t' :: '/' :: '/' :: (['b'] ++ ['\r']) ++ (";".toList ++ (['\n'] ++
          ("@".toList ++ ([' '] ++ '/' :: '/' :: ['c'])))))))) := by decide +kernel
    rw [hliterals, htext]
    have hspace : Layout [' '] := .space (by decide) .nil
    have hnewline : Layout ['\n'] := .space (by decide) .nil
    have hfront : Layout ('/' :: '/' :: (['a'] ++ ['\n'])) := .comment (by simp) (.inl rfl) .nil
    have hinner : Layout ('\t' :: '/' :: '/' :: (['b'] ++ ['\r'])) :=
      .space (by decide) (.comment (by simp) (.inr rfl) .nil)
    have hback : EndLayout ([' '] ++ '/' :: '/' :: ['c']) := .comment (by simp) hspace
    exact .literal hfront (.literal hspace ⟨' ', rfl, by decide⟩
      (.literal hinner ⟨'\t', rfl, by decide⟩
        (.literal hnewline ⟨'\n', rfl, by decide⟩ (.done hback (by simp [whiteSpace])))))
  obtain ⟨_, _, hsame, houtcome⟩ := layout_irrelevant source other hlaid
  exact ⟨hlaid, hsame.trans herrors, houtcome 0 Store.rootFrame .root⟩

end LetLang
