import LetLang.Proofs.Blocks
import LetLang.Proofs.Exchange

/-! Going on behind a malformed `let`.

A `let` without a name or without its `=` is given up at the first token that does not fit, and
reading goes on behind the next semicolon or in front of the closing brace, whichever comes first
(`statement_abandons`). So the statements around it are read as if it were not there: in a whole
text, where reading goes on up to the end, and in a block, where it goes on up to the brace that
closes the block. Whoever reads past such a block then goes on as behind one with nothing wrong in
it (`malformed_let_recovers`). -/
namespace LetLang.Parsing
open Step

/-! ### The statement that is given up -/

/-- What is wrong where a token of another kind was asked for. -/
def misplaced (endLine : Nat) (expected : TokenKind) (tokens : List Token) : SyntaxError :=
  let found := tokens.headD (.endOfInput endLine)
  .unexpectedToken expected found.kind found.line

/-- What is wrong with a `let` in front of tokens that do not start with a name and `=`. -/
def letError (endLine : Nat) : List Token → SyntaxError
  | [] => misplaced endLine .identifier []
  | u :: us =>
    if u.kind = .identifier then misplaced endLine .assign us
    else misplaced endLine .identifier (u :: us)

/-- The tokens do not start with a name and `=`. -/
def Unbound (tokens : List Token) : Prop :=
  ∀ u v, [u, v] <+: tokens → u.kind = .identifier → v.kind ≠ .assign

/-- Tokens behind a `let` that neither go on with it nor end it. -/
structure Malformed (w : List Token) : Prop where
  unended : ∀ t ∈ w, t.kind ≠ .semicolon ∧ t.kind ≠ .rightBrace
  unbound : Unbound w

/-- What ends a malformed statement in front of the statements `B`: a semicolon, or nothing of its
own if no statements follow. -/
inductive Resumes (B : List Token) : List Token → Prop where
  | semicolon {t : Token} (ht : t.kind = .semicolon) : Resumes B (t :: B)
  | closed (hB : B = []) : Resumes B []

namespace Step

variable {α β : Type} {tokens rest : List Token} {e : SyntaxError}

/-- The step gives nothing and goes on at `rest`; `e` is all that is wrong. -/
structure Abandons (s : Step α tokens) (e : SyntaxError) (rest : List Token) : Prop where
  node : s.node = none
  left : s.rest = rest
  errors : s.report.errors = [e]

theorem Abandons.within {s : Step α tokens} (h : s.Abandons e rest) (span : Span) :
    (s.within span).Abandons e rest := ⟨h.node, h.left, h.errors⟩

theorem Abandons.andThen {s : Step α tokens} (h : s.Abandons e rest)
    (f : α → (rest : List Token) → rest.length ≤ tokens.length → Step β rest) :
    (s.andThen f).Abandons e rest := by
  unfold Step.andThen
  split
  · exact ⟨rfl, h.left, h.errors⟩
  · rename_i hnode
    rw [h.node] at hnode
    cases hnode

/-- What is given up behind a step that goes well. -/
theorem Reads.andThen_abandons {s : Step α tokens} {a : α} {mid : List Token}
    {f : α → (rest : List Token) → Step β rest} (hs : s.Reads a mid)
    (hf : (f a mid).Abandons e rest) : (s.andThen fun a rest _ => f a rest).Abandons e rest := by
  obtain ⟨hnode, hleft, herrors⟩ := andThen_of_node (f := f) hs.node hs.left
  refine ⟨hnode.trans hf.node, hleft.trans hf.left, ?_⟩
  rw [herrors, hs.clean, hf.errors, List.nil_append]

/-- A required token that is not there, and the rest of the statement. -/
theorem abandons_expect {kind : TokenKind} (endLine : Nat)
    (h : ∀ t ∈ tokens.head?, t.kind ≠ kind) :
    (expect endLine kind tokens).recovering.Abandons (misplaced endLine kind tokens)
      (recover tokens) := by
  cases tokens with
  | nil => exact ⟨rfl, rfl, rfl⟩
  | cons t ts =>
    rw [expect_cons, if_neg (h t rfl)]
    exact ⟨rfl, rfl, rfl⟩

/-- A list goes on behind an item that is given up. -/
theorem Abandons.collect {s : Step α tokens} {f : (rest : List Token) → Step (List α) rest}
    (h : s.Abandons e rest) :
    (s.collect fun rest _ => f rest).node = (f rest).node ∧
      (s.collect fun rest _ => f rest).rest = (f rest).rest ∧
      (s.collect fun rest _ => f rest).report.errors = e :: (f rest).report.errors := by
  obtain ⟨hnode, rfl, herrors⟩ := h
  refine ⟨?_, rfl, ?_⟩
  · show (f s.rest).node.map (s.node.toList ++ ·) = _
    rw [hnode]
    exact Option.map_id'
  · show s.report.errors ++ (f s.rest).report.errors = _
    rw [herrors]
    rfl

end Step

section
variable {endLine : Nat} {l : Token} {tokens w rest : List Token}

theorem recover_append (h : ∀ t ∈ w, t.kind ≠ .semicolon ∧ t.kind ≠ .rightBrace)
    (rest : List Token) : recover (w ++ rest) = recover rest := by
  induction w with
  | nil => rfl
  | cons t w ih =>
    obtain ⟨⟨hsemicolon, hbrace⟩, hw⟩ := List.forall_mem_cons.mp h
    rw [List.cons_append, recover, if_neg hbrace, if_neg hsemicolon, ih hw]

/-- A `let` that no name and `=` follow is given up. -/
theorem statement_abandons (endLine : Nat) (hl : l.kind = .letWord) (h : Unbound tokens) :
    (statement endLine l tokens).Abandons (letError endLine tokens) (recover tokens) := by
  rw [statement]
  simp only [hl]
  refine Abandons.within ?_ _
  by_cases hname : ∀ u ∈ tokens.head?, u.kind ≠ .identifier
  · have herror : letError endLine tokens = misplaced endLine .identifier tokens := by
      cases tokens with
      | nil => rfl
      | cons u us => rw [letError, if_neg (hname u rfl)]
    rw [herror]
    exact (abandons_expect endLine hname).andThen _
  · obtain ⟨u, us, rfl, hu⟩ : ∃ u us, tokens = u :: us ∧ u.kind = .identifier := by
      cases tokens with
      | nil => exact absurd (fun _ hu => (Option.not_mem_none _ hu).elim) hname
      | cons u us => exact ⟨u, us, rfl, by_contra fun hne => hname (forall_head?_cons hne us)⟩
    have hassign : ∀ v ∈ us.head?, v.kind ≠ .assign := by
      intro v hv
      obtain ⟨vs, rfl⟩ := List.head?_eq_some_iff.mp hv
      exact h u v ⟨vs, rfl⟩ hu
    have hrecover : recover (u :: us) = recover us := by
      refine recover_append (w := [u]) ?_ us
      rw [List.forall_mem_singleton, hu]
      decide
    have hexpect : (expect endLine .identifier (u :: us)).recovering.Reads u us :=
      reads_recovering_iff.mpr (reads_expect_iff.mpr ⟨rfl, hu⟩)
    rw [letError, if_pos hu, hrecover]
    exact hexpect.andThen_abandons ((abandons_expect endLine hassign).andThen _)

/-- Tokens that do not go on with a `let` do not do so in front of the end of a statement. -/
theorem Unbound.append (h : Unbound w)
    (hrest : ∀ t ∈ rest.head?, t.kind = .semicolon ∨ t.kind = .rightBrace) : Unbound (w ++ rest) := by
  have hhead {u : Token} {us : List Token} {k : TokenKind} (heq : u :: us <+: rest)
      (hk : k ≠ .semicolon ∧ k ≠ .rightBrace) : u.kind ≠ k := by
    obtain ⟨vs, rfl⟩ := heq
    rintro rfl
    exact (hrest u rfl).elim hk.1 hk.2
  intro u v hpair hu
  match w with
  | [] => exact absurd hu (hhead hpair (by decide))
  | [x] =>
    rw [List.singleton_append, List.cons_prefix_cons] at hpair
    exact hhead hpair.2 (by decide)
  | x :: y :: w =>
    refine h u v ?_ hu
    rw [List.cons_append, List.cons_append, List.cons_prefix_cons, List.cons_prefix_cons] at hpair
    rw [List.cons_prefix_cons, List.cons_prefix_cons]
    exact ⟨hpair.1, hpair.2.1, List.nil_prefix⟩

end

/-! ### Statements in front of a closing brace -/

section
variable {endLine : Nat} {t : Token} {tokens rest more : List Token}

theorem dropSemicolon_closes (hmore : Closes more) (tokens : List Token) :
    dropSemicolon (tokens ++ more) = dropSemicolon tokens ++ more := by
  cases tokens with
  | nil => exact hmore.dropSemicolon
  | cons t ts => exact dropSemicolon_append (List.cons_ne_nil t ts) more

/-- A statement does not go on with what closes the list that it stands in. -/
theorem Step.Reads.statement_closed {s : Statement} (h : (statement endLine t tokens).Reads s rest)
    (hmore : Closes more) : (statement endLine t (tokens ++ more)).Reads s (rest ++ more) := by
  obtain ⟨own, after, rfl, hown, rfl⟩ := h.owns
  have hown' : Owns endLine (after ++ more) t own s := by
    refine hown.imp (fun {own e} he => ?_) fun _ hends => ?_
    · rw [← List.append_assoc]
      exact expression_extends hmore.ends endLine .lowest (own ++ after) he
    · cases after with
      | nil => exact hmore.endsReturn
      | cons u us => exact hends
  rw [← dropSemicolon_closes hmore, List.append_assoc]
  exact hown'.reads

/-- No statement starts with a closing brace. -/
theorem statement_ne_rightBrace {s : Statement} (h : (statement endLine t tokens).Reads s rest) :
    t.kind ≠ .rightBrace := ne_of_mem_of_not_mem (statement_starts h) (by decide)

/-- The statements of a whole text are the body of a block if a closing brace follows. -/
theorem blockBody_closed {close : Token} (hclose : close.kind = .rightBrace) (after : List Token)
    {tokens rest : List Token} {ss : List Statement} (h : (statements endLine tokens).Reads ss rest) :
    (blockBody endLine (tokens ++ close :: after)).Reads ss after := by
  match tokens with
  | [] =>
    rw [statements, reads_done_iff] at h
    exact (blockBody_end_reads_iff hclose).mpr ⟨h.1, rfl⟩
  | t :: ts =>
    obtain ⟨s, mid, ss', hs, hss, rfl⟩ := statements_reads_iff.mp h
    have hlength := hs.length_le
    exact (blockBody_cons_reads_iff (statement_ne_rightBrace hs)).mpr ⟨s, mid ++ close :: after, ss',
      hs.statement_closed (closes_cons hclose after), blockBody_closed hclose after hss, rfl⟩
termination_by tokens.length

/-- Behind statements that a semicolon ends, a block goes on as at its start. -/
theorem blockBody_behind {tokens rest : List Token} {ss : List Statement}
    (h : (statements endLine tokens).Reads ss rest) (hend : Ended tokens) (more : List Token) :
    (blockBody endLine (tokens ++ more)).node = (blockBody endLine more).node.map (ss ++ ·) ∧
      (blockBody endLine (tokens ++ more)).rest = (blockBody endLine more).rest ∧
      (blockBody endLine (tokens ++ more)).report.errors =
        (blockBody endLine more).report.errors := by
  match tokens with
  | [] =>
    rw [statements, reads_done_iff] at h
    rw [h.1]
    exact ⟨Option.map_id'.symm, rfl, rfl⟩
  | t :: ts =>
    obtain ⟨s, mid, ss', hs, hss, rfl⟩ := statements_reads_iff.mp h
    have hlength := hs.length_le
    have hmid : Ended mid := hend.of_suffix (hs.rest_suffix.trans (List.suffix_cons t ts))
    obtain ⟨hnode, hleft, herrors⟩ := hs.statement_append hend endLine more
    obtain ⟨hnode', hleft', herrors'⟩ := blockBody_behind hss hmid more
    rw [List.cons_append, blockBody, if_neg (statement_ne_rightBrace hs)]
    obtain ⟨hn, hr, he⟩ := collect_of_node (f := blockBody endLine) hnode hleft
    refine ⟨hn.trans ?_, hr.trans hleft', he.trans ?_⟩
    · rw [hnode', Option.map_map]
      rfl
    · rw [herrors, herrors', List.nil_append]
termination_by tokens.length

end

/-! ### Lists with a malformed `let` -/

section
variable {endLine : Nat} {A B w stop : List Token} {l : Token} {ss ts : List Statement}

theorem Resumes.recover_append (h : Resumes B stop) {more : List Token} (hmore : Closes more) :
    recover (stop ++ more) = B ++ more := by
  cases h with
  | semicolon ht =>
    have hbrace : ¬ _ = TokenKind.rightBrace := fun hkind => nomatch ht.symm.trans hkind
    rw [List.cons_append, recover, if_neg hbrace, if_pos ht]
  | closed hB =>
    subst hB
    cases more with
    | nil => rfl
    | cons t ts => rw [List.nil_append, recover, if_pos (hmore t rfl)]

theorem Resumes.head (h : Resumes B stop) {more : List Token} (hmore : Closes more) :
    ∀ t ∈ (stop ++ more).head?, t.kind = .semicolon ∨ t.kind = .rightBrace := by
  cases h with
  | semicolon ht => exact forall_head?_cons (.inl ht) _
  | closed hB => exact fun t ht => .inr (hmore t ht)

/-- The malformed statement is given up, and reading goes on with the statements behind it. -/
theorem Malformed.abandons (endLine : Nat) (hw : Malformed w) (hl : l.kind = .letWord)
    (hstop : Resumes B stop) {more : List Token} (hmore : Closes more) :
    (statement endLine l (w ++ (stop ++ more))).Abandons (letError endLine (w ++ (stop ++ more)))
      (B ++ more) := by
  have h := statement_abandons endLine hl (hw.unbound.append (hstop.head hmore))
  rwa [recover_append hw.unended, hstop.recover_append hmore] at h

/-- A whole text with a malformed `let` in it. -/
theorem statements_malformed (hA : (statements endLine A).Reads ss []) (hend : Ended A)
    (hB : (statements endLine B).Reads ts []) (hl : l.kind = .letWord) (hw : Malformed w)
    (hstop : Resumes B stop) :
    (statements endLine (A ++ l :: (w ++ stop))).node = some (ss ++ ts) ∧
      (statements endLine (A ++ l :: (w ++ stop))).report.errors =
        [letError endLine (w ++ stop)] := by
  obtain ⟨hnode, herrors⟩ := statements_append hA hend endLine (l :: (w ++ stop))
  have habandons := hw.abandons endLine hl hstop closes_nil
  rw [List.append_nil, List.append_nil] at habandons
  obtain ⟨hnode', _, herrors'⟩ := habandons.collect (f := statements endLine)
  rw [statements] at hnode herrors
  have hall := congrArg (Option.map (ss ++ ·)) (hnode'.trans hB.node)
  exact ⟨hnode.trans hall, herrors.trans (herrors'.trans (by rw [hB.clean]))⟩

/-- The body of a block with a malformed `let` in it. -/
theorem blockBody_malformed (hA : (statements endLine A).Reads ss []) (hend : Ended A)
    (hB : (statements endLine B).Reads ts []) (hl : l.kind = .letWord) (hw : Malformed w)
    (hstop : Resumes B stop) {close : Token} (hclose : close.kind = .rightBrace)
    (after : List Token) :
    let body := blockBody endLine (A ++ l :: (w ++ (stop ++ close :: after)))
    body.node = some (ss ++ ts) ∧ body.rest = after ∧
      body.report.errors = [letError endLine (w ++ (stop ++ close :: after))] := by
  intro body
  obtain ⟨hnode, hleft, herrors⟩ := blockBody_behind hA hend (l :: (w ++ (stop ++ close :: after)))
  have hB' := blockBody_closed hclose after hB
  obtain ⟨hnode', hleft', herrors'⟩ := (hw.abandons endLine hl hstop
    (closes_cons hclose after)).collect (f := blockBody endLine)
  have hne : l.kind ≠ .rightBrace := by
    rw [hl]
    decide
  rw [blockBody, if_neg hne] at hnode hleft herrors
  have hall := congrArg (Option.map (ss ++ ·)) (hnode'.trans hB'.node)
  exact ⟨hnode.trans hall, hleft.trans (hleft'.trans hB'.left),
    herrors.trans (herrors'.trans (by rw [hB'.clean]))⟩

/-- The statements in front of a closing brace, with nothing wrong. -/
theorem blockBody_whole (hA : (statements endLine A).Reads ss []) (hend : Ended A)
    (hB : (statements endLine B).Reads ts []) {close : Token} (hclose : close.kind = .rightBrace)
    (after : List Token) :
    (blockBody endLine (A ++ (B ++ close :: after))).Reads (ss ++ ts) after := by
  obtain ⟨hnode, hleft, herrors⟩ := blockBody_behind hA hend (B ++ close :: after)
  have hB' := blockBody_closed hclose after hB
  rw [hB'.node] at hnode
  exact ⟨hnode, hleft.trans hB'.left, herrors.trans hB'.clean⟩

/-- A block is read as its body is. -/
theorem block_brace (endLine : Nat) {t : Token} (ht : t.kind = .leftBrace) (tokens : List Token) :
    (block endLine (t :: tokens)).node = (blockBody endLine tokens).node.map (.mk t) ∧
      (block endLine (t :: tokens)).rest = (blockBody endLine tokens).rest ∧
      (block endLine (t :: tokens)).report.errors =
        (blockBody endLine tokens).report.errors := by
  have hexpect : (expect endLine .leftBrace (t :: tokens)).Reads t tokens :=
    reads_expect_iff.mpr ⟨rfl, ht⟩
  obtain ⟨hnode, hleft, herrors⟩ := andThen_of_node
    (f := fun t rest => (blockBody endLine rest).map (Block.mk t)) hexpect.node hexpect.left
  rw [block]
  exact ⟨hnode, hleft, by rw [herrors, hexpect.clean]; rfl⟩

end

end LetLang.Parsing

namespace LetLang
open Parsing

/-- **A malformed `let` costs its own statement only.** Let `A` and `B` be statements that are read
without errors, `A` ended by a semicolon if there are any, and between them a `let` with tokens
behind it that neither bind a name nor end the statement, in front of the semicolon (or in front of
the end, if `B` is empty). As a whole text they are read as the statements of `A` and those of `B`.
Within braces in a text that is read without errors if the `let` is left out, they are read as the
same program as without it, and the block of that brace has the statements of `A` and those of `B`.
One error is listed, about the first token that does not fit. -/
theorem malformed_let_recovers (endLine : Nat) {A B w stop : List Token} {l : Token}
    (hA : (TokenStream.mk A endLine).parse.errors = []) (hend : Ended A)
    (hB : (TokenStream.mk B endLine).parse.errors = []) (hl : l.kind = .letWord)
    (hw : Malformed w) (hstop : Resumes B stop) :
    let ss := (TokenStream.mk A endLine).parse.program.statements ++
      (TokenStream.mk B endLine).parse.program.statements
    let whole : TokenStream := ⟨A ++ l :: (w ++ stop), endLine⟩
    (whole.parse.program.statements = ss ∧ whole.parse.errors = [letError endLine (w ++ stop)]) ∧
      ∀ (before after : List Token) (brace close : Token),
        brace.kind = .leftBrace → close.kind = .rightBrace →
        let clean : TokenStream := ⟨before ++ brace :: (A ++ (B ++ close :: after)), endLine⟩
        let broken : TokenStream :=
          ⟨before ++ brace :: (A ++ l :: (w ++ (stop ++ close :: after))), endLine⟩
        clean.parse.errors = [] →
          broken.parse.program = clean.parse.program ∧
            broken.parse.program.blocks[(openings before).length]? = some (.mk brace ss) ∧
            broken.parse.errors = [letError endLine (w ++ (stop ++ close :: after))] := by
  intro ss whole
  have hA := reads_of_errors_eq_nil hA
  have hB := reads_of_errors_eq_nil hB
  refine ⟨?_, ?_⟩
  · obtain ⟨hnode, herrors⟩ := statements_malformed hA hend hB hl hw hstop
    exact ⟨congrArg (Option.getD · []) hnode, herrors⟩
  · intro before after brace close hbrace hclose clean broken hclean
    -- The block without the malformed statement takes the place of the one with it.
    let x : Exchange := ⟨endLine, brace :: (A ++ (B ++ close :: after)),
      brace :: (A ++ l :: (w ++ (stop ++ close :: after)))⟩
    obtain ⟨hnode, hleft, herrors⟩ := blockBody_malformed hA hend hB hl hw hstop hclose after
    obtain ⟨hnode', hleft', herrors'⟩ := block_brace endLine hbrace
      (A ++ l :: (w ++ (stop ++ close :: after)))
    have hblock : (block endLine x.old).Reads (.mk brace ss) after :=
      block_reads_iff.mpr ⟨brace, _, ss, rfl, hbrace, blockBody_whole hA hend hB hclose after, rfl⟩
    have hsame : x.SameBlock := by
      refine ⟨.mk brace ss, after, hblock, hnode'.trans ?_, hleft'.trans hleft⟩
      rw [hnode]
      rfl
    obtain ⟨hprogram, hall⟩ := parse_exchange hsame hclean
    obtain ⟨b, hb, rest, hopened⟩ := TokenStream.getElem?_blocks hclean hbrace
    have hread : b = .mk brace ss := Option.some.inj (hopened.node.symm.trans hblock.node)
    rw [hread, ← hprogram] at hb
    exact ⟨hprogram, hb, hall.trans (herrors'.trans herrors)⟩

/-- A brace and a character that starts no token behind the name, within a function. -/
theorem malformed_let_recovers_function :
    let source := "fn() \x7b a; let b \x7b @; c \x7d"
    (parse source).program = (parse "fn() \x7b a; c \x7d").program ∧
      (parse source).errors = [.unexpectedToken .assign .leftBrace 1] := by
  intro source
  have hstream : TokenStream.ofSource source =
      ⟨[⟨.fnWord, "fn", 1⟩, ⟨.leftParen, "(", 1⟩, ⟨.rightParen, ")", 1⟩] ++
        ⟨.leftBrace, "\x7b", 1⟩ :: ([⟨.identifier, "a", 1⟩, ⟨.semicolon, ";", 1⟩] ++
          ⟨.letWord, "let", 1⟩ :: ([⟨.identifier, "b", 1⟩, ⟨.leftBrace, "\x7b", 1⟩,
            ⟨.illegal, "@", 1⟩] ++ ([⟨.semicolon, ";", 1⟩, ⟨.identifier, "c", 1⟩] ++
              ⟨.rightBrace, "\x7d", 1⟩ :: []))), 1⟩ :=
    congrArg₂ TokenStream.mk (by decide +kernel) (by decide +kernel)
  have hclean : TokenStream.ofSource "fn() \x7b a; c \x7d" =
      ⟨[⟨.fnWord, "fn", 1⟩, ⟨.leftParen, "(", 1⟩, ⟨.rightParen, ")", 1⟩] ++
        ⟨.leftBrace, "\x7b", 1⟩ :: ([⟨.identifier, "a", 1⟩, ⟨.semicolon, ";", 1⟩] ++
          ([⟨.identifier, "c", 1⟩] ++ ⟨.rightBrace, "\x7d", 1⟩ :: [])), 1⟩ :=
    congrArg₂ TokenStream.mk (by decide +kernel) (by decide +kernel)
  have herrors : (parse "fn() \x7b a; c \x7d").errors = [] := by decide +kernel
  have hw : Malformed [⟨.identifier, "b", 1⟩, ⟨.leftBrace, "\x7b", 1⟩, ⟨.illegal, "@", 1⟩] := by
    refine ⟨by decide, fun u v hpair _ => ?_⟩
    obtain ⟨rfl, rfl, _⟩ : u = _ ∧ v = _ ∧ _ := by
      rwa [List.cons_prefix_cons, List.cons_prefix_cons] at hpair
    decide
  have hend : Ended [⟨.identifier, "a", 1⟩, ⟨.semicolon, ";", 1⟩] := by
    rintro t ⟨⟩
    rfl
  obtain ⟨_, hbraces⟩ := malformed_let_recovers 1 (A := [⟨.identifier, "a", 1⟩, ⟨.semicolon, ";", 1⟩])
    (B := [⟨.identifier, "c", 1⟩]) (l := ⟨.letWord, "let", 1⟩) (by decide +kernel) hend
    (by decide +kernel) rfl hw (.semicolon (t := ⟨.semicolon, ";", 1⟩) rfl)
  rw [parse, hclean] at herrors
  rw [parse, parse, hstream, hclean]
  obtain ⟨hprogram, _, hall⟩ := hbraces _ _ _ _ rfl rfl herrors
  exact ⟨hprogram, hall⟩

end LetLang
