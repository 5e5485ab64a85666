import LetLang.Proofs.Derivation
import LetLang.Proofs.Tokenization
import LetLang.Proofs.Tracking

/-! Two texts with a line feed between them.

No token and no comment goes on behind a line feed, so the tokens of both texts together are those
of the first and, on later lines, those of the second (`TokenStream.ofSource_seam`). If the first
text is read without errors and a semicolon ends it, its last statement takes that semicolon and
nothing behind it, so that the second text is read as if it stood alone (`parse_seam`). -/
namespace LetLang

/-! ### Tokens -/

section
variable {α : Type} {P : α → Prop}

theorem forall_head?_append {xs ys : List α} (hxs : ∀ a ∈ xs.head?, P a)
    (hys : ∀ a ∈ ys.head?, P a) : ∀ a ∈ (xs ++ ys).head?, P a := by
  cases xs with
  | nil => exact hys
  | cons x xs => exact hxs

end

/-- Whatever holds of a line feed and of the text in front of it holds where that text starts. -/
theorem forall_head?_newline {P : Char → Prop} {cs : List Char} (hcs : ∀ c ∈ cs.head?, P c)
    (h : P '\n') (ds : List Char) : ∀ c ∈ (cs ++ '\n' :: ds).head?, P c :=
  forall_head?_append hcs fun _ hc => Option.some.inj hc ▸ h

/-- A gap in front of some text is one if that text goes on behind a line feed. -/
theorem Gap.newline {rest g : List Char} (h : Gap rest g) (ds : List Char) :
    Gap (rest ++ '\n' :: ds) g := by
  induction h with
  | nil => exact .nil
  | space hc _ ih => exact .space hc ih
  | comment hcs hend _ ih =>
    refine .comment hcs ?_ ih
    rw [← List.append_assoc]
    exact forall_head?_newline hend (.inl rfl) ds

/-- No token goes on behind a line feed. -/
theorem TokenKind.Cut.newline {k : TokenKind} {rest cs : List Char} (h : k.Cut rest cs)
    (ds : List Char) : k.Cut (rest ++ '\n' :: ds) cs := by
  cases h with
  | number hne hcs hrest => exact .number hne hcs (forall_head?_newline hrest rfl ds)
  | identifier h hrest => exact .identifier h (forall_head?_newline hrest rfl ds)
  | keyword h hrest => exact .keyword h (forall_head?_newline hrest rfl ds)
  | symbol h hrest =>
    refine .symbol h (forall_head?_newline hrest ?_ ds)
    unfold continuation?
    split <;> exact nofun
  | illegal hspace hc => exact .illegal hspace hc

/-- A cut of a text and a cut of what stands behind it on a line of its own. -/
theorem Tokenizes.newline {before cs ds : List Char} {ts us : List Token}
    (h : Tokenizes before cs ts) (hus : Tokenizes (before ++ cs ++ ['\n']) ds us) :
    Tokenizes before (cs ++ '\n' :: ds) (ts ++ us) := by
  induction h with
  | @done before gap hgap =>
    have hnewline : Gap ds ['\n'] := .space (by decide) .nil
    have hfront : Gap (['\n'] ++ ds) gap := hgap.newline ds
    have hgap' : Gap ds (gap ++ ['\n']) := hfront.append hnewline
    rw [List.append_assoc] at hus
    have hcut := hus.gap_append hgap'
    rwa [List.append_assoc] at hcut
  | @token before gap rest t ts hgap ht hline _ ih =>
    have hgap' := hgap.newline ds
    rw [List.append_assoc] at hgap'
    rw [List.append_assoc, List.append_assoc]
    refine .token hgap' (ht.newline ds) hline (ih ?_)
    simpa only [List.append_assoc] using hus

/-- More text in front moves all tokens to later lines. -/
theorem Tokenizes.relined {before cs : List Char} {ts : List Token} (h : Tokenizes before cs ts)
    (front : List Char) :
    Tokenizes (front ++ before) cs (ts.map (Token.relined (· + front.count '\n'))) := by
  induction h with
  | done hgap => exact .done hgap
  | @token before gap rest t ts hgap ht hline _ ih =>
    refine Tokenizes.token (t := t.relined (· + front.count '\n')) hgap ht ?_ ?_
    · show t.line + front.count '\n' = _
      simp only [hline, List.count_append]
      omega
    · rw [← List.append_assoc, ← List.append_assoc] at ih
      exact ih

/-- The tokens of two texts with a line feed between them. -/
theorem TokenStream.ofSource_seam (first second : String) :
    let n := 1 + first.toList.count '\n'
    ofSource (first ++ "\n" ++ second) =
      ⟨(ofSource first).tokens ++ (ofSource second).tokens.map (Token.relined (· + n)),
        (ofSource second).endLine + n⟩ := by
  intro n
  obtain ⟨ts, hts⟩ := exists_tokenizes [] first.toList
  obtain ⟨us, hus⟩ := exists_tokenizes [] second.toList
  have hcount : (first.toList ++ ['\n']).count '\n' = n := by
    rw [List.count_append, Nat.add_comm]
    rfl
  have hlines := hus.relined (first.toList ++ ['\n'])
  rw [List.append_nil, hcount] at hlines
  have htext : (first ++ "\n" ++ second).toList = first.toList ++ '\n' :: second.toList := by
    rw [String.toList_append, String.toList_append, List.append_assoc]
    rfl
  have hwhole : Tokenizes [] (first ++ "\n" ++ second).toList
      (ts ++ us.map (Token.relined (· + n))) := htext ▸ hts.newline hlines
  rw [ofSource_eq_of_tokenizes hwhole, ofSource_eq_of_tokenizes hts, ofSource_eq_of_tokenizes hus,
    htext, List.count_append, List.count_cons_self]
  congr 1
  show 1 + (_ + (second.toList.count '\n' + 1)) = 1 + second.toList.count '\n' + (1 + _)
  omega

namespace Parsing
open Step Grammar

/-! ### Statements -/

/-- The last token, if there is one, is a semicolon. -/
def Ended (tokens : List Token) : Prop := ∀ t ∈ tokens.getLast?, t.kind = .semicolon

theorem Ended.of_suffix {tokens rest : List Token} (h : Ended tokens) (hrest : rest <:+ tokens) :
    Ended rest := by
  obtain ⟨taken, rfl⟩ := hrest
  intro t ht
  refine h t ?_
  rw [List.getLast?_append, Option.mem_def.mp ht]
  rfl

/-- The kinds that an operand can end with. -/
def endsOperand : List TokenKind :=
  [.identifier, .int, .trueWord, .falseWord, .rightParen, .rightBrace]

/-- The last kind is there, and an operand can end with it. -/
def EndsOperand (ks : List TokenKind) : Prop := ∃ k, ks.getLast? = some k ∧ k ∈ endsOperand

theorem endsOperand_single {k : TokenKind} (h : k ∈ endsOperand) : EndsOperand [k] := ⟨k, rfl, h⟩

theorem EndsOperand.append {ks : List TokenKind} (h : EndsOperand ks) (js : List TokenKind) :
    EndsOperand (js ++ ks) := by
  obtain ⟨k, hk, hmem⟩ := h
  refine ⟨k, ?_, hmem⟩
  rw [List.getLast?_append, hk]
  rfl

theorem EndsOperand.cons {ks : List TokenKind} (h : EndsOperand ks) (k : TokenKind) :
    EndsOperand (k :: ks) := h.append [k]

/-- An expression ends with its last operand, and so does not take a semicolon behind it. -/
theorem endsOperand_of_derives {n : Nonterminal} {ks : List TokenKind} (h : Derives n ks) :
    n = .expression ∨ n = .block → EndsOperand ks := by
  have hclose {k : TokenKind} (ks : List TokenKind) (hk : k ∈ endsOperand) :
      EndsOperand (ks ++ [k]) := (endsOperand_single hk).append ks
  induction h with
  | identifier => exact fun _ => endsOperand_single (by decide)
  | integer => exact fun _ => endsOperand_single (by decide)
  | trueWord => exact fun _ => endsOperand_single (by decide)
  | falseWord => exact fun _ => endsOperand_single (by decide)
  | not _ ih => exact fun _ => (ih (.inl rfl)).cons _
  | negate _ ih => exact fun _ => (ih (.inl rfl)).cons _
  | binary _ _ _ _ ih => exact fun _ => ((ih (.inl rfl)).cons _).append _
  | call => exact fun _ => ((hclose _ (by decide)).cons .leftParen).append _
  | group => exact fun _ => (hclose _ (by decide)).cons .leftParen
  | ifThen _ _ _ ih => exact fun _ => ((((ih (.inr rfl)).cons _).append _).cons _).cons _
  | ifThenElse _ _ _ _ _ ih =>
    exact fun _ => ((((((ih (.inr rfl)).cons _).append _).cons _).append _).cons _).cons _
  | function _ _ _ ih => exact fun _ => ((((ih (.inr rfl)).cons _).append _).cons _).cons _
  | block => exact fun _ => (hclose _ (by decide)).cons .leftBrace
  | _ => exact fun h => nomatch h

section
variable {endLine : Nat} {tokens rest : List Token}

/-- The last token of an expression. -/
theorem Step.Reads.getLast_endsOperand {p : Precedence} {e : Expr}
    (h : (expression endLine p (tokens ++ rest)).Reads e rest) :
    ∃ t ∈ tokens.getLast?, t.kind ∈ endsOperand := by
  obtain ⟨ks, hks, hspells⟩ := expression_derives endLine p _ h
  obtain ⟨taken, htaken, rfl⟩ := hspells.exists_taken
  obtain rfl := List.append_cancel_right htaken
  obtain ⟨k, hk, hmem⟩ := endsOperand_of_derives hks (.inl rfl)
  rw [List.getLast?_map] at hk
  obtain ⟨t, ht, rfl⟩ := Option.map_eq_some_iff.mp hk
  exact ⟨t, ht, hmem⟩

/-- A statement ends with no semicolon of its own. -/
theorem Owns.getLast_ne {t : Token} {own after : List Token} {s : Statement}
    (h : Owns endLine after t own s) :
    ∀ u ∈ (t :: own).getLast?, u.kind ≠ .semicolon := by
  have hlast {ts : List Token} (us : List Token) (hts : ∃ u ∈ ts.getLast?, u.kind ∈ endsOperand) :
      ∀ u ∈ (us ++ ts).getLast?, u.kind ≠ .semicolon := by
    obtain ⟨u, hu, hmem⟩ := hts
    intro v hv
    rw [List.getLast?_append, Option.mem_def.mp hu] at hv
    obtain rfl := Option.some.inj hv
    exact ne_of_mem_of_not_mem hmem (by decide)
  cases h with
  | @letIn u v _ _ _ _ _ he => exact hlast [t, u, v] he.getLast_endsOperand
  | returnNothing ht _ =>
    intro u hu
    obtain rfl := Option.some.inj hu
    exact ht ▸ by decide
  | returnValue _ he => exact hlast [t] he.getLast_endsOperand
  | alone _ _ he => exact hlast [] he.getLast_endsOperand

theorem moved_id (more tokens : List Token) : moved id more tokens = tokens ++ more :=
  congrArg (· ++ more) (List.map_id tokens)

/-- Lines that stay as they are, are all that is kept of a tree. -/
theorem Erasure.relined_id : Erasure.relined id = .exact := rfl

/-- A step that stopped in front of a token stops there whatever follows. -/
theorem Step.Reads.tracked {α : Type} {tokens' more : List Token} {move : α → α} {s : Step α tokens}
    {s' : Step α tokens'} {a : α} (h : s.Reads a rest) (htracks : Tracks False id more move s s')
    (hrest : rest ≠ []) : s'.Reads (move a) (moved id more rest) := by
  obtain ⟨hnode, hleft, herrors⟩ := htracks (.inr ⟨h.clean, h.left ▸ hrest⟩)
  rw [h.node, Option.map_some] at hnode
  rw [h.left] at hleft
  rw [h.clean] at herrors
  exact ⟨hnode, hleft, herrors⟩

/-- An expression that stopped in front of a token stops there whatever follows. -/
theorem Step.Reads.expression_append {p : Precedence} {e : Expr}
    (h : (expression endLine p tokens).Reads e rest) (hrest : rest ≠ []) (endLine' : Nat)
    (more : List Token) : (expression endLine' p (tokens ++ more)).Reads e (rest ++ more) := by
  have hplaced : Placed False id more endLine endLine' := ⟨False.elim, False.elim⟩
  have htracked := h.tracked (expression_tracks hplaced p tokens) hrest
  rwa [moved_id, moved_id, Erasure.relined_id, Expr.erase_exact] at htracked

theorem dropSemicolon_append (h : tokens ≠ []) (more : List Token) :
    dropSemicolon (tokens ++ more) = dropSemicolon tokens ++ more := by
  cases tokens with
  | nil => exact absurd rfl h
  | cons t ts =>
    show (if _ then _ else _) = (if _ then _ else _) ++ more
    split <;> rfl

theorem endsReturn_append (h : tokens ≠ []) (more : List Token) :
    endsReturn (tokens ++ more) = endsReturn tokens := by
  cases tokens with
  | nil => exact absurd rfl h
  | cons t ts => rfl

/-- A statement of a text that a semicolon ends is read in the same way whatever follows. -/
theorem Step.Reads.statement_append {t : Token} {s : Statement}
    (h : (statement endLine t tokens).Reads s rest) (hend : Ended (t :: tokens)) (endLine' : Nat)
    (more : List Token) :
    (statement endLine' t (tokens ++ more)).Reads s (rest ++ more) := by
  obtain ⟨own, after, rfl, hown, rfl⟩ := h.owns
  -- The semicolon that ends the text is not among the statement's own tokens.
  have hafter : after ≠ [] := by
    rintro rfl
    rw [List.append_nil] at hend
    have hlast := List.getLast?_eq_some_getLast (List.cons_ne_nil t own)
    exact hown.getLast_ne _ hlast (hend _ hlast)
  have hown' : Owns endLine' (after ++ more) t own s := by
    refine hown.imp (fun he => ?_) fun _ => (endsReturn_append hafter more).trans
    rw [← List.append_assoc]
    exact he.expression_append hafter endLine' more
  rw [← dropSemicolon_append hafter more, List.append_assoc]
  exact hown'.reads

end

/-- Behind statements that a semicolon ends, reading goes on as at the start of a text. -/
theorem statements_append {endLine : Nat} {tokens rest : List Token} {ss : List Statement}
    (h : (statements endLine tokens).Reads ss rest) (hend : Ended tokens) (endLine' : Nat)
    (more : List Token) :
    (statements endLine' (tokens ++ more)).node =
        (statements endLine' more).node.map (ss ++ ·) ∧
      (statements endLine' (tokens ++ more)).report.errors =
        (statements endLine' more).report.errors := by
  match tokens with
  | [] =>
    rw [statements, reads_done_iff] at h
    rw [h.1]
    exact ⟨Option.map_id'.symm, rfl⟩
  | t :: ts =>
    obtain ⟨s, mid, ss', hs, hss, rfl⟩ := statements_reads_iff.mp h
    have hlength := hs.length_le
    have hmid : Ended mid := hend.of_suffix (hs.rest_suffix.trans (List.suffix_cons t ts))
    obtain ⟨hnode, hleft, herrors⟩ := hs.statement_append hend endLine' more
    obtain ⟨hnode', herrors'⟩ := statements_append hss hmid endLine' more
    rw [List.cons_append, statements]
    show (statements endLine' (statement endLine' t (ts ++ more)).rest).node.map
        ((statement endLine' t (ts ++ more)).node.toList ++ ·) = _ ∧
      (statement endLine' t (ts ++ more)).report.errors ++
        (statements endLine' (statement endLine' t (ts ++ more)).rest).report.errors = _
    rw [hleft, hnode, herrors, hnode', herrors', Option.map_map]
    exact ⟨rfl, rfl⟩
termination_by tokens.length

/-- The line on which a text ends does not matter if the text is read without errors and a
semicolon ends it. -/
theorem parse_endLine {tokens : List Token} {endLine : Nat}
    (h : (TokenStream.mk tokens endLine).parse.errors = []) (hend : Ended tokens) (endLine' : Nat) :
    (TokenStream.mk tokens endLine').parse.errors = [] ∧
      (TokenStream.mk tokens endLine').parse.program = (TokenStream.mk tokens endLine).parse.program := by
  obtain ⟨hnode, herrors⟩ := statements_append (reads_of_errors_eq_nil h) hend endLine' []
  rw [List.append_nil, statements] at hnode herrors
  refine ⟨herrors, congrArg Program.mk ?_⟩
  rw [hnode]
  exact List.append_nil _

end Parsing

/-- **A text read behind another one.** -/
theorem parse_seam {first : String} (herrors : (parse first).errors = [])
    (hend : Parsing.Ended (TokenStream.ofSource first).tokens) (second : String) :
    let n := 1 + first.toList.count '\n'
    (parse (first ++ "\n" ++ second)).program.statements =
        (parse first).program.statements ++
          Statement.eraseAll (.relined (· + n)) (parse second).program.statements ∧
      (parse (first ++ "\n" ++ second)).errors =
        (parse second).errors.map (SyntaxError.relined (· + n)) := by
  intro n
  have hseam : TokenStream.ofSource (first ++ "\n" ++ second) = _ :=
    TokenStream.ofSource_seam first second
  generalize hfirst : TokenStream.ofSource first = stream at hend hseam
  generalize hsecond : TokenStream.ofSource second = stream' at hseam
  rw [parse, hfirst] at herrors
  have hss := Parsing.reads_of_errors_eq_nil herrors
  obtain ⟨⟨ss', hss'⟩, _⟩ := Parsing.statements_complete stream'.endLine stream'.tokens
  -- Nothing follows the second text, so its errors are those that it has alone.
  have hplaced : Parsing.Placed True (· + n) [] stream'.endLine (stream'.endLine + n) :=
    ⟨fun _ => rfl, fun _ => rfl⟩
  obtain ⟨hnode', _, herrors'⟩ := Parsing.statements_tracks hplaced stream'.tokens (.inl trivial)
  obtain ⟨hnode, herrors⟩ := Parsing.statements_append hss hend (stream'.endLine + n)
    (Parsing.moved (· + n) [] stream'.tokens)
  rw [hnode', hss'] at hnode
  rw [Parsing.moved, List.append_nil] at hnode hnode' herrors herrors'
  rw [parse, parse, parse, hfirst, hsecond, hseam]
  refine ⟨?_, herrors.trans herrors'⟩
  simp only [TokenStream.parse]
  rw [hnode, hss.node, hss']
  rfl

theorem TokenStream.ofSource_empty : ofSource "" = ⟨[], 1⟩ := by
  have hempty : Tokenizes [] "".toList [] := .done .nil
  exact ofSource_eq_of_tokenizes hempty

theorem parse_empty : (parse "").errors = [] ∧ (parse "").program.statements = [] := by
  rw [parse, TokenStream.ofSource_empty, TokenStream.parse, Parsing.statements]
  exact ⟨rfl, rfl⟩

/-- The line feed at the end of a text can be left out. -/
theorem parse_newline {source : String} (herrors : (parse (source ++ "\n")).errors = [])
    (hend : Parsing.Ended (TokenStream.ofSource (source ++ "\n")).tokens) :
    (parse source).errors = [] ∧ Parsing.Ended (TokenStream.ofSource source).tokens ∧
      (parse source).program = (parse (source ++ "\n")).program := by
  have hseam : TokenStream.ofSource (source ++ "\n") =
      ⟨(TokenStream.ofSource source).tokens ++ [], 1 + (1 + source.toList.count '\n')⟩ := by
    have h := TokenStream.ofSource_seam source ""
    rw [String.append_empty, TokenStream.ofSource_empty] at h
    exact h
  rw [List.append_nil] at hseam
  rw [hseam] at hend
  rw [parse, hseam] at herrors
  rw [parse, parse, hseam]
  obtain ⟨herrors', hprogram⟩ :=
    Parsing.parse_endLine herrors hend (TokenStream.ofSource source).endLine
  exact ⟨herrors', hend, hprogram⟩

end LetLang
