import LetLang.Proofs.Edits
import LetLang.Proofs.Places
import LetLang.Proofs.StoredTokens

/-! Where a semicolon matters.

A statement goes on with the next one only if that one starts with a parenthesis or a minus, and a
`return` that gives back nothing goes on with anything that could be its value. So a semicolon can
stand behind each statement that has none, and it can be left out in front of everything else.

Where it is left out in front of a parenthesis or a minus, the program does change: if the statement
stayed what it is, then what it takes of the tokens behind it would be in its tree, unless it is
nothing but parentheses, and no expression ends with an opening parenthesis (`not_reread`). -/
namespace LetLang.Parsing
open Step

/-! ### Going on with the next statement -/

section
variable {endLine : Nat} {tokens own mid rest : List Token} {e : Expr}

/-- What an expression takes is in its tree but for punctuation. -/
theorem Step.Reads.without_eq {p : Precedence}
    (h : (expression endLine p (own ++ rest)).Reads e rest) :
    without [.leftParen] e.storedTokens = without punctuation own := by
  obtain ⟨taken, more, htokens, hstored, hretains⟩ := expression_stores endLine p _ e h.node
  rw [h.left] at htokens
  obtain rfl := List.append_cancel_right htokens
  rw [hstored]
  exact hretains.same h.clean

/-- Behind the parentheses that an expression starts with stands a token that is no punctuation. -/
theorem expression_parens {p : Precedence} (tokens : List Token) {e : Expr} {rest : List Token}
    (h : (expression endLine p tokens).Reads e rest) :
    ∃ ps u us, tokens = ps ++ u :: us ∧ (∀ t ∈ ps, t.kind = .leftParen) ∧ u.kind ∉ punctuation := by
  induction tokens generalizing p e rest with
  | nil =>
    obtain ⟨_, _, hnil, _⟩ := expression_starts h
    cases hnil
  | cons t ts ih =>
    obtain ⟨left, mid, hleft, _⟩ := expression_reads_iff.mp h
    by_cases ht : t.kind = .leftParen
    · obtain ⟨v, he, _⟩ := (operand_group_reads_iff ht).mp hleft
      obtain ⟨ps, u, us, rfl, hps, hu⟩ := ih he
      exact ⟨t :: ps, u, us, rfl, List.forall_mem_cons.mpr ⟨ht, hps⟩, hu⟩
    · refine ⟨[], t, ts, rfl, fun _ hmem => (List.not_mem_nil hmem).elim, ?_⟩
      have hstarts := operand_starts hleft
      revert hstarts ht
      cases t.kind <;> decide

/-- The first tokens of an expression are opening parentheses as long as they are punctuation. -/
theorem leftParens_of_without {p : Precedence} {extra : List Token}
    (h : (expression endLine p (extra ++ mid)).Reads e rest)
    (hextra : without punctuation extra = []) : ∀ t ∈ extra, t.kind = .leftParen := by
  obtain ⟨ps, u, us, heq, hps, hu⟩ := expression_parens _ h
  have hnone : ∀ t ∈ extra, t.kind ∈ punctuation := by
    intro t ht
    by_contra hne
    have hmem : t ∈ without punctuation extra := List.mem_filter.mpr ⟨ht, by simpa using hne⟩
    rw [hextra] at hmem
    cases hmem
  obtain ⟨as, rfl, _⟩ | ⟨as, rfl, has⟩ := List.append_eq_append_iff.mp heq
  · exact fun t ht => hps t (List.mem_append_left as ht)
  · cases as with
    | nil => rwa [List.append_nil]
    | cons v vs =>
      cases has
      exact absurd (hnone u (by simp)) hu

end

/-- The next token could go on with an expression. -/
def RunsOn (tokens : List Token) : Prop :=
  ∃ t ∈ tokens.head?, t.kind = .leftParen ∨ t.kind = .minus

section
variable {endLine : Nat} {semicolon : Token} {own more mid rest : List Token} {e e' : Expr}

/-- An expression that ends in front of a semicolon is not read again without it, in front of an
expression that starts with a parenthesis or a minus. -/
theorem not_reread
    (h : (expression endLine .lowest (own ++ semicolon :: more)).Reads e (semicolon :: more))
    (hmore : (expression endLine .lowest more).Reads e' rest) (hruns : RunsOn more) :
    ¬ (expression endLine .lowest (own ++ more)).Reads e mid := by
  intro hnew
  let x : Exchange := ⟨endLine, more, semicolon :: more⟩
  obtain ⟨w, rfl, _⟩ | hlt := suffix_append_cases hnew.rest_suffix
  · cases w with
    | nil =>
      -- It does not stop in front of something that binds.
      obtain ⟨t, ht, hkind⟩ := hruns
      refine expression_stops hnew t ht ?_
      obtain hkind | hkind := hkind <;> rw [hkind] <;> decide
    | cons u w =>
      -- Where it stops before that, it would stop with the semicolon too.
      have hold := (expression_matches (x := x) .lowest own).stops hnew (.inl (List.cons_ne_nil u w))
      have hrest : semicolon :: more = u :: w ++ semicolon :: more := h.left.symm.trans hold.left
      have hlength := congrArg List.length hrest
      simp only [List.length_append, List.length_cons] at hlength
      omega
  · -- What it takes behind that is in the tree, or it ends with an opening parenthesis.
    obtain ⟨extra, rfl⟩ := List.suffix_of_suffix_length_le hnew.rest_suffix
      (List.suffix_append own more) (Nat.le_of_lt hlt)
    have hne : extra ≠ [] := by
      rintro rfl
      exact Nat.lt_irrefl _ hlt
    rw [← List.append_assoc] at hnew
    have hextra : without punctuation extra = [] := by
      have hsame := hnew.without_eq.symm.trans h.without_eq
      rw [without_append] at hsame
      exact List.append_right_eq_self.mp hsame
    have hparens := leftParens_of_without hmore hextra
    obtain ⟨t, ht, hends⟩ := hnew.getLast_endsOperand
    rw [List.getLast?_append_of_ne_nil own hne] at ht
    rw [hparens t (List.mem_of_getLast? ht)] at hends
    exact absurd hends (by decide)

/-- Nothing behind a statement that starts with a semicolon is read. -/
theorem Items.dropSemicolon_eq {ss : List Statement} (hrest : Closes rest)
    (h : Items endLine rest more ss) : dropSemicolon more = more := by
  cases h with
  | nil => exact hrest.dropSemicolon
  | cons hs _ => exact if_neg (ne_of_mem_of_not_mem (statement_starts hs) (by decide))

/-- The rest of a list ends a `return` only if there is nothing in it. -/
theorem Items.closes {ss : List Statement} (hrest : Closes rest) (h : Items endLine rest more ss)
    (hends : endsReturn more = true) : Closes more := by
  cases h with
  | nil => exact hrest
  | @cons t ts _ _ _ hs _ =>
    have hstarts := statement_starts hs
    have hkind : t.kind = .semicolon ∨ t.kind = .rightBrace := by
      simpa [endsReturn, nextIs] using hends
    obtain hkind | hkind := hkind <;> rw [hkind] at hstarts <;> exact absurd hstarts (by decide)

/-- What goes on with a statement starts an expression. -/
theorem RunsOn.expression {ss : List Statement} (h : RunsOn more) (hrest : Closes rest)
    (hmore : Items endLine rest more ss) :
    ∃ e mid, (expression endLine .lowest more).Reads e mid := by
  obtain ⟨t, ht, hkind⟩ := h
  cases hmore with
  | nil =>
    rw [hrest t ht] at hkind
    exact absurd hkind (by decide)
  | cons hs _ =>
    cases ht
    have hlet : t.kind ≠ .letWord := by
      obtain hkind | hkind := hkind <;> rw [hkind] <;> decide
    have hreturn : t.kind ≠ .returnWord := by
      obtain hkind | hkind := hkind <;> rw [hkind] <;> decide
    obtain ⟨e, mid, he, _⟩ := (statement_expression_reads_iff hlet hreturn).mp hs
    exact ⟨e, mid, he⟩

theorem Closes.not_runsOn (h : Closes more) : ¬ RunsOn more := by
  rintro ⟨t, ht, hkind⟩
  rw [h t ht] at hkind
  exact absurd hkind (by decide)

/-- What does not go on with a statement ends it. -/
theorem Items.ends {ss : List Statement} (hrest : Closes rest) (h : Items endLine rest more ss)
    (hruns : ¬ RunsOn more) : Ends more := by
  cases h with
  | nil => exact hrest.ends
  | @cons t ts _ _ _ hs _ =>
    have hstarts := statement_starts hs
    have hkind : ¬ (t.kind = .leftParen ∨ t.kind = .minus) := fun h => hruns ⟨t, rfl, h⟩
    refine ends_cons ?_ ?_ ts <;> revert hstarts hkind <;> cases t.kind <;> decide

/-- A statement that a semicolon ends is read again without it only if nothing behind it goes on
with it. -/
theorem Owns.reread {t : Token} {s : Statement} {ss : List Statement}
    (h : Owns endLine (semicolon :: more) t own s) (hrest : Closes rest)
    (hmore : Items endLine rest more ss)
    (hnew : (statement endLine t (own ++ more)).Reads s mid) :
    ¬ RunsOn more ∧ (s.isBareReturn = true → Closes more) := by
  obtain ⟨own', after, htokens, hown, _⟩ := hnew.owns
  have hexpression {own own' : List Token} {e : Expr} (heq : own ++ more = own' ++ after)
      (he : (Parsing.expression endLine .lowest (own ++ semicolon :: more)).Reads e
        (semicolon :: more))
      (he' : (Parsing.expression endLine .lowest (own' ++ after)).Reads e after) :
      ¬ RunsOn more := by
    intro hruns
    obtain ⟨_, _, hbehind⟩ := hruns.expression hrest hmore
    rw [← heq] at he'
    exact not_reread he hbehind hruns he'
  cases h with
  | letIn _ _ _ he =>
    cases hown with
    | letIn _ _ _ he' =>
      refine ⟨hexpression ?_ he he', nofun⟩
      exact (List.cons.inj (List.cons.inj htokens).2).2
  | returnNothing ht _ =>
    cases hown with
    | returnNothing _ hends =>
      obtain rfl : more = after := htokens
      have hcloses := hmore.closes hrest hends
      exact ⟨hcloses.not_runsOn, fun _ => hcloses⟩
  | returnValue _ he =>
    cases hown with
    | returnValue _ he' => exact ⟨hexpression htokens he he', nofun⟩
  | alone _ _ he =>
    cases hown with
    | alone _ _ he' => exact ⟨hexpression (congrArg (t :: ·) htokens) he he', nofun⟩

end

end LetLang.Parsing

namespace LetLang
open Parsing

namespace TokenStream

variable {s : TokenStream} {p : Place} {front more : List Token} {u : Token}

/-- A semicolon more, behind a statement that has none. -/
theorem add_semicolon (h : s.parse.errors = []) (hp : p ∈ s.places)
    (htokens : s.tokens = front ++ p.after) (hnext : nextIs .semicolon p.after = false)
    (hu : u.kind = .semicolon) :
    (mk (front ++ u :: p.after) s.endLine).parse.program = s.parse.program ∧
      (mk (front ++ u :: p.after) s.endLine).parse.errors = [] := by
  obtain ⟨tokens, endLine⟩ := s
  obtain rfl : tokens = front ++ p.after := htokens
  let x : Exchange := ⟨endLine, p.after, u :: p.after⟩
  have hends : Ends x.new := by
    refine ends_cons ?_ ?_ p.after <;> rw [hu] <;> decide
  have hreturn : endsReturn x.new = true := by
    rw [endsReturn, nextIs, hu]
    rfl
  have hsame : dropSemicolon x.new = dropSemicolon x.old := by
    show dropSemicolon (u :: p.after) = dropSemicolon p.after
    rw [dropSemicolon_of_nextIs_eq_false hnext, dropSemicolon, if_pos hu]
  exact exchange_place (x := x) h hp rfl hends (fun _ => hreturn) hsame

/-- A semicolon less, behind a statement that has one. -/
theorem omit_semicolon_iff (h : s.parse.errors = []) (hp : p ∈ s.places)
    (htokens : s.tokens = front ++ p.after) (hafter : p.after = u :: more)
    (hu : u.kind = .semicolon) :
    ((mk (front ++ more) s.endLine).parse.program = s.parse.program ∧
        (mk (front ++ more) s.endLine).parse.errors = []) ↔
      ¬ RunsOn more ∧ (p.statement.isBareReturn = true → Closes more) := by
  obtain ⟨tokens, endLine⟩ := s
  obtain rfl : tokens = front ++ p.after := htokens
  let x : Exchange := ⟨endLine, p.after, more⟩
  have hdrop : dropSemicolon p.after = more := by
    rw [hafter]
    exact if_pos hu
  obtain ⟨_, _, _, rest, ss, _, _, hrest, hmore⟩ := places_split h hp
  rw [hdrop] at hmore
  constructor
  · intro hsame
    obtain ⟨t, own, mid, hown, hreads⟩ := reread_place (x := x) h hp rfl hsame.1 hsame.2
    have hown : Owns endLine p.after t own p.statement := hown
    rw [hafter] at hown
    exact hown.reread hrest hmore hreads
  · intro hnext
    have hsame : dropSemicolon x.new = dropSemicolon x.old :=
      (hmore.dropSemicolon_eq hrest).trans hdrop.symm
    exact exchange_place (x := x) h hp rfl (hmore.ends hrest hnext.1)
      (fun hbare => (hnext.2 hbare).endsReturn) hsame

end TokenStream

/-- The text is read as the program, tokens and lines included, and without errors. -/
def ReadsAs (source : String) (p : Program) : Prop :=
  (parse source).program = p ∧ (parse source).errors = []

/-- **A semicolon matters where the next statement could go on with the one before.** In a text that is
read without errors all statements of the tree, at any depth, have a place with tokens of their own.
Where no semicolon stands behind these, one right behind the last of them makes the same program.
Where there is a semicolon, a blank in its place makes the same program if and only if no
parenthesis and no minus comes next, and behind a `return` that gives back nothing only a closing
brace or the end. -/
theorem semicolon_matters (source : String) (h : (parse source).errors = []) :
    let stream := TokenStream.ofSource source
    let p := (parse source).program
    stream.places.map Place.statement = p.everyStatement ∧
      ∀ place ∈ stream.places, ∃ front t own,
        stream.tokens = front ++ (t :: own ++ place.after) ∧
          Owns stream.endLine place.after t own place.statement ∧
          (nextIs .semicolon place.after = false →
            ReadsAs (addSemicolon (front.length + own.length) source) p) ∧
          (nextIs .semicolon place.after = true →
            (ReadsAs (blankOut (front.length + own.length + 1) source) p ↔
              ¬ RunsOn place.after.tail ∧
                (place.statement.isBareReturn = true → Closes place.after.tail))) := by
  intro stream p
  refine ⟨stream.places_statement h, fun place hplace => ?_⟩
  obtain ⟨front, t, own, _, _, hsplit, hown, _⟩ := stream.places_split h hplace
  have htokens : stream.tokens = front ++ t :: own ++ place.after := by
    rw [hsplit, List.append_assoc]
  have hlength : (front ++ t :: own).length = front.length + own.length + 1 := by
    rw [List.length_append, List.length_cons, Nat.add_assoc]
  refine ⟨front, t, own, hsplit, hown, fun hnext => ?_, fun hnext => ?_⟩
  · -- The last token of the statement is the one in front of `place.after`.
    obtain ⟨us, last, hlast⟩ : ∃ us last, front ++ t :: own = us ++ [last] :=
      ⟨_, _, (List.dropLast_append_getLast (by simp)).symm⟩
    rw [hlast] at htokens hlength
    have hall := TokenStream.add_semicolon h hplace htokens hnext
      (u := ⟨.semicolon, ";", last.line⟩) rfl
    rw [List.length_append, List.length_singleton, Nat.add_right_cancel_iff] at hlength
    rw [List.append_assoc] at htokens hall
    rw [← hlength, ReadsAs, parse, ofSource_addSemicolon htokens]
    exact hall
  · obtain ⟨u, more, hafter, hu⟩ := exists_cons_of_nextIs hnext
    have hall := TokenStream.omit_semicolon_iff h hplace htokens hafter hu
    rw [hafter] at htokens ⊢
    rw [← hlength, ReadsAs, parse, ofSource_blankOut htokens hu]
    exact hall

/-- In front of a name in parentheses: without the semicolon, a call. -/
theorem semicolon_matters_call :
    let source := "f; (g)"
    (parse source).errors = [] ∧ ¬ ReadsAs (blankOut 1 source) (parse source).program := by
  intro source
  have herrors : (parse source).errors = [] := by decide +kernel
  refine ⟨herrors, fun hsame => ?_⟩
  let after : List Token := [⟨.semicolon, ";", 1⟩, ⟨.leftParen, "(", 1⟩, ⟨.identifier, "g", 1⟩,
    ⟨.rightParen, ")", 1⟩]
  have hafter : after ∈ (TokenStream.ofSource source).places.map Place.after := by decide +kernel
  obtain ⟨place, hplace, heq⟩ := List.mem_map.mp hafter
  obtain ⟨front, t, own, htokens, _, _, homit⟩ := (semicolon_matters source herrors).2 place hplace
  have hlength : (TokenStream.ofSource source).tokens.length = 5 := by decide +kernel
  rw [htokens, heq] at hlength
  have hplaces : front.length + own.length = 0 := by
    simp [after] at hlength
    omega
  rw [heq, hplaces] at homit
  exact ((homit rfl).mp hsame).1 ⟨⟨.leftParen, "(", 1⟩, rfl, .inl rfl⟩

end LetLang
