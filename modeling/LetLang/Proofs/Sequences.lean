import LetLang.Proofs.Chains

/-! Statements in sequence.

A statement that ends without a semicolon may run on into the next one. A sequence is a list of
statements none of which does: each is followed by what ends it. Whatever is derived as a list
of statements is a sequence, if statements that run on into each other are taken as one
(`Sequence.cons`), and a sequence is read statement by statement (`Sequence.reads_statement`). -/
namespace LetLang.Parsing
open Step

/-- What stands in front of the expression of a statement. -/
inductive Lead : List Token → List Token → Prop where
  | expression {rest : List Token} : Lead rest rest
  | returnValue {t : Token} {rest : List Token} (ht : t.kind = .returnWord) : Lead (t :: rest) rest
  | letIn {t u v : Token} {rest : List Token} (ht : t.kind = .letWord) (hu : u.kind = .identifier)
      (hv : v.kind = .assign) : Lead (t :: u :: v :: rest) rest

/-- The tokens behind a statement that has no semicolon are not part of it. -/
structure Separate (rest : List Token) : Prop extends Ends rest where
  noSemicolon : ∀ u ∈ rest.head?, u.kind ≠ .semicolon

/-- Statements in front of `rest`, none of which runs on into the next one. -/
inductive Sequence (endLine : Nat) (rest : List Token) : List Token → Prop where
  | nil : Sequence endLine rest rest
  | returnNothing {t u : Token} {ts : List Token} (ht : t.kind = .returnWord)
      (hu : u.kind = .semicolon) (hss : Sequence endLine rest ts) :
      Sequence endLine rest (t :: u :: ts)
  | returnLast {t : Token} (ht : t.kind = .returnWord) : Sequence endLine rest (t :: rest)
  | ended {u : Token} {tokens mid ts : List Token} (hlead : Lead tokens mid)
      (he : Chain endLine mid (u :: ts)) (hu : u.kind = .semicolon)
      (hss : Sequence endLine rest ts) : Sequence endLine rest tokens
  | unended {tokens mid ts : List Token} (hlead : Lead tokens mid) (he : Chain endLine mid ts)
      (hts : Separate ts) (hss : Sequence endLine rest ts) : Sequence endLine rest tokens

theorem separate_cons {t : Token} (h : t.kind.precedence = .lowest) (helse : t.kind ≠ .elseWord)
    (hsemicolon : t.kind ≠ .semicolon) (ts : List Token) : Separate (t :: ts) :=
  ⟨ends_cons h helse ts, forall_head?_cons hsemicolon ts⟩

theorem Closes.separate {rest : List Token} (h : Closes rest) : Separate rest := by
  refine ⟨h.ends, fun u hu => ?_⟩
  rw [h u hu]
  decide

theorem Separate.dropSemicolon {rest : List Token} (h : Separate rest) :
    dropSemicolon rest = rest := by
  cases rest with
  | nil => rfl
  | cons u us => rw [Parsing.dropSemicolon, if_neg (h.noSemicolon u rfl)]

section
variable {endLine : Nat} {tokens mid rest : List Token}

/-! ### Running on -/

/-- What starts with a word of a statement does not go on with the one before. -/
theorem separate_of_word {t : Token} (h : t.kind = .letWord ∨ t.kind = .returnWord)
    (ts : List Token) : Separate (t :: ts) := by
  obtain h | h := h <;> refine separate_cons ?_ ?_ ?_ ts <;> rw [h] <;> decide

/-- A statement goes on with the one before only if it is an expression that starts with a
minus or with a parenthesis. -/
theorem Lead.runsOn_or_separate (h : Lead tokens mid) (he : Chain endLine mid rest) :
    (mid = tokens ∧ ∀ u ∈ mid.head?, u.kind = .minus ∨ u.kind = .leftParen) ∨
      Separate tokens := by
  cases h with
  | expression =>
    obtain ⟨t, ts, rfl, ht⟩ := he.head
    by_cases hrun : t.kind = .minus ∨ t.kind = .leftParen
    · refine .inl ⟨rfl, fun u hu => ?_⟩
      cases hu
      exact hrun
    · refine .inr (separate_cons ?_ ?_ ?_ ts) <;> revert ht hrun <;> cases t.kind <;> decide
  | returnValue ht => exact .inr (separate_of_word (.inr ht) _)
  | letIn ht _ _ => exact .inr (separate_of_word (.inl ht) _)

/-- A statement without a semicolon in front of a sequence: it runs on into the first statement
there, or it is followed by the sequence as it is. -/
theorem Sequence.cons (hrest : Closes rest) {ts : List Token} (hlead : Lead tokens mid)
    (he : Chain endLine mid ts) (hss : Sequence endLine rest ts) :
    Sequence endLine rest tokens := by
  cases hss with
  | nil => exact .unended hlead he hrest.separate .nil
  | returnNothing ht hu hss =>
    exact .unended hlead he (separate_of_word (.inr ht) _) (.returnNothing ht hu hss)
  | returnLast ht => exact .unended hlead he (separate_of_word (.inr ht) _) (.returnLast ht)
  | ended hlead' he' hu hss =>
    obtain ⟨rfl, hrun⟩ | hseparate := hlead'.runsOn_or_separate he'
    · exact .ended hlead (he.merge he' hrun) hu hss
    · exact .unended hlead he hseparate (.ended hlead' he' hu hss)
  | unended hlead' he' hts hss =>
    obtain ⟨rfl, hrun⟩ | hseparate := hlead'.runsOn_or_separate he'
    · exact .unended hlead (he.merge he' hrun) hts hss
    · exact .unended hlead he hseparate (.unended hlead' he' hts hss)

/-! ### Reading -/

/-- A statement with an expression is read up to what ends the expression. -/
theorem Lead.reads_statement (hlead : Lead tokens mid) (he : Chain endLine mid rest)
    (hrest : Ends rest) :
    ∃ t ts s, tokens = t :: ts ∧ t.kind ≠ .rightBrace ∧
      (statement endLine t ts).Reads s (dropSemicolon rest) := by
  obtain ⟨e, hreads⟩ := he.reads hrest
  obtain ⟨u, us, hmid, hu⟩ := he.head
  have hkind (k : TokenKind) (hk : k ∉ startsOperand) : u.kind ≠ k := fun h => hk (h ▸ hu)
  cases hlead with
  | expression =>
    rw [hmid] at hreads
    have hs := (statement_expression_reads_iff (hkind _ (by decide)) (hkind _ (by decide))).mpr
      ⟨e, rest, hreads, rfl, rfl⟩
    exact ⟨u, us, _, hmid, hkind _ (by decide), hs⟩
  | @returnValue t _ ht =>
    have hs := (statement_returnValue_reads_iff ht (endsReturn_of_expression hreads)).mpr
      ⟨e, rest, hreads, rfl, rfl⟩
    exact ⟨t, mid, _, rfl, by rw [ht]; decide, hs⟩
  | @letIn t v w _ ht hv hw =>
    have hs := (statement_let_reads_iff ht).mpr
      ⟨v, w, mid, e, rest, rfl, hv, hw, hreads, rfl, rfl⟩
    exact ⟨t, v :: w :: mid, _, rfl, by rw [ht]; decide, hs⟩

/-- The first statement of a sequence is read, and a sequence is left. -/
theorem Sequence.reads_statement (h : Sequence endLine rest tokens) (hrest : Closes rest) :
    tokens = rest ∨ ∃ t ts s mid, tokens = t :: ts ∧ t.kind ≠ .rightBrace ∧
      (statement endLine t ts).Reads s mid ∧ Sequence endLine rest mid := by
  cases h with
  | nil => exact .inl rfl
  | @returnNothing t u ts ht hu hss =>
    have hends : endsReturn (u :: ts) = true := by simp [endsReturn, nextIs, hu]
    have hdrop : ts = dropSemicolon (u :: ts) := by rw [Parsing.dropSemicolon, if_pos hu]
    have hs : (statement endLine t (u :: ts)).Reads (.returnNothing t) ts :=
      (statement_returnNothing_reads_iff ht hends).mpr ⟨rfl, hdrop⟩
    exact .inr ⟨t, u :: ts, _, ts, rfl, by rw [ht]; decide, hs, hss⟩
  | @returnLast t ht =>
    have hs : (statement endLine t rest).Reads (.returnNothing t) rest :=
      (statement_returnNothing_reads_iff ht hrest.endsReturn).mpr ⟨rfl, hrest.dropSemicolon.symm⟩
    exact .inr ⟨t, rest, _, rest, rfl, by rw [ht]; decide, hs, .nil⟩
  | @ended u _ mid ts hlead he hu hss =>
    have hend : Ends (u :: ts) := by
      refine ends_cons ?_ ?_ ts <;> rw [hu] <;> decide
    obtain ⟨t, us, s, htokens, ht, hs⟩ := hlead.reads_statement he hend
    rw [Parsing.dropSemicolon, if_pos hu] at hs
    exact .inr ⟨t, us, s, ts, htokens, ht, hs, hss⟩
  | @unended _ mid ts hlead he hts hss =>
    obtain ⟨t, us, s, htokens, ht, hs⟩ := hlead.reads_statement he hts.toEnds
    rw [hts.dropSemicolon] at hs
    exact .inr ⟨t, us, s, ts, htokens, ht, hs, hss⟩

/-- A sequence in front of a closing brace is the body of a block. -/
theorem Sequence.reads_blockBody {u : Token} (hu : u.kind = .rightBrace) (tokens : List Token)
    (h : Sequence endLine (u :: rest) tokens) :
    ∃ ss, (blockBody endLine tokens).Reads ss rest := by
  obtain htokens | ⟨t, ts, s, mid, htokens, ht, hs, hss⟩ := h.reads_statement (closes_cons hu rest)
  · rw [htokens]
    exact ⟨[], (blockBody_end_reads_iff hu).mpr ⟨rfl, rfl⟩⟩
  · have hlength : mid.length < tokens.length := by
      rw [htokens]
      exact Nat.lt_succ_of_le hs.length_le
    obtain ⟨ss, hreads⟩ := Sequence.reads_blockBody hu mid hss
    rw [htokens]
    exact ⟨_, (blockBody_cons_reads_iff ht).mpr ⟨s, mid, ss, hs, hreads, rfl⟩⟩
termination_by tokens.length

/-- A sequence up to the end is a whole text. -/
theorem Sequence.reads_statements (tokens : List Token) (h : Sequence endLine [] tokens) :
    ∃ ss, (statements endLine tokens).Reads ss [] := by
  obtain htokens | ⟨t, ts, s, mid, htokens, _, hs, hss⟩ := h.reads_statement closes_nil
  · rw [htokens, statements]
    exact ⟨[], reads_done_iff.mpr ⟨rfl, rfl⟩⟩
  · have hlength : mid.length < tokens.length := by
      rw [htokens]
      exact Nat.lt_succ_of_le hs.length_le
    obtain ⟨ss, hreads⟩ := Sequence.reads_statements mid hss
    rw [htokens]
    exact ⟨_, statements_reads_iff.mpr ⟨s, mid, ss, hs, hreads, rfl⟩⟩
termination_by tokens.length

end

end LetLang.Parsing
