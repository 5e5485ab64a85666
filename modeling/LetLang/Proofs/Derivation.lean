import LetLang.Proofs.Grammar
import LetLang.Proofs.Lookahead

/-! What is read can be derived.

One lemma for each rule: the tokens that it takes without an error are of kinds that the
grammar derives. Operators extend whatever stands to their left: since the grammar knows no
precedences, any derivation of what has been read will do as the left operand
(`operators_derives`). -/
namespace LetLang.Parsing
open Step Grammar

theorem fits_of_integerValue? {t : Token} {n : Int64} (h : integerValue? t.literal = some n) :
    Fits t := by
  intro _
  rw [integerValue?_eq_some_iff.mp h]
  exact n.toInt_le

/-- What is left behind an optional semicolon is behind one of the two ways to end. -/
theorem spells_dropSemicolon (tokens : List Token) :
    ∃ ks ∈ endings, Spells ks tokens (dropSemicolon tokens) := by
  cases tokens with
  | nil => exact ⟨[], by decide, rfl⟩
  | cons t ts =>
    by_cases ht : t.kind = .semicolon
    · refine ⟨[.semicolon], by decide, ?_⟩
      rw [dropSemicolon, if_pos ht]
      exact Spells.cons rfl ht (by decide)
    · refine ⟨[], by decide, ?_⟩
      rw [dropSemicolon, if_neg ht]
      rfl

/-- A `return` that gives back nothing stands in front of a semicolon, a closing brace or the
end. -/
theorem returnNothing_derives {t : Token} {tokens : List Token} (ht : t.kind = .returnWord)
    (h : endsReturn tokens = true) :
    ∃ ks, Derives (.statement ((dropSemicolon tokens).head?.map Token.kind)) ks ∧
      Spells ks (t :: tokens) (dropSemicolon tokens) := by
  match tokens, h with
  | [], _ => exact ⟨_, .returnLast (.inl rfl), Spells.cons rfl ht (by decide)⟩
  | u :: us, h =>
    by_cases hu : u.kind = .semicolon
    · rw [dropSemicolon, if_pos hu]
      have hend : Spells [.semicolon] (u :: us) us := Spells.cons rfl hu (by decide)
      exact ⟨_, .returnNothing, hend.cons ht (by decide)⟩
    · rw [dropSemicolon, if_neg hu]
      have hbrace : u.kind = .rightBrace := by
        simpa [endsReturn, nextIs, hu] using h
      refine ⟨_, .returnLast (.inr ?_), Spells.cons rfl ht (by decide)⟩
      rw [List.head?_cons, Option.map_some, hbrace]

/-! ### Parameters -/

theorem moreParameters_derives (endLine : Nat) (tokens : List Token) {is : List Identifier}
    {rest : List Token} (h : (moreParameters endLine tokens).Reads is rest) (t : Token)
    (ht : t.kind = .identifier) :
    ∃ ps, Derives .identifiers ps ∧ Spells (ps ++ [.rightParen]) (t :: tokens) rest := by
  match tokens, h with
  | [], h =>
    obtain ⟨u, hu, _⟩ := (moreParameters_end_reads_iff (by simp)).mp h
    cases hu
  | u :: us, h =>
    by_cases hu : u.kind = .comma
    · obtain ⟨v, ts, is', rfl, hv, hmore, _⟩ := (moreParameters_comma_reads_iff hu).mp h
      obtain ⟨ps, hps, hspells⟩ := moreParameters_derives endLine ts hmore v hv
      exact ⟨_, .identifiers hps, (hspells.cons hu (by decide)).cons ht (by decide)⟩
    · obtain ⟨v, hv, hclose, _⟩ := (moreParameters_end_reads_iff (by simpa using hu)).mp h
      cases hv
      have hspells : Spells [.rightParen] (u :: rest) rest := Spells.cons rfl hclose (by decide)
      exact ⟨_, .lastIdentifier, hspells.cons ht (by decide)⟩
termination_by tokens.length

theorem parameters_derives (endLine : Nat) (tokens : List Token) {is : List Identifier}
    {rest : List Token} (h : (parameters endLine tokens).Reads is rest) :
    ∃ ps, Derives .parameters ps ∧ Spells (ps ++ [.rightParen]) tokens rest := by
  cases hnext : nextIs .rightParen tokens with
  | true =>
    obtain ⟨u, rfl, hu, _⟩ := (parameters_nil_reads_iff hnext).mp h
    exact ⟨[], .noParameter, Spells.cons rfl hu (by decide)⟩
  | false =>
    obtain ⟨u, ts, is', rfl, hu, hmore, _⟩ := (parameters_cons_reads_iff hnext).mp h
    obtain ⟨ps, hps, hspells⟩ := moreParameters_derives endLine ts hmore u hu
    exact ⟨ps, .parameters hps, hspells⟩

/-! ### Expressions, blocks and statements -/

mutual

theorem expression_derives (endLine : Nat) (p : Precedence) (tokens : List Token) {e : Expr}
    {rest : List Token} (h : (expression endLine p tokens).Reads e rest) :
    ∃ ks, Derives .expression ks ∧ Spells ks tokens rest := by
  match tokens, h with
  | [], h =>
    rw [expression, reads_within_iff, reads_fail_iff] at h
    exact h.elim
  | t :: ts, h =>
    obtain ⟨left, mid, hleft, hoperators⟩ := expression_reads_iff.mp h
    have hlength := hleft.length_le
    obtain ⟨ls, hls, hspells⟩ := operand_derives endLine t ts hleft
    obtain ⟨ks, hks, hspells'⟩ := operators_derives endLine p mid hoperators hls
    exact ⟨ls ++ ks, hks, hspells.append hspells'⟩
termination_by 8 * tokens.length

theorem operand_derives (endLine : Nat) (t : Token) (tokens : List Token) {e : Expr}
    {rest : List Token} (h : (operand endLine t tokens).Reads e rest) :
    ∃ ks, Derives .expression ks ∧ Spells ks (t :: tokens) rest := by
  cases ht : t.kind with
  | identifier =>
    obtain ⟨_, rfl⟩ := (operand_identifier_reads_iff ht).mp h
    exact ⟨_, .identifier, Spells.cons rfl ht (by decide)⟩
  | int =>
    obtain ⟨n, hn, _, rfl⟩ := (operand_int_reads_iff ht).mp h
    exact ⟨_, .integer, t, _, rfl, ht, fits_of_integerValue? hn, rfl⟩
  | trueWord =>
    obtain ⟨_, rfl⟩ := (operand_true_reads_iff ht).mp h
    exact ⟨_, .trueWord, Spells.cons rfl ht (by decide)⟩
  | falseWord =>
    obtain ⟨_, rfl⟩ := (operand_false_reads_iff ht).mp h
    exact ⟨_, .falseWord, Spells.cons rfl ht (by decide)⟩
  | bang =>
    have hop : t.kind.unaryOp? = some .not := by rw [ht]; rfl
    obtain ⟨e', he', _⟩ := (operand_unary_reads_iff hop).mp h
    obtain ⟨ks, hks, hspells⟩ := expression_derives endLine .unary tokens he'
    exact ⟨_, .not hks, hspells.cons ht (by decide)⟩
  | minus =>
    have hop : t.kind.unaryOp? = some .negate := by rw [ht]; rfl
    obtain ⟨e', he', _⟩ := (operand_unary_reads_iff hop).mp h
    obtain ⟨ks, hks, hspells⟩ := expression_derives endLine .unary tokens he'
    exact ⟨_, .negate hks, hspells.cons ht (by decide)⟩
  | leftParen =>
    obtain ⟨u, he, hu⟩ := (operand_group_reads_iff ht).mp h
    obtain ⟨ks, hks, hspells⟩ := expression_derives endLine .lowest tokens he
    have hclose : Spells [.rightParen] (u :: rest) rest := Spells.cons rfl hu (by decide)
    exact ⟨_, .group hks, (hspells.append hclose).cons ht (by decide)⟩
  | ifWord =>
    obtain ⟨u, ts, c, v, us, b, mid, htokens, hu, hc, hv, hb, ha⟩ :=
      (operand_if_reads_iff ht).mp h
    have htotal : tokens.length = ts.length + 1 := by rw [htokens, List.length_cons]
    have hlength : us.length < ts.length := hc.length_le
    have hlength' := hb.length_le
    obtain ⟨cs, hcs, hspells⟩ := expression_derives endLine .lowest ts hc
    obtain ⟨bs, hbs, hspells'⟩ := block_derives endLine us hb
    have hif {ks : List TokenKind} (hks : Spells ks us rest) :
        Spells (.ifWord :: .leftParen :: (cs ++ .rightParen :: ks)) (t :: tokens) rest := by
      rw [htokens]
      exact ((hspells.append (hks.cons hv (by decide))).cons hu (by decide)).cons ht (by decide)
    obtain ⟨rfl⟩ | ⟨as, has, hspells''⟩ := alternative_derives endLine t c b mid ha
    · exact ⟨_, .ifThen hcs hbs, hif hspells'⟩
    · exact ⟨_, .ifThenElse hcs hbs has, hif (hspells'.append hspells'')⟩
  | fnWord =>
    obtain ⟨u, ts, ps, mid, b, htokens, hu, hps, hb, _⟩ := (operand_fn_reads_iff ht).mp h
    have htotal : tokens.length = ts.length + 1 := by rw [htokens, List.length_cons]
    have hlength := hps.length_le
    obtain ⟨ks, hks, hspells⟩ := parameters_derives endLine ts hps
    obtain ⟨bs, hbs, hspells'⟩ := block_derives endLine mid hb
    have hall := hspells.append hspells'
    rw [List.append_assoc] at hall
    rw [htokens]
    exact ⟨_, .function hks hbs, (Spells.cons hall hu (by decide)).cons ht (by decide)⟩
  | _ =>
    rw [operand] at h
    simp only [ht, reads_fail_iff] at h
termination_by 8 * tokens.length + 6

/-- Behind the first block of a conditional comes nothing of it, or `else` and a block. -/
theorem alternative_derives (endLine : Nat) (t : Token) (c : Expr) (b : Block)
    (tokens : List Token) {e : Expr} {rest : List Token}
    (h : (alternative endLine t c b tokens).Reads e rest) :
    rest = tokens ∨ ∃ as, Derives .block as ∧ Spells (.elseWord :: as) tokens rest := by
  match tokens, h with
  | [], h => exact .inl ((alternative_none_reads_iff (by simp)).mp h).2
  | u :: us, h =>
    by_cases hu : u.kind = .elseWord
    · obtain ⟨a, ha, _⟩ := (alternative_else_reads_iff hu).mp h
      obtain ⟨as, has, hspells⟩ := block_derives endLine us ha
      exact .inr ⟨as, has, hspells.cons hu (by decide)⟩
    · exact .inl ((alternative_none_reads_iff (by simpa using hu)).mp h).2
termination_by 8 * tokens.length

/-- Operators extend any derivation of what stands to their left. -/
theorem operators_derives (endLine : Nat) (p : Precedence) (tokens : List Token) {left e : Expr}
    {rest : List Token} (h : (operators endLine p left tokens).Reads e rest)
    {ls : List TokenKind} (hls : Derives .expression ls) :
    ∃ ks, Derives .expression (ls ++ ks) ∧ Spells ks tokens rest := by
  have hdone (hrest : rest = tokens) :
      ∃ ks, Derives .expression (ls ++ ks) ∧ Spells ks tokens rest :=
    ⟨[], by rwa [List.append_nil], hrest.symm⟩
  match tokens, h with
  | [], h => exact hdone ((operators_done_reads_iff (by simp)).mp h).2
  | t :: ts, h =>
    by_cases hp : p < t.kind.precedence
    · cases hop : t.kind.binaryOp? with
      | some op =>
        obtain ⟨right, mid, hright, hmore⟩ := (operators_binary_reads_iff hop hp).mp h
        have hlength := hright.length_le
        obtain ⟨rs, hrs, hspells⟩ := expression_derives endLine _ ts hright
        have hk := (mem_binaryKinds_iff t.kind).mpr ⟨op, hop⟩
        obtain ⟨ks, hks, hspells'⟩ :=
          operators_derives endLine p mid hmore (Derives.binary hls hk hrs)
        have hint : t.kind ≠ .int := fun hint => by rw [hint] at hop; cases hop
        refine ⟨t.kind :: rs ++ ks, ?_, (hspells.cons rfl hint).append hspells'⟩
        rw [← List.append_assoc]
        exact hks
      | none =>
        have ht := leftParen_of_binds hp hop
        have hcall : p < .call := by rwa [ht] at hp
        obtain ⟨es, mid, hes, hmore⟩ := (operators_call_reads_iff ht hcall).mp h
        have hlength := hes.length_le
        obtain ⟨as, has, hspells⟩ := arguments_derives endLine ts hes
        obtain ⟨ks, hks, hspells'⟩ := operators_derives endLine p mid hmore (Derives.call hls has)
        refine ⟨.leftParen :: (as ++ [.rightParen]) ++ ks, ?_,
          (hspells.cons ht (by decide)).append hspells'⟩
        rw [← List.append_assoc]
        exact hks
    · exact hdone ((operators_done_reads_iff (by simpa using hp)).mp h).2
termination_by 8 * tokens.length + 1

theorem arguments_derives (endLine : Nat) (tokens : List Token) {es : List Expr}
    {rest : List Token} (h : (arguments endLine tokens).Reads es rest) :
    ∃ ks, Derives .arguments ks ∧ Spells (ks ++ [.rightParen]) tokens rest := by
  cases hnext : nextIs .rightParen tokens with
  | true =>
    obtain ⟨u, rfl, hu, _⟩ := (arguments_nil_reads_iff hnext).mp h
    exact ⟨[], .noArgument, Spells.cons rfl hu (by decide)⟩
  | false =>
    obtain ⟨e, mid, es', he, hmore, _⟩ := (arguments_cons_reads_iff hnext).mp h
    have hlength := he.length_le
    obtain ⟨ks, hks, hspells⟩ := expression_derives endLine .lowest tokens he
    obtain ⟨js, hjs, hspells'⟩ := moreArguments_derives endLine mid hmore hks
    exact ⟨ks ++ js, .arguments hjs, by rw [List.append_assoc]; exact hspells.append hspells'⟩
termination_by 8 * tokens.length + 2

/-- Behind an argument come the others and the closing parenthesis. -/
theorem moreArguments_derives (endLine : Nat) (tokens : List Token) {es : List Expr}
    {rest : List Token} (h : (moreArguments endLine tokens).Reads es rest)
    {ks : List TokenKind} (hks : Derives .expression ks) :
    ∃ js, Derives .expressions (ks ++ js) ∧ Spells (js ++ [.rightParen]) tokens rest := by
  match tokens, h with
  | [], h =>
    obtain ⟨u, hu, _⟩ := (moreArguments_end_reads_iff (by simp)).mp h
    cases hu
  | u :: us, h =>
    by_cases hu : u.kind = .comma
    · obtain ⟨e, mid, es', he, hmore, _⟩ := (moreArguments_comma_reads_iff hu).mp h
      have hlength := he.length_le
      obtain ⟨ls, hls, hspells⟩ := expression_derives endLine .lowest us he
      obtain ⟨js, hjs, hspells'⟩ := moreArguments_derives endLine mid hmore hls
      refine ⟨.comma :: (ls ++ js), .expressions hks hjs, Spells.cons ?_ hu (by decide)⟩
      show Spells (ls ++ js ++ [.rightParen]) us rest
      rw [List.append_assoc]
      exact hspells.append hspells'
    · obtain ⟨v, hv, hclose, _⟩ := (moreArguments_end_reads_iff (by simpa using hu)).mp h
      cases hv
      refine ⟨[], ?_, Spells.cons rfl hclose (by decide)⟩
      rw [List.append_nil]
      exact .lastExpression hks
termination_by 8 * tokens.length + 1

theorem block_derives (endLine : Nat) (tokens : List Token) {b : Block} {rest : List Token}
    (h : (block endLine tokens).Reads b rest) :
    ∃ ks, Derives .block ks ∧ Spells ks tokens rest := by
  obtain ⟨u, ts, ss, rfl, hu, hss, _⟩ := block_reads_iff.mp h
  obtain ⟨ks, v, hks, hv, hspells⟩ := blockBody_derives endLine ts hss
  have hclose : Spells [.rightBrace] (v :: rest) rest := Spells.cons rfl hv (by decide)
  exact ⟨_, .block hks, (hspells.append hclose).cons hu (by decide)⟩
termination_by 8 * tokens.length + 5

theorem blockBody_derives (endLine : Nat) (tokens : List Token) {ss : List Statement}
    {rest : List Token} (h : (blockBody endLine tokens).Reads ss rest) :
    ∃ ks u, Derives (.statements (some .rightBrace)) ks ∧ u.kind = .rightBrace ∧
      Spells ks tokens (u :: rest) := by
  match tokens, h with
  | [], h =>
    rw [blockBody, reads_fail_iff] at h
    exact h.elim
  | t :: ts, h =>
    by_cases ht : t.kind = .rightBrace
    · obtain ⟨_, rfl⟩ := (blockBody_end_reads_iff ht).mp h
      exact ⟨[], t, .noStatement, ht, rfl⟩
    · obtain ⟨s, mid, ss', hs, hss, _⟩ := (blockBody_cons_reads_iff ht).mp h
      have hlength := hs.length_le
      obtain ⟨ks, hks, hspells⟩ := statement_derives endLine t ts hs
      obtain ⟨js, u, hjs, hu, hspells'⟩ := blockBody_derives endLine mid hss
      rw [hspells'.head?, List.head?_cons, Option.map_some, hu] at hks
      exact ⟨ks ++ js, u, .statements hks hjs, hu, hspells.append hspells'⟩
termination_by 8 * tokens.length + 4

/-- A statement is derived in front of the token behind it. -/
theorem statement_derives (endLine : Nat) (t : Token) (tokens : List Token) {s : Statement}
    {rest : List Token} (h : (statement endLine t tokens).Reads s rest) :
    ∃ ks, Derives (.statement (rest.head?.map Token.kind)) ks ∧ Spells ks (t :: tokens) rest := by
  obtain ⟨own, after, rfl, hown, rfl⟩ := h.owns
  obtain ⟨ending, hending, hspells'⟩ := spells_dropSemicolon after
  cases hown with
  | letIn ht hu hv he =>
    obtain ⟨ks, hks, hspells⟩ := expression_derives endLine .lowest _ he
    refine ⟨_, .letIn hks hending, ?_⟩
    exact (((hspells.append hspells').cons hv (by decide)).cons hu (by decide)).cons ht (by decide)
  | returnNothing ht hends => exact returnNothing_derives ht hends
  | returnValue ht he =>
    obtain ⟨ks, hks, hspells⟩ := expression_derives endLine .lowest _ he
    exact ⟨_, .returnValue hks hending, (hspells.append hspells').cons ht (by decide)⟩
  | alone _ _ he =>
    obtain ⟨ks, hks, hspells⟩ := expression_derives endLine .lowest (t :: own ++ after) he
    exact ⟨_, .expressionStatement hks hending, hspells.append hspells'⟩
termination_by 8 * tokens.length + 9

end

theorem statements_derives (endLine : Nat) (tokens : List Token) {ss : List Statement}
    {rest : List Token} (h : (statements endLine tokens).Reads ss rest) :
    ∃ ks, Derives .program ks ∧ Spells ks tokens [] := by
  match tokens, h with
  | [], _ => exact ⟨[], .noStatement, rfl⟩
  | t :: ts, h =>
    obtain ⟨s, mid, ss', hs, hss, _⟩ := statements_reads_iff.mp h
    have hlength := hs.length_le
    obtain ⟨ks, hks, hspells⟩ := statement_derives endLine t ts hs
    obtain ⟨js, hjs, hspells'⟩ := statements_derives endLine mid hss
    rw [hspells'.head?] at hks
    exact ⟨ks ++ js, .statements hks hjs, hspells.append hspells'⟩
termination_by tokens.length

end LetLang.Parsing
