import LetLang.Parsing
import LetLang.Proofs.Passages

/-! The rules of the grammar, when nothing goes wrong.

A statement that gives no node lists an error (`statement_accounts`), so that a text without errors
was read without a gap: a list of statements is read exactly if each of them is
(`blockBody_cons_reads_iff`, `statements_reads_iff`). -/
namespace LetLang.Parsing
open Step

theorem statement_accounts (endLine : Nat) (t : Token) (tokens : List Token) :
    (statement endLine t tokens).Accounts := (statement_passes endLine t tokens).accounts

theorem statements_accounts (endLine : Nat) (tokens : List Token) :
    (statements endLine tokens).Accounts := (statements_passes endLine tokens).accounts

/-- Reading a whole text gives a program and leaves no token. -/
theorem statements_complete (endLine : Nat) (tokens : List Token) :
    (∃ ss, (statements endLine tokens).node = some ss) ∧ (statements endLine tokens).rest = [] := by
  match tokens with
  | [] =>
    rw [statements]
    exact ⟨⟨[], rfl⟩, rfl⟩
  | t :: ts =>
    rw [statements]
    have hlength := (statement endLine t ts).rest_length_le
    obtain ⟨⟨ss, hss⟩, hrest⟩ := statements_complete endLine (statement endLine t ts).rest
    exact ⟨⟨_, Option.map_eq_some_iff.mpr ⟨ss, hss, rfl⟩⟩, hrest⟩
termination_by tokens.length

/-! ### What the rules read

One equivalence for each rule, so that a derivation can be built up and taken apart. -/

section
variable {endLine : Nat} {p : Precedence} {t : Token} {tokens rest : List Token} {e : Expr}

theorem expression_reads_iff :
    (expression endLine p (t :: tokens)).Reads e rest ↔
      ∃ left mid, (operand endLine t tokens).Reads left mid ∧
        (operators endLine p left mid).Reads e rest := by
  rw [expression, reads_past_iff, expressionFrom, reads_within_iff, reads_andThen_iff]

/-! Operands. -/

theorem operand_identifier_reads_iff (ht : t.kind = .identifier) :
    (operand endLine t tokens).Reads e rest ↔ e = .identifier (.ofToken t) ∧ rest = tokens := by
  rw [operand]
  simp only [ht, reads_done_iff]

theorem operand_int_reads_iff (ht : t.kind = .int) :
    (operand endLine t tokens).Reads e rest ↔
      ∃ n, integerValue? t.literal = some n ∧ e = .integer t n ∧ rest = tokens := by
  rw [operand]
  simp only [ht]
  unfold integerLiteral
  split
  · rename_i n hn
    simp only [reads_done_iff, hn, Option.some.injEq, exists_eq_left']
  · rename_i hn
    simp only [reads_fail_iff, hn, reduceCtorEq, false_and, exists_const]

theorem operand_true_reads_iff (ht : t.kind = .trueWord) :
    (operand endLine t tokens).Reads e rest ↔ e = .boolean t true ∧ rest = tokens := by
  rw [operand]
  simp only [ht, reads_done_iff]

theorem operand_false_reads_iff (ht : t.kind = .falseWord) :
    (operand endLine t tokens).Reads e rest ↔ e = .boolean t false ∧ rest = tokens := by
  rw [operand]
  simp only [ht, reads_done_iff]

theorem operand_unary_reads_iff {op : UnaryOp} (ht : t.kind.unaryOp? = some op) :
    (operand endLine t tokens).Reads e rest ↔
      ∃ e', (expression endLine .unary tokens).Reads e' rest ∧ .unary t op e' = e := by
  have hk : (t.kind = .bang ∧ op = .not) ∨ (t.kind = .minus ∧ op = .negate) := by
    revert ht
    cases t.kind <;> simp [TokenKind.unaryOp?, eq_comm]
  rw [operand]
  rcases hk with ⟨hk, rfl⟩ | ⟨hk, rfl⟩ <;> simp only [hk, reads_map_iff]

theorem operand_group_reads_iff (ht : t.kind = .leftParen) :
    (operand endLine t tokens).Reads e rest ↔
      ∃ u, (expression endLine .lowest tokens).Reads e (u :: rest) ∧ u.kind = .rightParen := by
  rw [operand]
  simp only [ht, reads_andThen_iff, reads_map_iff, reads_expect_iff]
  constructor
  · intro h
    obtain ⟨e', mid, he, u, ⟨rfl, hu⟩, rfl⟩ := h
    exact ⟨u, he, hu⟩
  · intro h
    obtain ⟨u, he, hu⟩ := h
    exact ⟨e, u :: rest, he, u, ⟨rfl, hu⟩, rfl⟩

theorem operand_if_reads_iff (ht : t.kind = .ifWord) :
    (operand endLine t tokens).Reads e rest ↔
      ∃ u ts c v us b mid, tokens = u :: ts ∧ u.kind = .leftParen ∧
        (expression endLine .lowest ts).Reads c (v :: us) ∧ v.kind = .rightParen ∧
        (block endLine us).Reads b mid ∧ (alternative endLine t c b mid).Reads e rest := by
  rw [operand]
  simp only [ht, reads_andThen_iff, reads_expect_iff]
  constructor
  · intro h
    obtain ⟨u, ts, ⟨rfl, hu⟩, c, _, hc, v, us, ⟨rfl, hv⟩, b, mid, hb, ha⟩ := h
    exact ⟨u, ts, c, v, us, b, mid, rfl, hu, hc, hv, hb, ha⟩
  · intro h
    obtain ⟨u, ts, c, v, us, b, mid, rfl, hu, hc, hv, hb, ha⟩ := h
    exact ⟨u, ts, ⟨rfl, hu⟩, c, _, hc, v, us, ⟨rfl, hv⟩, b, mid, hb, ha⟩

theorem operand_fn_reads_iff (ht : t.kind = .fnWord) :
    (operand endLine t tokens).Reads e rest ↔
      ∃ u ts ps mid b, tokens = u :: ts ∧ u.kind = .leftParen ∧
        (parameters endLine ts).Reads ps mid ∧ (block endLine mid).Reads b rest ∧
        .function t ps b = e := by
  rw [operand]
  simp only [ht, reads_andThen_iff, reads_map_iff, reads_expect_iff]
  constructor
  · intro h
    obtain ⟨u, ts, ⟨rfl, hu⟩, ps, mid, hps, b, hb, he⟩ := h
    exact ⟨u, ts, ps, mid, b, rfl, hu, hps, hb, he⟩
  · intro h
    obtain ⟨u, ts, ps, mid, b, rfl, hu, hps, hb, he⟩ := h
    exact ⟨u, ts, ⟨rfl, hu⟩, ps, mid, hps, b, hb, he⟩

theorem alternative_else_reads_iff {c : Expr} {b : Block} {u : Token} (hu : u.kind = .elseWord) :
    (alternative endLine t c b (u :: tokens)).Reads e rest ↔
      ∃ a, (block endLine tokens).Reads a rest ∧ .ifThenElse t c b a = e := by
  rw [alternative, if_pos hu, reads_past_iff, reads_map_iff]

theorem alternative_none_reads_iff {c : Expr} {b : Block}
    (h : ∀ u ∈ tokens.head?, u.kind ≠ .elseWord) :
    (alternative endLine t c b tokens).Reads e rest ↔ e = .ifThen t c b ∧ rest = tokens := by
  cases tokens with
  | nil => rw [alternative, reads_done_iff]
  | cons u ts => rw [alternative, if_neg (h u rfl), reads_done_iff]

/-! Operators. -/

theorem operators_done_reads_iff {left : Expr}
    (h : ∀ u ∈ tokens.head?, ¬ p < u.kind.precedence) :
    (operators endLine p left tokens).Reads e rest ↔ e = left ∧ rest = tokens := by
  cases tokens with
  | nil => rw [operators, reads_done_iff]
  | cons u ts => rw [operators, if_neg (h u rfl), reads_done_iff]

theorem operators_binary_reads_iff {left : Expr} {op : BinaryOp}
    (ht : t.kind.binaryOp? = some op) (hp : p < t.kind.precedence) :
    (operators endLine p left (t :: tokens)).Reads e rest ↔
      ∃ right mid, (expression endLine t.kind.precedence tokens).Reads right mid ∧
        (operators endLine p (.binary t left op right) mid).Reads e rest := by
  rw [operators, if_pos hp]
  simp only [ht, reads_past_iff, reads_andThen_iff]

theorem operators_call_reads_iff {left : Expr} (ht : t.kind = .leftParen) (hp : p < .call) :
    (operators endLine p left (t :: tokens)).Reads e rest ↔
      ∃ es mid, (arguments endLine tokens).Reads es mid ∧
        (operators endLine p (.call t left es) mid).Reads e rest := by
  rw [operators, if_pos (by rw [ht]; exact hp)]
  simp only [ht, TokenKind.binaryOp?, reads_past_iff, reads_andThen_iff]

/-! Lists in parentheses. -/

theorem endOfList_reads_iff {α : Type} {as : List α} :
    (endOfList endLine tokens).Reads as rest ↔
      ∃ u, tokens = u :: rest ∧ u.kind = .rightParen ∧ as = [] := by
  rw [endOfList, reads_map_iff]
  simp only [reads_expect_iff, and_assoc, eq_comm]

theorem arguments_nil_reads_iff {es : List Expr} (h : nextIs .rightParen tokens = true) :
    (arguments endLine tokens).Reads es rest ↔
      ∃ u, tokens = u :: rest ∧ u.kind = .rightParen ∧ es = [] := by
  rw [arguments, if_pos h, endOfList_reads_iff]

theorem arguments_cons_reads_iff {es : List Expr} (h : nextIs .rightParen tokens = false) :
    (arguments endLine tokens).Reads es rest ↔
      ∃ e mid es', (expression endLine .lowest tokens).Reads e mid ∧
        (moreArguments endLine mid).Reads es' rest ∧ e :: es' = es := by
  rw [arguments, h, if_neg Bool.false_ne_true]
  simp only [reads_andThen_iff, reads_map_iff]
  constructor
  · intro h
    obtain ⟨e, mid, he, es', hes, rfl⟩ := h
    exact ⟨e, mid, es', he, hes, rfl⟩
  · intro h
    obtain ⟨e, mid, es', he, hes, rfl⟩ := h
    exact ⟨e, mid, he, es', hes, rfl⟩

theorem moreArguments_comma_reads_iff {es : List Expr} (ht : t.kind = .comma) :
    (moreArguments endLine (t :: tokens)).Reads es rest ↔
      ∃ e mid es', (expression endLine .lowest tokens).Reads e mid ∧
        (moreArguments endLine mid).Reads es' rest ∧ e :: es' = es := by
  rw [moreArguments, if_pos ht, reads_past_iff]
  simp only [reads_andThen_iff, reads_map_iff]
  constructor
  · intro h
    obtain ⟨e, mid, he, es', hes, rfl⟩ := h
    exact ⟨e, mid, es', he, hes, rfl⟩
  · intro h
    obtain ⟨e, mid, es', he, hes, rfl⟩ := h
    exact ⟨e, mid, he, es', hes, rfl⟩

theorem moreArguments_end_reads_iff {es : List Expr}
    (h : ∀ u ∈ tokens.head?, u.kind ≠ .comma) :
    (moreArguments endLine tokens).Reads es rest ↔
      ∃ u, tokens = u :: rest ∧ u.kind = .rightParen ∧ es = [] := by
  cases tokens with
  | nil => rw [moreArguments, endOfList_reads_iff]
  | cons u ts => rw [moreArguments, if_neg (h u rfl), endOfList_reads_iff]

theorem parameters_nil_reads_iff {is : List Identifier} (h : nextIs .rightParen tokens = true) :
    (parameters endLine tokens).Reads is rest ↔
      ∃ u, tokens = u :: rest ∧ u.kind = .rightParen ∧ is = [] := by
  rw [parameters, if_pos h, endOfList_reads_iff]

theorem parameters_cons_reads_iff {is : List Identifier} (h : nextIs .rightParen tokens = false) :
    (parameters endLine tokens).Reads is rest ↔
      ∃ u ts is', tokens = u :: ts ∧ u.kind = .identifier ∧
        (moreParameters endLine ts).Reads is' rest ∧ .ofToken u :: is' = is := by
  rw [parameters, h, if_neg Bool.false_ne_true]
  simp only [reads_andThen_iff, reads_map_iff, reads_expect_iff]
  constructor
  · intro h
    obtain ⟨u, ts, ⟨rfl, hu⟩, is', his, rfl⟩ := h
    exact ⟨u, ts, is', rfl, hu, his, rfl⟩
  · intro h
    obtain ⟨u, ts, is', rfl, hu, his, rfl⟩ := h
    exact ⟨u, ts, ⟨rfl, hu⟩, is', his, rfl⟩

theorem moreParameters_comma_reads_iff {is : List Identifier} (ht : t.kind = .comma) :
    (moreParameters endLine (t :: tokens)).Reads is rest ↔
      ∃ u ts is', tokens = u :: ts ∧ u.kind = .identifier ∧
        (moreParameters endLine ts).Reads is' rest ∧ .ofToken u :: is' = is := by
  rw [moreParameters, if_pos ht, reads_past_iff]
  simp only [reads_andThen_iff, reads_map_iff, reads_expect_iff]
  constructor
  · intro h
    obtain ⟨u, ts, ⟨rfl, hu⟩, is', his, rfl⟩ := h
    exact ⟨u, ts, is', rfl, hu, his, rfl⟩
  · intro h
    obtain ⟨u, ts, is', rfl, hu, his, rfl⟩ := h
    exact ⟨u, ts, ⟨rfl, hu⟩, is', his, rfl⟩

theorem moreParameters_end_reads_iff {is : List Identifier}
    (h : ∀ u ∈ tokens.head?, u.kind ≠ .comma) :
    (moreParameters endLine tokens).Reads is rest ↔
      ∃ u, tokens = u :: rest ∧ u.kind = .rightParen ∧ is = [] := by
  cases tokens with
  | nil => rw [moreParameters, endOfList_reads_iff]
  | cons u ts => rw [moreParameters, if_neg (h u rfl), endOfList_reads_iff]

/-! Blocks and statements. -/

theorem block_reads_iff {b : Block} :
    (block endLine tokens).Reads b rest ↔
      ∃ u ts ss, tokens = u :: ts ∧ u.kind = .leftBrace ∧
        (blockBody endLine ts).Reads ss rest ∧ .mk u ss = b := by
  rw [block]
  simp only [reads_andThen_iff, reads_map_iff, reads_expect_iff]
  constructor
  · intro h
    obtain ⟨u, ts, ⟨rfl, hu⟩, ss, hss, rfl⟩ := h
    exact ⟨u, ts, ss, rfl, hu, hss, rfl⟩
  · intro h
    obtain ⟨u, ts, ss, rfl, hu, hss, rfl⟩ := h
    exact ⟨u, ts, ⟨rfl, hu⟩, ss, hss, rfl⟩

theorem blockBody_end_reads_iff (ht : t.kind = .rightBrace) {ss : List Statement} :
    (blockBody endLine (t :: tokens)).Reads ss rest ↔ ss = [] ∧ rest = tokens := by
  rw [blockBody, if_pos ht, reads_past_iff, reads_done_iff]

theorem blockBody_cons_reads_iff (ht : t.kind ≠ .rightBrace) {ss : List Statement} :
    (blockBody endLine (t :: tokens)).Reads ss rest ↔
      ∃ s mid ss', (statement endLine t tokens).Reads s mid ∧
        (blockBody endLine mid).Reads ss' rest ∧ ss = s :: ss' := by
  rw [blockBody, if_neg ht, reads_past_iff, (statement_accounts endLine t tokens).reads_collect_iff]

theorem statements_reads_iff {ss : List Statement} :
    (statements endLine (t :: tokens)).Reads ss rest ↔
      ∃ s mid ss', (statement endLine t tokens).Reads s mid ∧
        (statements endLine mid).Reads ss' rest ∧ ss = s :: ss' := by
  rw [statements, reads_past_iff, (statement_accounts endLine t tokens).reads_collect_iff]

variable {s : Statement}

theorem statement_let_reads_iff (ht : t.kind = .letWord) :
    (statement endLine t tokens).Reads s rest ↔
      ∃ u v ts e mid, tokens = u :: v :: ts ∧ u.kind = .identifier ∧ v.kind = .assign ∧
        (expression endLine .lowest ts).Reads e mid ∧
        s = .letIn t (.ofToken u) e ∧ rest = dropSemicolon mid := by
  rw [statement]
  simp only [ht, reads_within_iff, reads_andThen_iff, reads_recovering_iff, reads_expect_iff,
    reads_optionalSemicolon_iff]
  constructor
  · intro h
    obtain ⟨u, _, ⟨rfl, hu⟩, v, ts, ⟨rfl, hv⟩, e, mid, he, hs⟩ := h
    exact ⟨u, v, ts, e, mid, rfl, hu, hv, he, hs⟩
  · intro h
    obtain ⟨u, v, ts, e, mid, rfl, hu, hv, he, hs⟩ := h
    exact ⟨u, _, ⟨rfl, hu⟩, v, ts, ⟨rfl, hv⟩, e, mid, he, hs⟩

theorem statement_returnNothing_reads_iff (ht : t.kind = .returnWord)
    (h : endsReturn tokens = true) :
    (statement endLine t tokens).Reads s rest ↔
      s = .returnNothing t ∧ rest = dropSemicolon tokens := by
  rw [statement]
  simp only [ht, reads_within_iff, h, if_true, reads_optionalSemicolon_iff]

theorem statement_returnValue_reads_iff (ht : t.kind = .returnWord)
    (h : endsReturn tokens = false) :
    (statement endLine t tokens).Reads s rest ↔
      ∃ e mid, (expression endLine .lowest tokens).Reads e mid ∧
        s = .returnValue t e ∧ rest = dropSemicolon mid := by
  rw [statement]
  simp only [ht, reads_within_iff, h, Bool.false_eq_true, if_false, reads_andThen_iff,
    reads_optionalSemicolon_iff]

theorem statement_expression_reads_iff (hl : t.kind ≠ .letWord) (hr : t.kind ≠ .returnWord) :
    (statement endLine t tokens).Reads s rest ↔
      ∃ e mid, (expression endLine .lowest (t :: tokens)).Reads e mid ∧
        s = .expression t e ∧ rest = dropSemicolon mid := by
  rw [statement, expression]
  split
  · rename_i h
    exact absurd h hl
  · rename_i h
    exact absurd h hr
  · simp only [reads_within_iff, reads_past_iff, reads_andThen_iff, reads_optionalSemicolon_iff]

end

/-! ### Whole texts -/

/-- What is read of a whole text without errors. -/
theorem reads_of_errors_eq_nil {s : TokenStream} (h : s.parse.errors = []) :
    (statements s.endLine s.tokens).Reads s.parse.program.statements [] := by
  obtain ⟨ss, hss⟩ := (statements_accounts s.endLine s.tokens).reads h
  have hstatements : s.parse.program.statements = ss := congrArg (Option.getD · []) hss.node
  rw [(statements_complete s.endLine s.tokens).2] at hss
  rwa [hstatements]

/-- A text that is read without errors is the program of its statements. -/
theorem parse_of_reads {s : TokenStream} {ss : List Statement} {rest : List Token}
    (h : (statements s.endLine s.tokens).Reads ss rest) :
    s.parse.program = ⟨ss⟩ ∧ s.parse.errors = [] :=
  ⟨congrArg Program.mk (congrArg (Option.getD · []) h.node), h.clean⟩

/-- Where there are tokens and no errors, there are statements. -/
theorem parse_statements_eq_nil_iff {s : TokenStream} (h : s.parse.errors = []) :
    s.parse.program.statements = [] ↔ s.tokens = [] := by
  have hreads := reads_of_errors_eq_nil h
  revert hreads
  generalize s.parse.program.statements = ss
  intro hreads
  cases htokens : s.tokens with
  | nil =>
    rw [htokens, statements, reads_done_iff] at hreads
    exact iff_of_true hreads.1 rfl
  | cons t ts =>
    rw [htokens] at hreads
    obtain ⟨u, _, us, _, _, rfl⟩ := statements_reads_iff.mp hreads
    exact iff_of_false (List.cons_ne_nil u us) (List.cons_ne_nil t ts)

end LetLang.Parsing
