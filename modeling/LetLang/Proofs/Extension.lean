import LetLang.Proofs.Chains
import LetLang.Proofs.Seams

/-! Expressions read alone and in front of other tokens.

A rule that stops in front of a token stops there whatever follows that token. A rule that takes all
tokens it is given may go on where there are more. A block does not, since it stops at its closing
brace; a conditional does in front of `else`; and an expression does in front of an operator or an
argument list too, so that in front of anything else it is read as it is read alone
(`expression_extends`). -/
namespace LetLang.Parsing
open Step

variable {endLine : Nat} {tokens rest more : List Token}

/-! ### Rules that stop at a token of their own -/

/-- A statement that stopped in front of a token stops there whatever follows. -/
theorem Step.Reads.statement_tracked {t : Token} {s : Statement}
    (h : (statement endLine t tokens).Reads s rest) (hrest : rest ≠ []) (endLine' : Nat)
    (more : List Token) : (statement endLine' t (tokens ++ more)).Reads s (rest ++ more) := by
  have hplaced : Placed False id more endLine endLine' := ⟨False.elim, False.elim⟩
  have htracked := h.tracked (statement_tracks hplaced t tokens) hrest
  rw [moved_id, moved_id, Erasure.relined_id, Statement.erase_exact] at htracked
  exact htracked

theorem Step.Reads.parameters_tracked {is : List Identifier}
    (h : (parameters endLine tokens).Reads is rest) (hrest : rest ≠ []) (endLine' : Nat)
    (more : List Token) : (parameters endLine' (tokens ++ more)).Reads is (rest ++ more) := by
  have hplaced : Placed False id more endLine endLine' := ⟨False.elim, False.elim⟩
  have htracked := h.tracked (parameters_tracks hplaced tokens) hrest
  rwa [moved_id, moved_id, Erasure.relined_id, Identifier.map_erase_exact] at htracked

theorem blockBody_append (tokens : List Token) {ss : List Statement}
    (h : (blockBody endLine tokens).Reads ss rest) (endLine' : Nat) (more : List Token) :
    (blockBody endLine' (tokens ++ more)).Reads ss (rest ++ more) := by
  match tokens with
  | [] =>
    rw [blockBody, reads_fail_iff] at h
    exact h.elim
  | t :: ts =>
    by_cases ht : t.kind = .rightBrace
    · obtain ⟨hss, rfl⟩ := (blockBody_end_reads_iff ht).mp h
      exact (blockBody_end_reads_iff ht).mpr ⟨hss, rfl⟩
    · obtain ⟨s, mid, ss', hs, hss, rfl⟩ := (blockBody_cons_reads_iff ht).mp h
      have hlength := hs.length_le
      have hmid : mid ≠ [] := by
        rintro rfl
        rw [blockBody, reads_fail_iff] at hss
        exact hss
      exact (blockBody_cons_reads_iff ht).mpr ⟨s, mid ++ more, ss',
        hs.statement_tracked hmid endLine' more, blockBody_append mid hss endLine' more, rfl⟩
termination_by tokens.length

/-- A block stops at its closing brace. -/
theorem Step.Reads.block_append {b : Block} (h : (block endLine tokens).Reads b rest)
    (endLine' : Nat) (more : List Token) :
    (block endLine' (tokens ++ more)).Reads b (rest ++ more) := by
  obtain ⟨u, ts, ss, rfl, hu, hss, rfl⟩ := block_reads_iff.mp h
  exact block_reads_iff.mpr ⟨u, ts ++ more, ss, rfl, hu, blockBody_append ts hss endLine' more, rfl⟩

theorem Step.Reads.alternative_append {t : Token} {c e : Expr} {b : Block}
    (h : (alternative endLine t c b tokens).Reads e rest) (hmore : NoElse more) (endLine' : Nat) :
    (alternative endLine' t c b (tokens ++ more)).Reads e (rest ++ more) := by
  cases tokens with
  | nil =>
    rw [alternative, reads_done_iff] at h
    obtain ⟨rfl, rfl⟩ := h
    exact (alternative_none_reads_iff hmore).mpr ⟨rfl, rfl⟩
  | cons u ts =>
    by_cases hu : u.kind = .elseWord
    · obtain ⟨a, ha, rfl⟩ := (alternative_else_reads_iff hu).mp h
      exact (alternative_else_reads_iff hu).mpr ⟨a, ha.block_append endLine' more, rfl⟩
    · obtain ⟨rfl, rfl⟩ := (alternative_none_reads_iff (noElse_cons hu ts)).mp h
      exact (alternative_none_reads_iff (noElse_cons hu _)).mpr ⟨rfl, rfl⟩

/-- A conditional goes on in front of `else` alone. -/
theorem Step.Reads.conditional_append {t : Token} {e : Expr} (ht : t.kind = .ifWord)
    (h : (operand endLine t tokens).Reads e rest) (hmore : NoElse more) (endLine' : Nat) :
    (operand endLine' t (tokens ++ more)).Reads e (rest ++ more) := by
  obtain ⟨u, ts, c, v, us, b, mid, rfl, hu, hc, hv, hb, he⟩ := (operand_if_reads_iff ht).mp h
  exact (operand_if_reads_iff ht).mpr ⟨u, ts ++ more, c, v, us ++ more, b, mid ++ more, rfl, hu,
    hc.expression_append (List.cons_ne_nil v us) endLine' more, hv, hb.block_append endLine' more,
    he.alternative_append hmore endLine'⟩

/-- A function literal stops at the closing brace of its body. -/
theorem Step.Reads.function_append {t : Token} {e : Expr} (ht : t.kind = .fnWord)
    (h : (operand endLine t tokens).Reads e rest) (endLine' : Nat) (more : List Token) :
    (operand endLine' t (tokens ++ more)).Reads e (rest ++ more) := by
  obtain ⟨u, ts, ps, mid, b, rfl, hu, hps, hb, rfl⟩ := (operand_fn_reads_iff ht).mp h
  have hmid : mid ≠ [] := by
    rintro rfl
    obtain ⟨_, _, _, hnil, _⟩ := block_reads_iff.mp hb
    cases hnil
  exact (operand_fn_reads_iff ht).mpr ⟨u, ts ++ more, ps, mid ++ more, b, rfl, hu,
    hps.parameters_tracked hmid endLine' more, hb.block_append endLine' more, rfl⟩

/-! ### Rules that may go on -/

mutual

theorem expression_extends (hmore : Ends more) (endLine' : Nat) (p : Precedence)
    (tokens : List Token) {e : Expr} {rest : List Token}
    (h : (expression endLine p tokens).Reads e rest) :
    (expression endLine' p (tokens ++ more)).Reads e (rest ++ more) := by
  match tokens with
  | [] =>
    rw [expression, reads_within_iff, reads_fail_iff] at h
    exact h.elim
  | t :: ts =>
    obtain ⟨left, mid, hleft, hrest⟩ := expression_reads_iff.mp h
    have hlength := hleft.length_le
    exact expression_reads_iff.mpr ⟨left, mid ++ more, operand_extends hmore endLine' t ts hleft,
      operators_extends hmore endLine' p left mid hrest⟩
termination_by 8 * tokens.length

theorem operand_extends (hmore : Ends more) (endLine' : Nat) (t : Token) (tokens : List Token)
    {e : Expr} {rest : List Token} (h : (operand endLine t tokens).Reads e rest) :
    (operand endLine' t (tokens ++ more)).Reads e (rest ++ more) := by
  have hunary {op : UnaryOp} (ht : t.kind.unaryOp? = some op) :
      (operand endLine' t (tokens ++ more)).Reads e (rest ++ more) := by
    obtain ⟨e', he, rfl⟩ := (operand_unary_reads_iff ht).mp h
    exact (operand_unary_reads_iff ht).mpr
      ⟨e', expression_extends hmore endLine' .unary tokens he, rfl⟩
  cases ht : t.kind with
  | identifier =>
    obtain ⟨rfl, rfl⟩ := (operand_identifier_reads_iff ht).mp h
    exact (operand_identifier_reads_iff ht).mpr ⟨rfl, rfl⟩
  | int =>
    obtain ⟨n, hn, rfl, rfl⟩ := (operand_int_reads_iff ht).mp h
    exact (operand_int_reads_iff ht).mpr ⟨n, hn, rfl, rfl⟩
  | trueWord =>
    obtain ⟨rfl, rfl⟩ := (operand_true_reads_iff ht).mp h
    exact (operand_true_reads_iff ht).mpr ⟨rfl, rfl⟩
  | falseWord =>
    obtain ⟨rfl, rfl⟩ := (operand_false_reads_iff ht).mp h
    exact (operand_false_reads_iff ht).mpr ⟨rfl, rfl⟩
  | bang => exact hunary (congrArg TokenKind.unaryOp? ht)
  | minus => exact hunary (congrArg TokenKind.unaryOp? ht)
  | leftParen =>
    obtain ⟨u, he, hu⟩ := (operand_group_reads_iff ht).mp h
    exact (operand_group_reads_iff ht).mpr
      ⟨u, expression_extends hmore endLine' .lowest tokens he, hu⟩
  | ifWord => exact h.conditional_append ht hmore.noElse endLine'
  | fnWord => exact h.function_append ht endLine' more
  | _ =>
    rw [operand] at h
    simp only [ht, reads_fail_iff] at h
termination_by 8 * tokens.length + 6

theorem operators_extends (hmore : Ends more) (endLine' : Nat) (p : Precedence) (left : Expr)
    (tokens : List Token) {e : Expr} {rest : List Token}
    (h : (operators endLine p left tokens).Reads e rest) :
    (operators endLine' p left (tokens ++ more)).Reads e (rest ++ more) := by
  match tokens with
  | [] =>
    rw [operators, reads_done_iff] at h
    obtain ⟨rfl, rfl⟩ := h
    exact hmore.operators_reads endLine' p _
  | t :: ts =>
    by_cases hp : p < t.kind.precedence
    · cases hop : t.kind.binaryOp? with
      | some op =>
        obtain ⟨right, mid, hright, he⟩ := (operators_binary_reads_iff hop hp).mp h
        have hlength := hright.length_le
        exact (operators_binary_reads_iff hop hp).mpr ⟨right, mid ++ more,
          expression_extends hmore endLine' t.kind.precedence ts hright,
          operators_extends hmore endLine' p _ mid he⟩
      | none =>
        have ht := leftParen_of_binds hp hop
        have hcall : p < .call := by rwa [ht] at hp
        obtain ⟨es, mid, hes, he⟩ := (operators_call_reads_iff ht hcall).mp h
        have hlength := hes.length_le
        exact (operators_call_reads_iff ht hcall).mpr ⟨es, mid ++ more,
          arguments_extends hmore endLine' ts hes, operators_extends hmore endLine' p _ mid he⟩
    · obtain ⟨rfl, rfl⟩ := (operators_done_reads_iff (forall_head?_cons hp ts)).mp h
      exact (operators_done_reads_iff (forall_head?_cons hp _)).mpr ⟨rfl, rfl⟩
termination_by 8 * tokens.length + 1

theorem arguments_extends (hmore : Ends more) (endLine' : Nat) (tokens : List Token)
    {es : List Expr} {rest : List Token}
    (h : (arguments endLine tokens).Reads es rest) :
    (arguments endLine' (tokens ++ more)).Reads es (rest ++ more) := by
  cases hnext : nextIs .rightParen tokens with
  | true =>
    obtain ⟨u, rfl, hu, rfl⟩ := (arguments_nil_reads_iff hnext).mp h
    have hnext' : nextIs .rightParen (u :: rest ++ more) = true := hnext
    exact (arguments_nil_reads_iff hnext').mpr ⟨u, rfl, hu, rfl⟩
  | false =>
    obtain ⟨e, mid, es', he, hes, rfl⟩ := (arguments_cons_reads_iff hnext).mp h
    have hlength := he.length_le
    have he' := expression_extends hmore endLine' .lowest tokens he
    exact (arguments_cons_reads_iff he'.nextIs_rightParen).mpr
      ⟨e, mid ++ more, es', he', moreArguments_extends hmore endLine' mid hes, rfl⟩
termination_by 8 * tokens.length + 2

theorem moreArguments_extends (hmore : Ends more) (endLine' : Nat) (tokens : List Token)
    {es : List Expr} {rest : List Token}
    (h : (moreArguments endLine tokens).Reads es rest) :
    (moreArguments endLine' (tokens ++ more)).Reads es (rest ++ more) := by
  match tokens with
  | [] =>
    rw [moreArguments, endOfList_reads_iff] at h
    obtain ⟨u, hnil, _⟩ := h
    cases hnil
  | t :: ts =>
    by_cases ht : t.kind = .comma
    · obtain ⟨e, mid, es', he, hes, rfl⟩ := (moreArguments_comma_reads_iff ht).mp h
      have hlength := he.length_le
      exact (moreArguments_comma_reads_iff ht).mpr ⟨e, mid ++ more, es',
        expression_extends hmore endLine' .lowest ts he,
        moreArguments_extends hmore endLine' mid hes, rfl⟩
    · obtain ⟨u, hu, hkind, rfl⟩ := (moreArguments_end_reads_iff (forall_head?_cons ht ts)).mp h
      cases hu
      exact (moreArguments_end_reads_iff (forall_head?_cons ht _)).mpr ⟨_, rfl, hkind, rfl⟩
termination_by 8 * tokens.length + 1

end

end LetLang.Parsing
