import LetLang.Proofs.Reading

/-! What may follow.

How far a rule reads depends on the token behind. Binary operators bind tighter than nothing and
less tight than calls; whatever else binds opens an argument list. An expression ends in front of
what goes on with no expression (`Ends`); a list of statements ends in front of a closing brace
or at the end (`Closes`). A statement takes its own tokens, and behind them a semicolon if there is
one (`Owns`). -/
namespace LetLang.Parsing
open Step

/-! ### Binding -/

theorem Precedence.not_lt_lowest (p : Precedence) : ¬ p < .lowest := Nat.not_lt_zero p.rank

theorem lowest_lt_of_binaryOp? {k : TokenKind} {op : BinaryOp} (h : k.binaryOp? = some op) :
    .lowest < k.precedence := by
  cases k <;> first | decide | cases h

theorem not_unary_lt_of_binaryOp? {k : TokenKind} {op : BinaryOp} (h : k.binaryOp? = some op) :
    ¬ .unary < k.precedence := by
  cases k <;> first | decide | cases h

theorem lt_call_of_binaryOp? {k : TokenKind} {op : BinaryOp} (h : k.binaryOp? = some op) :
    k.precedence < .call := by
  cases k <;> first | decide | cases h

/-- A token that binds and is no binary operator opens an argument list. -/
theorem leftParen_of_binds {p : Precedence} {k : TokenKind} (hp : p < k.precedence)
    (hop : k.binaryOp? = none) : k = .leftParen := by
  refine Decidable.byContradiction fun hne => ?_
  rw [(TokenKind.precedence_eq_lowest_iff k).mpr ⟨hop, hne⟩] at hp
  exact Precedence.not_lt_lowest p hp

/-! ### What ends what -/

/-- The kinds that an operand can start with. -/
def startsOperand : List TokenKind :=
  [.identifier, .int, .trueWord, .falseWord, .bang, .minus, .leftParen, .ifWord, .fnWord]

/-- The kinds that a statement can start with. -/
def startsStatement : List TokenKind := .letWord :: .returnWord :: startsOperand

theorem operand_starts {endLine : Nat} {t : Token} {tokens rest : List Token} {e : Expr}
    (h : (operand endLine t tokens).Reads e rest) : t.kind ∈ startsOperand := by
  rw [operand] at h
  split at h <;> rename_i ht
  case h_10 => exact ((reads_fail_iff _).mp h).elim
  all_goals
    rw [ht]
    decide

theorem expression_starts {endLine : Nat} {p : Precedence} {tokens rest : List Token} {e : Expr}
    (h : (expression endLine p tokens).Reads e rest) :
    ∃ t ts, tokens = t :: ts ∧ t.kind ∈ startsOperand := by
  cases tokens with
  | nil =>
    rw [expression, reads_within_iff, reads_fail_iff] at h
    exact h.elim
  | cons t ts =>
    obtain ⟨left, mid, hleft, _⟩ := expression_reads_iff.mp h
    exact ⟨t, ts, rfl, operand_starts hleft⟩

theorem statement_starts {endLine : Nat} {t : Token} {tokens rest : List Token} {s : Statement}
    (h : (statement endLine t tokens).Reads s rest) : t.kind ∈ startsStatement := by
  by_cases hlet : t.kind = .letWord
  · exact hlet ▸ List.mem_cons_self
  by_cases hreturn : t.kind = .returnWord
  · exact hreturn ▸ List.mem_cons_of_mem _ List.mem_cons_self
  · obtain ⟨e, mid, he, _⟩ := (statement_expression_reads_iff hlet hreturn).mp h
    obtain ⟨u, us, heq, hu⟩ := expression_starts he
    cases heq
    exact List.mem_cons_of_mem _ (List.mem_cons_of_mem _ hu)

/-- The next token, if there is one, is no `else`. -/
def NoElse (rest : List Token) : Prop := ∀ u ∈ rest.head?, u.kind ≠ .elseWord

/-- The next token, if there is one, goes on with no expression. -/
structure Ends (rest : List Token) : Prop where
  lowest : ∀ u ∈ rest.head?, u.kind.precedence = .lowest
  noElse : NoElse rest

theorem forall_head?_cons {P : Token → Prop} {t : Token} (h : P t) (ts : List Token) :
    ∀ u ∈ (t :: ts).head?, P u := by
  intro u hu
  cases hu
  exact h

theorem noElse_cons {t : Token} (h : t.kind ≠ .elseWord) (ts : List Token) : NoElse (t :: ts) :=
  forall_head?_cons h ts

theorem ends_cons {t : Token} (h : t.kind.precedence = .lowest) (h' : t.kind ≠ .elseWord)
    (ts : List Token) : Ends (t :: ts) :=
  ⟨forall_head?_cons h ts, noElse_cons h' ts⟩

theorem ends_rightParen {t : Token} (h : t.kind = .rightParen) (ts : List Token) :
    Ends (t :: ts) := by
  refine ends_cons ?_ ?_ ts <;> rw [h] <;> decide

/-- Where nothing goes on with it, an operand is all there is. -/
theorem Ends.operators_reads {rest : List Token} (h : Ends rest) (endLine : Nat) (p : Precedence)
    (left : Expr) : (operators endLine p left rest).Reads left rest := by
  refine (operators_done_reads_iff fun u hu => ?_).mpr ⟨rfl, rfl⟩
  rw [h.lowest u hu]
  exact Precedence.not_lt_lowest p

/-- An expression goes on as long as something binds. -/
theorem operators_stops {endLine : Nat} {p : Precedence} (tokens : List Token) {left e : Expr}
    {rest : List Token} (h : (operators endLine p left tokens).Reads e rest) :
    ∀ u ∈ rest.head?, ¬ p < u.kind.precedence := by
  match tokens with
  | [] =>
    rw [operators, reads_done_iff] at h
    rw [h.2]
    exact fun _ hu => nomatch hu
  | t :: ts =>
    by_cases hp : p < t.kind.precedence
    · cases hop : t.kind.binaryOp? with
      | some op =>
        obtain ⟨right, mid, hright, he⟩ := (operators_binary_reads_iff hop hp).mp h
        have hlength := hright.length_le
        exact operators_stops mid he
      | none =>
        have ht := leftParen_of_binds hp hop
        obtain ⟨es, mid, hes, he⟩ := (operators_call_reads_iff ht (by rwa [ht] at hp)).mp h
        have hlength := hes.length_le
        exact operators_stops mid he
    · have hhead : ∀ u ∈ (t :: ts).head?, ¬ p < u.kind.precedence := forall_head?_cons hp ts
      rw [((operators_done_reads_iff hhead).mp h).2]
      exact hhead
termination_by tokens.length

theorem expression_stops {endLine : Nat} {p : Precedence} {tokens rest : List Token} {e : Expr}
    (h : (expression endLine p tokens).Reads e rest) : ∀ u ∈ rest.head?, ¬ p < u.kind.precedence := by
  obtain ⟨t, ts, rfl, _⟩ := expression_starts h
  obtain ⟨left, mid, _, he⟩ := expression_reads_iff.mp h
  exact operators_stops mid he

theorem exists_cons_of_nextIs {kind : TokenKind} {tokens : List Token}
    (h : nextIs kind tokens = true) : ∃ u us, tokens = u :: us ∧ u.kind = kind := by
  cases tokens with
  | nil => cases h
  | cons u us => exact ⟨u, us, rfl, beq_iff_eq.mp h⟩

theorem dropSemicolon_of_nextIs_eq_false {tokens : List Token}
    (h : nextIs .semicolon tokens = false) : dropSemicolon tokens = tokens := by
  cases tokens with
  | nil => rfl
  | cons u us => exact if_neg (beq_eq_false_iff_ne.mp h)

/-- Nothing follows a list of statements but a closing brace. -/
def Closes (rest : List Token) : Prop := ∀ u ∈ rest.head?, u.kind = .rightBrace

theorem closes_nil : Closes [] := by
  intro u hu
  cases hu

theorem closes_cons {t : Token} (h : t.kind = .rightBrace) (ts : List Token) : Closes (t :: ts) :=
  forall_head?_cons h ts

theorem Closes.ends {rest : List Token} (h : Closes rest) : Ends rest := by
  constructor
  · intro u hu
    rw [h u hu]
    rfl
  · intro u hu
    rw [h u hu]
    decide

theorem Closes.dropSemicolon {rest : List Token} (h : Closes rest) :
    dropSemicolon rest = rest := by
  cases rest with
  | nil => rfl
  | cons u us =>
    have hu : u.kind ≠ .semicolon := by
      rw [h u rfl]
      decide
    rw [Parsing.dropSemicolon, if_neg hu]

theorem Closes.endsReturn {rest : List Token} (h : Closes rest) : endsReturn rest = true := by
  cases rest with
  | nil => rfl
  | cons u us =>
    rw [Parsing.endsReturn, nextIs, nextIs, h u rfl]
    rfl

/-! ### The tokens of a statement -/

/-- The statement starts with the token `t` and has `own` as its other tokens in front of `after`. -/
inductive Owns (endLine : Nat) (after : List Token) : Token → List Token → Statement → Prop where
  | letIn {t u v : Token} {own : List Token} {e : Expr} (ht : t.kind = .letWord)
      (hu : u.kind = .identifier) (hv : v.kind = .assign)
      (he : (expression endLine .lowest (own ++ after)).Reads e after) :
      Owns endLine after t (u :: v :: own) (.letIn t (.ofToken u) e)
  | returnNothing {t : Token} (ht : t.kind = .returnWord) (hends : endsReturn after = true) :
      Owns endLine after t [] (.returnNothing t)
  | returnValue {t : Token} {own : List Token} {e : Expr} (ht : t.kind = .returnWord)
      (he : (expression endLine .lowest (own ++ after)).Reads e after) :
      Owns endLine after t own (.returnValue t e)
  | alone {t : Token} {own : List Token} {e : Expr} (hlet : t.kind ≠ .letWord)
      (hreturn : t.kind ≠ .returnWord)
      (he : (expression endLine .lowest (t :: own ++ after)).Reads e after) :
      Owns endLine after t own (.expression t e)

section
variable {endLine : Nat} {t : Token} {tokens own after rest : List Token} {s : Statement}

/-- What starts an expression does not end a `return`. -/
theorem endsReturn_of_expression {p : Precedence} {e : Expr}
    (h : (expression endLine p tokens).Reads e rest) : endsReturn tokens = false := by
  obtain ⟨t, ts, rfl, ht⟩ := expression_starts h
  have hsemicolon : (t.kind == .semicolon) = false :=
    beq_false_of_ne (ne_of_mem_of_not_mem ht (by decide))
  have hbrace : (t.kind == .rightBrace) = false :=
    beq_false_of_ne (ne_of_mem_of_not_mem ht (by decide))
  rw [endsReturn, nextIs, nextIs, hsemicolon, hbrace]
  rfl

theorem Owns.reads (h : Owns endLine after t own s) :
    (statement endLine t (own ++ after)).Reads s (dropSemicolon after) := by
  cases h with
  | letIn ht hu hv he =>
    exact (statement_let_reads_iff ht).mpr ⟨_, _, _, _, after, rfl, hu, hv, he, rfl, rfl⟩
  | returnNothing ht hends => exact (statement_returnNothing_reads_iff ht hends).mpr ⟨rfl, rfl⟩
  | returnValue ht he =>
    exact (statement_returnValue_reads_iff ht (endsReturn_of_expression he)).mpr
      ⟨_, after, he, rfl, rfl⟩
  | alone hlet hreturn he =>
    exact (statement_expression_reads_iff hlet hreturn).mpr ⟨_, after, he, rfl, rfl⟩

/-- A statement that is read has its own tokens, and behind them a semicolon if there is one. -/
theorem Step.Reads.owns (h : (statement endLine t tokens).Reads s rest) :
    ∃ own after, tokens = own ++ after ∧ Owns endLine after t own s ∧ rest = dropSemicolon after := by
  by_cases hlet : t.kind = .letWord
  · obtain ⟨u, v, ts, e, mid, rfl, hu, hv, he, rfl, rfl⟩ := (statement_let_reads_iff hlet).mp h
    obtain ⟨own, rfl⟩ := he.rest_suffix
    exact ⟨u :: v :: own, mid, rfl, .letIn hlet hu hv he, rfl⟩
  by_cases hreturn : t.kind = .returnWord
  · cases hends : endsReturn tokens with
    | true =>
      obtain ⟨rfl, rfl⟩ := (statement_returnNothing_reads_iff hreturn hends).mp h
      exact ⟨[], tokens, rfl, .returnNothing hreturn hends, rfl⟩
    | false =>
      obtain ⟨e, mid, he, rfl, rfl⟩ := (statement_returnValue_reads_iff hreturn hends).mp h
      obtain ⟨own, rfl⟩ := he.rest_suffix
      exact ⟨own, mid, rfl, .returnValue hreturn he, rfl⟩
  · obtain ⟨e, mid, he, rfl, rfl⟩ := (statement_expression_reads_iff hlet hreturn).mp h
    obtain ⟨left, mid', hleft, hrest⟩ := expression_reads_iff.mp he
    obtain ⟨own, rfl⟩ := hrest.rest_suffix.trans hleft.rest_suffix
    exact ⟨own, mid, rfl, .alone hlet hreturn he, rfl⟩

/-- A statement has the same tokens in front of others, if its expression has, and if a `return` that
gives back nothing ends in front of these too. -/
theorem Owns.imp {endLine' : Nat} {after' : List Token} (h : Owns endLine after t own s)
    (hexpression : ∀ {own : List Token} {e : Expr},
      (expression endLine .lowest (own ++ after)).Reads e after →
        (expression endLine' .lowest (own ++ after')).Reads e after')
    (hbare : s = .returnNothing t → endsReturn after = true → endsReturn after' = true) :
    Owns endLine' after' t own s := by
  cases h with
  | letIn ht hu hv he => exact .letIn ht hu hv (hexpression he)
  | returnNothing ht hends => exact .returnNothing ht (hbare rfl hends)
  | returnValue ht he => exact .returnValue ht (hexpression he)
  | alone hlet hreturn he => exact .alone hlet hreturn (hexpression he)

end

end LetLang.Parsing
