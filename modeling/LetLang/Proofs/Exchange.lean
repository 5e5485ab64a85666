import Mathlib.Data.List.Infix
import LetLang.Proofs.Extension

/-! Other tokens in place of the last ones.

A rule that is done before it comes to the last tokens of a text does the same where other tokens
stand in their place: it has looked at one token behind those that it takes, and no further. If it
has taken all tokens in front of the last ones, then what stands there instead must not go on with
what was read, in the same way as the old ones did not (`Step.Matches.stops`).

There is one way to take tokens on both sides and go on alike. If the old tokens start with a block
and the new ones with the same block, in which something is wrong besides, then whoever reads past
that block in the one text reads the same in the other one, and lists the errors of the block and no
others (`Step.Matches.passes`). -/
namespace LetLang.Parsing
open Step

/-! ### What is exchanged -/

/-- Tokens at the end of a text, and the ones that take their place. -/
structure Exchange where
  endLine : Nat
  old : List Token
  new : List Token

namespace Exchange

/-- The new tokens start with the same block as the old ones, and the same follows it; there may be
errors in the new one. -/
def SameBlock (x : Exchange) : Prop :=
  ∃ b rest, (block x.endLine x.old).Reads b rest ∧ (block x.endLine x.new).node = some b ∧
    (block x.endLine x.new).rest = rest

/-- The errors of the block that the new tokens start with. -/
def errors (x : Exchange) : List SyntaxError := (block x.endLine x.new).report.errors

variable {x : Exchange}

theorem SameBlock.old_eq (h : x.SameBlock) : ∃ t ts, x.old = t :: ts ∧ t.kind = .leftBrace := by
  obtain ⟨b, rest, hold, _⟩ := h
  obtain ⟨t, ts, _, htokens, ht, _⟩ := block_reads_iff.mp hold
  exact ⟨t, ts, htokens, ht⟩

/-- A block starts with a brace, even if there are errors in it. -/
theorem leftBrace_of_node {endLine : Nat} {tokens : List Token} {b : Block}
    (h : (block endLine tokens).node = some b) : ∃ t ts, tokens = t :: ts ∧ t.kind = .leftBrace := by
  rw [block] at h
  cases tokens with
  | nil => cases h
  | cons t ts =>
    by_cases ht : t.kind = .leftBrace
    · exact ⟨t, ts, rfl, ht⟩
    · rw [expect_cons, if_neg ht] at h
      cases h

theorem ends_leftBrace {t : Token} (ht : t.kind = .leftBrace) (ts : List Token) : Ends (t :: ts) := by
  refine ends_cons ?_ ?_ ts <;> rw [ht] <;> decide

theorem SameBlock.ends (h : x.SameBlock) : Ends x.new := by
  obtain ⟨b, rest, _, hnew, _⟩ := h
  obtain ⟨t, ts, htokens, ht⟩ := leftBrace_of_node hnew
  rw [htokens]
  exact ends_leftBrace ht ts

end Exchange

/-! ### Steps -/

/-- What is left of `v` and the tokens behind it is a part of `v` and those tokens, or less. -/
theorem suffix_append_cases {v old mid : List Token} (h : mid <:+ v ++ old) :
    (∃ w, mid = w ++ old ∧ w.length ≤ v.length) ∨ mid.length < old.length := by
  by_cases hlength : old.length ≤ mid.length
  · obtain ⟨w, rfl⟩ := List.suffix_of_suffix_length_le (List.suffix_append v old) h hlength
    have hle := h.length_le
    simp only [List.length_append] at hle
    exact .inl ⟨w, rfl, by omega⟩
  · exact .inr (Nat.lt_of_not_le hlength)

theorem eq_nil_of_append_length_le {w old : List Token} (h : (w ++ old).length ≤ old.length) :
    w = [] := by
  rw [List.length_append] at h
  exact List.eq_nil_of_length_eq_zero (by omega)

namespace Step

variable {α β : Type} {x : Exchange} {v : List Token} {Q : Prop}

/-- The first step is taken in front of the old tokens, and the second one is taken in front of the
new ones. If the first reads up to the old tokens, the second reads the same up to the new ones; and
where nothing stands between, `Q` is asked for. If the first reads past a block that is the same on
both sides, so does the second, with the errors of that block. -/
structure Matches {tokens tokens' : List Token} (x : Exchange) (Q : Prop) (s : Step α tokens)
    (s' : Step α tokens') : Prop where
  stops : ∀ {a w}, s.Reads a (w ++ x.old) → w ≠ [] ∨ Q → s'.Reads a (w ++ x.new)
  passes : x.SameBlock → ∀ {a rest}, s.Reads a rest → rest.length < x.old.length →
    s'.node = some a ∧ s'.rest = rest ∧ s'.report.errors = x.errors

/-- A step that takes a token of the old ones, which are no block, neither stops in front of them
nor reads past a block. -/
theorem matches_of_takes {tokens' : List Token} {s : Step α x.old} {s' : Step α tokens'}
    (h : ∀ {a rest}, s.Reads a rest → rest.length < x.old.length ∧ ¬ x.SameBlock) :
    s.Matches x Q s' := by
  refine ⟨fun {a w} hreads _ => ?_, fun hsame {a rest} hreads _ => absurd hsame (h hreads).2⟩
  have hlength := (h hreads).1
  rw [List.length_append] at hlength
  omega

/-- A step that takes none of the old tokens. -/
theorem matches_of_stop {s : Step α x.old} {s' : Step α x.new} {a : α}
    (h : ∀ {b rest}, s.Reads b rest → b = a ∧ rest = x.old) (h' : Q → s'.Reads a x.new) :
    s.Matches x Q s' := by
  refine ⟨fun {b w} hreads hw => ?_, fun _ {b rest} hreads hlength => ?_⟩
  · obtain ⟨rfl, hrest⟩ := h hreads
    obtain rfl : w = [] := List.append_left_eq_self.mp hrest
    exact h' (hw.resolve_left fun hne => hne rfl)
  · rw [(h hreads).2] at hlength
    exact absurd hlength (Nat.lt_irrefl _)

theorem matches_done (a : α) (v : List Token) :
    (done a : Step α (v ++ x.old)).Matches x Q (done a : Step α (v ++ x.new)) := by
  refine ⟨fun {b w} h _ => ?_, fun _ {b rest} h hlength => ?_⟩
  · obtain ⟨rfl, heq⟩ := reads_done_iff.mp h
    rw [List.append_cancel_right heq]
    exact reads_done_iff.mpr ⟨rfl, rfl⟩
  · obtain ⟨_, rfl⟩ := reads_done_iff.mp h
    rw [List.length_append] at hlength
    omega

theorem matches_fail {tokens tokens' : List Token} (e : SyntaxError) (s' : Step α tokens') :
    (fail e : Step α tokens).Matches x Q s' :=
  ⟨fun h _ => ((reads_fail_iff e).mp h).elim, fun _ _ _ h _ => ((reads_fail_iff e).mp h).elim⟩

section
variable {tokens tokens' : List Token} {s : Step α tokens} {s' : Step α tokens'}

theorem Matches.mono {P : Prop} (h : s.Matches x Q s') (hPQ : P → Q) : s.Matches x P s' :=
  ⟨fun hreads hw => h.stops hreads (hw.imp_right hPQ), h.passes⟩

theorem Matches.of_true (h : s.Matches x True s') : s.Matches x Q s' := h.mono fun _ => trivial

theorem Matches.past (h : s.Matches x Q s') (t : Token) : (s.past t).Matches x Q (s'.past t) :=
  ⟨fun hreads hw => (reads_past_iff t).mpr (h.stops ((reads_past_iff t).mp hreads) hw),
    fun hsame _ _ hreads hlength => h.passes hsame ((reads_past_iff t).mp hreads) hlength⟩

theorem Matches.within (h : s.Matches x Q s') (span span' : Span) :
    (s.within span).Matches x Q (s'.within span') :=
  ⟨fun hreads hw => (reads_within_iff span').mpr (h.stops ((reads_within_iff span).mp hreads) hw),
    fun hsame _ _ hreads hlength => h.passes hsame ((reads_within_iff span).mp hreads) hlength⟩

theorem Matches.map (h : s.Matches x Q s') (f : α → β) : (s.map f).Matches x Q (s'.map f) := by
  refine ⟨fun {b w} hreads hw => ?_, fun hsame {b rest} hreads hlength => ?_⟩
  · obtain ⟨a, ha, hb⟩ := reads_map_iff.mp hreads
    exact reads_map_iff.mpr ⟨a, h.stops ha hw, hb⟩
  · obtain ⟨a, ha, rfl⟩ := reads_map_iff.mp hreads
    obtain ⟨hnode, hrest, herrors⟩ := h.passes hsame ha hlength
    exact ⟨Option.map_eq_some_iff.mpr ⟨a, hnode, rfl⟩, hrest, herrors⟩

theorem Matches.recovering (h : s.Matches x Q s') : s.recovering.Matches x Q s'.recovering := by
  refine ⟨fun hreads hw => ?_, fun hsame {a rest} hreads hlength => ?_⟩
  · exact reads_recovering_iff.mpr (h.stops (reads_recovering_iff.mp hreads) hw)
  · obtain ⟨hnode, hrest, herrors⟩ := h.passes hsame (reads_recovering_iff.mp hreads) hlength
    unfold Step.recovering
    split
    · exact ⟨hnode, hrest, herrors⟩
    · rename_i hnone
      rw [hnode] at hnone
      cases hnone

end

section
variable {tokens mid : List Token} {s : Step α tokens} {a : α}

theorem andThen_of_node {f : α → (rest : List Token) → Step β rest} (hnode : s.node = some a)
    (hrest : s.rest = mid) :
    (s.andThen fun a rest _ => f a rest).node = (f a mid).node ∧
      (s.andThen fun a rest _ => f a rest).rest = (f a mid).rest ∧
      (s.andThen fun a rest _ => f a rest).report.errors =
        s.report.errors ++ (f a mid).report.errors := by
  subst hrest
  unfold Step.andThen
  split
  · rename_i hnone
    rw [hnode] at hnone
    cases hnone
  · rename_i a' ha'
    obtain rfl : a = a' := Option.some.inj (hnode.symm.trans ha')
    exact ⟨rfl, rfl, rfl⟩

theorem collect_of_node {f : (rest : List Token) → Step (List α) rest} (hnode : s.node = some a)
    (hrest : s.rest = mid) :
    (s.collect fun rest _ => f rest).node = (f mid).node.map (a :: ·) ∧
      (s.collect fun rest _ => f rest).rest = (f mid).rest ∧
      (s.collect fun rest _ => f rest).report.errors =
        s.report.errors ++ (f mid).report.errors := by
  subst hrest
  refine ⟨?_, rfl, rfl⟩
  show (f s.rest).node.map (s.node.toList ++ ·) = _
  rw [hnode]
  rfl

end

section
variable {s : Step α (v ++ x.old)} {s' : Step α (v ++ x.new)} {P : Prop}

/-- One step after another. The first one comes to the old tokens only where it may do so. -/
theorem Matches.andThen {f : α → (rest : List Token) → Step β rest} (hs : s.Matches x P s')
    (hf : ∀ a w, w.length ≤ v.length → (f a (w ++ x.old)).Matches x Q (f a (w ++ x.new)))
    (hP : ∀ {a b rest}, (f a x.old).Reads b rest → rest = x.old ∧ Q ∨ x.SameBlock → P) :
    (s.andThen fun a rest _ => f a rest).Matches x Q (s'.andThen fun a rest _ => f a rest) := by
  refine ⟨fun {b w} h hw => ?_, fun hblock {b rest} h hlength => ?_⟩
  · obtain ⟨a, mid, ha, hb⟩ := reads_andThen_iff.mp h
    obtain ⟨u, rfl, hu⟩ | hlt := suffix_append_cases ha.rest_suffix
    · have hstop : u ≠ [] ∨ P := by
        refine or_iff_not_imp_left.mpr fun hnil => ?_
        obtain rfl := not_not.mp hnil
        obtain rfl : w = [] := eq_nil_of_append_length_le hb.length_le
        exact hP hb (.inl ⟨rfl, hw.resolve_left fun hne => hne rfl⟩)
      exact reads_andThen_iff.mpr ⟨a, u ++ x.new, hs.stops ha hstop, (hf a u hu).stops hb hw⟩
    · have hlength := hb.length_le
      rw [List.length_append] at hlength
      omega
  · obtain ⟨a, mid, ha, hb⟩ := reads_andThen_iff.mp h
    -- The block is passed by the second step, or it was passed by the first one.
    obtain ⟨u, rfl, hu⟩ | hlt := suffix_append_cases ha.rest_suffix
    · have hstop : u ≠ [] ∨ P := by
        refine or_iff_not_imp_left.mpr fun hnil => ?_
        obtain rfl := not_not.mp hnil
        exact hP hb (.inr hblock)
      obtain ⟨hnode, hleft, hclean⟩ := hs.stops ha hstop
      obtain ⟨hn, hr, he⟩ := (hf a u hu).passes hblock hb hlength
      obtain ⟨hn', hr', he'⟩ := andThen_of_node hnode hleft
      rw [hn', hr', he', hclean]
      exact ⟨hn, hr, he⟩
    · obtain ⟨hnode, hleft, herrors⟩ := hs.passes hblock ha hlt
      obtain ⟨hn', hr', he'⟩ := andThen_of_node hnode hleft
      rw [hn', hr', he', hb.clean, List.append_nil]
      exact ⟨hb.node, hb.left, herrors⟩

/-- The first step may come to the old tokens. -/
theorem Matches.andThen_of_true {f : α → (rest : List Token) → Step β rest} (hs : s.Matches x True s')
    (hf : ∀ a w, w.length ≤ v.length → (f a (w ++ x.old)).Matches x Q (f a (w ++ x.new))) :
    (s.andThen fun a rest _ => f a rest).Matches x Q (s'.andThen fun a rest _ => f a rest) :=
  hs.andThen hf fun _ _ => trivial

/-- The first step comes to the old tokens where an expression may end in front of the new ones. -/
theorem Matches.andThen_of_ends {f : α → (rest : List Token) → Step β rest}
    (hs : s.Matches x (Ends x.new) s')
    (hf : ∀ a w, w.length ≤ v.length → (f a (w ++ x.old)).Matches x Q (f a (w ++ x.new)))
    (hQ : Q → Ends x.new) :
    (s.andThen fun a rest _ => f a rest).Matches x Q (s'.andThen fun a rest _ => f a rest) :=
  hs.andThen hf fun _ h => h.elim (fun h => hQ h.2) Exchange.SameBlock.ends

/-- An item and then a list, where the item never comes to the old tokens. -/
theorem Matches.collect {f : (rest : List Token) → Step (List α) rest} (hs : s.Matches x False s')
    (haccounts : s.Accounts)
    (hf : ∀ w, w.length ≤ v.length → (f (w ++ x.old)).Matches x Q (f (w ++ x.new)))
    (hP : ∀ {as rest}, (f x.old).Reads as rest → ¬ (rest = x.old ∧ Q ∨ x.SameBlock)) :
    (s.collect fun rest _ => f rest).Matches x Q (s'.collect fun rest _ => f rest) := by
  refine ⟨fun {as w} h hw => ?_, fun hblock {as rest} h hlength => ?_⟩
  · obtain ⟨a, mid, bs, ha, hbs, rfl⟩ := haccounts.reads_collect_iff.mp h
    obtain ⟨u, rfl, hu⟩ | hlt := suffix_append_cases ha.rest_suffix
    · have hstop : u ≠ [] := by
        rintro rfl
        obtain rfl : w = [] := eq_nil_of_append_length_le hbs.length_le
        exact hP hbs (.inl ⟨rfl, hw.resolve_left fun hne => hne rfl⟩)
      obtain ⟨hnode, hleft, hclean⟩ := hs.stops ha (.inl hstop)
      obtain ⟨hn, hr, he⟩ := (hf u hu).stops hbs hw
      obtain ⟨hn', hr', he'⟩ := collect_of_node (f := f) hnode hleft
      exact ⟨by rw [hn', hn]; rfl, hr'.trans hr, by rw [he', hclean, he]; rfl⟩
    · have hlength := hbs.length_le
      rw [List.length_append] at hlength
      omega
  · obtain ⟨a, mid, bs, ha, hbs, rfl⟩ := haccounts.reads_collect_iff.mp h
    obtain ⟨u, rfl, hu⟩ | hlt := suffix_append_cases ha.rest_suffix
    · have hstop : u ≠ [] := by
        rintro rfl
        exact hP hbs (.inr hblock)
      obtain ⟨hnode, hleft, hclean⟩ := hs.stops ha (.inl hstop)
      obtain ⟨hn, hr, he⟩ := (hf u hu).passes hblock hbs hlength
      obtain ⟨hn', hr', he'⟩ := collect_of_node (f := f) hnode hleft
      exact ⟨by rw [hn', hn]; rfl, hr'.trans hr, by rw [he', hclean, he]; rfl⟩
    · obtain ⟨hnode, hleft, herrors⟩ := hs.passes hblock ha hlt
      obtain ⟨hn', hr', he'⟩ := collect_of_node (f := f) hnode hleft
      refine ⟨by rw [hn', hbs.node]; rfl, hr'.trans hbs.left, ?_⟩
      rw [he', hbs.clean, List.append_nil]
      exact herrors

end

theorem matches_expect_cons (kind : TokenKind) (t : Token) (v : List Token) :
    (expect x.endLine kind (t :: v ++ x.old)).Matches x Q
      (expect x.endLine kind (t :: v ++ x.new)) := by
  rw [List.cons_append, List.cons_append, expect_cons, expect_cons]
  split
  · exact (matches_done t v).past t
  · exact matches_fail _ _

theorem matches_expect {kind : TokenKind} (hkind : kind ≠ .leftBrace) (v : List Token) :
    (expect x.endLine kind (v ++ x.old)).Matches x Q (expect x.endLine kind (v ++ x.new)) := by
  cases v with
  | nil =>
    refine matches_of_takes fun {t rest} h => ?_
    obtain ⟨hold, ht⟩ := reads_expect_iff.mp h
    refine ⟨hold ▸ Nat.lt_succ_self _, fun hsame => ?_⟩
    obtain ⟨u, us, hu, hbrace⟩ := hsame.old_eq
    have heq : t = u := (List.cons.inj ((hold.symm.trans (List.nil_append _)).trans hu)).1
    exact hkind (ht ▸ heq ▸ hbrace)
  | cons t v => exact matches_expect_cons kind t v

theorem matches_optionalSemicolon (a : α) (v : List Token) :
    (optionalSemicolon a (v ++ x.old)).Matches x False (optionalSemicolon a (v ++ x.new)) := by
  cases v with
  | nil =>
    refine ⟨fun {b w} h hw => ?_, fun hsame {b rest} h hlength => ?_⟩
    · have hlength := h.length_le
      simp only [List.nil_append, List.length_append] at hlength
      have hpositive := List.length_pos_iff.mpr (hw.resolve_right id)
      omega
    · obtain ⟨t, ts, hold, ht⟩ := hsame.old_eq
      obtain ⟨_, rfl⟩ := reads_optionalSemicolon_iff.mp h
      have hsemicolon : t.kind ≠ .semicolon := by
        rw [ht]
        decide
      rw [List.nil_append, hold, dropSemicolon, if_neg hsemicolon] at hlength
      omega
  | cons t v =>
    rw [List.cons_append, List.cons_append, optionalSemicolon_cons, optionalSemicolon_cons]
    split
    · exact (matches_done a v).past t
    · exact matches_done a (t :: v)

end Step

/-! ### Rules that take a token -/

/-- The first token is taken, and it opens no block. -/
def Takes (tokens rest : List Token) : Prop :=
  ∃ t ts, tokens = t :: ts ∧ rest.length ≤ ts.length ∧ t.kind ≠ .leftBrace

section
variable {endLine : Nat} {p : Precedence} {tokens rest rest' : List Token} {x : Exchange}

theorem Takes.of_length_le (h : Takes tokens rest) (hrest : rest'.length ≤ rest.length) :
    Takes tokens rest' := by
  obtain ⟨t, ts, htokens, hlength, ht⟩ := h
  exact ⟨t, ts, htokens, Nat.le_trans hrest hlength, ht⟩

theorem Takes.length_lt (h : Takes tokens rest) : rest.length < tokens.length := by
  obtain ⟨t, ts, rfl, hlength, _⟩ := h
  exact Nat.lt_succ_of_le hlength

theorem Takes.not_sameBlock (h : Takes x.old rest) : ¬ x.SameBlock := by
  intro hsame
  obtain ⟨t, ts, htokens, _, ht⟩ := h
  obtain ⟨u, us, hold, hu⟩ := hsame.old_eq
  rw [htokens] at hold
  cases hold
  exact ht hu

/-- What takes a token neither stops in front of the old tokens nor passes a block. -/
theorem Takes.not_comes {Q : Prop} (h : Takes x.old rest) : ¬ (rest = x.old ∧ Q ∨ x.SameBlock) := by
  rintro (⟨rfl, _⟩ | hsame)
  · exact Nat.lt_irrefl _ h.length_lt
  · exact h.not_sameBlock hsame

theorem Step.matches_of_takes' {α : Type} {tokens' : List Token} {Q : Prop} {s : Step α x.old}
    {s' : Step α tokens'} (h : ∀ {a rest}, s.Reads a rest → Takes x.old rest) : s.Matches x Q s' :=
  matches_of_takes fun hreads => ⟨(h hreads).length_lt, (h hreads).not_sameBlock⟩

theorem expression_takes {e : Expr} (h : (expression endLine p tokens).Reads e rest) :
    Takes tokens rest := by
  obtain ⟨t, ts, rfl, ht⟩ := expression_starts h
  obtain ⟨left, mid, hleft, hrest⟩ := expression_reads_iff.mp h
  exact ⟨t, ts, rfl, Nat.le_trans hrest.length_le hleft.length_le,
    ne_of_mem_of_not_mem ht (by decide)⟩

theorem endOfList_takes {α : Type} {as : List α} (h : (endOfList endLine tokens).Reads as rest) :
    Takes tokens rest := by
  obtain ⟨u, rfl, hu, _⟩ := endOfList_reads_iff.mp h
  refine ⟨u, rest, rfl, Nat.le_refl _, ?_⟩
  rw [hu]
  decide

theorem moreParameters_takes {is : List Identifier}
    (h : (moreParameters endLine tokens).Reads is rest) : Takes tokens rest := by
  cases tokens with
  | nil =>
    rw [moreParameters] at h
    exact endOfList_takes h
  | cons t ts =>
    by_cases ht : t.kind = .comma
    · obtain ⟨u, us, is', rfl, _, his, _⟩ := (moreParameters_comma_reads_iff ht).mp h
      refine ⟨t, u :: us, rfl, Nat.le_succ_of_le his.length_le, ?_⟩
      rw [ht]
      decide
    · rw [moreParameters, if_neg ht] at h
      exact endOfList_takes h

theorem parameters_takes {is : List Identifier} (h : (parameters endLine tokens).Reads is rest) :
    Takes tokens rest := by
  cases hnext : nextIs .rightParen tokens with
  | true =>
    rw [parameters, if_pos hnext] at h
    exact endOfList_takes h
  | false =>
    obtain ⟨u, us, is', rfl, hu, his, _⟩ := (parameters_cons_reads_iff hnext).mp h
    refine ⟨u, us, rfl, his.length_le, ?_⟩
    rw [hu]
    decide

theorem arguments_takes {es : List Expr} (h : (arguments endLine tokens).Reads es rest) :
    Takes tokens rest := by
  cases hnext : nextIs .rightParen tokens with
  | true =>
    rw [arguments, if_pos hnext] at h
    exact endOfList_takes h
  | false =>
    obtain ⟨e, mid, es', he, hes, _⟩ := (arguments_cons_reads_iff hnext).mp h
    exact (expression_takes he).of_length_le hes.length_le

theorem moreArguments_takes {es : List Expr} (h : (moreArguments endLine tokens).Reads es rest) :
    Takes tokens rest := by
  cases tokens with
  | nil =>
    rw [moreArguments] at h
    exact endOfList_takes h
  | cons t ts =>
    by_cases ht : t.kind = .comma
    · obtain ⟨e, mid, es', he, hes, _⟩ := (moreArguments_comma_reads_iff ht).mp h
      refine ⟨t, ts, rfl, Nat.le_trans hes.length_le he.length_le, ?_⟩
      rw [ht]
      decide
    · rw [moreArguments, if_neg ht] at h
      exact endOfList_takes h

theorem alternative_takes {t : Token} {c e : Expr} {b : Block} (hnext : ¬ NoElse tokens)
    (h : (alternative endLine t c b tokens).Reads e rest) : Takes tokens rest := by
  cases tokens with
  | nil => exact absurd (fun _ hu => by cases hu) hnext
  | cons u ts =>
    have hu : u.kind = .elseWord := by
      by_contra hne
      exact hnext (noElse_cons hne ts)
    obtain ⟨a, ha, _⟩ := (alternative_else_reads_iff hu).mp h
    refine ⟨u, ts, rfl, ha.length_le, ?_⟩
    rw [hu]
    decide

theorem operators_takes {left e : Expr} (hnext : ¬ ∀ u ∈ tokens.head?, ¬ p < u.kind.precedence)
    (h : (operators endLine p left tokens).Reads e rest) : Takes tokens rest := by
  cases tokens with
  | nil => exact absurd (fun _ hu => by cases hu) hnext
  | cons u ts =>
    have hp : p < u.kind.precedence := by
      by_contra hne
      exact hnext (forall_head?_cons hne ts)
    have hu : u.kind ≠ .leftBrace := by
      intro hbrace
      rw [hbrace] at hp
      exact Precedence.not_lt_lowest p hp
    refine ⟨u, ts, rfl, ?_, hu⟩
    cases hop : u.kind.binaryOp? with
    | some op =>
      obtain ⟨right, mid, hright, he⟩ := (operators_binary_reads_iff hop hp).mp h
      exact Nat.le_trans he.length_le hright.length_le
    | none =>
      have ht := leftParen_of_binds hp hop
      obtain ⟨es, mid, hes, he⟩ := (operators_call_reads_iff ht (by rwa [ht] at hp)).mp h
      exact Nat.le_trans he.length_le hes.length_le

theorem blockBody_takes {ss : List Statement} (h : (blockBody endLine tokens).Reads ss rest) :
    Takes tokens rest := by
  cases tokens with
  | nil =>
    rw [blockBody, reads_fail_iff] at h
    exact h.elim
  | cons t ts =>
    by_cases ht : t.kind = .rightBrace
    · obtain ⟨_, rfl⟩ := (blockBody_end_reads_iff ht).mp h
      refine ⟨t, rest, rfl, Nat.le_refl _, ?_⟩
      rw [ht]
      decide
    · obtain ⟨s, mid, ss', hs, hss, _⟩ := (blockBody_cons_reads_iff ht).mp h
      exact ⟨t, ts, rfl, Nat.le_trans hss.length_le hs.length_le,
        ne_of_mem_of_not_mem (statement_starts hs) (by decide)⟩

end

/-- No statement starts with a block. -/
theorem not_sameBlock_of_statements {endLine : Nat} {x : Exchange} {ss : List Statement}
    {rest : List Token} (h : (statements endLine x.old).Reads ss rest) : ¬ x.SameBlock := by
  intro hsame
  obtain ⟨t, ts, hold, ht⟩ := hsame.old_eq
  rw [hold] at h
  obtain ⟨s, mid, _, hs, _⟩ := statements_reads_iff.mp h
  exact ne_of_mem_of_not_mem (statement_starts hs) (by decide) ht

/-! ### Rules -/

section
variable {x : Exchange} {Q : Prop}

theorem matches_endOfList {α : Type} (v : List Token) :
    (endOfList x.endLine (v ++ x.old) : Step (List α) _).Matches x Q
      (endOfList x.endLine (v ++ x.new)) :=
  (matches_expect (by decide) v).map _

theorem moreParameters_matches (v : List Token) :
    (moreParameters x.endLine (v ++ x.old)).Matches x Q (moreParameters x.endLine (v ++ x.new)) := by
  cases v with
  | nil => exact matches_of_takes' moreParameters_takes
  | cons t v =>
    rw [List.cons_append, List.cons_append, moreParameters, moreParameters]
    split
    · refine ((matches_expect (by decide) v).andThen_of_true fun name w _ => ?_).past t
      exact (moreParameters_matches w).map _
    · exact matches_endOfList (t :: v)
termination_by v.length

theorem nextIs_append {t : Token} {v : List Token} (kind : TokenKind) (more : List Token) :
    nextIs kind (t :: v ++ more) = nextIs kind (t :: v) := rfl

theorem parameters_matches (v : List Token) :
    (parameters x.endLine (v ++ x.old)).Matches x Q (parameters x.endLine (v ++ x.new)) := by
  cases v with
  | nil => exact matches_of_takes' parameters_takes
  | cons t v =>
    rw [parameters, parameters, nextIs_append, nextIs_append]
    split
    · exact matches_endOfList (t :: v)
    · refine (matches_expect (by decide) (t :: v)).andThen_of_true fun name w _ => ?_
      exact (moreParameters_matches w).map _

theorem integerLiteral_matches (t : Token) (v : List Token) :
    (integerLiteral t (v ++ x.old)).Matches x Q (integerLiteral t (v ++ x.new)) := by
  unfold integerLiteral
  split
  · exact matches_done _ v
  · exact matches_fail _ _

theorem Exchange.SameBlock.endsReturn (h : x.SameBlock) : endsReturn x.old = false := by
  obtain ⟨t, ts, hold, ht⟩ := h.old_eq
  rw [hold, Parsing.endsReturn, nextIs, nextIs, ht]
  rfl

mutual

theorem expression_matches (p : Precedence) (v : List Token) :
    (expression x.endLine p (v ++ x.old)).Matches x (Ends x.new)
      (expression x.endLine p (v ++ x.new)) := by
  match v with
  | [] => exact matches_of_takes' expression_takes
  | t :: v =>
    rw [List.cons_append, List.cons_append, expression, expression]
    exact (expressionFrom_matches p t v).past t
termination_by 8 * v.length

theorem expressionFrom_matches (p : Precedence) (t : Token) (v : List Token) :
    (expressionFrom x.endLine p t (v ++ x.old)).Matches x (Ends x.new)
      (expressionFrom x.endLine p t (v ++ x.new)) := by
  rw [expressionFrom, expressionFrom]
  refine ((operand_matches t v).andThen_of_ends (fun left w _ => ?_) id).within _ _
  exact operators_matches p left w
termination_by 8 * v.length + 7

theorem operand_matches (t : Token) (v : List Token) :
    (operand x.endLine t (v ++ x.old)).Matches x (Ends x.new)
      (operand x.endLine t (v ++ x.new)) := by
  rw [operand, operand]
  split
  · exact matches_done _ v
  · exact integerLiteral_matches t v
  · exact matches_done _ v
  · exact matches_done _ v
  · exact (expression_matches .unary v).map _
  · exact (expression_matches .unary v).map _
  · refine (expression_matches .lowest v).andThen_of_ends (fun e w _ => ?_) id
    exact (matches_expect (by decide) w).map _
  · refine (matches_expect (by decide) v).andThen_of_true fun _ w _ => ?_
    refine (expression_matches .lowest w).andThen_of_ends (fun c w _ => ?_) id
    refine (matches_expect (by decide) w).andThen_of_true fun _ w _ => ?_
    refine (block_matches w).andThen_of_true fun b w _ => ?_
    exact alternative_matches t c b w
  · refine (matches_expect (by decide) v).andThen_of_true fun _ w _ => ?_
    refine (parameters_matches w).andThen_of_true fun ps w _ => ?_
    exact (block_matches w).of_true.map _
  · exact matches_fail _ _
termination_by 8 * v.length + 6

theorem alternative_matches (t : Token) (c : Expr) (b : Block) (v : List Token) :
    (alternative x.endLine t c b (v ++ x.old)).Matches x (Ends x.new)
      (alternative x.endLine t c b (v ++ x.new)) := by
  match v with
  | [] =>
    by_cases hold : NoElse x.old
    · refine matches_of_stop (fun h => (alternative_none_reads_iff hold).mp h) fun hnew => ?_
      exact (alternative_none_reads_iff hnew.noElse).mpr ⟨rfl, rfl⟩
    · exact matches_of_takes' (alternative_takes hold)
  | u :: v =>
    rw [List.cons_append, List.cons_append, alternative, alternative]
    split
    · exact ((block_matches v).of_true.map _).past u
    · exact matches_done _ (u :: v)
termination_by 8 * v.length

theorem operators_matches (p : Precedence) (left : Expr) (v : List Token) :
    (operators x.endLine p left (v ++ x.old)).Matches x (Ends x.new)
      (operators x.endLine p left (v ++ x.new)) := by
  match v with
  | [] =>
    by_cases hold : ∀ u ∈ x.old.head?, ¬ p < u.kind.precedence
    · exact matches_of_stop (fun h => (operators_done_reads_iff hold).mp h) fun hnew =>
        hnew.operators_reads x.endLine p left
    · exact matches_of_takes' (operators_takes hold)
  | t :: v =>
    rw [List.cons_append, List.cons_append, operators, operators]
    split
    · split
      · refine ((expression_matches _ v).andThen_of_ends (fun right w _ => ?_) id).past t
        exact operators_matches p _ w
      · refine ((arguments_matches v).andThen_of_true fun values w _ => ?_).past t
        exact operators_matches p _ w
    · exact matches_done _ (t :: v)
termination_by 8 * v.length + 1

theorem arguments_matches (v : List Token) :
    (arguments x.endLine (v ++ x.old)).Matches x True (arguments x.endLine (v ++ x.new)) := by
  match v with
  | [] => exact matches_of_takes' arguments_takes
  | t :: v =>
    rw [arguments, arguments, nextIs_append, nextIs_append]
    split
    · exact matches_endOfList (t :: v)
    · refine (expression_matches .lowest (t :: v)).andThen (fun e w hw => ?_) fun h hcomes => ?_
      · have hle : w.length ≤ v.length + 1 := hw
        exact (moreArguments_matches w).map _
      · obtain ⟨es, hes, _⟩ := reads_map_iff.mp h
        exact absurd hcomes (moreArguments_takes hes).not_comes
termination_by 8 * v.length + 2

theorem moreArguments_matches (v : List Token) :
    (moreArguments x.endLine (v ++ x.old)).Matches x True
      (moreArguments x.endLine (v ++ x.new)) := by
  match v with
  | [] => exact matches_of_takes' moreArguments_takes
  | t :: v =>
    rw [List.cons_append, List.cons_append, moreArguments, moreArguments]
    split
    · refine ((expression_matches .lowest v).andThen (fun e w _ => ?_) fun h hcomes => ?_).past t
      · exact (moreArguments_matches w).map _
      · obtain ⟨es, hes, _⟩ := reads_map_iff.mp h
        exact absurd hcomes (moreArguments_takes hes).not_comes
    · exact matches_endOfList (t :: v)
termination_by 8 * v.length + 1

theorem block_matches (v : List Token) :
    (block x.endLine (v ++ x.old)).Matches x True (block x.endLine (v ++ x.new)) := by
  match v with
  | [] =>
    refine ⟨fun {b w} h _ => ?_, fun hsame {b rest} h _ => ?_⟩
    · obtain ⟨u, us, ss, hold, _, hss, _⟩ := block_reads_iff.mp h
      have hlength := congrArg List.length hold
      have hle := hss.length_le
      simp only [List.nil_append, List.length_append, List.length_cons] at hlength hle
      omega
    · obtain ⟨b', rest', hold, hnode, hrest⟩ := hsame
      obtain rfl : b = b' := Option.some.inj (h.node.symm.trans hold.node)
      obtain rfl : rest = rest' := h.left.symm.trans hold.left
      exact ⟨hnode, hrest, rfl⟩
  | t :: v =>
    rw [block, block]
    refine (matches_expect_cons _ t v).andThen_of_true fun u w hw => ?_
    have hle : w.length ≤ v.length + 1 := hw
    exact (blockBody_matches w).map _
termination_by 8 * v.length + 5

theorem blockBody_matches (v : List Token) :
    (blockBody x.endLine (v ++ x.old)).Matches x True (blockBody x.endLine (v ++ x.new)) := by
  match v with
  | [] => exact matches_of_takes' blockBody_takes
  | t :: v =>
    rw [List.cons_append, List.cons_append, blockBody, blockBody]
    split
    · exact (matches_done _ v).past t
    · exact (Matches.collect (statement_matches t v) (statement_accounts _ t _)
        (fun w _ => blockBody_matches w) fun h => (blockBody_takes h).not_comes).past t
termination_by 8 * v.length + 4

theorem statement_matches (t : Token) (v : List Token) :
    (statement x.endLine t (v ++ x.old)).Matches x False
      (statement x.endLine t (v ++ x.new)) := by
  rw [statement, statement]
  refine Matches.within ?_ _ _
  split
  · refine (matches_expect (by decide) v).recovering.andThen_of_true fun name w _ => ?_
    refine (matches_expect (by decide) w).recovering.andThen_of_true fun _ w _ => ?_
    refine (expression_matches .lowest w).andThen_of_ends (fun value w _ => ?_) False.elim
    exact matches_optionalSemicolon _ w
  · match v with
    | [] =>
      refine ⟨fun {s w} h hw => ?_, fun hsame {s rest} h _ => ?_⟩
      · exact absurd (eq_nil_of_append_length_le h.length_le) (hw.resolve_right id)
      · have hends := hsame.endsReturn
        rw [List.nil_append, hends, if_neg Bool.false_ne_true, reads_andThen_iff] at h
        obtain ⟨e, mid, he, _⟩ := h
        exact absurd hsame (expression_takes he).not_sameBlock
    | u :: v =>
      rw [endsReturn_append (List.cons_ne_nil u v), endsReturn_append (List.cons_ne_nil u v)]
      split
      · exact matches_optionalSemicolon _ (u :: v)
      · refine (expression_matches .lowest (u :: v)).andThen_of_ends (fun e w _ => ?_) False.elim
        exact matches_optionalSemicolon _ w
  · refine (expressionFrom_matches .lowest t v).andThen_of_ends (fun e w _ => ?_) False.elim
    exact matches_optionalSemicolon _ w
termination_by 8 * v.length + 8

end

theorem statements_matches (v : List Token) :
    (statements x.endLine (v ++ x.old)).Matches x False (statements x.endLine (v ++ x.new)) := by
  match v with
  | [] =>
    refine ⟨fun {ss w} h hw => ?_, fun hsame {ss rest} h _ => ?_⟩
    · exact absurd (eq_nil_of_append_length_le h.length_le) (hw.resolve_right id)
    · exact absurd hsame (not_sameBlock_of_statements h)
  | t :: v =>
    rw [List.cons_append, List.cons_append, statements, statements]
    refine (Matches.collect (statement_matches t v) (statement_accounts _ t _)
      (fun w _ => statements_matches w) fun h hcomes => ?_).past t
    exact not_sameBlock_of_statements h (hcomes.resolve_left fun h => h.2)
termination_by v.length

end

/-- A block in place of the same one with nothing wrong in it: the program stays as it is, and the
errors are those of the block. -/
theorem parse_exchange {x : Exchange} {before : List Token} (hsame : x.SameBlock)
    (h : (TokenStream.mk (before ++ x.old) x.endLine).parse.errors = []) :
    (TokenStream.mk (before ++ x.new) x.endLine).parse.program =
        (TokenStream.mk (before ++ x.old) x.endLine).parse.program ∧
      (TokenStream.mk (before ++ x.new) x.endLine).parse.errors = x.errors := by
  have hreads := reads_of_errors_eq_nil h
  have hlength : ([] : List Token).length < x.old.length := by
    obtain ⟨t, ts, hold, _⟩ := hsame.old_eq
    rw [hold]
    exact Nat.succ_pos _
  obtain ⟨hnode, _, herrors⟩ := (statements_matches before).passes hsame hreads hlength
  exact ⟨congrArg Program.mk (by rw [hnode]; rfl), herrors⟩

end LetLang.Parsing
