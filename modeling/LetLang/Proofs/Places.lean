import LetLang.Proofs.Blocks
import LetLang.Proofs.Exchange

/-! Where the statements of a text stand.

A list of statements starts at the start of the text and behind each opening brace, and ends in
front of the brace that closes it or at the end (`Items`). So the statements of all lists are all
statements of the tree, and each has a place in the text (`TokenStream.places_statement`).

The statements of a list stay what they are if other tokens take the place of those behind one of
them, as long as that statement ends there and what follows is read from the same token on
(`Items.exchange`). If they stay what they are, that statement is read again from its own tokens and
the new ones behind them (`Items.reread`). -/
namespace LetLang

/-- Does the statement return nothing? -/
def Statement.isBareReturn : Statement → Bool
  | .returnNothing _ => true
  | _ => false

/-- The statements of a program: those of the text itself, and then those of each block. -/
def Program.everyStatement (p : Program) : List Statement :=
  p.statements ++ p.blocks.flatMap Block.statements

/-- A statement, and the tokens of the text from behind its last one on. -/
structure Place where
  statement : Statement
  after : List Token

namespace Parsing
open Step

/-! ### Places -/

/-- What stands behind the last token of a statement that starts `tokens` and leaves `rest`: this,
or the semicolon in front of it. -/
def behind (tokens rest : List Token) : List Token :=
  let last := tokens.drop (tokens.length - (rest.length + 1))
  if nextIs .semicolon last then last else rest

/-- The places of the statements in a list, which ends in front of a closing brace or at the end. -/
def places (endLine : Nat) (tokens : List Token) : List Place :=
  match tokens with
  | [] => []
  | t :: ts =>
    if t.kind = .rightBrace then []
    else
      have : (statement endLine t ts).rest.length ≤ ts.length :=
        (statement endLine t ts).rest_length_le
      let here := (statement endLine t ts).node.map fun s =>
        ⟨s, behind (t :: ts) (statement endLine t ts).rest⟩
      here.toList ++ places endLine (statement endLine t ts).rest
termination_by tokens.length

end Parsing

/-- The places of all statements of a text: those of the text itself, and then those behind each
opening brace. -/
def TokenStream.places (s : TokenStream) : List Place :=
  Parsing.places s.endLine s.tokens ++
    (Parsing.openings s.tokens).flatMap fun ts => Parsing.places s.endLine ts.tail

namespace Parsing
open Step

/-! ### The first place -/

section
variable {endLine : Nat} {t : Token} {own after : List Token} {s : Statement}

theorem behind_eq (hlast : ∀ u ∈ (t :: own).getLast?, u.kind ≠ .semicolon) :
    behind (t :: own ++ after) (dropSemicolon after) = after := by
  have hcut (tokens : List Token) (u : Token) (us : List Token) :
      (tokens ++ u :: us).drop ((tokens ++ u :: us).length - (us.length + 1)) = u :: us := by
    have hlength : (tokens ++ u :: us).length - (us.length + 1) = tokens.length := by
      rw [List.length_append, List.length_cons, Nat.add_sub_cancel]
    rw [hlength, List.drop_left]
  cases hafter : nextIs .semicolon after with
  | true =>
    obtain ⟨u, us, rfl, hu⟩ := exists_cons_of_nextIs hafter
    rw [dropSemicolon, if_pos hu, behind, hcut, if_pos hafter]
  | false =>
    have hrest := dropSemicolon_of_nextIs_eq_false hafter
    obtain ⟨us, u, hlist⟩ : ∃ us u, t :: own = us ++ [u] :=
      ⟨_, _, (List.dropLast_append_getLast (List.cons_ne_nil t own)).symm⟩
    rw [hlist, List.getLast?_concat] at hlast
    have hu : ¬ nextIs .semicolon (u :: after) = true := fun hu => hlast u rfl (beq_iff_eq.mp hu)
    rw [hrest, hlist, List.append_assoc, List.singleton_append, behind, hcut, if_neg hu]

/-- The first place of a list that starts with a statement. -/
theorem Owns.places_eq (h : Owns endLine after t own s) :
    places endLine (t :: own ++ after) = ⟨s, after⟩ :: places endLine (dropSemicolon after) := by
  have hreads := h.reads
  rw [List.cons_append, places, if_neg (ne_of_mem_of_not_mem (statement_starts hreads) (by decide)),
    hreads.node, hreads.left, ← List.cons_append, behind_eq h.getLast_ne]
  rfl

end

/-! ### Lists of statements -/

/-- The statements are read one after another from `tokens` up to `rest`. -/
inductive Items (endLine : Nat) (rest : List Token) : List Token → List Statement → Prop where
  | nil : Items endLine rest rest []
  | cons {t : Token} {ts mid : List Token} {s : Statement} {ss : List Statement}
      (hs : (statement endLine t ts).Reads s mid) (hss : Items endLine rest mid ss) :
      Items endLine rest (t :: ts) (s :: ss)

section
variable {endLine : Nat} {rest : List Token}

theorem items_of_statements (tokens : List Token) {ss : List Statement}
    (h : (statements endLine tokens).Reads ss []) : Items endLine [] tokens ss := by
  match tokens with
  | [] =>
    rw [statements, reads_done_iff] at h
    rw [h.1]
    exact .nil
  | t :: ts =>
    obtain ⟨s, mid, ss', hs, hss, rfl⟩ := statements_reads_iff.mp h
    have hlength := hs.length_le
    exact .cons hs (items_of_statements mid hss)
termination_by tokens.length

theorem Items.statements {tokens : List Token} {ss : List Statement}
    (h : Items endLine [] tokens ss) : (statements endLine tokens).Reads ss [] := by
  induction h with
  | nil =>
    rw [Parsing.statements]
    exact reads_done_iff.mpr ⟨rfl, rfl⟩
  | cons hs _ ih => exact statements_reads_iff.mpr ⟨_, _, _, hs, ih, rfl⟩

theorem items_of_blockBody (tokens : List Token) {ss : List Statement}
    (h : (blockBody endLine tokens).Reads ss rest) :
    ∃ close, close.kind = .rightBrace ∧ Items endLine (close :: rest) tokens ss := by
  match tokens with
  | [] =>
    rw [blockBody, reads_fail_iff] at h
    exact h.elim
  | t :: ts =>
    by_cases ht : t.kind = .rightBrace
    · obtain ⟨rfl, rfl⟩ := (blockBody_end_reads_iff ht).mp h
      exact ⟨t, ht, .nil⟩
    · obtain ⟨s, mid, ss', hs, hss, rfl⟩ := (blockBody_cons_reads_iff ht).mp h
      have hlength := hs.length_le
      obtain ⟨close, hclose, hitems⟩ := items_of_blockBody mid hss
      exact ⟨close, hclose, .cons hs hitems⟩
termination_by tokens.length

theorem Items.blockBody {close : Token} (hclose : close.kind = .rightBrace) {tokens : List Token}
    {ss : List Statement} (h : Items endLine (close :: rest) tokens ss) :
    (blockBody endLine tokens).Reads ss rest := by
  induction h with
  | nil => exact (blockBody_end_reads_iff hclose).mpr ⟨rfl, rfl⟩
  | cons hs _ ih =>
    have ht := ne_of_mem_of_not_mem (statement_starts hs) (show TokenKind.rightBrace ∉ _ by decide)
    exact (blockBody_cons_reads_iff ht).mpr ⟨_, _, _, hs, ih, rfl⟩

/-- No statement stands where a list ends. -/
theorem places_closes (hrest : Closes rest) : places endLine rest = [] := by
  cases rest with
  | nil => rw [places]
  | cons t ts => rw [places, if_pos (hrest t rfl)]

/-- The places of a list hold its statements. -/
theorem Items.places_statement (hrest : Closes rest) {tokens : List Token} {ss : List Statement}
    (h : Items endLine rest tokens ss) : (places endLine tokens).map Place.statement = ss := by
  induction h with
  | nil =>
    rw [places_closes hrest]
    rfl
  | cons hs _ ih =>
    obtain ⟨own, after, rfl, hown, rfl⟩ := hs.owns
    rw [← List.cons_append, hown.places_eq, List.map_cons, ih]

/-- What stands around a place in a list. -/
theorem Items.split (hrest : Closes rest) {tokens : List Token} {ss : List Statement} {p : Place}
    (h : Items endLine rest tokens ss) (hp : p ∈ places endLine tokens) :
    ∃ front t own ss', tokens = front ++ (t :: own ++ p.after) ∧
      Owns endLine p.after t own p.statement ∧
      Items endLine rest (dropSemicolon p.after) ss' := by
  induction h with
  | nil =>
    rw [places_closes hrest] at hp
    cases hp
  | @cons t ts mid s ss hs hss ih =>
    obtain ⟨own, after, rfl, hown, rfl⟩ := hs.owns
    rw [← List.cons_append, hown.places_eq, List.mem_cons] at hp
    obtain rfl | hp := hp
    · exact ⟨[], t, own, ss, rfl, hown, hss⟩
    · obtain ⟨front, u, own', ss', hmid, hbehind⟩ := ih hp
      obtain ⟨taken, htaken⟩ := hs.rest_suffix
      refine ⟨t :: (taken ++ front), u, own', ss', ?_, hbehind⟩
      rw [← htaken, hmid, ← List.append_assoc]
      rfl

theorem Items.front (hrest : Closes rest) {tokens : List Token} {ss : List Statement} {p : Place}
    (h : Items endLine rest tokens ss) (hp : p ∈ places endLine tokens) :
    ∃ front, front ≠ [] ∧ tokens = front ++ p.after := by
  obtain ⟨front, t, own, _, htokens, _⟩ := h.split hrest hp
  exact ⟨front ++ t :: own, by simp, by rw [htokens, List.append_assoc]⟩

end

/-! ### Other tokens behind a statement -/

section
variable {x : Exchange} {t : Token} {own rest : List Token} {s : Statement}

/-- A statement has the same tokens in front of others, if they end it. -/
theorem Owns.exchange (h : Owns x.endLine x.old t own s) (hends : Ends x.new)
    (hbare : s.isBareReturn = true → endsReturn x.new = true) :
    Owns x.endLine x.new t own s := by
  refine h.imp (fun {own e} he => ?_) fun hs _ => hbare (hs ▸ rfl)
  exact (expression_matches .lowest own).stops (w := []) he (.inr hends)

/-- A statement that ends in front of a token stays what it is, whatever comes behind that token. -/
theorem Step.Reads.statement_exchange {ts mid front front' : List Token}
    (h : (statement x.endLine t ts).Reads s mid) (hmid : mid = front' ++ x.old) (hne : front' ≠ [])
    (hfront : t :: ts = front ++ x.old) :
    ∃ ts', front ++ x.new = t :: ts' ∧ (statement x.endLine t ts').Reads s (front' ++ x.new) := by
  subst hmid
  obtain ⟨own, rfl⟩ := h.rest_suffix
  rw [← List.append_assoc, ← List.cons_append] at hfront
  obtain rfl := List.append_cancel_right hfront
  rw [← List.append_assoc] at h
  exact ⟨_, rfl, (statement_matches t (own ++ front')).stops h (.inl hne)⟩

/-- A list stays what it is if other tokens stand behind one of its statements, which end it and
lead to the same token as before. -/
theorem Items.exchange {tokens front : List Token} {ss : List Statement} {p : Place}
    (h : Items x.endLine rest tokens ss) (hrest : Closes rest) (hp : p ∈ places x.endLine tokens)
    (hold : p.after = x.old) (hfront : tokens = front ++ x.old) (hends : Ends x.new)
    (hbare : p.statement.isBareReturn = true → endsReturn x.new = true)
    (hsame : dropSemicolon x.new = dropSemicolon x.old) :
    Items x.endLine rest (front ++ x.new) ss := by
  induction h generalizing front with
  | nil =>
    rw [places_closes hrest] at hp
    cases hp
  | @cons t ts mid s ss hs hss ih =>
    obtain ⟨own, after, rfl, hown, rfl⟩ := hs.owns
    rw [← List.cons_append, hown.places_eq, List.mem_cons] at hp
    obtain rfl | hp := hp
    · obtain rfl : after = x.old := hold
      obtain rfl : t :: own = front := List.append_cancel_right hfront
      have hreads := (hown.exchange hends hbare).reads
      rw [hsame] at hreads
      exact .cons hreads hss
    · obtain ⟨front', hne, hmid⟩ := hss.front hrest hp
      rw [hold] at hmid
      obtain ⟨ts', htokens, hreads⟩ := hs.statement_exchange hmid hne hfront
      rw [htokens]
      exact .cons hreads (ih hp hmid)

/-- If a list stays what it is with other tokens behind one of its statements, that statement is read
from its own tokens and the new ones. -/
theorem Items.reread {tokens front rest' : List Token} {ss : List Statement} {p : Place}
    (h : Items x.endLine rest tokens ss) (hrest : Closes rest) (hp : p ∈ places x.endLine tokens)
    (hold : p.after = x.old) (hfront : tokens = front ++ x.old)
    (hnew : Items x.endLine rest' (front ++ x.new) ss) :
    ∃ t own mid, Owns x.endLine x.old t own p.statement ∧
      (statement x.endLine t (own ++ x.new)).Reads p.statement mid := by
  induction h generalizing front with
  | nil =>
    rw [places_closes hrest] at hp
    cases hp
  | @cons t ts mid s ss hs hss ih =>
    obtain ⟨own, after, rfl, hown, rfl⟩ := hs.owns
    rw [← List.cons_append, hown.places_eq, List.mem_cons] at hp
    obtain rfl | hp := hp
    · obtain rfl : after = x.old := hold
      obtain rfl : t :: own = front := List.append_cancel_right hfront
      cases hnew with
      | cons hs' _ => exact ⟨t, own, _, hown, hs'⟩
    · obtain ⟨front', hne, hmid⟩ := hss.front hrest hp
      rw [hold] at hmid
      obtain ⟨ts', htokens, hreads⟩ := hs.statement_exchange hmid hne hfront
      rw [htokens] at hnew
      cases hnew with
      | cons hs' hss' =>
        obtain rfl := hreads.left.symm.trans hs'.left
        exact ih hp hmid hss'

end

theorem mem_openings {tokens os : List Token} (h : os ∈ openings tokens) :
    ∃ before t ts, tokens = before ++ t :: ts ∧ t.kind = .leftBrace ∧ os = t :: ts := by
  induction tokens with
  | nil => cases h
  | cons u us ih =>
    have hbehind (h : os ∈ openings us) :
        ∃ before t ts, u :: us = before ++ t :: ts ∧ t.kind = .leftBrace ∧ os = t :: ts := by
      obtain ⟨before, t, ts, rfl, ht, hos⟩ := ih h
      exact ⟨u :: before, t, ts, rfl, ht, hos⟩
    by_cases hu : u.kind = .leftBrace
    · rw [openings_brace hu, List.mem_cons] at h
      obtain rfl | h := h
      · exact ⟨[], u, us, rfl, hu, rfl⟩
      · exact hbehind h
    · rw [openings_cons hu] at h
      exact hbehind h

/-- The statements of a block are a list that a closing brace ends. -/
theorem Opened.items {endLine : Nat} {t : Token} {ts : List Token} {b : Block}
    (h : Opened endLine (t :: ts) b) :
    ∃ close rest, close.kind = .rightBrace ∧ Items endLine (close :: rest) ts b.statements := by
  obtain ⟨rest, h⟩ := h
  obtain ⟨u, us, ss, heq, hu, hss, rfl⟩ := block_reads_iff.mp h
  cases heq
  obtain ⟨close, hclose, hitems⟩ := items_of_blockBody ts hss
  exact ⟨close, rest, hclose, hitems⟩

end Parsing

/-! ### The places of a text -/

namespace TokenStream
open Parsing

variable {s : TokenStream} {p : Place}

theorem flatMap_of_forall₂ {α β γ : Type} {R : α → β → Prop} {f : α → List γ} {g : β → List γ}
    (hR : ∀ a b, R a b → f a = g b) {as : List α} {bs : List β} (h : List.Forall₂ R as bs) :
    as.flatMap f = bs.flatMap g := by
  induction h with
  | nil => rfl
  | cons hab _ ih => rw [List.flatMap_cons, List.flatMap_cons, hR _ _ hab, ih]

/-- The places of a text that is read without errors hold all statements of its tree. -/
theorem places_statement (h : s.parse.errors = []) :
    s.places.map Place.statement = s.parse.program.everyStatement := by
  have hwhole := items_of_statements s.tokens (reads_of_errors_eq_nil h)
  rw [places, List.map_append, hwhole.places_statement closes_nil, List.map_flatMap,
    Program.everyStatement]
  refine congrArg _ (flatMap_of_forall₂ (fun os b hopened => ?_) (blocks_opened h))
  cases os with
  | nil =>
    obtain ⟨rest, hblock⟩ := hopened
    obtain ⟨u, us, _, hnil, _⟩ := block_reads_iff.mp hblock
    cases hnil
  | cons t ts =>
    obtain ⟨close, rest, hclose, hitems⟩ := hopened.items
    exact hitems.places_statement (closes_cons hclose rest)

/-- A place is one in the list of the text itself or in that behind an opening brace. -/
theorem places_cases (hp : p ∈ s.places) :
    p ∈ Parsing.places s.endLine s.tokens ∨
      ∃ before t ts, s.tokens = before ++ t :: ts ∧ t.kind = .leftBrace ∧
        p ∈ Parsing.places s.endLine ts := by
  obtain hp | hp := List.mem_append.mp hp
  · exact .inl hp
  · obtain ⟨os, hos, hp⟩ := List.mem_flatMap.mp hp
    obtain ⟨before, t, ts, htokens, ht, rfl⟩ := mem_openings hos
    exact .inr ⟨before, t, ts, htokens, ht, hp⟩

/-- What stands around a place in a text without errors: its statement's tokens, and behind them the
other statements of the list. -/
theorem places_split (h : s.parse.errors = []) (hp : p ∈ s.places) :
    ∃ front t own rest ss, s.tokens = front ++ (t :: own ++ p.after) ∧
      Owns s.endLine p.after t own p.statement ∧ Closes rest ∧
      Items s.endLine rest (dropSemicolon p.after) ss := by
  obtain hp | ⟨before, brace, ts, htokens, hbrace, hp⟩ := places_cases hp
  · have hwhole := items_of_statements s.tokens (reads_of_errors_eq_nil h)
    obtain ⟨front, t, own, ss, hsplit, hown, hss⟩ := hwhole.split closes_nil hp
    exact ⟨front, t, own, [], ss, hsplit, hown, closes_nil, hss⟩
  · obtain ⟨tokens, endLine⟩ := s
    subst htokens
    obtain ⟨b, _, hopened⟩ := getElem?_blocks h hbrace
    obtain ⟨close, rest, hclose, hitems⟩ := hopened.items
    have hrest := closes_cons hclose rest
    obtain ⟨front, t, own, ss, hsplit, hown, hss⟩ := hitems.split hrest hp
    refine ⟨before ++ brace :: front, t, own, close :: rest, ss, ?_, hown, hrest, hss⟩
    show before ++ brace :: ts = _
    rw [hsplit, List.append_assoc]
    rfl

/-- The list that a place of a text without errors is in: that of the text itself, or a block. -/
theorem places_list {endLine : Nat} {front old : List Token}
    (h : (mk (front ++ old) endLine).parse.errors = [])
    (hp : p ∈ (mk (front ++ old) endLine).places) (hold : p.after = old) :
    p ∈ Parsing.places endLine (front ++ old) ∨
      ∃ before brace front' b, front = before ++ brace :: front' ∧ brace.kind = .leftBrace ∧
        p ∈ Parsing.places endLine (front' ++ old) ∧ Opened endLine (brace :: (front' ++ old)) b ∧
        (mk (front ++ old) endLine).parse.program.blocks[(openings before).length]? = some b := by
  obtain hp | ⟨before, brace, ts, htokens, hbrace, hp⟩ := places_cases hp
  · exact .inl hp
  · have htokens : front ++ old = before ++ brace :: ts := htokens
    rw [htokens] at h
    obtain ⟨b, hb, hopened⟩ := getElem?_blocks h hbrace
    obtain ⟨close, rest, hclose, hitems⟩ := hopened.items
    obtain ⟨front', _, rfl⟩ := hitems.front (closes_cons hclose rest) hp
    rw [hold] at htokens hopened hp
    have hfront : front ++ old = (before ++ brace :: front') ++ old := by
      rw [htokens, List.append_assoc]
      rfl
    obtain rfl := List.append_cancel_right hfront
    rw [← hold] at htokens
    rw [← htokens, hold] at hb
    exact .inr ⟨before, brace, front', b, rfl, hbrace, hp, hopened, hb⟩

/-- Other tokens behind a statement, which end it and lead to the same token as before, make the same
program. -/
theorem exchange_place {x : Exchange} {front : List Token}
    (h : (mk (front ++ x.old) x.endLine).parse.errors = [])
    (hp : p ∈ (mk (front ++ x.old) x.endLine).places) (hold : p.after = x.old) (hends : Ends x.new)
    (hbare : p.statement.isBareReturn = true → endsReturn x.new = true)
    (hsame : dropSemicolon x.new = dropSemicolon x.old) :
    (mk (front ++ x.new) x.endLine).parse.program = (mk (front ++ x.old) x.endLine).parse.program ∧
      (mk (front ++ x.new) x.endLine).parse.errors = [] := by
  obtain hp | ⟨before, brace, front', b, rfl, hbrace, hp, hopened, _⟩ := places_list h hp hold
  · have hwhole := items_of_statements _ (reads_of_errors_eq_nil h)
    exact parse_of_reads (hwhole.exchange closes_nil hp hold rfl hends hbare hsame).statements
  · obtain ⟨close, rest, hclose, hitems⟩ := hopened.items
    have hbody := (hitems.exchange (closes_cons hclose rest) hp hold rfl hends hbare
      hsame).blockBody hclose
    let y : Exchange := ⟨x.endLine, brace :: (front' ++ x.old), brace :: (front' ++ x.new)⟩
    have hblock : (block y.endLine y.old).Reads (.mk brace b.statements) rest :=
      block_reads_iff.mpr ⟨brace, _, _, rfl, hbrace, hitems.blockBody hclose, rfl⟩
    have hblock' : (block y.endLine y.new).Reads (.mk brace b.statements) rest :=
      block_reads_iff.mpr ⟨brace, _, _, rfl, hbrace, hbody, rfl⟩
    have hsame : y.SameBlock := ⟨_, rest, hblock, hblock'.node, hblock'.left⟩
    rw [List.append_assoc] at h ⊢
    obtain ⟨hprogram, herrors⟩ := parse_exchange hsame h
    rw [List.append_assoc]
    exact ⟨hprogram, herrors.trans hblock'.clean⟩

/-- If other tokens behind a statement make the same program, the statement is read from its own tokens
and the new ones. -/
theorem reread_place {x : Exchange} {front : List Token}
    (h : (mk (front ++ x.old) x.endLine).parse.errors = [])
    (hp : p ∈ (mk (front ++ x.old) x.endLine).places) (hold : p.after = x.old)
    (hprogram : (mk (front ++ x.new) x.endLine).parse.program =
      (mk (front ++ x.old) x.endLine).parse.program)
    (hclean : (mk (front ++ x.new) x.endLine).parse.errors = []) :
    ∃ t own mid, Owns x.endLine x.old t own p.statement ∧
      (statement x.endLine t (own ++ x.new)).Reads p.statement mid := by
  obtain hp | ⟨before, brace, front', b, rfl, hbrace, hp, hopened, hb⟩ := places_list h hp hold
  · have hwhole := items_of_statements _ (reads_of_errors_eq_nil h)
    have hwhole' := items_of_statements _ (reads_of_errors_eq_nil hclean)
    rw [hprogram] at hwhole'
    exact hwhole.reread closes_nil hp hold rfl hwhole'
  · -- The brace opens the same block in both programs.
    rw [List.append_assoc] at hprogram hclean
    obtain ⟨b', hb', hopened'⟩ := getElem?_blocks hclean hbrace
    obtain rfl : b = b' := by
      rw [List.append_assoc] at hb hprogram
      exact Option.some.inj ((hb.symm.trans (by rw [← hprogram]; rfl)).trans hb')
    obtain ⟨close, rest, hclose, hitems⟩ := hopened.items
    obtain ⟨_, _, _, hitems'⟩ := hopened'.items
    exact hitems.reread (closes_cons hclose rest) hp hold rfl hitems'

end TokenStream

end LetLang
