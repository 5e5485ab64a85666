import Mathlib.Data.List.Perm.Subperm
import LetLang.Parsing
import LetLang.Proofs.Passages
import LetLang.Proofs.Reading

/-! Reading a text comes to its end in few steps.

Whatever a text looks like, it is read up to its end. On the way a statement is begun at most once
at any token, and so is an expression, each further on in the text than the one before; only one
expression may be begun where the text ends (`parse_advances`). All spans are counted together for
this: each has a rank, by which the statement and the expression that begin at the same token differ
by one, and ranks fall from each span to the next (`Passage.descends`).

The loops of reading are taken apart into rounds, and each round takes a token at least. -/
namespace LetLang

/-! ### Spans -/

namespace Span

/-- The tokens that lie ahead where a span begins. -/
def ahead : Span → List Token
  | statement t ts => t :: ts
  | expression _ ahead => ahead

/-- Does a statement begin with the span, and not an expression? -/
def isStatement : Span → Bool
  | statement _ _ => true
  | expression _ _ => false

/-- How many tokens of a text lie before the span. -/
def position (tokens : List Token) (span : Span) : Nat := tokens.length - span.ahead.length

/-- The more tokens lie ahead, the higher is the rank; and a statement ranks above the expression
that begins with the same token. -/
def rank (span : Span) : Nat := 2 * span.ahead.length + span.isStatement.toNat

end Span

/-- The span that an entry opens. -/
def Entry.entered? : Entry → Option Span
  | .enter span => some span
  | _ => none

/-- The spans that a trace opens, in order. -/
def spans (trace : List Entry) : List Span := trace.filterMap Entry.entered?

@[simp] theorem spans_append (trace trace' : List Entry) :
    spans (trace ++ trace') = spans trace ++ spans trace' := List.filterMap_append

/-- The spans begin at places further and further on in the text, with fewer than `bound` tokens
before them. -/
structure Climbs (tokens : List Token) (bound : Nat) (spans : List Span) : Prop where
  placed : ∀ span ∈ spans, tokens.drop (span.position tokens) = span.ahead
  ascending : (spans.map (Span.position tokens)).Pairwise (· < ·)
  bounded : ∀ span ∈ spans, span.position tokens < bound

/-- No place is taken twice, so that there are no more spans than places for them. -/
theorem Climbs.length_le_of_subset {tokens : List Token} {bound : Nat} {spans : List Span}
    (h : Climbs tokens bound spans) {places : List Nat}
    (hplaces : ∀ span ∈ spans, span.position tokens ∈ places) : spans.length ≤ places.length := by
  have hnodup : (spans.map (Span.position tokens)).Nodup := h.ascending.imp Nat.ne_of_lt
  have hsubset : spans.map (Span.position tokens) ⊆ places := by
    intro i hi
    obtain ⟨span, hspan, rfl⟩ := List.mem_map.mp hi
    exact hplaces span hspan
  simpa using (hnodup.subperm hsubset).length_le

theorem Climbs.length_le {tokens : List Token} {bound : Nat} {spans : List Span}
    (h : Climbs tokens bound spans) : spans.length ≤ bound := by
  have hrange := h.length_le_of_subset fun span hspan => List.mem_range.mpr (h.bounded span hspan)
  rwa [List.length_range] at hrange

theorem Climbs.filter {tokens : List Token} {bound : Nat} {spans : List Span}
    (h : Climbs tokens bound spans) (p : Span → Bool) : Climbs tokens bound (spans.filter p) := by
  have hmem {span : Span} (hspan : span ∈ spans.filter p) : span ∈ spans :=
    (List.mem_filter.mp hspan).1
  exact ⟨fun span hspan => h.placed span (hmem hspan),
    List.pairwise_map.mpr ((List.pairwise_map.mp h.ascending).filter p),
    fun span hspan => h.bounded span (hmem hspan)⟩

/-- No more than one of the spans begins at the end of the text. -/
theorem Climbs.atEnd_length_le {tokens : List Token} {bound : Nat} {spans : List Span}
    (h : Climbs tokens bound spans) : (spans.filter (·.ahead.isEmpty)).length ≤ 1 := by
  have hplace : ∀ span ∈ spans.filter (·.ahead.isEmpty), span.position tokens ∈ [tokens.length] := by
    intro span hspan
    have hnil := List.isEmpty_iff.mp (List.mem_filter.mp hspan).2
    simp [Span.position, hnil]
  exact (h.filter _).length_le_of_subset hplace

theorem climbs_of_pairwise {tokens : List Token} {bound : Nat} {spans : List Span}
    (hahead : ∀ span ∈ spans, span.ahead <:+ tokens ∧ tokens.length < span.ahead.length + bound)
    (hpairwise : spans.Pairwise fun u v => v.ahead.length < u.ahead.length) :
    Climbs tokens bound spans := by
  refine ⟨fun span hspan => ?_, ?_, fun span hspan => ?_⟩
  · exact (List.suffix_iff_eq_drop.mp (hahead span hspan).1).symm
  · refine List.pairwise_map.mpr (hpairwise.imp_of_mem fun {u v} hu _ hlt => ?_)
    have hle := (hahead u hu).1.length_le
    unfold Span.position
    omega
  · obtain ⟨hsuffix, hlt⟩ := hahead span hspan
    have hle := hsuffix.length_le
    unfold Span.position
    omega

namespace Parsing

/-! ### Ranks along a passage -/

/-- The highest rank that a span in a passage can have. -/
def Extent.limit (x : Extent) (a : List Token) : Nat :=
  match x with
  | .expression => 2 * a.length
  | .content => 2 * a.length
  | _ => 2 * a.length + 1

theorem Extent.limit_le (x : Extent) (a : List Token) : x.limit a ≤ 2 * a.length + 1 := by
  cases x <;> simp [limit]

theorem Extent.limit_mono (x : Extent) {a b : List Token} (h : b.length ≤ a.length) :
    x.limit b ≤ x.limit a := by
  cases x <;> simp only [limit] <;> omega

/-- The ranks of the spans in a passage fall from `x.limit a` to what `b` allows for. The last span
may be one at the end of the text; then nothing was read, unless it was the program. -/
structure Descends (x : Extent) (a b : List Token) (k : Option (List Token)) (r : Report) :
    Prop where
  ahead : ∀ span ∈ spans r.trace, span.ahead <:+ a
  upper : ∀ span ∈ spans r.trace, span.rank ≤ x.limit a
  lower : ∀ span ∈ spans r.trace, 2 * b.length + 1 < span.rank ∨
    (span.rank = 0 ∧ b = [] ∧ (k = none ∨ x = .items false))
  descending : (spans r.trace).Pairwise fun u v => v.rank < u.rank

section
variable {x x' : Extent} {a a' b b' c : List Token} {k k' k'' : Option (List Token)} {r r' : Report}

theorem descends_of_spans_eq_nil (h : spans r.trace = []) : Descends x a b k r := by
  constructor <;> simp [h]

/-- The same spans on a longer way. -/
theorem Descends.mono (h : Descends x a b k r) (ha : a <:+ a') (hb : b' <:+ b)
    (hlimit : x.limit a ≤ x'.limit a') (hx : x ≠ .items false) : Descends x' a' b' k r := by
  refine ⟨fun span hspan => (h.ahead span hspan).trans ha,
    fun span hspan => Nat.le_trans (h.upper span hspan) hlimit, fun span hspan => ?_, h.descending⟩
  have hle := hb.length_le
  obtain hlt | ⟨hrank, rfl, hk⟩ := h.lower span hspan
  · exact .inl (by omega)
  · exact .inr ⟨hrank, List.suffix_nil.mp hb, .inl (hk.resolve_right hx)⟩

/-- One more span around the others. -/
theorem Descends.within (h : Descends x a b k r) {span : Span} (p : Bool) (ha : a <:+ a')
    (hspan : span.ahead = a') (hinner : x.limit a < span.rank) (hlimit : span.rank ≤ x'.limit a')
    (hb : 2 * b.length + 1 < span.rank) (hx : x ≠ .items false) (hk : k = none → k' = none) :
    Descends x' a' b k' (r.within span p) := by
  have hspans : spans (r.within span p).trace = span :: spans r.trace := by
    show spans (.enter span :: (r.trace ++ [.leave span p])) = _
    simp [spans, Entry.entered?]
  constructor <;> rw [hspans]
  · exact List.forall_mem_cons.mpr
      ⟨hspan ▸ List.suffix_refl _, fun u hu => (h.ahead u hu).trans ha⟩
  · refine List.forall_mem_cons.mpr ⟨hlimit, fun u hu => ?_⟩
    have hle := h.upper u hu
    omega
  · refine List.forall_mem_cons.mpr ⟨.inl hb, fun u hu => ?_⟩
    obtain hlt | ⟨hrank, hnil, hnone⟩ := h.lower u hu
    · exact .inl hlt
    · exact .inr ⟨hrank, hnil, .inl (hk (hnone.resolve_right hx))⟩
  · refine List.pairwise_cons.mpr ⟨fun u hu => ?_, h.descending⟩
    have hle := h.upper u hu
    omega

/-- One way after another. The second has no span where the first may have left off with one. -/
theorem Descends.append (h : Descends x a b k r) (h' : Descends x' b c k' r') (hab : b <:+ a)
    (hcb : c <:+ b) (hx : x.limit a ≤ x'.limit a)
    (hend : b = [] → k = none → spans r'.trace = [] ∧ (k' = none ∨ x' = .items false))
    (hnot : x ≠ .items false) (hk : k' = none → k'' = none) : Descends x' a c k'' (r.append r') := by
  have hspans : spans (r.append r').trace = spans r.trace ++ spans r'.trace := spans_append ..
  have hle := hab.length_le
  have hle' := hcb.length_le
  constructor <;> rw [hspans]
  · exact List.forall_mem_append.mpr ⟨h.ahead, fun u hu => (h'.ahead u hu).trans hab⟩
  · refine List.forall_mem_append.mpr ⟨fun u hu => Nat.le_trans (h.upper u hu) hx, fun u hu => ?_⟩
    have hupper := h'.upper u hu
    have hlimit := x'.limit_mono hle
    omega
  · refine List.forall_mem_append.mpr ⟨fun u hu => ?_, fun u hu => ?_⟩
    · obtain hlt | ⟨hrank, rfl, hnone⟩ := h.lower u hu
      · exact .inl (by omega)
      · refine .inr ⟨hrank, List.suffix_nil.mp hcb, ?_⟩
        exact (hend rfl (hnone.resolve_right hnot)).2.imp_left hk
    · exact (h'.lower u hu).imp_right fun ⟨hrank, hnil, hnone⟩ => ⟨hrank, hnil, hnone.imp_left hk⟩
  · refine List.pairwise_append.mpr ⟨h.descending, h'.descending, fun u hu v hv => ?_⟩
    obtain hlt | ⟨_, hnil, hnone⟩ := h.lower u hu
    · have hupper := h'.upper v hv
      have hlimit := x'.limit_le b
      omega
    · rw [(hend hnil (hnone.resolve_right hnot)).1] at hv
      cases hv

end

/-- At the end of the text no list of statements begins anything. -/
theorem Passage.spans_eq_nil {braced : Bool} {b : List Token} {k : Option (List Token)} {r : Report}
    (h : Passage (.items braced) [] b k r) :
    spans r.trace = [] ∧ (k = none ∨ Extent.items braced = .items false) := by
  cases h with
  | unclosed e => exact ⟨rfl, .inl rfl⟩
  | ended => exact ⟨rfl, .inr rfl⟩
  | cons h _ => cases h

theorem Passage.descends {x : Extent} {a b : List Token} {k : Option (List Token)} {r : Report}
    (h : Passage x a b k r) : Descends x a b k r := by
  induction h with
  | done a => exact descends_of_spans_eq_nil rfl
  | fail a e => exact descends_of_spans_eq_nil rfl
  | @take a b _ _ t _ ih =>
    refine ih.mono (List.suffix_cons t a) (List.suffix_refl b) ?_ nofun
    exact Extent.limit_mono .part (Nat.le_succ a.length)
  | andThen h h' ih ih' =>
    exact ih.append ih' h.suffix h'.suffix (Nat.le_refl _) nofun nofun (by simp)
  | @nested a b _ _ _ ih =>
    exact ih.mono (List.suffix_refl a) (List.suffix_refl b) (by simp [Extent.limit]) nofun
  | @block a b _ _ _ ih =>
    exact ih.mono (List.suffix_refl a) (List.suffix_refl b) (by simp [Extent.limit]) nofun
  | @expression a b _ _ p t h ih =>
    have hle := h.suffix.length_le
    refine ih.within _ (List.suffix_cons t a) rfl ?_ ?_ ?_ nofun id <;>
      simp only [Extent.limit, Span.rank, Span.ahead, Span.isStatement, List.length_cons,
        Bool.toNat_false] <;> omega
  | missing p e =>
    have hspans : spans ((Report.ofError e).within (.expression p []) false).trace =
        [.expression p []] := rfl
    constructor <;> rw [hspans] <;> simp [Span.rank, Span.ahead, Span.isStatement]
  | nothing hb => exact descends_of_spans_eq_nil rfl
  | broken e hb => exact descends_of_spans_eq_nil rfl
  | value ha _ hb ih =>
    exact ih.mono ha hb (Extent.limit_mono .content ha.length_le) nofun
  | @statement a b k _ t h hb ih =>
    have hle := hb.length_le
    refine ih.within _ (List.suffix_refl _) rfl ?_ ?_ ?_ nofun (by simp) <;>
      simp only [Extent.limit, Span.rank, Span.ahead, Span.isStatement, List.length_cons,
        Bool.toNat_true] <;> omega
  | closed t a => exact descends_of_spans_eq_nil rfl
  | unclosed e => exact descends_of_spans_eq_nil rfl
  | ended => exact descends_of_spans_eq_nil rfl
  | @cons a b c k k' r r' braced h h' ih ih' =>
    refine ih.append ih' h.suffix h'.suffix (Nat.le_refl _) (fun hb _ => ?_) nofun (by simp)
    -- A statement that failed at the end of the text leaves no token for another one.
    subst hb
    exact h'.spans_eq_nil

/-! ### Loops -/

/-- The loops of reading: over the statements of a text and of a block, over the operators behind
the operand `left`, over arguments, over parameters, and over what is skipped of a malformed
statement. -/
inductive Loop where
  | program
  | block
  | operators (p : Precedence) (left : Expr)
  | arguments
  | parameters
  | recovery

/-- What a loop does next: it has ended, with the tokens `rest` left; it is in its last round, because
nothing comes of it or because the loop finds what it looks for; or it goes on as `next`. -/
inductive Round where
  | ended (rest : List Token)
  | last (rest : List Token)
  | again (next : Loop) (rest : List Token)

/-- The round in which a step is taken; the loop goes on with the node. -/
def Step.round {α : Type} {tokens : List Token} (s : Step α tokens) (next : α → Loop) : Round :=
  match s.node with
  | none => .last s.rest
  | some a => .again (next a) s.rest

namespace Loop

/-- What a loop does in front of `tokens`. -/
def round (endLine : Nat) (loop : Loop) (tokens : List Token) : Round :=
  match loop, tokens with
  | .program, [] => .ended []
  | .program, t :: ts => .again .program (statement endLine t ts).rest
  | .block, [] => .ended []
  | .block, t :: ts =>
    if t.kind = .rightBrace then .ended ts else .again .block (statement endLine t ts).rest
  | .operators _ _, [] => .ended []
  | .operators p left, t :: ts =>
    if p < t.kind.precedence then
      match t.kind.binaryOp? with
      | some op =>
        (expression endLine t.kind.precedence ts).round fun right =>
          .operators p (.binary t left op right)
      | none => (Parsing.arguments endLine ts).round fun values => .operators p (.call t left values)
    else .ended (t :: ts)
  | .arguments, [] => .ended []
  | .arguments, t :: ts =>
    if t.kind = .comma then (expression endLine .lowest ts).round fun _ => .arguments
    else .ended (endOfList endLine (t :: ts) : Step (List Expr) (t :: ts)).rest
  | .parameters, [] => .ended []
  | .parameters, t :: ts =>
    if t.kind = .comma then (expect endLine .identifier ts).round fun _ => .parameters
    else .ended (endOfList endLine (t :: ts) : Step (List Identifier) (t :: ts)).rest
  | .recovery, [] => .ended []
  | .recovery, t :: ts =>
    if t.kind = .rightBrace then .ended (t :: ts)
    else if t.kind = .semicolon then .last ts
    else .again .recovery ts

/-- The tokens that are left when a loop has ended. -/
def rest (endLine : Nat) : Loop → List Token → List Token
  | .program, tokens => (statements endLine tokens).rest
  | .block, tokens => (blockBody endLine tokens).rest
  | .operators p left, tokens => (Parsing.operators endLine p left tokens).rest
  | .arguments, tokens => (moreArguments endLine tokens).rest
  | .parameters, tokens => (moreParameters endLine tokens).rest
  | .recovery, tokens => recover tokens

end Loop

namespace Round

/-- The tokens that are left when the loop has ended that does this next. -/
def rest (endLine : Nat) : Round → List Token
  | ended rest => rest
  | last rest => rest
  | again next rest => next.rest endLine rest

/-- A round takes one of the tokens at least, from the front. -/
def Advances (tokens : List Token) : Round → Prop
  | ended rest => rest <:+ tokens
  | last rest => rest <:+ tokens ∧ rest.length < tokens.length
  | again _ rest => rest <:+ tokens ∧ rest.length < tokens.length

end Round

section
variable {α β : Type} {tokens : List Token}

theorem Step.rest_round (endLine : Nat) {s : Step α tokens} {t : Token} {next : α → Loop}
    {f : α → (rest : List Token) → rest.length ≤ tokens.length → Step β rest}
    (h : ∀ a rest hrest, (f a rest hrest).rest = (next a).rest endLine rest) :
    ((s.andThen f).past t).rest = (s.round next).rest endLine := by
  show (s.andThen f).rest = _
  unfold Step.andThen Step.round
  cases s.node with
  | none => rfl
  | some a => exact h a s.rest s.rest_length_le

theorem Step.shorter (s : Step α tokens) (t : Token) :
    s.rest <:+ t :: tokens ∧ s.rest.length < (t :: tokens).length :=
  ⟨s.rest_suffix.trans (List.suffix_cons t tokens), Nat.lt_succ_of_le s.rest_length_le⟩

theorem Step.round_advances (s : Step α tokens) (t : Token) (next : α → Loop) :
    (s.round next).Advances (t :: tokens) := by
  unfold Step.round
  split <;> exact s.shorter t

end

/-- A loop is its rounds, one after another. -/
theorem Loop.rest_eq (endLine : Nat) (loop : Loop) (tokens : List Token) :
    loop.rest endLine tokens = (loop.round endLine tokens).rest endLine := by
  cases tokens with
  | nil =>
    cases loop <;> simp only [Loop.rest, statements, blockBody, Parsing.operators, moreArguments,
      moreParameters, recover] <;> rfl
  | cons t ts =>
    cases loop with
    | program =>
      rw [Loop.rest, statements]
      rfl
    | block =>
      rw [Loop.rest, blockBody, Loop.round]
      split <;> rfl
    | operators p left =>
      rw [Loop.rest, Parsing.operators, Loop.round]
      split
      · cases t.kind.binaryOp? with
        | some op => exact Step.rest_round endLine fun _ _ _ => by rfl
        | none => exact Step.rest_round endLine fun _ _ _ => by rfl
      · rfl
    | arguments =>
      rw [Loop.rest, moreArguments, Loop.round]
      split
      · exact Step.rest_round endLine fun _ _ _ => by rfl
      · rfl
    | parameters =>
      rw [Loop.rest, moreParameters, Loop.round]
      split
      · exact Step.rest_round endLine fun _ _ _ => by rfl
      · rfl
    | recovery =>
      rw [Loop.rest, recover, Loop.round]
      split
      · rfl
      split <;> rfl

/-- No round leaves the tokens as they are. -/
theorem Loop.advances (endLine : Nat) (loop : Loop) (tokens : List Token) :
    (loop.round endLine tokens).Advances tokens := by
  cases tokens with
  | nil => cases loop <;> exact List.suffix_refl []
  | cons t ts =>
    cases loop with
    | program => exact (statement endLine t ts).shorter t
    | block =>
      rw [Loop.round]
      split
      · exact List.suffix_cons t ts
      · exact (statement endLine t ts).shorter t
    | operators p left =>
      rw [Loop.round]
      split
      · split
        · exact (expression endLine t.kind.precedence ts).round_advances t _
        · exact (Parsing.arguments endLine ts).round_advances t _
      · exact List.suffix_refl _
    | arguments =>
      rw [Loop.round]
      split
      · exact (expression endLine .lowest ts).round_advances t _
      · exact Step.rest_suffix _
    | parameters =>
      rw [Loop.round]
      split
      · exact (expect endLine .identifier ts).round_advances t _
      · exact Step.rest_suffix _
    | recovery =>
      rw [Loop.round]
      have hshorter : ts <:+ t :: ts ∧ ts.length < (t :: ts).length :=
        ⟨List.suffix_cons t ts, Nat.lt_succ_self _⟩
      split
      · exact List.suffix_refl _
      split <;> exact hshorter

end Parsing

/-! ### Whole texts -/

namespace TokenStream

/-- What reading the tokens of a text gives. -/
def read (s : TokenStream) : Parsing.Step (List Statement) s.tokens :=
  Parsing.statements s.endLine s.tokens

theorem read_complete (s : TokenStream) :
    s.read.node = some s.parse.program.statements ∧ s.read.rest = [] := by
  obtain ⟨⟨ss, hnode⟩, hrest⟩ := Parsing.statements_complete s.endLine s.tokens
  have hprogram : s.parse.program.statements = ss := by
    show (Parsing.statements s.endLine s.tokens).node.getD [] = ss
    rw [hnode]
    rfl
  exact ⟨hprogram ▸ hnode, hrest⟩

/-- Reading a whole text is a passage, and keeps the statements of the program. -/
theorem passage (s : TokenStream) :
    Parsing.Passage (.items false) s.tokens s.read.rest (some s.parse.program.statementTokens)
      s.read.report := by
  obtain ⟨kept, hpassage, hkept⟩ := Parsing.statements_passes s.endLine s.tokens
  have hprogram : kept = some s.parse.program.statementTokens := by
    change s.read.node.map _ = _ at hkept
    rw [s.read_complete.1] at hkept
    simpa [Program.statementTokens] using hkept.symm
  exact hprogram ▸ hpassage

end TokenStream

/-- The spans of statements in a trace. -/
def statementSpans (trace : List Entry) : List Span := (spans trace).filter Span.isStatement

/-- The spans of expressions in a trace. -/
def expressionSpans (trace : List Entry) : List Span := (spans trace).filter (!·.isStatement)

/-- Statements are begun further and further on in a text, and never at its end. -/
theorem statementSpans_climbs (s : TokenStream) :
    Climbs s.tokens s.tokens.length (statementSpans s.parse.trace) := by
  have hdescends := s.passage.descends
  refine climbs_of_pairwise (fun span hspan => ?_) ?_
  · obtain ⟨hspan, hstatement⟩ := List.mem_filter.mp hspan
    refine ⟨hdescends.ahead span hspan, ?_⟩
    cases span with
    | statement t ts => simp [Span.ahead]
    | expression p ts => cases hstatement
  · refine (hdescends.descending.filter Span.isStatement).imp_of_mem fun {u v} hu hv hrank => ?_
    have hu := (List.mem_filter.mp hu).2
    have hv := (List.mem_filter.mp hv).2
    rw [Span.rank, Span.rank, hu, hv] at hrank
    omega

/-- Expressions are begun further and further on in a text, the last one perhaps at its end. -/
theorem expressionSpans_climbs (s : TokenStream) :
    Climbs s.tokens (s.tokens.length + 1) (expressionSpans s.parse.trace) := by
  have hdescends := s.passage.descends
  refine climbs_of_pairwise (fun span hspan => ?_) ?_
  · obtain ⟨hspan, _⟩ := List.mem_filter.mp hspan
    exact ⟨hdescends.ahead span hspan, by omega⟩
  · refine (hdescends.descending.filter _).imp_of_mem fun {u v} hu hv hrank => ?_
    have hu := Bool.not_eq_true' _ ▸ (List.mem_filter.mp hu).2
    have hv := Bool.not_eq_true' _ ▸ (List.mem_filter.mp hv).2
    rw [Span.rank, Span.rank, hu, hv] at hrank
    omega

/-- **Reading gets ahead.** Every text is read to its end and gives a program. The statements that
are begun on the way stand at tokens further and further on, so that there are no more of them than
tokens; and so do the expressions, of which one may be begun at the end of the text. No round of a
loop leaves the tokens as they are, in whatever state the loop is. -/
theorem parse_advances (source : String) :
    ((TokenStream.ofSource source).read.node = some (parse source).program.statements ∧
        (TokenStream.ofSource source).read.rest = []) ∧
      (Climbs (TokenStream.ofSource source).tokens (TokenStream.ofSource source).tokens.length
          (statementSpans (parse source).trace) ∧
        (statementSpans (parse source).trace).length ≤
          (TokenStream.ofSource source).tokens.length) ∧
      (Climbs (TokenStream.ofSource source).tokens ((TokenStream.ofSource source).tokens.length + 1)
          (expressionSpans (parse source).trace) ∧
        ((expressionSpans (parse source).trace).filter (·.ahead.isEmpty)).length ≤ 1 ∧
        (expressionSpans (parse source).trace).length ≤
          (TokenStream.ofSource source).tokens.length + 1) ∧
      ∀ (endLine : Nat) (loop : Parsing.Loop) (ahead : List Token),
        loop.rest endLine ahead = (loop.round endLine ahead).rest endLine ∧
          (loop.round endLine ahead).Advances ahead := by
  have hstatements := statementSpans_climbs (TokenStream.ofSource source)
  have hexpressions := expressionSpans_climbs (TokenStream.ofSource source)
  refine ⟨(TokenStream.ofSource source).read_complete, ⟨hstatements, hstatements.length_le⟩,
    ⟨hexpressions, hexpressions.atEnd_length_le, hexpressions.length_le⟩,
    fun endLine loop ahead => ?_⟩
  exact ⟨loop.rest_eq endLine ahead, loop.advances endLine ahead⟩

end LetLang
