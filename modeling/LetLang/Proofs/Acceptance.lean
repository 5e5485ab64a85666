import LetLang.Proofs.Derivation
import LetLang.Proofs.Sequences

/-! The reader accepts its grammar, and nothing else.

What is read without errors can be derived (`statements_derives`). Conversely everything that can
be derived is read: by induction on the derivation, the tokens of an expression are a chain and
those of statements a sequence (`completes_of_derives`), and chains and sequences are read as a
whole. -/
namespace LetLang.Parsing
open Step Grammar

section
variable (endLine : Nat)

/-- What reading makes of tokens whose kinds are derived from a nonterminal. -/
def Completes : Nonterminal → List TokenKind → Prop
  | .statements next, ks => ∀ tokens rest, Spells ks tokens rest → Closes rest →
      rest.head?.map Token.kind = next → Sequence endLine rest tokens
  | .statement next, ks => ∀ tokens mid rest, Spells ks tokens mid → Closes rest →
      mid.head?.map Token.kind = next → Sequence endLine rest mid →
      Sequence endLine rest tokens
  | .block, ks => ∀ tokens rest, Spells ks tokens rest → ∃ b, (block endLine tokens).Reads b rest
  | .expression, ks => ∀ tokens rest, Spells ks tokens rest → Chain endLine tokens rest
  | .arguments, ks => ∀ tokens u rest, Spells ks tokens (u :: rest) → u.kind = .rightParen →
      ∃ es, (arguments endLine tokens).Reads es rest
  | .expressions, ks => ∀ tokens u rest, Spells ks tokens (u :: rest) → u.kind = .rightParen →
      ∃ mid es, Chain endLine tokens mid ∧ Ends mid ∧ (moreArguments endLine mid).Reads es rest
  | .parameters, ks => ∀ tokens u rest, Spells ks tokens (u :: rest) → u.kind = .rightParen →
      ∃ is, (parameters endLine tokens).Reads is rest
  | .identifiers, ks => ∀ tokens u rest, Spells ks tokens (u :: rest) → u.kind = .rightParen →
      ∃ t ts is, tokens = t :: ts ∧ t.kind = .identifier ∧ (moreParameters endLine ts).Reads is rest

end

section
variable {endLine : Nat}

/-! ### Statements -/

/-- Where a sequence starts with what closes it, it is empty. -/
theorem Sequence.eq_of_closes {tokens rest : List Token} (h : Sequence endLine rest tokens)
    (hrest : Closes rest) (htokens : Closes tokens) : tokens = rest := by
  obtain heq | ⟨t, ts, _, _, heq, ht, _⟩ := h.reads_statement hrest
  · exact heq
  · rw [heq] at htokens
    exact absurd (htokens t rfl) ht

/-- A statement with an expression, in front of a sequence. -/
theorem Sequence.cons_ending {ending : List TokenKind} (hending : ending ∈ endings)
    {tokens mid mid' ts rest : List Token} (hrest : Closes rest) (hlead : Lead tokens mid)
    (he : Chain endLine mid mid') (hspells : Spells ending mid' ts)
    (hss : Sequence endLine rest ts) : Sequence endLine rest tokens := by
  simp only [endings, List.mem_cons, List.not_mem_nil, or_false] at hending
  obtain rfl | rfl := hending
  · rw [spells_nil_iff] at hspells
    rw [hspells] at he
    exact .cons hrest hlead he hss
  · obtain ⟨u, us, rfl, hu, _, hus⟩ := hspells
    rw [spells_nil_iff] at hus
    rw [hus] at he
    exact .ended hlead he hu hss

/-! ### Atoms -/

/-- What is read as an operand, and starts as an atom, is a chain. -/
theorem chain_of_operand {t : Token} {e : Expr} {ts rest : List Token} (ht : t.kind ∈ startsAtom)
    (h : (operand endLine t ts).Reads e rest) : Chain endLine (t :: ts) rest :=
  .operand (.application (.atom ht fun _ => ⟨e, h⟩))

theorem operand_int_reads {t : Token} (ht : t.kind = .int) (hfits : Fits t) (rest : List Token) :
    ∃ e, (operand endLine t rest).Reads e rest := by
  have hvalue : integerValue? t.literal =
      some (Int64.ofNat (Nat.ofDigitChars 10 t.literal.toList 0)) := by
    simp only [integerValue?, hfits ht, if_true]
  exact ⟨_, (operand_int_reads_iff ht).mpr ⟨_, hvalue, rfl, rfl⟩⟩

/-! ### Derivations -/

/-- Whatever can be derived is read. -/
theorem completes_of_derives {n : Nonterminal} {ks : List TokenKind} (h : Derives n ks) :
    Completes endLine n ks := by
  induction h with
  | noStatement =>
    intro tokens rest hspells _ _
    rw [spells_nil_iff.mp hspells]
    exact .nil
  | @statements next s ss _ _ ihs ihss =>
    intro tokens rest hspells hrest hnext
    obtain ⟨mid, hs, hss⟩ := spells_append_iff.mp hspells
    have hmid : mid.head?.map Token.kind = ss.head?.or next := by rw [← hnext, hss.head?]
    exact ihs tokens mid rest hs hrest hmid (ihss mid rest hss hrest hnext)
  | letIn _ hending ih =>
    intro tokens mid rest hspells hrest _ hss
    obtain ⟨t, _, rfl, ht, _, u, _, rfl, hu, _, v, ts, rfl, hv, _, hspells⟩ := hspells
    obtain ⟨mid', he, hending'⟩ := spells_append_iff.mp hspells
    exact .cons_ending hending hrest (.letIn ht hu hv) (ih ts mid' he) hending' hss
  | returnValue _ hending ih =>
    intro tokens mid rest hspells hrest _ hss
    obtain ⟨t, ts, rfl, ht, _, hspells⟩ := hspells
    obtain ⟨mid', he, hending'⟩ := spells_append_iff.mp hspells
    exact .cons_ending hending hrest (.returnValue ht) (ih ts mid' he) hending' hss
  | returnNothing =>
    intro tokens mid rest hspells _ _ hss
    obtain ⟨t, _, rfl, ht, _, u, ts, rfl, hu, _, hts⟩ := hspells
    rw [spells_nil_iff.mp hts]
    exact .returnNothing ht hu hss
  | returnLast hnext =>
    intro tokens mid rest hspells hrest hmid hss
    obtain ⟨t, ts, rfl, ht, _, hts⟩ := hspells
    have hcloses : Closes mid := by
      intro u hu
      rw [Option.mem_def.mp hu] at hmid
      obtain rfl | rfl := hnext
      · cases hmid
      · exact Option.some.inj hmid
    rw [spells_nil_iff.mp hts, hss.eq_of_closes hrest hcloses]
    exact .returnLast ht
  | expressionStatement _ hending ih =>
    intro tokens mid rest hspells hrest _ hss
    obtain ⟨mid', he, hending'⟩ := spells_append_iff.mp hspells
    exact .cons_ending hending hrest .expression (ih tokens mid' he) hending' hss
  | block _ ih =>
    intro tokens rest hspells
    obtain ⟨t, ts, rfl, ht, _, hspells⟩ := hspells
    obtain ⟨mid, hss, u, us, rfl, hu, _, hus⟩ := spells_append_iff.mp hspells
    rw [spells_nil_iff.mp hus] at hss
    have hsequence := ih ts (u :: rest) hss (closes_cons hu rest) (congrArg some hu)
    obtain ⟨ss, hbody⟩ := hsequence.reads_blockBody hu
    exact ⟨_, block_reads_iff.mpr ⟨t, ts, ss, rfl, ht, hbody, rfl⟩⟩
  | identifier =>
    intro tokens rest hspells
    obtain ⟨t, ts, rfl, ht, _, hts⟩ := hspells
    rw [spells_nil_iff.mp hts]
    exact chain_of_operand (by rw [ht]; decide) ((operand_identifier_reads_iff ht).mpr ⟨rfl, rfl⟩)
  | integer =>
    intro tokens rest hspells
    obtain ⟨t, ts, rfl, ht, hfits, hts⟩ := hspells
    rw [spells_nil_iff.mp hts]
    obtain ⟨e, he⟩ := operand_int_reads ht hfits rest
    exact chain_of_operand (by rw [ht]; decide) he
  | trueWord =>
    intro tokens rest hspells
    obtain ⟨t, ts, rfl, ht, _, hts⟩ := hspells
    rw [spells_nil_iff.mp hts]
    exact chain_of_operand (by rw [ht]; decide) ((operand_true_reads_iff ht).mpr ⟨rfl, rfl⟩)
  | falseWord =>
    intro tokens rest hspells
    obtain ⟨t, ts, rfl, ht, _, hts⟩ := hspells
    rw [spells_nil_iff.mp hts]
    exact chain_of_operand (by rw [ht]; decide) ((operand_false_reads_iff ht).mpr ⟨rfl, rfl⟩)
  | not _ ih =>
    intro tokens rest hspells
    obtain ⟨t, ts, rfl, ht, _, he⟩ := hspells
    have hop : t.kind.unaryOp? = some .not := by rw [ht]; rfl
    exact (ih ts rest he).unary hop
  | negate _ ih =>
    intro tokens rest hspells
    obtain ⟨t, ts, rfl, ht, _, he⟩ := hspells
    have hop : t.kind.unaryOp? = some .negate := by rw [ht]; rfl
    exact (ih ts rest he).unary hop
  | binary _ hk _ ihl ihr =>
    intro tokens rest hspells
    obtain ⟨mid, hl, t, ts, rfl, ht, _, hr⟩ := spells_append_iff.mp hspells
    obtain ⟨op, hop⟩ := (mem_binaryKinds_iff t.kind).mp (ht ▸ hk)
    exact (ihl tokens (t :: ts) hl).join hop (ihr ts rest hr)
  | call _ _ ihf ihes =>
    intro tokens rest hspells
    obtain ⟨mid, hf, t, ts, rfl, ht, _, hspells⟩ := spells_append_iff.mp hspells
    obtain ⟨mid', hes, u, us, rfl, hu, _, hus⟩ := spells_append_iff.mp hspells
    rw [spells_nil_iff.mp hus] at hes
    exact (ihf tokens (t :: ts) hf).call ht (ihes ts u rest hes hu)
  | group _ ih =>
    intro tokens rest hspells
    obtain ⟨t, ts, rfl, ht, _, hspells⟩ := hspells
    obtain ⟨mid, he, u, us, rfl, hu, _, hus⟩ := spells_append_iff.mp hspells
    rw [spells_nil_iff.mp hus] at he
    have hreads := (ih ts (u :: rest) he).reads (ends_rightParen hu rest)
    exact .operand (.application (.group ht hu hreads))
  | ifThen _ _ ihc ihb =>
    intro tokens rest hspells
    obtain ⟨t, _, rfl, ht, _, u, ts, rfl, hu, _, hspells⟩ := hspells
    obtain ⟨mid, hc, v, us, rfl, hv, _, hb⟩ := spells_append_iff.mp hspells
    obtain ⟨c, hc⟩ := (ihc ts (v :: us) hc).reads (ends_rightParen hv us)
    obtain ⟨b, hb⟩ := ihb us rest hb
    refine .operand (.application (.atom (by rw [ht]; decide) fun hnoElse => ?_))
    have hnone : (alternative endLine t c b rest).Reads (.ifThen t c b) rest :=
      (alternative_none_reads_iff hnoElse).mpr ⟨rfl, rfl⟩
    exact ⟨_, (operand_if_reads_iff ht).mpr ⟨u, ts, c, v, us, b, rest, rfl, hu, hc, hv, hb, hnone⟩⟩
  | ifThenElse _ _ _ ihc ihb iha =>
    intro tokens rest hspells
    obtain ⟨t, _, rfl, ht, _, u, ts, rfl, hu, _, hspells⟩ := hspells
    obtain ⟨mid, hc, v, us, rfl, hv, _, hspells⟩ := spells_append_iff.mp hspells
    obtain ⟨mid', hb, w, vs, rfl, hw, _, ha⟩ := spells_append_iff.mp hspells
    obtain ⟨c, hc⟩ := (ihc ts (v :: us) hc).reads (ends_rightParen hv us)
    obtain ⟨b, hb⟩ := ihb us (w :: vs) hb
    obtain ⟨a, ha⟩ := iha vs rest ha
    have helse : (alternative endLine t c b (w :: vs)).Reads (.ifThenElse t c b a) rest :=
      (alternative_else_reads_iff hw).mpr ⟨a, ha, rfl⟩
    have hif := (operand_if_reads_iff ht).mpr
      ⟨u, ts, c, v, us, b, w :: vs, rfl, hu, hc, hv, hb, helse⟩
    exact chain_of_operand (by rw [ht]; decide) hif
  | function _ _ ihps ihb =>
    intro tokens rest hspells
    obtain ⟨t, _, rfl, ht, _, u, ts, rfl, hu, _, hspells⟩ := hspells
    obtain ⟨mid, hps, v, us, rfl, hv, _, hb⟩ := spells_append_iff.mp hspells
    obtain ⟨ps, hps⟩ := ihps ts v us hps hv
    obtain ⟨b, hb⟩ := ihb us rest hb
    have hfn := (operand_fn_reads_iff ht).mpr ⟨u, ts, ps, us, b, rfl, hu, hps, hb, rfl⟩
    exact chain_of_operand (by rw [ht]; decide) hfn
  | noArgument =>
    intro tokens u rest hspells hu
    rw [spells_nil_iff.mp hspells]
    have hnext : nextIs .rightParen (u :: rest) = true := beq_iff_eq.mpr hu
    exact ⟨[], (arguments_nil_reads_iff hnext).mpr ⟨u, rfl, hu, rfl⟩⟩
  | arguments _ ih =>
    intro tokens u rest hspells hu
    obtain ⟨mid, es, hchain, hmid, hes⟩ := ih tokens u rest hspells hu
    obtain ⟨e, he⟩ := hchain.reads hmid
    exact ⟨_, (arguments_cons_reads_iff he.nextIs_rightParen).mpr ⟨e, mid, es, he, hes, rfl⟩⟩
  | lastExpression _ ih =>
    intro tokens u rest hspells hu
    have hend : ∀ v ∈ (u :: rest).head?, v.kind ≠ .comma :=
      forall_head?_cons (by rw [hu]; decide) rest
    exact ⟨u :: rest, [], ih tokens _ hspells, ends_rightParen hu rest,
      (moreArguments_end_reads_iff hend).mpr ⟨u, rfl, hu, rfl⟩⟩
  | expressions _ _ ihe ihes =>
    intro tokens u rest hspells hu
    obtain ⟨mid, he, t, ts, rfl, ht, _, hes⟩ := spells_append_iff.mp hspells
    obtain ⟨mid', es, hchain, hmid', hes⟩ := ihes ts u rest hes hu
    obtain ⟨e, hreads⟩ := hchain.reads hmid'
    have hends : Ends (t :: ts) := by
      refine ends_cons ?_ ?_ ts <;> rw [ht] <;> decide
    exact ⟨t :: ts, e :: es, ihe tokens _ he, hends,
      (moreArguments_comma_reads_iff ht).mpr ⟨e, mid', es, hreads, hes, rfl⟩⟩
  | noParameter =>
    intro tokens u rest hspells hu
    rw [spells_nil_iff.mp hspells]
    have hnext : nextIs .rightParen (u :: rest) = true := beq_iff_eq.mpr hu
    exact ⟨[], (parameters_nil_reads_iff hnext).mpr ⟨u, rfl, hu, rfl⟩⟩
  | parameters _ ih =>
    intro tokens u rest hspells hu
    obtain ⟨t, ts, is, rfl, ht, his⟩ := ih tokens u rest hspells hu
    have hnext : nextIs .rightParen (t :: ts) = false := beq_false_of_ne (by rw [ht]; decide)
    exact ⟨_, (parameters_cons_reads_iff hnext).mpr ⟨t, ts, is, rfl, ht, his, rfl⟩⟩
  | lastIdentifier =>
    intro tokens u rest hspells hu
    obtain ⟨t, ts, rfl, ht, _, hts⟩ := hspells
    rw [spells_nil_iff.mp hts]
    have hend : ∀ v ∈ (u :: rest).head?, v.kind ≠ .comma :=
      forall_head?_cons (by rw [hu]; decide) rest
    exact ⟨t, _, [], rfl, ht, (moreParameters_end_reads_iff hend).mpr ⟨u, rfl, hu, rfl⟩⟩
  | identifiers _ ih =>
    intro tokens u rest hspells hu
    obtain ⟨t, _, rfl, ht, _, v, ts, rfl, hv, _, hps⟩ := hspells
    obtain ⟨w, us, is, rfl, hw, his⟩ := ih ts u rest hps hu
    exact ⟨t, _, _, rfl, ht, (moreParameters_comma_reads_iff hv).mpr ⟨w, us, is, rfl, hw, his, rfl⟩⟩

end

end LetLang.Parsing

namespace LetLang
open Parsing Grammar

/-- **The reader accepts exactly the grammar.** A source text is read without errors if and only
if its numbers fit and the kinds of its tokens can be derived, in whichever way. -/
theorem parse_errors_eq_nil_iff (source : String) :
    (parse source).errors = [] ↔
      (∀ t ∈ (TokenStream.ofSource source).tokens, t.kind = .int →
        Nat.ofDigitChars 10 t.literal.toList 0 ≤ Int64.maxValue.toInt) ∧
      Derives .program ((TokenStream.ofSource source).tokens.map Token.kind) := by
  generalize hstream : TokenStream.ofSource source = stream
  rw [parse, hstream]
  constructor
  · intro herrors
    obtain ⟨ss, hreads⟩ := (statements_accounts stream.endLine stream.tokens).reads herrors
    obtain ⟨ks, hks, hspells⟩ := statements_derives stream.endLine stream.tokens hreads
    obtain ⟨hfits, hkinds⟩ := spells_all_iff.mp hspells
    rw [hkinds]
    exact ⟨hfits, hks⟩
  · intro ⟨hfits, hderives⟩
    have hspells := spells_all_iff.mpr ⟨hfits, rfl⟩
    have hsequence : Sequence stream.endLine [] stream.tokens :=
      completes_of_derives hderives stream.tokens [] hspells closes_nil rfl
    obtain ⟨ss, hreads⟩ := hsequence.reads_statements
    exact hreads.clean

end LetLang
