import LetLang.Proofs.Operands
import LetLang.Syntax.Equality

/-! Operators group as their precedence says.

A sequence of operands with binary operators between them has a tree that is told from above: the
operator at its root is the last one of those that bind least, and on its two sides stand the trees
of what is before it and behind it (`Splits`). There is one such tree (`Splits.unique`).

Reading goes the other way. It has a left operand, whatever was put together so far, and a precedence
that it was called with; it takes the operators that bind tighter, one at a time, each with a right
operand that takes those that bind tighter still. What it has put together when it stops is the tree
of all operators that it took (`operators_reads_splits`), because a tree on the left can be opened
again: an operator and what it took may be put in front of operators that bind no tighter
(`Splits.prepend`). So a text that is such a sequence is read as its tree (`parse_splits`). -/
namespace LetLang

open Parsing Step

/-- The tiers of binary operators, from those that bind least. -/
def BinaryOp.tier : BinaryOp → Nat
  | .equal | .notEqual => 0
  | .less | .greater => 1
  | .add | .sub => 2
  | .mul | .div => 3

namespace Operations

/-- A binary operator and the operand behind it. -/
structure Link where
  token : Token
  op : BinaryOp
  tokens : List Token
  operand : Expr
  isOperator : token.kind.binaryOp? = some op
  isOperand : Operand tokens operand

namespace Link

/-- How tight the operator binds. -/
def tier (l : Link) : Nat := l.op.tier

/-- The tokens of several operators with their operands. -/
def allTokens (links : List Link) : List Token := links.flatMap fun l => l.token :: l.tokens

end Link

/-- The tree of an operand with binary operators and operands behind it. At its root stands the last
one of the operators of the lowest tier. -/
inductive Splits : Expr → List Link → Expr → Prop where
  | operand (x : Expr) : Splits x [] x
  | operator {x left right : Expr} {l : Link} {before after : List Link}
    (hbefore : ∀ m ∈ before, l.tier ≤ m.tier) (hafter : ∀ m ∈ after, l.tier < m.tier)
    (hleft : Splits x before left) (hright : Splits l.operand after right) :
    Splits x (before ++ l :: after) (.binary l.token left l.op right)

/-! ### The tree -/

/-- No operator can be the last of the lowest tier but one. -/
theorem root_unique {l l' : Link} {before after before' after' : List Link}
    (hbefore : ∀ m ∈ before, l.tier ≤ m.tier) (hafter : ∀ m ∈ after, l.tier < m.tier)
    (hbefore' : ∀ m ∈ before', l'.tier ≤ m.tier) (hafter' : ∀ m ∈ after', l'.tier < m.tier)
    (h : before ++ l :: after = before' ++ l' :: after') :
    before = before' ∧ l = l' ∧ after = after' := by
  obtain ⟨between, rfl, hlinks⟩ | ⟨between, rfl, hlinks⟩ := List.append_eq_append_iff.mp h
  · cases between with
    | nil =>
      obtain ⟨rfl, rfl⟩ := List.cons.inj hlinks
      exact ⟨(List.append_nil _).symm, rfl, rfl⟩
    | cons m between =>
      obtain ⟨rfl, rfl⟩ := List.cons.inj hlinks
      have hlt : l.tier < l'.tier := hafter l' (by simp)
      have hle : l'.tier ≤ l.tier := hbefore' l (by simp)
      omega
  · cases between with
    | nil =>
      obtain ⟨rfl, rfl⟩ := List.cons.inj hlinks
      exact ⟨List.append_nil _, rfl, rfl⟩
    | cons m between =>
      obtain ⟨rfl, rfl⟩ := List.cons.inj hlinks
      have hlt : l'.tier < l.tier := hafter' l (by simp)
      have hle : l.tier ≤ l'.tier := hbefore l' (by simp)
      omega

theorem Splits.unique {x e e' : Expr} {links : List Link} (h : Splits x links e)
    (h' : Splits x links e') : e = e' := by
  induction h generalizing e' with
  | operand x =>
    generalize hlinks : ([] : List Link) = links at h'
    cases h' with
    | operand _ => rfl
    | operator _ _ _ _ => exact absurd hlinks (by simp)
  | @operator x left right l before after hbefore hafter _ _ ihleft ihright =>
    generalize hlinks : before ++ l :: after = links at h'
    cases h' with
    | operand _ => exact absurd hlinks (by simp)
    | operator hbefore' hafter' hleft' hright' =>
      obtain ⟨rfl, rfl, rfl⟩ := root_unique hbefore hafter hbefore' hafter' hlinks
      rw [ihleft hleft', ihright hright']

/-- An operator, with a right operand of operators that bind tighter, goes in front of operators that
start with one that binds no tighter: what was put together on the left is part of the tree. -/
theorem Splits.prepend {x right e : Expr} {l : Link} {inner outer : List Link}
    (hright : Splits l.operand inner right) (hinner : ∀ m ∈ inner, l.tier < m.tier)
    (houter : ∀ m ∈ outer.head?, m.tier ≤ l.tier)
    (h : Splits (.binary l.token x l.op right) outer e) : Splits x (l :: (inner ++ outer)) e := by
  generalize hleft : Expr.binary l.token x l.op right = left at h
  induction h with
  | operand left =>
    subst hleft
    rw [List.append_nil]
    exact .operator (List.forall_mem_nil _) hinner (.operand x) hright
  | @operator left e' right' m before after hbefore hafter _ hright' ih _ =>
    -- The root is in `outer` still, since the operator in front binds as tight as its first one.
    have hm : m.tier ≤ l.tier := by
      cases before with
      | nil => exact houter m rfl
      | cons b bs => exact Nat.le_trans (hbefore b (List.mem_cons_self ..)) (houter b rfl)
    have hhead : ∀ b ∈ before.head?, b.tier ≤ l.tier := by
      cases before with
      | nil =>
        intro b hb
        cases hb
      | cons b bs => exact houter
    have htree : Splits x ((l :: (inner ++ before)) ++ m :: after) (.binary m.token e' m.op right') := by
      refine .operator (List.forall_mem_cons.mpr ⟨hm, List.forall_mem_append.mpr ⟨?_, hbefore⟩⟩)
        hafter (ih hhead hleft) hright'
      exact fun a ha => Nat.le_of_lt (Nat.lt_of_le_of_lt hm (hinner a ha))
    rwa [List.cons_append, List.append_assoc] at htree

/-! ### Reading -/

theorem rank_of_binaryOp? {k : TokenKind} {op : BinaryOp} (h : k.binaryOp? = some op) :
    k.precedence.rank = op.tier + 1 := by
  cases k <;> cases h <;> decide

/-- Does the operator bind tighter than `p`? -/
def Link.binds (p : Precedence) (l : Link) : Bool := decide (p < l.token.kind.precedence)

theorem Link.binds_iff (p : Precedence) (l : Link) : l.binds p = true ↔ p.rank ≤ l.tier := by
  rw [Link.binds, decide_eq_true_iff]
  show p.rank < l.token.kind.precedence.rank ↔ _
  rw [rank_of_binaryOp? l.isOperator]
  exact Nat.lt_succ_iff

/-- Operators that bind tighter than another one are those that bind tighter than itself. -/
theorem Link.binds_own_iff (l m : Link) :
    m.binds l.token.kind.precedence = true ↔ l.tier < m.tier := by
  rw [Link.binds_iff, rank_of_binaryOp? l.isOperator]
  exact Nat.succ_le_iff

/-- What follows an operand is no `else` and binds less tight than a unary operator. -/
theorem Link.follows (links : List Link) :
    NoElse (Link.allTokens links) ∧
      ∀ u ∈ (Link.allTokens links).head?, ¬ .unary < u.kind.precedence := by
  cases links with
  | nil => exact ⟨closes_nil.ends.noElse, fun u hu => by cases hu⟩
  | cons l links =>
    have hnoElse : l.token.kind ≠ .elseWord := by
      intro h
      have hop := l.isOperator
      rw [h] at hop
      cases hop
    exact ⟨noElse_cons hnoElse _, forall_head?_cons (not_unary_lt_of_binaryOp? l.isOperator) _⟩

/-- What starts a list by one test starts it by a weaker one, which goes on with what is left. -/
theorem takeWhile_dropWhile_of_imp {α : Type} {p q : α → Bool} (h : ∀ a, q a = true → p a = true)
    (as : List α) :
    as.takeWhile p = as.takeWhile q ++ (as.dropWhile q).takeWhile p ∧
      as.dropWhile p = (as.dropWhile q).dropWhile p := by
  have hall : ∀ a ∈ as.takeWhile q, p a = true := fun a ha => h a (List.mem_takeWhile_imp ha)
  have has : as = as.takeWhile q ++ as.dropWhile q := List.takeWhile_append_dropWhile.symm
  constructor
  · exact (congrArg (List.takeWhile p) has).trans (List.takeWhile_append_of_pos hall)
  · exact (congrArg (List.dropWhile p) has).trans (List.dropWhile_append_of_pos hall)

/-- What is left of a list does not pass the test. -/
theorem not_of_head?_dropWhile {α : Type} {q : α → Bool} {as : List α} {a : α}
    (h : a ∈ (as.dropWhile q).head?) : ¬ q a = true := by
  have hstop := List.head?_dropWhile_not q as
  rw [Option.mem_def.mp h] at hstop
  exact Bool.not_eq_true _ ▸ hstop

/-- The operators that bind tighter than `p` are taken, and what comes of them is their tree. -/
theorem operators_reads_splits (endLine : Nat) (p : Precedence) (x : Expr) (links : List Link) :
    ∃ e, Splits x (links.takeWhile (Link.binds p)) e ∧
      (operators endLine p x (Link.allTokens links)).Reads e
        (Link.allTokens (links.dropWhile (Link.binds p))) := by
  match links with
  | [] =>
    refine ⟨x, .operand x, ?_⟩
    show (operators endLine p x []).Reads x []
    rw [operators, reads_done_iff]
    exact ⟨rfl, rfl⟩
  | l :: links =>
    have htokens : Link.allTokens (l :: links) = l.token :: (l.tokens ++ Link.allTokens links) := rfl
    cases hp : l.binds p with
    | true =>
      have hlt : p < l.token.kind.precedence := of_decide_eq_true hp
      have hbinds (m : Link) (hm : m.binds l.token.kind.precedence = true) : m.binds p = true := by
        rw [Link.binds_own_iff] at hm
        rw [Link.binds_iff] at hp ⊢
        exact Nat.le_trans hp (Nat.le_of_lt hm)
      obtain ⟨htake, hdrop⟩ := takeWhile_dropWhile_of_imp hbinds links
      -- The right operand takes the operators that bind tighter than this one.
      obtain ⟨right, hright, hreads⟩ :=
        operators_reads_splits endLine l.token.kind.precedence l.operand links
      obtain ⟨hnoElse, hunary⟩ := Link.follows links
      have hexpression := l.isOperand.reads hnoElse hunary (lt_call_of_binaryOp? l.isOperator) hreads
      have hlength := List.length_dropWhile_le (Link.binds l.token.kind.precedence) links
      obtain ⟨e, he, hreads'⟩ := operators_reads_splits endLine p (.binary l.token x l.op right)
        (links.dropWhile (Link.binds l.token.kind.precedence))
      refine ⟨e, ?_, ?_⟩
      · rw [List.takeWhile_cons_of_pos hp, htake]
        refine hright.prepend (fun m hm => ?_) (fun m hm => ?_) he
        · exact (l.binds_own_iff m).mp (List.mem_takeWhile_imp hm)
        · rw [List.head?_takeWhile] at hm
          have hstop := not_of_head?_dropWhile (Option.mem_filter_iff.mp hm).1
          rw [Link.binds_own_iff] at hstop
          exact Nat.not_lt.mp hstop
      · rw [htokens, List.dropWhile_cons_of_pos hp, hdrop]
        exact (operators_binary_reads_iff l.isOperator hlt).mpr ⟨right, _, hexpression, hreads'⟩
    | false =>
      have hneg : ¬ l.binds p = true := Bool.not_eq_true _ ▸ hp
      refine ⟨x, ?_, ?_⟩
      · rw [List.takeWhile_cons_of_neg hneg]
        exact .operand x
      · rw [htokens, List.dropWhile_cons_of_neg hneg]
        exact (operators_done_reads_iff (forall_head?_cons (of_decide_eq_false hp) _)).mpr ⟨rfl, rfl⟩
termination_by links.length

/-- A sequence of operands is read as a whole, as its tree. -/
theorem Operand.expression_reads {tokens : List Token} {x : Expr} (h : Operand tokens x)
    (links : List Link) (endLine : Nat) :
    ∃ e, Splits x links e ∧
      (expression endLine .lowest (tokens ++ Link.allTokens links)).Reads e [] := by
  have hall : ∀ l ∈ links, l.binds .lowest = true :=
    fun l _ => (l.binds_iff .lowest).mpr (Nat.zero_le _)
  have htake : links.takeWhile (Link.binds .lowest) = links := by
    rw [List.takeWhile_eq_self_iff]
    exact hall
  have hdrop : links.dropWhile (Link.binds .lowest) = [] := List.dropWhile_eq_nil_iff.mpr hall
  obtain ⟨e, he, hreads⟩ := operators_reads_splits endLine .lowest x links
  rw [htake] at he
  rw [hdrop] at hreads
  obtain ⟨hnoElse, hunary⟩ := Link.follows links
  have hcall : Precedence.lowest < .call := by decide
  exact ⟨e, he, h.reads hnoElse hunary hcall hreads⟩

end Operations

/-- An expression is the only statement of a text that it takes up. -/
theorem Parsing.statements_reads_expression {endLine : Nat} {t : Token} {ts : List Token} {e : Expr}
    (ht : t.kind ∈ startsOperand) (h : (expression endLine .lowest (t :: ts)).Reads e []) :
    (statements endLine (t :: ts)).Reads [.expression t e] [] := by
  have hlet : t.kind ≠ .letWord := by
    intro hlet
    rw [hlet] at ht
    exact absurd ht (by decide)
  have hreturn : t.kind ≠ .returnWord := by
    intro hreturn
    rw [hreturn] at ht
    exact absurd ht (by decide)
  have hstatement := (statement_expression_reads_iff hlet hreturn).mpr ⟨e, [], h, rfl, rfl⟩
  refine statements_reads_iff.mpr ⟨_, [], [], hstatement, ?_, rfl⟩
  rw [statements, reads_done_iff]
  exact ⟨rfl, rfl⟩

open Operations

/-- **Operators group as their precedence says.**

A text whose tokens are an operand, with binary operators and operands behind it, is read without
errors as one statement, which is the tree that is split at the last of the operators that bind
least, and on both sides again. -/
theorem parse_splits {source : String} {tokens : List Token} {x : Expr} {links : List Link}
    (hx : Operations.Operand tokens x)
    (hsource : (TokenStream.ofSource source).tokens = tokens ++ Link.allTokens links) :
    (parse source).errors = [] ∧
      ∃ t e, tokens.head? = some t ∧ (parse source).program.statements = [.expression t e] ∧
        ∀ e', Splits x links e' ↔ e' = e := by
  obtain ⟨t, ts, rfl, ht⟩ := hx.head
  obtain ⟨e, he, hreads⟩ := hx.expression_reads links (TokenStream.ofSource source).endLine
  have hstatements : (statements (TokenStream.ofSource source).endLine
      (TokenStream.ofSource source).tokens).Reads [.expression t e] [] := by
    rw [hsource]
    exact statements_reads_expression ht hreads
  refine ⟨hstatements.clean, t, e, rfl, ?_, fun e' => ⟨fun he' => he'.unique he, ?_⟩⟩
  · exact congrArg (Option.getD · []) hstatements.node
  · rintro rfl
    exact he

/-- A negated call, a product with a group, and a difference, which is at the root. -/
theorem parse_splits_difference :
    let t (k : TokenKind) (literal : String) : Token := ⟨k, literal, 1⟩
    let source := "-f(x) + 2 * (y) - 3"
    let tokens := [t .minus "-", t .identifier "f", t .leftParen "(", t .identifier "x",
      t .rightParen ")"]
    ∃ (x : Expr) (links : List Link), Operations.Operand tokens x ∧
      (TokenStream.ofSource source).tokens = tokens ++ Link.allTokens links ∧ links.length = 3 ∧
      (parse source).errors = [] ∧
        ∃ t e, tokens.head? = some t ∧ (parse source).program.statements = [.expression t e] ∧
          ∀ e', Splits x links e' ↔ e' = e := by
  intro t source tokens
  have hsource : (TokenStream.ofSource source).tokens = tokens ++
      [t .plus "+", t .int "2", t .asterisk "*", t .leftParen "(", t .identifier "y",
        t .rightParen ")", t .minus "-", t .int "3"] := by
    decide +kernel
  have hname (name : String) :
      Primary [t .identifier name] (.identifier (.ofToken (t .identifier name))) := .identifier rfl
  have hx : IsExpression [t .identifier "x"] (.identifier (.ofToken (t .identifier "x"))) :=
    ⟨t .identifier "x", 1, by decide +kernel, by decide +kernel, by decide⟩
  have hy : IsExpression [t .identifier "y"] (.identifier (.ofToken (t .identifier "y"))) :=
    ⟨t .identifier "y", 1, by decide +kernel, by decide +kernel, by decide⟩
  have hcall : Applied (tokens.drop 1) _ :=
    .call (.primary (hname "f")) rfl (.some (.last hx)) rfl
  have hfirst : Operations.Operand tokens _ := .unary rfl (.applied hcall)
  have hinteger (literal : String) (n : Int64)
      (hn : Nat.ofDigitChars 10 literal.toList 0 = n.toInt) :
      Operations.Operand [t .int literal] (.integer (t .int literal) n) :=
    .applied (.primary (.integer rfl hn))
  have hgroup : Operations.Operand
      (t .leftParen "(" :: ([t .identifier "y"] ++ [t .rightParen ")"])) _ :=
    .applied (.primary (.group rfl hy rfl))
  let links : List Link :=
    [⟨t .plus "+", .add, _, _, rfl, hinteger "2" 2 (by decide)⟩,
      ⟨t .asterisk "*", .mul, _, _, rfl, hgroup⟩,
      ⟨t .minus "-", .sub, _, _, rfl, hinteger "3" 3 (by decide)⟩]
  have htokens : (TokenStream.ofSource source).tokens = tokens ++ Link.allTokens links :=
    hsource.trans rfl
  exact ⟨_, links, hfirst, htokens, rfl, parse_splits hfirst htokens⟩

end LetLang
