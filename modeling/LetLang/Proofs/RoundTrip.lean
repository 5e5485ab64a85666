import LetLang.Proofs.Lookahead
import LetLang.Proofs.Printed
import LetLang.Proofs.Spelling

/-! Printing and reading are inverse to each other.

A printed text is cut into the canonical tokens of its tree; here these tokens are read. What
the rules make of them depends on what follows: an expression is read as it stands in front of
anything that does not go on with it (`Ends`), and in front of anything else reading goes on
with the operators there (`Readable`). The induction is over the tree, with one lemma for each
kind of node; an operation is read inside the parentheses that it brings.

`parse_render` is what comes of it: reading a printed text gives back the tree with its
canonical tokens. -/
namespace LetLang.Parsing
open Step

/-! ### Canonical tokens -/

theorem kind_word_of_isName {w : String} (h : IsName w) : (Token.word w).kind = .identifier := by
  have hlookup : Lexeme.keywords.lookup w = none := by
    rw [List.lookup_eq_none_iff]
    intro kv hkv
    have hne : w ≠ kv.1 := fun hw => h.unreserved (hw ▸ List.mem_map_of_mem hkv)
    exact bne_iff_ne.mpr hne
  show (Lexeme.keywords.lookup (String.ofList w.toList)).getD .identifier = .identifier
  rw [String.ofList_toList, hlookup]
  rfl

theorem unaryOp?_token (op : UnaryOp) : op.token.kind.unaryOp? = some op := by
  cases op <;> rfl

theorem binaryOp?_token (op : BinaryOp) : op.token.kind.binaryOp? = some op := by
  cases op <;> rfl

theorem moreParameters_tokens (endLine : Nat) (is : List Identifier)
    (h : ∀ i ∈ is, IsName i.name) (rest : List Token) :
    (moreParameters endLine
        ((is.flatMap fun j => [.symbol ',', .word j.name]) ++ Token.symbol ')' :: rest)).Reads
      (is.map Identifier.canonical) rest := by
  induction is with
  | nil =>
    have h : (Token.symbol ')').kind ≠ .comma := by decide
    exact (moreParameters_end_reads_iff (forall_head?_cons h rest)).mpr ⟨_, rfl, rfl, rfl⟩
  | cons i is ih =>
    have hi := kind_word_of_isName (h i (List.mem_cons_self ..))
    have his := ih fun j hj => h j (List.mem_cons_of_mem i hj)
    exact (moreParameters_comma_reads_iff rfl).mpr ⟨_, _, _, rfl, hi, his, rfl⟩

theorem parameters_tokens (endLine : Nat) (is : List Identifier) (h : ∀ i ∈ is, IsName i.name)
    (rest : List Token) :
    (parameters endLine (Identifier.listTokens is ++ Token.symbol ')' :: rest)).Reads
      (is.map Identifier.canonical) rest := by
  cases is with
  | nil => exact (parameters_nil_reads_iff rfl).mpr ⟨_, rfl, rfl, rfl⟩
  | cons i is =>
    have hi := kind_word_of_isName (h i (List.mem_cons_self ..))
    have his := moreParameters_tokens endLine is (fun j hj => h j (List.mem_cons_of_mem i hj)) rest
    refine (parameters_cons_reads_iff ?_).mpr ⟨_, _, _, rfl, hi, his, rfl⟩
    show ((Token.word i.name).kind == .rightParen) = false
    rw [hi]
    rfl

/-! ### Expressions -/

section
variable (endLine : Nat)

/-- How the tokens of an expression are read: they start as an operand does, reading goes on with
the operators behind them, and in parentheses they are read as a whole. -/
structure Readable (e : Expr) : Prop where
  starts : ∃ t ts, e.tokens = t :: ts ∧ t.kind ∈ startsOperand
  goesOn : ∀ {p rest e' left}, p < .call → NoElse rest →
    (operators endLine p e.canonical rest).Reads e' left →
      (expression endLine p (e.tokens ++ rest)).Reads e' left
  inner : ∀ rest, (expression endLine .lowest (e.innerTokens ++ Token.symbol ')' :: rest)).Reads
    e.canonical (Token.symbol ')' :: rest)

/-- The tokens of a block are read as the block. -/
def ReadableBlock (b : Block) : Prop :=
  ∀ rest, (block endLine (b.tokens ++ rest)).Reads b.canonical rest

/-- The tokens of a statement are read as the statement, together with a semicolon behind it if
it has none of its own. -/
def ReadableStatement (s : Statement) : Prop :=
  ∀ rest, (s.isExpression = true → Ends rest) →
    ∃ t ts, s.tokens = t :: ts ∧ t.kind ≠ .rightBrace ∧
      (statement endLine t (ts ++ rest)).Reads s.canonical
        (if s.isExpression then dropSemicolon rest else rest)

end

section
variable {endLine : Nat} {e : Expr} {t : Token} {rest : List Token}

theorem ends_symbol (rest : List Token) : Ends (Token.symbol ')' :: rest) :=
  ends_rightParen rfl rest

/-- In front of what ends it, an expression is read as a whole. -/
theorem Readable.whole (h : Readable endLine e) {p : Precedence} (hp : p < .call)
    (hrest : Ends rest) : (expression endLine p (e.tokens ++ rest)).Reads e.canonical rest :=
  h.goesOn hp hrest.noElse (hrest.operators_reads endLine p e.canonical)

/-- Tokens that start with an operand start with none of the other kinds. -/
theorem Readable.nextIs_eq_false (h : Readable endLine e) {kind : TokenKind}
    (hk : kind ∉ startsOperand) (rest : List Token) : nextIs kind (e.tokens ++ rest) = false := by
  obtain ⟨t, ts, hts, ht⟩ := h.starts
  rw [hts]
  refine beq_false_of_ne fun heq => hk ?_
  rw [← heq]
  exact ht

theorem grouped_append (ts rest : List Token) :
    grouped true ts ++ rest = Token.symbol '(' :: (ts ++ Token.symbol ')' :: rest) := by
  simp [grouped]

/-- An operation brings parentheses, in which it is read. -/
theorem readable_of_inner (hop : e.isOperation = true)
    (h : ∀ rest, (expression endLine .lowest (e.innerTokens ++ Token.symbol ')' :: rest)).Reads
      e.canonical (Token.symbol ')' :: rest)) : Readable endLine e := by
  have htokens : e.tokens = grouped true e.innerTokens := by rw [Expr.tokens, hop]
  refine ⟨⟨Token.symbol '(', _, htokens, by decide⟩, fun {_ rest _ _} _ _ hoperators => ?_, h⟩
  rw [htokens, grouped_append]
  have hgroup := (operand_group_reads_iff (t := Token.symbol '(') rfl).mpr ⟨_, h rest, rfl⟩
  exact expression_reads_iff.mpr ⟨_, _, hgroup, hoperators⟩

/-- Anything else is read in parentheses as it is without them. -/
theorem readable_of_goesOn (hop : e.isOperation = false)
    (hstarts : ∃ t ts, e.tokens = t :: ts ∧ t.kind ∈ startsOperand)
    (h : ∀ {p rest e' left}, p < .call → NoElse rest →
      (operators endLine p e.canonical rest).Reads e' left →
        (expression endLine p (e.tokens ++ rest)).Reads e' left) : Readable endLine e := by
  refine ⟨hstarts, h, fun rest => ?_⟩
  have hend := ends_symbol rest
  have hwhole := h (show Precedence.lowest < .call by decide) hend.noElse
    (hend.operators_reads endLine .lowest e.canonical)
  rw [Expr.tokens, hop] at hwhole
  exact hwhole

/-- What is read as an operand, whatever follows but `else`. -/
theorem readable_of_operand {u : Token} {ts : List Token} (hop : e.isOperation = false)
    (htokens : e.tokens = u :: ts) (hu : u.kind ∈ startsOperand)
    (h : ∀ rest, NoElse rest → (operand endLine u (ts ++ rest)).Reads e.canonical rest) :
    Readable endLine e := by
  refine readable_of_goesOn hop ⟨u, ts, htokens, hu⟩ fun {p rest e' left} _ hrest hoperators => ?_
  rw [htokens]
  exact expression_reads_iff.mpr ⟨_, _, h rest hrest, hoperators⟩

theorem readable_identifier {i : Identifier} (hi : IsName i.name) :
    Readable endLine (.identifier i) := by
  have hkind := kind_word_of_isName hi
  refine readable_of_operand rfl rfl (by rw [hkind]; decide) fun rest _ => ?_
  exact (operand_identifier_reads_iff hkind).mpr ⟨rfl, rfl⟩

theorem readable_integer {n : Int64} (hn : IsNumeral t.literal n) :
    Readable endLine (.integer t n) := by
  have hkind : TokenKind.int ∈ startsOperand := by decide
  refine readable_of_operand (u := .digits t.literal) rfl rfl hkind fun rest _ => ?_
  have hvalue := integerValue?_eq_some_iff.mpr hn.value
  exact (operand_int_reads_iff rfl).mpr ⟨n, hvalue, rfl, rfl⟩

theorem readable_boolean (b : Bool) : Readable endLine (.boolean t b) := by
  refine readable_of_operand (u := .truth b) rfl rfl (by cases b <;> decide) fun rest _ => ?_
  cases b with
  | true => exact (operand_true_reads_iff rfl).mpr ⟨rfl, rfl⟩
  | false => exact (operand_false_reads_iff rfl).mpr ⟨rfl, rfl⟩

theorem Readable.unary (h : Readable endLine e) (op : UnaryOp) :
    Readable endLine (.unary t op e) := by
  refine readable_of_inner rfl fun rest => ?_
  have hend := ends_symbol rest
  have hoperand := h.whole (show Precedence.unary < .call by decide) hend
  have hunary := (operand_unary_reads_iff (unaryOp?_token op)).mpr ⟨_, hoperand, rfl⟩
  exact expression_reads_iff.mpr ⟨_, _, hunary, hend.operators_reads endLine .lowest _⟩

theorem Readable.binary {l r : Expr} (hl : Readable endLine l) (hr : Readable endLine r)
    (op : BinaryOp) : Readable endLine (.binary t l op r) := by
  refine readable_of_inner rfl fun rest => ?_
  have hend := ends_symbol rest
  have hop := binaryOp?_token op
  have hright := hr.whole (lt_call_of_binaryOp? hop) hend
  have hbinary := (operators_binary_reads_iff hop (lowest_lt_of_binaryOp? hop)).mpr
    ⟨_, _, hright, hend.operators_reads endLine .lowest (.binary op.token l.canonical op _)⟩
  have htokens : (Expr.binary t l op r).innerTokens ++ Token.symbol ')' :: rest =
      l.tokens ++ op.token :: (r.tokens ++ Token.symbol ')' :: rest) := by
    simp [Expr.innerTokens, Expr.tokens]
  rw [htokens]
  exact hl.goesOn (by decide) (noElse_cons (by cases op <;> decide) _) hbinary

theorem Readable.ifThen {c : Expr} {b : Block} (hc : Readable endLine c)
    (hb : ReadableBlock endLine b) : Readable endLine (.ifThen t c b) := by
  refine readable_of_operand rfl rfl (by decide) fun rest hrest => ?_
  have hnone : (alternative endLine (.word "if") c.canonical b.canonical rest).Reads
      (.ifThen (.word "if") c.canonical b.canonical) rest :=
    (alternative_none_reads_iff hrest).mpr ⟨rfl, rfl⟩
  rw [List.append_assoc, grouped_append]
  exact (operand_if_reads_iff rfl).mpr
    ⟨_, _, _, _, _, _, _, rfl, rfl, hc.inner _, rfl, hb rest, hnone⟩

theorem Readable.ifThenElse {c : Expr} {b a : Block} (hc : Readable endLine c)
    (hb : ReadableBlock endLine b) (ha : ReadableBlock endLine a) :
    Readable endLine (.ifThenElse t c b a) := by
  refine readable_of_operand rfl rfl (by decide) fun rest _ => ?_
  have helse : (alternative endLine (.word "if") c.canonical b.canonical
      (Token.word "else" :: (a.tokens ++ rest))).Reads
        (.ifThenElse (.word "if") c.canonical b.canonical a.canonical) rest :=
    (alternative_else_reads_iff rfl).mpr ⟨_, ha rest, rfl⟩
  rw [List.append_assoc, grouped_append, List.append_assoc]
  exact (operand_if_reads_iff rfl).mpr
    ⟨_, _, _, _, _, _, _, rfl, rfl, hc.inner _, rfl, hb _, helse⟩

theorem ReadableBlock.function {b : Block} (hb : ReadableBlock endLine b) {is : List Identifier}
    (his : ∀ i ∈ is, IsName i.name) : Readable endLine (.function t is b) := by
  refine readable_of_operand rfl rfl (by decide) fun rest _ => ?_
  have hparameters := parameters_tokens endLine is his (b.tokens ++ rest)
  rw [List.cons_append, List.append_assoc]
  exact (operand_fn_reads_iff rfl).mpr ⟨_, _, _, _, _, rfl, rfl, hparameters, hb rest, rfl⟩

/-! ### Calls -/

/-- What follows an argument ends it. -/
theorem ends_moreTokens (es : List Expr) (rest : List Token) :
    Ends (Expr.moreTokens es ++ Token.symbol ')' :: rest) := by
  cases es with
  | nil => exact ends_symbol rest
  | cons e' es => exact ends_cons (t := Token.symbol ',') rfl (by decide) _

theorem moreArguments_tokens (es : List Expr) (hes : ∀ e ∈ es, Readable endLine e)
    (rest : List Token) :
    (moreArguments endLine (Expr.moreTokens es ++ Token.symbol ')' :: rest)).Reads
      (Expr.allCanonical es) rest := by
  induction es with
  | nil =>
    have h : (Token.symbol ')').kind ≠ .comma := by decide
    exact (moreArguments_end_reads_iff (forall_head?_cons h rest)).mpr ⟨_, rfl, rfl, rfl⟩
  | cons e es ih =>
    rw [List.forall_mem_cons] at hes
    have he := hes.1.whole (show Precedence.lowest < .call by decide) (ends_moreTokens es rest)
    rw [Expr.moreTokens, List.cons_append, List.append_assoc]
    exact (moreArguments_comma_reads_iff rfl).mpr ⟨_, _, _, he, ih hes.2, rfl⟩

theorem arguments_tokens (es : List Expr) (hes : ∀ e ∈ es, Readable endLine e)
    (rest : List Token) :
    (arguments endLine (Expr.listTokens es ++ Token.symbol ')' :: rest)).Reads
      (Expr.allCanonical es) rest := by
  cases es with
  | nil => exact (arguments_nil_reads_iff rfl).mpr ⟨_, rfl, rfl, rfl⟩
  | cons e es =>
    rw [List.forall_mem_cons] at hes
    have hmore := moreArguments_tokens es hes.2 rest
    have he := hes.1.whole (show Precedence.lowest < .call by decide) (ends_moreTokens es rest)
    have hnext := hes.1.nextIs_eq_false (show TokenKind.rightParen ∉ startsOperand by decide)
      (Expr.moreTokens es ++ Token.symbol ')' :: rest)
    rw [Expr.listTokens, List.append_assoc]
    exact (arguments_cons_reads_iff hnext).mpr ⟨_, _, _, he, hmore, rfl⟩

theorem Readable.call {f : Expr} (hf : Readable endLine f) {es : List Expr}
    (hes : ∀ e ∈ es, Readable endLine e) : Readable endLine (.call t f es) := by
  have htokens : (Expr.call t f es).tokens =
      f.tokens ++ Token.symbol '(' :: (Expr.listTokens es ++ [Token.symbol ')']) := rfl
  obtain ⟨u, us, hus, hu⟩ := hf.starts
  refine readable_of_goesOn rfl ⟨u, _, by rw [htokens, hus]; rfl, hu⟩
    fun {p rest e' left} hp _ hoperators => ?_
  have harguments := arguments_tokens es hes rest
  have hcall := (operators_call_reads_iff (t := Token.symbol '(') rfl hp).mpr
    ⟨_, _, harguments, hoperators⟩
  rw [htokens, List.append_assoc, List.cons_append, List.append_assoc]
  exact hf.goesOn hp (noElse_cons (by decide) _) hcall

/-! ### Statements -/

theorem ends_semicolon (rest : List Token) : Ends (Token.symbol ';' :: rest) :=
  ends_cons rfl (by decide) rest

theorem Readable.letIn (h : Readable endLine e) {i : Identifier} (hi : IsName i.name) :
    ReadableStatement endLine (.letIn t i e) := by
  intro rest _
  have he := h.whole (show Precedence.lowest < .call by decide) (ends_semicolon rest)
  have hlet := (statement_let_reads_iff (t := Token.word "let") rfl).mpr
    ⟨_, Token.symbol '=', _, _, _, rfl, kind_word_of_isName hi, rfl, he, rfl, rfl⟩
  refine ⟨Token.word "let", _, rfl, by decide, ?_⟩
  rw [List.cons_append, List.cons_append, List.append_assoc]
  exact hlet

theorem readable_returnNothing : ReadableStatement endLine (.returnNothing t) := by
  intro rest _
  refine ⟨Token.word "return", _, rfl, by decide, ?_⟩
  exact (statement_returnNothing_reads_iff rfl rfl).mpr ⟨rfl, rfl⟩

theorem Readable.returnValue (h : Readable endLine e) :
    ReadableStatement endLine (.returnValue t e) := by
  intro rest _
  have he := h.whole (show Precedence.lowest < .call by decide) (ends_semicolon rest)
  have hreturn := (statement_returnValue_reads_iff (t := Token.word "return") rfl
    (endsReturn_of_expression he)).mpr ⟨_, _, he, rfl, rfl⟩
  refine ⟨Token.word "return", _, rfl, by decide, ?_⟩
  rw [List.append_assoc]
  exact hreturn

theorem Readable.statement (h : Readable endLine e) :
    ReadableStatement endLine (.expression t e) := by
  intro rest hrest
  obtain ⟨u, us, hu, hstart⟩ := h.starts
  have he := h.whole (show Precedence.lowest < .call by decide) (hrest rfl)
  have hkind (kind : TokenKind) (hk : kind ∉ startsOperand) : u.kind ≠ kind :=
    fun heq => hk (heq ▸ hstart)
  refine ⟨u, us, hu, hkind _ (by decide), ?_⟩
  rw [hu] at he
  have hcanonical : (Statement.expression t e).canonical = .expression u e.canonical := by
    rw [Statement.canonical, hu]
    rfl
  rw [hcanonical]
  exact (statement_expression_reads_iff (hkind _ (by decide)) (hkind _ (by decide))).mpr
    ⟨_, _, he, rfl, rfl⟩

/-- The tokens of statements are read one statement after another. -/
theorem statements_step {s : Statement} (hs : ReadableStatement endLine s) (ss : List Statement)
    (hrest : Closes rest) :
    ∃ t ts, Statement.allTokens (s :: ss) ++ rest = t :: ts ∧ t.kind ≠ .rightBrace ∧
      (statement endLine t ts).Reads s.canonical (Statement.allTokens ss ++ rest) := by
  have hsplit : Statement.allTokens (s :: ss) ++ rest = s.tokens ++
      ((if !ss.isEmpty && s.isExpression then [.symbol ';'] else []) ++
        (Statement.allTokens ss ++ rest)) := by
    simp only [Statement.allTokens, List.append_assoc]
  rw [hsplit]
  cases hexpr : s.isExpression with
  | false =>
    have hnot : s.isExpression = true → Ends (Statement.allTokens ss ++ rest) := by
      intro h
      rw [hexpr] at h
      cases h
    obtain ⟨t, ts, htokens, ht, h⟩ := hs _ hnot
    rw [hexpr, if_neg Bool.false_ne_true] at h
    rw [htokens, Bool.and_false, if_neg Bool.false_ne_true]
    exact ⟨t, _, rfl, ht, h⟩
  | true =>
    cases ss with
    | nil =>
      obtain ⟨t, ts, htokens, ht, h⟩ := hs rest fun _ => hrest.ends
      rw [hexpr, if_pos rfl, hrest.dropSemicolon] at h
      rw [htokens]
      exact ⟨t, _, rfl, ht, h⟩
    | cons s' ss =>
      obtain ⟨t, ts, htokens, ht, h⟩ :=
        hs (Token.symbol ';' :: (Statement.allTokens (s' :: ss) ++ rest)) fun _ => ends_semicolon _
      rw [hexpr, if_pos rfl] at h
      rw [htokens]
      exact ⟨t, _, rfl, ht, h⟩

theorem blockBody_tokens (ss : List Statement) (hss : ∀ s ∈ ss, ReadableStatement endLine s)
    (rest : List Token) :
    (blockBody endLine (Statement.allTokens ss ++ Token.symbol '\x7d' :: rest)).Reads
      (Statement.allCanonical ss) rest := by
  induction ss with
  | nil => exact (blockBody_end_reads_iff rfl).mpr ⟨rfl, rfl⟩
  | cons s ss ih =>
    rw [List.forall_mem_cons] at hss
    have hclose : Closes (Token.symbol '\x7d' :: rest) := closes_cons rfl rest
    obtain ⟨t, ts, htokens, ht, hs⟩ := statements_step hss.1 ss hclose
    rw [htokens]
    exact (blockBody_cons_reads_iff ht).mpr ⟨_, _, _, hs, ih hss.2, rfl⟩

/-- The tokens of statements are the tokens of a whole text. -/
theorem statements_tokens (ss : List Statement) (hss : ∀ s ∈ ss, ReadableStatement endLine s) :
    (statements endLine (Statement.allTokens ss)).Reads (Statement.allCanonical ss) [] := by
  induction ss with
  | nil =>
    rw [Statement.allTokens, statements]
    exact reads_done_iff.mpr ⟨rfl, rfl⟩
  | cons s ss ih =>
    rw [List.forall_mem_cons] at hss
    obtain ⟨t, ts, htokens, _, hs⟩ := statements_step hss.1 ss closes_nil
    rw [List.append_nil] at htokens hs
    rw [htokens]
    exact statements_reads_iff.mpr ⟨_, _, _, hs, ih hss.2, rfl⟩

theorem readableBlock_of_statements {ss : List Statement}
    (hss : ∀ s ∈ ss, ReadableStatement endLine s) : ReadableBlock endLine (.mk t ss) := by
  intro rest
  have hbody := blockBody_tokens ss hss rest
  have htokens : (Block.mk t ss).tokens ++ rest =
      Token.symbol '\x7b' :: (Statement.allTokens ss ++ Token.symbol '\x7d' :: rest) := by
    simp [Block.tokens]
  rw [htokens]
  exact block_reads_iff.mpr ⟨_, _, _, rfl, rfl, hbody, rfl⟩

end

/-! ### Trees -/

mutual

/-- Every well-formed expression can be read back. -/
theorem readable (endLine : Nat) (e : Expr) (he : e.WellFormed) : Readable endLine e := by
  cases e with
  | identifier i => exact readable_identifier he
  | integer t n => exact readable_integer he
  | boolean t b => exact readable_boolean b
  | unary t op e => exact (readable endLine e he).unary op
  | binary t l op r => exact (readable endLine l he.1).binary (readable endLine r he.2) op
  | ifThen t c b => exact (readable endLine c he.1).ifThen (readable_block endLine b he.2)
  | ifThenElse t c b a =>
    exact (readable endLine c he.1).ifThenElse (readable_block endLine b he.2.1)
      (readable_block endLine a he.2.2)
  | function t is b => exact (readable_block endLine b he.2).function he.1
  | call t f es => exact (readable endLine f he.1).call (readable_all endLine es he.2)

theorem readable_all (endLine : Nat) (es : List Expr) (hes : Expr.AllWellFormed es) :
    ∀ e ∈ es, Readable endLine e := by
  cases es with
  | nil => exact nofun
  | cons e es =>
    exact List.forall_mem_cons.mpr ⟨readable endLine e hes.1, readable_all endLine es hes.2⟩

theorem readable_block (endLine : Nat) (b : Block) (hb : b.WellFormed) :
    ReadableBlock endLine b := by
  cases b with
  | mk t ss => exact readableBlock_of_statements (readable_statements endLine ss hb)

theorem readable_statement (endLine : Nat) (s : Statement) (hs : s.WellFormed) :
    ReadableStatement endLine s := by
  cases s with
  | letIn t i e => exact (readable endLine e hs.2).letIn hs.1
  | returnNothing t => exact readable_returnNothing
  | returnValue t e => exact (readable endLine e hs).returnValue
  | expression t e => exact (readable endLine e hs).statement

theorem readable_statements (endLine : Nat) (ss : List Statement)
    (hss : Statement.AllWellFormed ss) : ∀ s ∈ ss, ReadableStatement endLine s := by
  cases ss with
  | nil => exact nofun
  | cons s ss =>
    exact List.forall_mem_cons.mpr
      ⟨readable_statement endLine s hss.1, readable_statements endLine ss hss.2⟩

end

end LetLang.Parsing

namespace LetLang

/-- Reading a printed text gives back the tree, with its canonical tokens. -/
theorem parse_render (p : Program) (hp : p.WellFormed) :
    (parse p.render).errors = [] ∧ (parse p.render).program = p.canonical := by
  have h := Parsing.statements_tokens p.statements (Parsing.readable_statements 1 p.statements hp)
  rw [parse, TokenStream.ofSource_render p hp, TokenStream.parse]
  refine ⟨h.clean, ?_⟩
  show Program.mk (Option.getD _ []) = _
  rw [h.node]
  rfl

/-- **Printing and reading are inverse.** Whatever is read is well formed, and a well-formed
program is printed so that it reads back without errors, as a program of the same shape that
prints the same text. -/
theorem parse_render_inverse :
    (∀ source, (parse source).program.WellFormed) ∧
      ∀ p : Program, p.WellFormed → (parse p.render).errors = [] ∧
        (parse p.render).program.erase .shape = p.erase .shape ∧
        (parse p.render).program.render = p.render := by
  refine ⟨parse_wellFormed, fun p hp => ?_⟩
  obtain ⟨herrors, hprogram⟩ := parse_render p hp
  rw [hprogram]
  exact ⟨herrors, p.canonical_shape, p.canonical_render⟩

/-- `if (!x) { }(007)`: a conditional without alternative that is called. -/
theorem parse_render_calledConditional :
    let t := Token.endOfInput 0
    let p : Program := ⟨[.expression t (.call t
      (.ifThen t (.unary t .not (.identifier ⟨t, "x"⟩)) (.mk t []))
      [.integer ⟨.int, "007", 3⟩ 7])]⟩
    p.WellFormed ∧ (parse p.render).errors = [] ∧
      (parse p.render).program.erase .shape = p.erase .shape ∧
      (parse p.render).program.render = p.render := by
  intro t p
  have hx : IsName "x" := ⟨⟨'x', [], rfl, rfl, List.all_eq_true.mp rfl⟩, by decide⟩
  have h7 : IsNumeral "007" 7 := ⟨by decide, List.all_eq_true.mp rfl, by decide⟩
  have hp : p.WellFormed := ⟨⟨⟨hx, trivial⟩, h7, trivial⟩, trivial⟩
  exact ⟨hp, parse_render_inverse.2 p hp⟩

end LetLang
