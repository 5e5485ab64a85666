import LetLang.Operator

/-! The grammar of the language.

`Derives n ks` says that the kinds `ks` can be derived from the nonterminal `n`. The grammar is
ambiguous: it knows no precedences, and where a statement may end without a semicolon it does
not say whether what comes next still belongs to it. Only a `return` without an operand and
without a semicolon depends on what comes next, and so statements are derived together with
the kind that follows them.

`Spells ks tokens rest` ties kinds to tokens: it reads `ks` off the front of `tokens`. -/
namespace LetLang.Grammar

/-! ### Derivations -/

/-- What can be derived; statements come with the kind that follows, `none` at the end. -/
inductive Nonterminal where
  | statements (next : Option TokenKind)
  | statement (next : Option TokenKind)
  | block
  | expression
  | arguments
  | expressions
  | parameters
  | identifiers

/-- A whole text is statements up to its end. -/
def Nonterminal.program : Nonterminal := .statements none

/-- The operators between two operands. -/
def binaryKinds : List TokenKind :=
  [.plus, .minus, .asterisk, .slash, .equal, .notEqual, .less, .greater]

/-- How a statement ends: without a semicolon or with one. -/
def endings : List (List TokenKind) := [[], [.semicolon]]

/-- The kinds can be derived from the nonterminal. -/
inductive Derives : Nonterminal → List TokenKind → Prop where
  | noStatement {next : Option TokenKind} : Derives (.statements next) []
  | statements {next : Option TokenKind} {s ss : List TokenKind}
      (hs : Derives (.statement (ss.head?.or next)) s) (hss : Derives (.statements next) ss) :
      Derives (.statements next) (s ++ ss)
  | letIn {next : Option TokenKind} {e ending : List TokenKind}
      (he : Derives .expression e) (hending : ending ∈ endings) :
      Derives (.statement next) (.letWord :: .identifier :: .assign :: (e ++ ending))
  | returnValue {next : Option TokenKind} {e ending : List TokenKind}
      (he : Derives .expression e) (hending : ending ∈ endings) :
      Derives (.statement next) (.returnWord :: (e ++ ending))
  | returnNothing {next : Option TokenKind} :
      Derives (.statement next) [.returnWord, .semicolon]
  | returnLast {next : Option TokenKind} (hnext : next = none ∨ next = some .rightBrace) :
      Derives (.statement next) [.returnWord]
  | expressionStatement {next : Option TokenKind} {e ending : List TokenKind}
      (he : Derives .expression e) (hending : ending ∈ endings) :
      Derives (.statement next) (e ++ ending)
  | block {ss : List TokenKind} (hss : Derives (.statements (some .rightBrace)) ss) :
      Derives .block (.leftBrace :: (ss ++ [.rightBrace]))
  | identifier : Derives .expression [.identifier]
  | integer : Derives .expression [.int]
  | trueWord : Derives .expression [.trueWord]
  | falseWord : Derives .expression [.falseWord]
  | not {e : List TokenKind} (he : Derives .expression e) : Derives .expression (.bang :: e)
  | negate {e : List TokenKind} (he : Derives .expression e) : Derives .expression (.minus :: e)
  | binary {l r : List TokenKind} {k : TokenKind} (hl : Derives .expression l)
      (hk : k ∈ binaryKinds) (hr : Derives .expression r) : Derives .expression (l ++ k :: r)
  | call {f es : List TokenKind} (hf : Derives .expression f) (hes : Derives .arguments es) :
      Derives .expression (f ++ .leftParen :: (es ++ [.rightParen]))
  | group {e : List TokenKind} (he : Derives .expression e) :
      Derives .expression (.leftParen :: (e ++ [.rightParen]))
  | ifThen {c b : List TokenKind} (hc : Derives .expression c) (hb : Derives .block b) :
      Derives .expression (.ifWord :: .leftParen :: (c ++ .rightParen :: b))
  | ifThenElse {c b a : List TokenKind} (hc : Derives .expression c) (hb : Derives .block b)
      (ha : Derives .block a) :
      Derives .expression (.ifWord :: .leftParen :: (c ++ .rightParen :: (b ++ .elseWord :: a)))
  | function {ps b : List TokenKind} (hps : Derives .parameters ps) (hb : Derives .block b) :
      Derives .expression (.fnWord :: .leftParen :: (ps ++ .rightParen :: b))
  | noArgument : Derives .arguments []
  | arguments {es : List TokenKind} (hes : Derives .expressions es) : Derives .arguments es
  | lastExpression {e : List TokenKind} (he : Derives .expression e) : Derives .expressions e
  | expressions {e es : List TokenKind} (he : Derives .expression e)
      (hes : Derives .expressions es) : Derives .expressions (e ++ .comma :: es)
  | noParameter : Derives .parameters []
  | parameters {ps : List TokenKind} (hps : Derives .identifiers ps) : Derives .parameters ps
  | lastIdentifier : Derives .identifiers [.identifier]
  | identifiers {ps : List TokenKind} (hps : Derives .identifiers ps) :
      Derives .identifiers (.identifier :: .comma :: ps)

theorem mem_binaryKinds_iff (k : TokenKind) : k ∈ binaryKinds ↔ ∃ op, k.binaryOp? = some op := by
  cases k <;> simp [binaryKinds, TokenKind.binaryOp?]

/-! ### Spelling -/

/-- If it is a number, it is no larger than the largest 64-bit integer. -/
def Fits (t : Token) : Prop :=
  t.kind = .int → Nat.ofDigitChars 10 t.literal.toList 0 ≤ Int64.maxValue.toInt

/-- The tokens in front of `rest` are of the kinds `ks`, and their numbers fit. -/
def Spells : List TokenKind → (tokens rest : List Token) → Prop
  | [], tokens, rest => tokens = rest
  | k :: ks, tokens, rest => ∃ t ts, tokens = t :: ts ∧ t.kind = k ∧ Fits t ∧ Spells ks ts rest

theorem fits_of_ne_int {t : Token} (h : t.kind ≠ .int) : Fits t := fun ht => absurd ht h

@[simp] theorem spells_nil_iff {tokens rest : List Token} :
    Spells [] tokens rest ↔ tokens = rest := Iff.rfl

@[simp] theorem spells_cons_iff {k : TokenKind} {ks : List TokenKind} {tokens rest : List Token} :
    Spells (k :: ks) tokens rest ↔
      ∃ t ts, tokens = t :: ts ∧ t.kind = k ∧ Fits t ∧ Spells ks ts rest := Iff.rfl

@[simp] theorem spells_append_iff {ks js : List TokenKind} {tokens rest : List Token} :
    Spells (ks ++ js) tokens rest ↔ ∃ mid, Spells ks tokens mid ∧ Spells js mid rest := by
  induction ks generalizing tokens with
  | nil => simp
  | cons k ks ih =>
    simp only [List.cons_append, spells_cons_iff, ih]
    constructor
    · intro ⟨t, ts, ht, hk, hfits, mid, hks, hjs⟩
      exact ⟨mid, ⟨t, ts, ht, hk, hfits, hks⟩, hjs⟩
    · intro ⟨mid, ⟨t, ts, ht, hk, hfits, hks⟩, hjs⟩
      exact ⟨t, ts, ht, hk, hfits, mid, hks, hjs⟩

/-- One more token that is no number. -/
theorem Spells.cons {k : TokenKind} {ks : List TokenKind} {t : Token} {tokens rest : List Token}
    (h : Spells ks tokens rest) (ht : t.kind = k) (hk : k ≠ .int) :
    Spells (k :: ks) (t :: tokens) rest :=
  ⟨t, tokens, rfl, ht, fits_of_ne_int (ht ▸ hk), h⟩

theorem Spells.append {ks js : List TokenKind} {tokens mid rest : List Token}
    (h : Spells ks tokens mid) (h' : Spells js mid rest) : Spells (ks ++ js) tokens rest :=
  spells_append_iff.mpr ⟨mid, h, h'⟩

/-- Behind some kinds comes what comes behind the tokens that they are read off. -/
theorem Spells.head? {ks : List TokenKind} {tokens rest : List Token} (h : Spells ks tokens rest) :
    tokens.head?.map Token.kind = ks.head?.or (rest.head?.map Token.kind) := by
  cases ks with
  | nil =>
    rw [spells_nil_iff.mp h]
    rfl
  | cons k ks =>
    obtain ⟨t, ts, rfl, hk, _⟩ := h
    rw [← hk]
    rfl

/-- The tokens in front of what is left are of the kinds that are read off. -/
theorem Spells.exists_taken {ks : List TokenKind} {tokens rest : List Token}
    (h : Spells ks tokens rest) : ∃ taken, tokens = taken ++ rest ∧ taken.map Token.kind = ks := by
  induction ks generalizing tokens with
  | nil => exact ⟨[], h, rfl⟩
  | cons k ks ih =>
    obtain ⟨t, ts, rfl, hk, _, h⟩ := h
    obtain ⟨taken, rfl, htaken⟩ := ih h
    exact ⟨t :: taken, rfl, by rw [List.map_cons, hk, htaken]⟩

/-- All tokens are spelled by their kinds if their numbers fit. -/
theorem spells_all_iff {ks : List TokenKind} {tokens : List Token} :
    Spells ks tokens [] ↔ (∀ t ∈ tokens, Fits t) ∧ tokens.map Token.kind = ks := by
  induction tokens generalizing ks with
  | nil => cases ks <;> simp
  | cons t ts ih =>
    cases ks with
    | nil => simp
    | cons k ks =>
      simp only [spells_cons_iff, List.cons.injEq, List.forall_mem_cons, List.map_cons]
      constructor
      · intro ⟨_, _, ⟨rfl, rfl⟩, hk, hfits, h⟩
        obtain ⟨hts, hks⟩ := ih.mp h
        exact ⟨⟨hfits, hts⟩, hk, hks⟩
      · intro ⟨⟨hfits, hts⟩, hk, hks⟩
        exact ⟨t, ts, ⟨rfl, rfl⟩, hk, hfits, ih.mpr ⟨hts, hks⟩⟩

end LetLang.Grammar
