import LetLang.Proofs.Exactness
import LetLang.Proofs.Grouping
import LetLang.Proofs.Provenance
import LetLang.Proofs.RoundTrip

/-! Printed values read back as themselves.

The text of a value is a program of its own. Digits are an integer literal, and a minus sign in
front of them is a negation, so the text of a number has that number as its value wherever it is
run; only the least number has no text to be read from, since its digits alone are too large a
number. The text of a function is that of the function literal that it was made of, and run in the
frame that the function captured it makes the function again (`values_read_back`). -/
namespace LetLang

open Parsing Step

/-! ### A text that is one expression -/

/-- An operand alone is read as one statement. -/
theorem Operations.Operand.parse {source : String} {tokens : List Token} {e : Expr}
    (h : Operand tokens e) (hsource : (TokenStream.ofSource source).tokens = tokens) :
    (parse source).errors = [] ∧ ∃ t, (parse source).program.statements = [.expression t e] := by
  have hends : Ends [] := closes_nil.ends
  have hlowest : Precedence.lowest < .call := by decide
  have hreads := h.reads hends.noElse nofun hlowest
    (hends.operators_reads (TokenStream.ofSource source).endLine .lowest e)
  rw [List.append_nil] at hreads
  obtain ⟨t, ts, rfl, ht⟩ := h.head
  have hstatements : (statements (TokenStream.ofSource source).endLine
      (TokenStream.ofSource source).tokens).Reads [.expression t e] [] := by
    rw [hsource]
    exact statements_reads_expression ht hreads
  obtain ⟨hprogram, herrors⟩ := parse_of_reads hstatements
  exact ⟨herrors, t, congrArg Program.statements hprogram⟩

/-- A text that is one expression has the value of the expression. -/
theorem execute_expression {source : String} {t : Token} {e : Expr}
    (herrors : (parse source).errors = [])
    (hstatements : (parse source).program.statements = [.expression t e]) {depth : Nat}
    {i : FrameId} {s : Store} {v : Value} {m' : Machine}
    (he : e.eval (Closure.call depth) i ((Machine.on s).recording (.evaluating (.expression t e))) =
      .ok v m') :
    (execute depth i s source).outcome = some v.outcome := by
  have hstatement : (Statement.expression t e).eval (Closure.call depth) i (.on s) = .ok v m' := by
    rw [Statement.eval.eq_def]
    exact he
  have hall : Statement.evalAll (Closure.call depth) i .null [.expression t e] (.on s) = .ok v m' := by
    simp only [Statement.evalAll, Run.bind_apply, hstatement]
    rfl
  rw [(execute_of_errors_eq_nil depth i s herrors).1, Program.eval, hstatements, hall]
  rfl

/-! ### Numbers and truth values -/

/-- The decimal digits of a number are an integer literal. -/
theorem isNumeral_repr {n : Nat} {k : Int64} (h : (n : Int) = k.toInt) : IsNumeral n.repr k := by
  refine ⟨fun hempty => ?_, fun c hc => ?_, ?_⟩
  · exact Nat.repr_ne_empty (String.toList_eq_nil_iff.mp hempty)
  · rw [Nat.toList_repr] at hc
    exact Nat.isDigit_of_mem_toDigits (by decide) (by decide) hc
  · rw [Nat.toList_repr, Nat.ofDigitChars_ten_toDigits]
    exact h

theorem ofSource_digits {n : Nat} {k : Int64} (h : (n : Int) = k.toInt) :
    (TokenStream.ofSource n.repr).tokens = [.digits n.repr] := by
  have hscan := TokenStream.scan_numeral (isNumeral_repr h) (stops_nil Lexeme.continuesWord)
  rw [List.append_nil, TokenStream.scan_nil] at hscan
  exact congrArg TokenStream.tokens hscan

/-- A minus sign in front of digits is a token of its own. -/
theorem ofSource_negated {n : Nat} {k : Int64} (h : (n : Int) = k.toInt) :
    (TokenStream.ofSource ("-" ++ n.repr)).tokens = [UnaryOp.negate.token, .digits n.repr] := by
  have hdigits := ofSource_digits h
  have hscan : TokenStream.scan 1 ('-' :: n.repr.toList) =
      (TokenStream.scan 1 n.repr.toList).prepend [UnaryOp.negate.token] :=
    TokenStream.scan_cons 1 rfl rfl
  have hlist : ("-" ++ n.repr).toList = '-' :: n.repr.toList := String.toList_append
  show (TokenStream.scan 1 ("-" ++ n.repr).toList).tokens = _
  rw [hlist, hscan]
  exact congrArg (_ :: ·) hdigits

theorem Value.ofInt_toInt (n : Int64) (e : RuntimeError) : ofInt n.toInt e = .ok (.integer n) := by
  rw [ofInt, integer?, if_pos ⟨n.minValue_le_toInt, n.toInt_le⟩, Int64.ofInt_toInt]

/-- Every number but the least one has an opposite. -/
theorem toInt_neg_of_ne_minValue {n : Int64} (hn : n ≠ Int64.minValue) : (-n).toInt = -n.toInt := by
  have hlow := n.le_toInt
  have hhigh := n.toInt_lt
  have hne : n.toInt ≠ -2 ^ 63 := fun h => hn (Int64.toInt_inj.mp h)
  rw [Int64.toInt_neg]
  exact Int.bmod_eq_of_le (by omega) (by omega)

/-- A number that is not the least one has itself as the value of its text. -/
theorem execute_integer {n : Int64} (hn : n ≠ Int64.minValue) (depth : Nat) (i : FrameId)
    (s : Store) :
    (execute depth i s (Value.integer n).render).outcome = some (.ok (.integer n)) := by
  have hrender : (Value.integer n).render = n.toInt.repr := rfl
  rw [hrender, Int.repr_eq_if]
  split
  · rename_i hle
    have hk : (n.toInt.toNat : Int) = n.toInt := Int.toNat_of_nonneg hle
    have hvalue := (isNumeral_repr hk).value
    have hoperand : Operations.Operand [.digits n.toInt.toNat.repr] (.integer (.digits _) n) :=
      .applied (.primary (.integer rfl hvalue))
    obtain ⟨herrors, t, hstatements⟩ := hoperand.parse (ofSource_digits hk)
    exact execute_expression herrors hstatements rfl
  · rename_i hlt
    -- The digits denote the number without its sign, which is one too, as `n` is not the least.
    have hneg : (-n).toInt = -n.toInt := toInt_neg_of_ne_minValue hn
    have hk : ((-n.toInt).toNat : Int) = (-n).toInt := by
      rw [hneg]
      exact Int.toNat_of_nonneg (by omega)
    have hvalue := (isNumeral_repr hk).value
    have hoperand : Operations.Operand [UnaryOp.negate.token, .digits (-n.toInt).toNat.repr]
        (.unary _ .negate (.integer (.digits _) (-n))) :=
      .unary rfl (.applied (.primary (.integer rfl hvalue)))
    obtain ⟨herrors, t, hstatements⟩ := hoperand.parse (ofSource_negated hk)
    have happly : UnaryOp.negate.apply (.integer (-n)) = .ok (.integer n) := by
      rw [UnaryOp.apply, hneg, Int.neg_neg]
      exact Value.ofInt_toInt n _
    have heval (m : Machine) : (Expr.unary UnaryOp.negate.token .negate
        (.integer (.digits (-n.toInt).toNat.repr) (-n))).eval (Closure.call depth) i m =
          .ok (.integer n) m := by
      rw [Expr.eval, Expr.eval, pure_bind, happly]
      rfl
    exact execute_expression herrors hstatements (heval _)

theorem execute_boolean (b : Bool) (depth : Nat) (i : FrameId) (s : Store) :
    (execute depth i s (Value.boolean b).render).outcome = some (.ok (.boolean b)) := by
  have hword := TokenStream.scan_printedWord _ (TokenStream.isWord_truth b)
    (stops_nil Lexeme.continuesWord)
  rw [List.append_nil, TokenStream.scan_nil] at hword
  have hoperand : Operations.Operand [Token.truth b] (.boolean (.truth b) b) := by
    cases b with
    | false => exact .applied (.primary (.falseWord rfl))
    | true => exact .applied (.primary (.trueWord rfl))
  obtain ⟨herrors, t, hstatements⟩ := hoperand.parse (congrArg TokenStream.tokens hword)
  exact execute_expression herrors hstatements rfl

/-- The digits of the least number are too large a number, though a minus sign is in front. -/
theorem execute_minValue (depth : Nat) (i : FrameId) (s : Store) :
    (execute depth i s (Value.integer Int64.minValue).render).outcome =
      some (.error (.malformed [.integerTooLarge "9223372036854775808" 1])) := by
  have herrors : (parse (Value.integer Int64.minValue).render).errors =
      [.integerTooLarge "9223372036854775808" 1] := by
    decide +kernel
  have hne : (parse (Value.integer Int64.minValue).render).errors ≠ [] := by
    rw [herrors]
    exact List.cons_ne_nil _ _
  rw [(execute_of_errors_ne_nil depth i s hne).1, herrors]

/-! ### Functions -/

/-- The text of the function is that of one of the literals, of which it was made. It is read
without errors as one statement, a function literal alone; and run in the frame that the function
captured, it makes a function of the same parameters and of a body of the same shape, which captures
the same frame. -/
structure Closure.ReadsBack (literals : Expr → Prop) (g : Closure) : Prop where
  literal : ∃ l, literals l ∧ l.Makes g ∧ g.render = l.render
  errors : (parse g.render).errors = []
  statement : ∃ t u ps b, (parse g.render).program.statements = [.expression t (.function u ps b)]
  again : ∀ (depth : Nat) (s : Store), ∃ g' : Closure,
    (execute depth g.frame s g.render).outcome = some (.ok (.function g')) ∧
      g'.parameters.map Identifier.name = g.parameters.map Identifier.name ∧
      g'.body.erase .shape = g.body.erase .shape ∧ g'.frame = g.frame

theorem Block.canonical_shape (b : Block) : b.canonical.erase .shape = b.erase .shape := by
  have h := congrArg (Block.erase .shape) b.canonical_erase
  rwa [Block.erase_erase, Block.erase_erase] at h

theorem Closure.readsBack {literals : Expr → Prop} {g : Closure} {l : Expr} (hl : literals l)
    (hmakes : l.Makes g) (hwellFormed : l.WellFormed) : g.ReadsBack literals := by
  cases l with
  | function t ps b =>
    obtain ⟨rfl, rfl⟩ := hmakes
    let p : Program := ⟨[.expression t (.function t g.parameters g.body)]⟩
    have hrender : p.render = g.render := by
      simp [p, Program.render, Statement.renderAll, Statement.render, Statement.separator, Expr.render,
        Closure.render]
    have hp : p.WellFormed := ⟨hwellFormed, trivial⟩
    obtain ⟨herrors, hprogram⟩ := parse_render p hp
    rw [hrender] at herrors hprogram
    have hstatements := congrArg Program.statements hprogram
    refine ⟨⟨_, hl, ⟨rfl, rfl⟩, rfl⟩, herrors, ⟨_, _, _, _, hstatements⟩, fun depth s => ?_⟩
    refine ⟨_, execute_expression herrors hstatements rfl, ?_, ?_, rfl⟩
    · rw [List.map_map]
      rfl
    · exact g.body.canonical_shape
  | _ => exact hmakes.elim

/-! ### Values -/

/-- What the text of a value that was made of the literals comes to when it is read. -/
def Value.ReadsBack (literals : Expr → Prop) (v : Value) : Prop :=
  match v with
  | .integer n => n ≠ Int64.minValue → ∀ (depth : Nat) (i : FrameId) (s : Store),
    (execute depth i s v.render).outcome = some (.ok v)
  | .boolean _ => ∀ (depth : Nat) (i : FrameId) (s : Store),
    (execute depth i s v.render).outcome = some (.ok v)
  | .function g => g.ReadsBack literals
  | _ => True

/-- **Printed values read back as themselves.** In a store where all functions were made of function
literals of some texts, this holds after one more text was run, and the value that comes of it reads
back: a number or a truth value has itself as the value of its text, wherever that is run, and a
function is made again. Only the least number is not, which is rejected as too large. -/
theorem values_read_back {sources : List String} {s : Store}
    (h : s.Binds (Value.MadeOf (literalsOf sources))) (depth : Nat) (frame : FrameId)
    (source : String) :
    (execute depth frame s source).store.Binds (Value.MadeOf (literalsOf (source :: sources))) ∧
      (∀ v, (execute depth frame s source).outcome = some (.ok v) →
        v.ReadsBack (literalsOf (source :: sources))) ∧
      ∀ (depth : Nat) (i : FrameId) (s : Store),
        (execute depth i s (Value.integer Int64.minValue).render).outcome =
          some (.error (.malformed [.integerTooLarge "9223372036854775808" 1])) := by
  obtain ⟨hstore, hvalue⟩ := h.execute depth frame source
  refine ⟨hstore, fun v hv => ?_, execute_minValue⟩
  cases v with
  | integer n => exact execute_integer
  | boolean b => exact execute_boolean b
  | function g =>
    obtain ⟨l, hl, hmakes⟩ := hvalue _ hv
    exact Closure.readsBack hl hmakes (wellFormed_of_literalsOf hl)
  | null => trivial
  | error e => trivial

/-- A function that is the value of a call, with a number in its body that is written with zeros in
front. -/
theorem values_read_back_call :
    let source := "let f = fn(x) \x7b fn(y, x) \x7b return -x < 007 \x7d \x7d; f(true)"
    let x := execute 1 Store.rootFrame .root source
    Store.root.Binds (Value.MadeOf (literalsOf [])) ∧
      (x.outcome.bind Except.toOption).map Value.render =
        some "fn(y, x) \x7b return ((-x) < 007); \x7d" ∧
      x.store.Binds (Value.MadeOf (literalsOf [source])) ∧
        (∀ v, x.outcome = some (.ok v) → v.ReadsBack (literalsOf [source])) ∧
        ∀ (depth : Nat) (i : FrameId) (s : Store),
          (execute depth i s (Value.integer Int64.minValue).render).outcome =
            some (.error (.malformed [.integerTooLarge "9223372036854775808" 1])) :=
  ⟨Store.Binds.root, by decide +kernel, values_read_back Store.Binds.root 1 Store.rootFrame _⟩

end LetLang
