import LetLang.Proofs.Canonical
import LetLang.Proofs.Scanning
import LetLang.Proofs.WellFormed

/-! The tokens of a printed text.

Cutting up what printing wrote gives the canonical tokens of the tree, in front of whatever
stands behind it: `scan_render` for a tree of any kind. What stands behind must not continue a
word, because a printed tree may end in one; inside a printed text this is so everywhere, since
a blank, a parenthesis, a comma or a semicolon follows. -/
namespace LetLang.TokenStream
open Lexeme

/-! ### Pieces -/

/-- The characters that are a token wherever they stand. -/
def standalone : List Char := ['(', ')', '\x7b', '\x7d', ',', ';']

theorem scan_standalone {c : Char} (hc : c ∈ standalone) (cs : List Char) :
    scan 1 (c :: cs) = (scan 1 cs).prepend [.symbol c] := by
  simp only [standalone, List.mem_cons, List.not_mem_nil, or_false] at hc
  rcases hc with rfl | rfl | rfl | rfl | rfl | rfl <;> exact scan_cons 1 rfl rfl

theorem scan_assign (cs : List Char) :
    scan 1 ('=' :: ' ' :: cs) = (scan 1 cs).prepend [.symbol '='] := by
  have h : scan 1 ('=' :: ' ' :: cs) = (scan 1 (' ' :: cs)).prepend [.symbol '='] :=
    scan_cons 1 rfl rfl
  rw [h, scan_blank 1 cs rfl]

/-- The character that makes another operator of `!`. -/
def isAssign (c : Char) : Bool := c == '='

theorem scan_unaryOp (op : UnaryOp) {cs : List Char} (h : Stops isAssign cs) :
    scan 1 (op.symbol.toList ++ cs) = (scan 1 cs).prepend [op.token] := by
  cases op with
  | negate => exact scan_cons 1 rfl rfl
  | not =>
    have hfirst : first '!' cs = (⟨.bang, ['!']⟩, cs) := by
      cases cs with
      | nil => rfl
      | cons c cs =>
        have hc : c ≠ '=' := ne_of_beq_false (h c rfl)
        show mark '!' (c :: cs) = _
        unfold mark
        split
        · rename_i heq _
          exact absurd heq (by decide)
        · rename_i heq _
          exact absurd heq (by decide)
        · rename_i heq
          exact absurd (List.cons.inj heq).1 hc
        · rfl
    exact scan_cons 1 hfirst rfl

theorem scan_binaryOp (op : BinaryOp) (cs : List Char) :
    scan 1 (op.symbol.toList ++ ' ' :: cs) = (scan 1 cs).prepend [op.token] := by
  have h : scan 1 (op.symbol.toList ++ ' ' :: cs) = (scan 1 (' ' :: cs)).prepend [op.token] := by
    cases op <;> exact scan_cons 1 rfl rfl
  rw [h, scan_blank 1 cs rfl]

theorem scan_printedWord (w : String) (hw : IsWord w) {cs : List Char}
    (h : Stops continuesWord cs) :
    scan 1 (w.toList ++ cs) = (scan 1 cs).prepend [.word w] := by
  obtain ⟨c, ds, hcs, hc, hds⟩ := hw
  rw [hcs, List.cons_append, scan_word 1 hc hds h, ← hcs, String.ofList_toList]
  rfl

theorem scan_numeral {s : String} {n : Int64} (hs : IsNumeral s n) {cs : List Char}
    (h : Stops continuesWord cs) :
    scan 1 (s.toList ++ cs) = (scan 1 cs).prepend [.digits s] := by
  obtain ⟨c, ds, hcs⟩ := List.exists_cons_of_ne_nil hs.nonempty
  have hc := hs.digits
  rw [hcs] at hc
  have hds := fun d hd => hc d (List.mem_cons_of_mem c hd)
  have hstop := h.mono fun c hc => isDigit_of_not_continuesWord hc
  rw [hcs, List.cons_append, scan_digits 1 (hc c (List.mem_cons_self ..)) hds hstop, ← hcs,
    String.ofList_toList]
  rfl

theorem scan_space (cs : List Char) : scan 1 (' ' :: cs) = scan 1 cs := scan_blank 1 cs rfl

theorem isWord_truth (b : Bool) : IsWord (if b then "true" else "false") := by
  cases b with
  | false => exact ⟨'f', ['a', 'l', 's', 'e'], rfl, rfl, List.all_eq_true.mp rfl⟩
  | true => exact ⟨'t', ['r', 'u', 'e'], rfl, rfl, List.all_eq_true.mp rfl⟩

section Reserved
variable {cs : List Char} (h : Stops continuesWord cs)
include h

theorem scan_let : scan 1 ('l' :: 'e' :: 't' :: cs) = (scan 1 cs).prepend [.word "let"] :=
  scan_printedWord "let" ⟨'l', ['e', 't'], rfl, rfl, List.all_eq_true.mp rfl⟩ h

theorem scan_return : scan 1 ('r' :: 'e' :: 't' :: 'u' :: 'r' :: 'n' :: cs) =
    (scan 1 cs).prepend [.word "return"] :=
  scan_printedWord "return" ⟨'r', ['e', 't', 'u', 'r', 'n'], rfl, rfl, List.all_eq_true.mp rfl⟩ h

theorem scan_if : scan 1 ('i' :: 'f' :: cs) = (scan 1 cs).prepend [.word "if"] :=
  scan_printedWord "if" ⟨'i', ['f'], rfl, rfl, List.all_eq_true.mp rfl⟩ h

theorem scan_else : scan 1 ('e' :: 'l' :: 's' :: 'e' :: cs) =
    (scan 1 cs).prepend [.word "else"] :=
  scan_printedWord "else" ⟨'e', ['l', 's', 'e'], rfl, rfl, List.all_eq_true.mp rfl⟩ h

theorem scan_fn : scan 1 ('f' :: 'n' :: cs) = (scan 1 cs).prepend [.word "fn"] :=
  scan_printedWord "fn" ⟨'f', ['n'], rfl, rfl, List.all_eq_true.mp rfl⟩ h

end Reserved

/-! ### Commas -/

/-- The characters of further items, each behind a comma and a blank. -/
def moreItems (items : List String) : List Char := items.flatMap fun s => ',' :: ' ' :: s.toList

theorem commaSeparated_cons (s : String) (items : List String) :
    (commaSeparated (s :: items)).toList = s.toList ++ moreItems items := by
  rw [commaSeparated, String.toList_intercalate]
  induction items generalizing s with
  | nil => simp [moreItems]
  | cons r rs ih =>
    have h := ih r
    simp only [List.map_cons] at h ⊢
    rw [List.intercalate_cons_cons, h]
    simp [moreItems]

theorem stops_moreItems {cs : List Char} (h : Stops continuesWord cs) (items : List String) :
    Stops continuesWord (moreItems items ++ cs) := by
  cases items with
  | nil => exact h
  | cons s ss => exact stops_cons rfl _

theorem scan_parameters (is : List Identifier) (h : ∀ i ∈ is, IsName i.name) {cs : List Char}
    (hcs : Stops continuesWord cs) :
    scan 1 ((commaSeparated (is.map Identifier.name)).toList ++ cs) =
      (scan 1 cs).prepend (Identifier.listTokens is) := by
  have hmore : ∀ js : List Identifier, (∀ i ∈ js, IsName i.name) →
      scan 1 (moreItems (js.map Identifier.name) ++ cs) =
        (scan 1 cs).prepend (js.flatMap fun j => [.symbol ',', .word j.name]) := by
    intro js hjs
    induction js with
    | nil => rfl
    | cons j js ih =>
      have hj := (hjs j (List.mem_cons_self ..)).word
      have htail := ih fun i hi => hjs i (List.mem_cons_of_mem j hi)
      show scan 1 (',' :: ' ' :: (j.name.toList ++ moreItems (js.map Identifier.name)) ++ cs) = _
      rw [List.cons_append, List.cons_append, List.append_assoc, scan_standalone (by decide),
        scan_space, scan_printedWord j.name hj (stops_moreItems hcs _), htail]
      simp only [prepend_prepend, List.flatMap_cons, List.cons_append, List.nil_append]
  cases is with
  | nil => rfl
  | cons i is =>
    have hi := (h i (List.mem_cons_self ..)).word
    rw [List.map_cons, commaSeparated_cons, List.append_assoc,
      scan_printedWord i.name hi (stops_moreItems hcs _),
      hmore is fun j hj => h j (List.mem_cons_of_mem i hj), prepend_prepend]
    rfl

/-! ### Trees -/

theorem ne_assign_of_startsWord {c : Char} (h : startsWord c = true) : isAssign c = false := by
  cases hc : isAssign c with
  | false => rfl
  | true =>
    rw [eq_of_beq hc] at h
    revert h
    decide

theorem ne_assign_of_isDigit {c : Char} (h : c.isDigit = true) : isAssign c = false := by
  cases hc : isAssign c with
  | false => rfl
  | true =>
    rw [eq_of_beq hc] at h
    revert h
    decide

theorem stops_assign_of_isWord {w : String} (h : IsWord w) (cs : List Char) :
    Stops isAssign (w.toList ++ cs) := by
  obtain ⟨c, ds, hcs, hc, _⟩ := h
  rw [hcs]
  exact stops_cons (ne_assign_of_startsWord hc) _

/-- A printed expression never starts with an equality sign, so that `!` stands alone. -/
theorem stops_assign_of_render (e : Expr) (he : e.WellFormed) (cs : List Char) :
    Stops isAssign (e.render.toList ++ cs) := by
  match e, he with
  | .identifier i, he => exact stops_assign_of_isWord he.word cs
  | .integer t n, he =>
    obtain ⟨c, ds, hcs⟩ := List.exists_cons_of_ne_nil he.nonempty
    have hc := he.digits c (by rw [hcs]; exact List.mem_cons_self ..)
    rw [Expr.render, hcs]
    exact stops_cons (ne_assign_of_isDigit hc) _
  | .boolean t b, _ => exact stops_assign_of_isWord (isWord_truth b) cs
  | .unary t op e, _ =>
    simp only [Expr.render, String.toList_append, String.reduceToList, List.append_assoc,
      List.cons_append]
    exact stops_cons rfl _
  | .binary t l op r, _ =>
    simp only [Expr.render, String.toList_append, String.reduceToList, List.append_assoc,
      List.cons_append]
    exact stops_cons rfl _
  | .ifThen t c b, _ =>
    simp only [Expr.render, String.toList_append, String.reduceToList, List.append_assoc,
      List.cons_append]
    exact stops_cons rfl _
  | .ifThenElse t c b a, _ =>
    simp only [Expr.render, String.toList_append, String.reduceToList, List.append_assoc,
      List.cons_append]
    exact stops_cons rfl _
  | .function t ps b, _ =>
    simp only [Expr.render, String.toList_append, String.reduceToList, List.append_assoc,
      List.cons_append]
    exact stops_cons rfl _
  | .call t f es, he =>
    have h := stops_assign_of_render f he.1
    simp only [Expr.render, String.toList_append, List.append_assoc]
    exact h _

mutual

/-- A printed expression is cut into its canonical tokens. -/
theorem scan_render (e : Expr) (he : e.WellFormed) {cs : List Char}
    (hcs : Stops continuesWord cs) :
    scan 1 (e.render.toList ++ cs) = (scan 1 cs).prepend e.tokens := by
  match e, he with
  | .identifier i, he => exact scan_printedWord i.name he.word hcs
  | .integer t n, he => exact scan_numeral he hcs
  | .boolean t b, _ => exact scan_printedWord _ (isWord_truth b) hcs
  | .unary t op e, he =>
    have hop := stops_assign_of_render e he (')' :: cs)
    simp only [Expr.render, String.toList_append, String.reduceToList, List.append_assoc,
      List.cons_append, List.nil_append]
    rw [scan_standalone (by decide), scan_unaryOp op hop, scan_render e he (stops_cons rfl cs),
      scan_standalone (by decide)]
    simp [Expr.tokens, Expr.innerTokens, Expr.isOperation, grouped]
  | .binary t l op r, he =>
    simp only [Expr.render, String.toList_append, String.reduceToList, List.append_assoc,
      List.cons_append, List.nil_append]
    rw [scan_standalone (by decide), scan_render l he.1 (stops_cons rfl _), scan_space,
      scan_binaryOp, scan_render r he.2 (stops_cons rfl cs), scan_standalone (by decide)]
    simp [Expr.tokens, Expr.innerTokens, Expr.isOperation, grouped]
  | .ifThen t c b, he =>
    simp only [Expr.render, String.toList_append, String.reduceToList, List.append_assoc,
      List.cons_append, List.nil_append]
    rw [scan_if (stops_cons rfl _), scan_space, scan_condition c he.1, scan_block b he.2]
    simp [Expr.tokens, Expr.innerTokens, Expr.isOperation, grouped]
  | .ifThenElse t c b a, he =>
    simp only [Expr.render, String.toList_append, String.reduceToList, List.append_assoc,
      List.cons_append, List.nil_append]
    rw [scan_if (stops_cons rfl _), scan_space, scan_condition c he.1, scan_block b he.2.1,
      scan_space, scan_else (stops_cons rfl _), scan_space, scan_block a he.2.2]
    simp [Expr.tokens, Expr.innerTokens, Expr.isOperation, grouped]
  | .function t ps b, he =>
    simp only [Expr.render, String.toList_append, String.reduceToList, List.append_assoc,
      List.cons_append, List.nil_append]
    rw [scan_fn (stops_cons rfl _), scan_standalone (by decide),
      scan_parameters ps he.1 (stops_cons rfl _), scan_standalone (by decide), scan_space,
      scan_block b he.2]
    simp [Expr.tokens, Expr.innerTokens, Expr.isOperation, grouped]
  | .call t f es, he =>
    have hes : scan 1 ((commaSeparated (Expr.renderAll es)).toList ++ ')' :: cs) =
        (scan 1 (')' :: cs)).prepend (Expr.listTokens es) :=
      scan_list es he.2 (stops_cons rfl cs)
    simp only [Expr.render, String.toList_append, String.reduceToList, List.append_assoc,
      List.cons_append, List.nil_append]
    rw [scan_render f he.1 (stops_cons rfl _), scan_standalone (by decide), hes,
      scan_standalone (by decide)]
    simp [Expr.tokens, Expr.innerTokens, Expr.isOperation, grouped]

/-- A condition stands in exactly one pair of parentheses. -/
theorem scan_condition (e : Expr) (he : e.WellFormed) (cs : List Char) :
    scan 1 ((parenthesized e.isOperation e.render).toList ++ ' ' :: cs) =
      (scan 1 cs).prepend (grouped true e.innerTokens) := by
  cases hop : e.isOperation with
  | true =>
    show scan 1 (e.render.toList ++ ' ' :: cs) = _
    rw [scan_render e he (stops_cons rfl _), scan_space, Expr.tokens, hop]
  | false =>
    have htokens : e.tokens = e.innerTokens := by
      rw [Expr.tokens, hop]
      rfl
    simp only [parenthesized, Bool.false_eq_true, if_false, String.toList_append,
      String.reduceToList, List.append_assoc, List.cons_append, List.nil_append]
    rw [scan_standalone (by decide), scan_render e he (stops_cons rfl _),
      scan_standalone (by decide), scan_space, htokens]
    simp [grouped]

theorem scan_list (es : List Expr) (hes : Expr.AllWellFormed es) {cs : List Char}
    (hcs : Stops continuesWord cs) :
    scan 1 ((commaSeparated (Expr.renderAll es)).toList ++ cs) =
      (scan 1 cs).prepend (Expr.listTokens es) := by
  match es, hes with
  | [], _ => rfl
  | e :: es, hes =>
    rw [Expr.renderAll, commaSeparated_cons, List.append_assoc,
      scan_render e hes.1 (stops_moreItems hcs _), scan_more es hes.2 hcs, prepend_prepend]
    rfl

theorem scan_more (es : List Expr) (hes : Expr.AllWellFormed es) {cs : List Char}
    (hcs : Stops continuesWord cs) :
    scan 1 (moreItems (Expr.renderAll es) ++ cs) = (scan 1 cs).prepend (Expr.moreTokens es) := by
  match es, hes with
  | [], _ => rfl
  | e :: es, hes =>
    show scan 1 (',' :: ' ' :: (e.render.toList ++ moreItems (Expr.renderAll es)) ++ cs) = _
    rw [List.cons_append, List.cons_append, List.append_assoc, scan_standalone (by decide),
      scan_space, scan_render e hes.1 (stops_moreItems hcs _), scan_more es hes.2 hcs,
      prepend_prepend, prepend_prepend]
    rfl

/-- A printed block is cut into its canonical tokens, whatever follows it. -/
theorem scan_block (b : Block) (hb : b.WellFormed) (cs : List Char) :
    scan 1 (b.render.toList ++ cs) = (scan 1 cs).prepend b.tokens := by
  match b, hb with
  | .mk t [], _ =>
    simp only [Block.render, braced, List.isEmpty_nil, if_true, String.reduceToList,
      List.cons_append, List.nil_append]
    rw [scan_standalone (by decide), scan_space, scan_standalone (by decide), prepend_prepend]
    rfl
  | .mk t (s :: ss), hb =>
    have hstop : Stops continuesWord (' ' :: '\x7d' :: cs) := stops_cons rfl _
    have hss := scan_statements (s :: ss) hb hstop
    simp only [Block.render, braced, List.isEmpty_cons, String.toList_append, String.reduceToList,
      List.append_assoc, List.cons_append, List.nil_append, Bool.false_eq_true, if_false]
    rw [scan_standalone (by decide), scan_space, hss, scan_space, scan_standalone (by decide)]
    simp [Block.tokens]

theorem scan_statement (s : Statement) (hs : s.WellFormed) {cs : List Char}
    (hcs : Stops continuesWord cs) :
    scan 1 (s.render.toList ++ cs) = (scan 1 cs).prepend s.tokens := by
  match s, hs with
  | .letIn t i e, hs =>
    simp only [Statement.render, String.toList_append, String.reduceToList, List.append_assoc,
      List.cons_append, List.nil_append]
    rw [scan_let (stops_cons rfl _), scan_space,
      scan_printedWord i.name hs.1.word (stops_cons rfl _), scan_space, scan_assign,
      scan_render e hs.2 (stops_cons rfl _), scan_standalone (by decide)]
    simp [Statement.tokens, Expr.tokens]
  | .returnNothing t, _ =>
    simp only [Statement.render, String.reduceToList, List.cons_append, List.nil_append]
    rw [scan_return (stops_cons rfl _), scan_standalone (by decide), prepend_prepend]
    rfl
  | .returnValue t e, hs =>
    simp only [Statement.render, String.toList_append, String.reduceToList, List.append_assoc,
      List.cons_append, List.nil_append]
    rw [scan_return (stops_cons rfl _), scan_space, scan_render e hs (stops_cons rfl _),
      scan_standalone (by decide)]
    simp [Statement.tokens, Expr.tokens]
  | .expression t e, hs => exact scan_render e hs hcs

theorem scan_statements (ss : List Statement) (hss : Statement.AllWellFormed ss) {cs : List Char}
    (hcs : Stops continuesWord cs) :
    scan 1 ((Statement.renderAll ss).toList ++ cs) =
      (scan 1 cs).prepend (Statement.allTokens ss) := by
  match ss, hss with
  | [], _ => rfl
  | [s], hss =>
    have hs := scan_statement s hss.1 hcs
    simp only [Statement.renderAll, Statement.separator, List.isEmpty_nil, if_true,
      String.toList_append, String.reduceToList, List.append_nil]
    rw [hs]
    simp [Statement.allTokens]
  | s :: s' :: ss, hss =>
    have hrest := scan_statements (s' :: ss) hss.2 hcs
    rw [Statement.renderAll, Statement.allTokens]
    cases hexpr : s.isExpression with
    | true =>
      simp only [Statement.separator, List.isEmpty_cons, hexpr, Bool.false_eq_true, if_false,
        if_true, String.toList_append, String.reduceToList, List.append_assoc, List.cons_append,
        List.nil_append]
      rw [scan_statement s hss.1 (stops_cons rfl _), scan_standalone (by decide), scan_space, hrest]
      simp
    | false =>
      simp only [Statement.separator, List.isEmpty_cons, hexpr, Bool.false_eq_true, if_false,
        String.toList_append, String.reduceToList, List.append_assoc, List.cons_append,
        List.nil_append]
      rw [scan_statement s hss.1 (stops_cons rfl _), scan_space, hrest]
      simp

end

/-- The tokens of a printed program, which ends on its first line. -/
theorem ofSource_render (p : Program) (hp : p.WellFormed) :
    ofSource p.render = ⟨Statement.allTokens p.statements, 1⟩ := by
  have h := scan_statements p.statements hp (stops_nil continuesWord)
  rw [List.append_nil, scan_nil] at h
  show scan 1 (Statement.renderAll p.statements).toList = _
  rw [h, prepend, List.append_nil]

end LetLang.TokenStream
