import Mathlib.Logic.Basic
import LetLang.Parsing
import LetLang.Proofs.Erasure
import LetLang.Proofs.Steps

/-! Reading the same tokens elsewhere.

A rule of the grammar does not look at the lines of tokens, nor at any token behind the one that it
stops in front of. So it does the same when its tokens are moved to other lines; and it does the
same when other tokens follow, unless it found an error or ran out of tokens. Both are said at once
of a step on some tokens and a step on the same tokens, moved, with `more` behind them
(`Step.Tracks`). -/
namespace LetLang

/-! ### Other lines -/

/-- The token on another line. -/
def Token.relined (g : Nat → Nat) (t : Token) : Token := { t with line := g t.line }

/-- The error on another line. -/
def SyntaxError.relined (g : Nat → Nat) : SyntaxError → SyntaxError
  | .unexpectedToken expected found line => .unexpectedToken expected found (g line)
  | .noOperand found line => .noOperand found (g line)
  | .integerTooLarge literal line => .integerTooLarge literal (g line)

/-- Keeps all of a token but its line. -/
def Erasure.relined (g : Nat → Nat) : Erasure := ⟨Token.relined g, Token.relined g⟩

namespace Parsing

/-- The tokens on other lines, and more tokens behind them. -/
def moved (g : Nat → Nat) (more tokens : List Token) : List Token :=
  tokens.map (Token.relined g) ++ more

/-- If the tokens are the whole text, nothing follows them and the text ends on the line that its
last line is moved to. -/
structure Placed (whole : Prop) (g : Nat → Nat) (more : List Token) (endLine endLine' : Nat) :
    Prop where
  nil : whole → more = []
  endLine : whole → endLine' = g endLine

namespace Step

variable {α β : Type} {whole : Prop} {g : Nat → Nat} {more tokens tokens' : List Token}

/-! ### Steps -/

/-- The same step on moved tokens. -/
structure Moved (g : Nat → Nat) (more : List Token) (move : α → α) (s : Step α tokens)
    (s' : Step α tokens') : Prop where
  node : s'.node = s.node.map move
  rest : s'.rest = moved g more s.rest
  errors : s'.report.errors = s.report.errors.map (SyntaxError.relined g)

/-- The step `s'` on moved tokens is the same as `s` if these are the whole text, or if `s` found no
error and stopped in front of a token. -/
def Tracks (whole : Prop) (g : Nat → Nat) (more : List Token) (move : α → α) (s : Step α tokens)
    (s' : Step α tokens') : Prop :=
  whole ∨ (s.report.errors = [] ∧ s.rest ≠ []) → Moved g more move s s'

variable {move : α → α} {move' : β → β}

/-- Where no token is left, only the whole text matters. -/
theorem tracks_nil (hnil : whole → more = []) {s : Step α []}
    (s' : (tokens : List Token) → Step α tokens)
    (h : whole → Tracks whole g [] move s (s' [])) :
    Tracks whole g more move s (s' (moved g more [])) := by
  intro hmore
  obtain hwhole | ⟨_, hrest⟩ := hmore
  · obtain rfl := hnil hwhole
    exact h hwhole (.inl hwhole)
  · exact absurd (List.suffix_nil.mp s.rest_suffix) hrest

theorem tracks_done {a a' : α} (h : a' = move a) :
    Tracks whole g more move (done a : Step α tokens) (done a' : Step α (moved g more tokens)) :=
  fun _ => ⟨congrArg some h, rfl, rfl⟩

theorem tracks_fail {e e' : SyntaxError} (h : e' = e.relined g) :
    Tracks whole g more move (fail e : Step α tokens) (fail e' : Step α (moved g more tokens)) :=
  fun _ => ⟨rfl, rfl, congrArg List.singleton h⟩

theorem Tracks.past {s : Step α tokens} {s' : Step α tokens'} (h : Tracks whole g more move s s')
    (t t' : Token) : Tracks whole g more move (s.past t) (s'.past t') :=
  fun hmore => ⟨(h hmore).node, (h hmore).rest, (h hmore).errors⟩

theorem Tracks.within {s : Step α tokens} {s' : Step α tokens'} (h : Tracks whole g more move s s')
    (span span' : Span) : Tracks whole g more move (s.within span) (s'.within span') :=
  fun hmore => ⟨(h hmore).node, (h hmore).rest, (h hmore).errors⟩

theorem Tracks.map {s : Step α tokens} {s' : Step α tokens'} (h : Tracks whole g more move s s')
    {f f' : α → β} (hf : ∀ a, f' (move a) = move' (f a)) :
    Tracks whole g more move' (s.map f) (s'.map f') := by
  intro hmore
  obtain ⟨hnode, hrest, herrors⟩ := h hmore
  refine ⟨?_, hrest, herrors⟩
  show s'.node.map f' = (s.node.map f).map move'
  rw [hnode, Option.map_map, Option.map_map]
  exact congrArg (s.node.map ·) (funext hf)

theorem tracks_ite {c : Prop} [Decidable c] {s r : Step α tokens} {s' r' : Step α tokens'}
    (hs : c → Tracks whole g more move s s') (hr : ¬ c → Tracks whole g more move r r') :
    Tracks whole g more move (if c then s else r) (if c then s' else r') := by
  by_cases h : c
  · rw [if_pos h, if_pos h]
    exact hs h
  · rw [if_neg h, if_neg h]
    exact hr h

/-- A test of the token in front decides in the same way, if there is a token. -/
theorem tracks_test (hnil : whole → more = []) {test : List Token → Bool}
    (htest : ∀ t ts, test (moved g more (t :: ts)) = test (t :: ts)) {s r : Step α tokens}
    {s' r' : Step α (moved g more tokens)} (hs : Tracks whole g more move s s')
    (hr : Tracks whole g more move r r') :
    Tracks whole g more move (if test tokens then s else r)
      (if test (moved g more tokens) then s' else r') := by
  intro hmore
  have heq : test (moved g more tokens) = test tokens := by
    cases tokens with
    | nil =>
      obtain hwhole | ⟨_, hrest⟩ := hmore
      · rw [hnil hwhole]
        rfl
      · exact absurd (List.suffix_nil.mp (Step.rest_suffix _)) hrest
    | cons t ts => exact htest t ts
  revert hmore
  rw [heq]
  exact tracks_ite (fun _ => hs) fun _ => hr

theorem Tracks.andThen {s : Step α tokens} {s' : Step α tokens'} (hs : Tracks whole g more move s s')
    {f f' : α → (rest : List Token) → Step β rest}
    (hf : ∀ a rest, rest.length ≤ tokens.length →
      Tracks whole g more move' (f a rest) (f' (move a) (moved g more rest))) :
    Tracks whole g more move' (s.andThen fun a rest _ => f a rest)
      (s'.andThen fun a rest _ => f' a rest) := by
  intro hmore
  obtain ⟨node', rest', report', hsuffix'⟩ := s'
  unfold Step.andThen at hmore ⊢
  cases hn : s.node with
  | none =>
    rw [hn] at hmore
    obtain ⟨hnode, hrest, herrors⟩ := hs hmore
    rw [hn] at hnode
    cases hnode
    exact ⟨rfl, hrest, herrors⟩
  | some a =>
    rw [hn] at hmore
    have hlast := (f a s.rest).rest_suffix
    obtain ⟨hnode, hrest, herrors⟩ := hs <| hmore.imp_right fun h =>
      ⟨(List.append_eq_nil_iff.mp h.1).1, fun hnil => h.2 (List.suffix_nil.mp (hnil ▸ hlast))⟩
    rw [hn] at hnode
    cases hnode
    cases hrest
    obtain ⟨hnode', hrest', herrors'⟩ := hf a s.rest s.rest_length_le <|
      hmore.imp_right fun h => ⟨(List.append_eq_nil_iff.mp h.1).2, h.2⟩
    exact ⟨hnode', hrest', (congrArg₂ (· ++ ·) herrors herrors').trans List.map_append.symm⟩

/-- An item, and then a list. -/
theorem Tracks.collect {s : Step α tokens} {s' : Step α tokens'} (hs : Tracks whole g more move s s')
    {f f' : (rest : List Token) → Step (List α) rest} {moves : List α → List α}
    (hf : ∀ rest, rest.length ≤ tokens.length →
      Tracks whole g more moves (f rest) (f' (moved g more rest)))
    (hcons : ∀ a as, moves (a :: as) = move a :: moves as) :
    Tracks whole g more moves (s.collect fun rest _ => f rest) (s'.collect fun rest _ => f' rest) := by
  intro hmore
  obtain ⟨node', rest', report', hsuffix'⟩ := s'
  have hlast := (f s.rest).rest_suffix
  obtain ⟨hnode, hrest, herrors⟩ := hs <| hmore.imp_right fun h =>
    ⟨(List.append_eq_nil_iff.mp h.1).1, fun hnil => h.2 (List.suffix_nil.mp (hnil ▸ hlast))⟩
  cases hnode
  cases hrest
  obtain ⟨hnode', hrest', herrors'⟩ := hf s.rest s.rest_length_le <|
    hmore.imp_right fun h => ⟨(List.append_eq_nil_iff.mp h.1).2, h.2⟩
  refine ⟨?_, hrest', (congrArg₂ (· ++ ·) herrors herrors').trans List.map_append.symm⟩
  show (f' (moved g more s.rest)).node.map ((s.node.map move).toList ++ ·) =
    ((f s.rest).node.map (s.node.toList ++ ·)).map moves
  rw [hnode', Option.map_map, Option.map_map]
  refine congrArg ((f s.rest).node.map ·) (funext fun as => ?_)
  cases s.node with
  | none => rfl
  | some a => exact (hcons a as).symm

/-- The place behind a malformed statement does not depend on what follows it. -/
theorem recover_moved {tokens : List Token} (h : more = [] ∨ recover tokens ≠ []) :
    recover (moved g more tokens) = moved g more (recover tokens) := by
  induction tokens with
  | nil =>
    obtain rfl : more = [] := h.resolve_right fun h => h rfl
    rfl
  | cons t ts ih =>
    show recover (t.relined g :: moved g more ts) = _
    unfold recover at h ⊢
    by_cases hbrace : t.kind = .rightBrace
    · rw [if_pos hbrace]
      exact if_pos hbrace
    · rw [if_neg hbrace] at h ⊢
      by_cases hsemicolon : t.kind = .semicolon
      · rw [if_pos hsemicolon]
        exact (if_neg hbrace).trans (if_pos hsemicolon)
      · rw [if_neg hsemicolon] at h ⊢
        exact ((if_neg hbrace).trans (if_neg hsemicolon)).trans (ih h)

theorem Tracks.recovering (hnil : whole → more = []) {s : Step α tokens} {s' : Step α tokens'}
    (h : Tracks whole g more move s s') : Tracks whole g more move s.recovering s'.recovering := by
  intro hmore
  obtain ⟨node', rest', report', hsuffix'⟩ := s'
  unfold Step.recovering at hmore ⊢
  cases hn : s.node with
  | none =>
    rw [hn] at hmore
    have hrecover : more = [] ∨ recover s.rest ≠ [] := hmore.imp hnil And.right
    obtain ⟨hnode, hrest, herrors⟩ := h <| hmore.imp_right fun h =>
      ⟨h.1, fun hnil => h.2 (congrArg recover hnil)⟩
    rw [hn] at hnode
    cases hnode
    cases hrest
    exact ⟨rfl, recover_moved hrecover, herrors⟩
  | some a =>
    rw [hn] at hmore
    obtain ⟨hnode, hrest, herrors⟩ := h hmore
    rw [hn] at hnode
    cases hnode
    exact ⟨congrArg (Option.map move) hn.symm, hrest, herrors⟩

/-! ### Single tokens -/

variable {endLine endLine' : Nat}

theorem tracks_expect (he : Placed whole g more endLine endLine') (kind : TokenKind)
    (tokens : List Token) :
    Tracks whole g more (Token.relined g) (expect endLine kind tokens)
      (expect endLine' kind (moved g more tokens)) := by
  cases tokens with
  | nil =>
    refine tracks_nil he.nil (expect endLine' kind) fun hwhole => ?_
    exact tracks_fail (congrArg _ (he.endLine hwhole))
  | cons t ts => exact tracks_ite (fun _ => (tracks_done rfl).past t _) fun _ => tracks_fail rfl

theorem tracks_optionalSemicolon (hnil : whole → more = []) {a a' : α} (h : a' = move a)
    (tokens : List Token) :
    Tracks whole g more move (optionalSemicolon a tokens)
      (optionalSemicolon a' (moved g more tokens)) := by
  cases tokens with
  | nil => exact tracks_nil hnil (optionalSemicolon a') fun _ => tracks_done h
  | cons t ts => exact tracks_ite (fun _ => (tracks_done h).past t _) fun _ => tracks_done h

end Step

open Step

/-! ### Rules -/

section
variable {whole : Prop} {g : Nat → Nat} {more : List Token} {endLine endLine' : Nat}

theorem integerLiteral_tracks {t : Token} (tokens : List Token) :
    Tracks whole g more (Expr.erase (.relined g)) (integerLiteral t tokens)
      (integerLiteral (t.relined g) (moved g more tokens)) := by
  have hliteral : (t.relined g).literal = t.literal := rfl
  rw [integerLiteral, integerLiteral, hliteral]
  cases integerValue? t.literal with
  | none => exact tracks_fail rfl
  | some n => exact tracks_done rfl

theorem endOfList_tracks {α : Type} {move : List α → List α} (hnil : move [] = [])
    (he : Placed whole g more endLine endLine') (tokens : List Token) :
    Tracks whole g more move (endOfList endLine tokens) (endOfList endLine' (moved g more tokens)) :=
  (tracks_expect he .rightParen tokens).map fun _ => hnil.symm

theorem moreParameters_tracks (he : Placed whole g more endLine endLine') (tokens : List Token) :
    Tracks whole g more (List.map (Identifier.erase (.relined g))) (moreParameters endLine tokens)
      (moreParameters endLine' (moved g more tokens)) := by
  cases tokens with
  | nil =>
    refine tracks_nil he.nil (moreParameters endLine') fun _ => ?_
    rw [moreParameters, moreParameters]
    exact endOfList_tracks rfl ⟨fun _ => rfl, he.endLine⟩ []
  | cons t ts =>
    have hmoved : moved g more (t :: ts) = t.relined g :: moved g more ts := rfl
    rw [hmoved, moreParameters, moreParameters]
    refine tracks_ite (fun _ => Tracks.past ?_ t _) fun _ => endOfList_tracks rfl he (t :: ts)
    refine (tracks_expect he .identifier ts).andThen fun name rest h => ?_
    exact (moreParameters_tracks he rest).map fun _ => rfl
termination_by tokens.length

theorem parameters_tracks (he : Placed whole g more endLine endLine') (tokens : List Token) :
    Tracks whole g more (List.map (Identifier.erase (.relined g))) (parameters endLine tokens)
      (parameters endLine' (moved g more tokens)) := by
  refine tracks_test he.nil (fun _ _ => rfl) (endOfList_tracks rfl he tokens) ?_
  refine (tracks_expect he .identifier tokens).andThen fun name rest _ => ?_
  exact (moreParameters_tracks he rest).map fun _ => rfl

mutual

theorem expression_tracks (he : Placed whole g more endLine endLine') (p : Precedence)
    (tokens : List Token) :
    Tracks whole g more (Expr.erase (.relined g)) (expression endLine p tokens)
      (expression endLine' p (moved g more tokens)) := by
  cases tokens with
  | nil =>
    refine tracks_nil he.nil (expression endLine' p) fun hwhole => ?_
    rw [expression, expression]
    exact (tracks_fail (congrArg (SyntaxError.noOperand .endOfInput) (he.endLine hwhole))).within _ _
  | cons t ts =>
    have hmoved : moved g more (t :: ts) = t.relined g :: moved g more ts := rfl
    rw [hmoved, expression, expression]
    exact (expressionFrom_tracks he p t ts).past t _
termination_by 8 * tokens.length

theorem expressionFrom_tracks (he : Placed whole g more endLine endLine') (p : Precedence) (t : Token)
    (tokens : List Token) :
    Tracks whole g more (Expr.erase (.relined g)) (expressionFrom endLine p t tokens)
      (expressionFrom endLine' p (t.relined g) (moved g more tokens)) := by
  rw [expressionFrom, expressionFrom]
  refine Tracks.within ((operand_tracks he t tokens).andThen fun left rest _ => ?_) _ _
  exact operators_tracks he p left rest
termination_by 8 * tokens.length + 7

theorem operand_tracks (he : Placed whole g more endLine endLine') (t : Token) (tokens : List Token) :
    Tracks whole g more (Expr.erase (.relined g)) (operand endLine t tokens)
      (operand endLine' (t.relined g) (moved g more tokens)) := by
  have hkind : (t.relined g).kind = t.kind := rfl
  rw [operand, operand, hkind]
  split
  · exact tracks_done rfl
  · exact integerLiteral_tracks tokens
  · exact tracks_done rfl
  · exact tracks_done rfl
  · exact (expression_tracks he .unary tokens).map fun _ => rfl
  · exact (expression_tracks he .unary tokens).map fun _ => rfl
  · refine (expression_tracks he .lowest tokens).andThen fun e rest _ => ?_
    exact (tracks_expect he .rightParen rest).map fun _ => rfl
  · refine (tracks_expect he .leftParen tokens).andThen fun _ rest _ => ?_
    refine (expression_tracks he .lowest rest).andThen fun c rest _ => ?_
    refine (tracks_expect he .rightParen rest).andThen fun _ rest _ => ?_
    refine (block_tracks he rest).andThen fun b rest _ => ?_
    exact alternative_tracks he t c b rest
  · refine (tracks_expect he .leftParen tokens).andThen fun _ rest _ => ?_
    refine (parameters_tracks he rest).andThen fun ps rest _ => ?_
    exact (block_tracks he rest).map fun _ => rfl
  · exact tracks_fail rfl
termination_by 8 * tokens.length + 6

theorem alternative_tracks (he : Placed whole g more endLine endLine') (t : Token) (c : Expr)
    (b : Block) (tokens : List Token) :
    Tracks whole g more (Expr.erase (.relined g)) (alternative endLine t c b tokens)
      (alternative endLine' (t.relined g) (c.erase (.relined g)) (b.erase (.relined g))
        (moved g more tokens)) := by
  cases tokens with
  | nil =>
    refine tracks_nil he.nil (alternative endLine' _ _ _) fun _ => ?_
    rw [alternative, alternative]
    exact tracks_done rfl
  | cons u ts =>
    have hmoved : moved g more (u :: ts) = u.relined g :: moved g more ts := rfl
    rw [hmoved, alternative, alternative]
    refine tracks_ite (fun _ => Tracks.past ?_ u _) fun _ => tracks_done rfl
    exact (block_tracks he ts).map fun _ => rfl
termination_by 8 * tokens.length

theorem operators_tracks (he : Placed whole g more endLine endLine') (p : Precedence) (left : Expr)
    (tokens : List Token) :
    Tracks whole g more (Expr.erase (.relined g)) (operators endLine p left tokens)
      (operators endLine' p (left.erase (.relined g)) (moved g more tokens)) := by
  cases tokens with
  | nil =>
    refine tracks_nil he.nil (operators endLine' p _) fun _ => ?_
    rw [operators, operators]
    exact tracks_done rfl
  | cons t ts =>
    have hmoved : moved g more (t :: ts) = t.relined g :: moved g more ts := rfl
    have hkind : (t.relined g).kind = t.kind := rfl
    rw [hmoved, operators, operators, hkind]
    refine tracks_ite (fun _ => ?_) fun _ => tracks_done rfl
    split
    · refine ((expression_tracks he _ ts).andThen fun r rest _ => ?_).past t _
      exact operators_tracks he p _ rest
    · refine ((arguments_tracks he ts).andThen fun es rest _ => ?_).past t _
      exact operators_tracks he p _ rest
termination_by 8 * tokens.length + 1

theorem arguments_tracks (he : Placed whole g more endLine endLine') (tokens : List Token) :
    Tracks whole g more (Expr.eraseAll (.relined g)) (arguments endLine tokens)
      (arguments endLine' (moved g more tokens)) := by
  rw [arguments, arguments]
  refine tracks_test he.nil (fun _ _ => rfl) (endOfList_tracks rfl he tokens) ?_
  refine (expression_tracks he .lowest tokens).andThen fun e rest _ => ?_
  exact (moreArguments_tracks he rest).map fun _ => rfl
termination_by 8 * tokens.length + 2

theorem moreArguments_tracks (he : Placed whole g more endLine endLine') (tokens : List Token) :
    Tracks whole g more (Expr.eraseAll (.relined g)) (moreArguments endLine tokens)
      (moreArguments endLine' (moved g more tokens)) := by
  cases tokens with
  | nil =>
    refine tracks_nil he.nil (moreArguments endLine') fun _ => ?_
    rw [moreArguments, moreArguments]
    exact endOfList_tracks rfl ⟨fun _ => rfl, he.endLine⟩ []
  | cons t ts =>
    have hmoved : moved g more (t :: ts) = t.relined g :: moved g more ts := rfl
    rw [hmoved, moreArguments, moreArguments]
    refine tracks_ite (fun _ => Tracks.past ?_ t _) fun _ => endOfList_tracks rfl he (t :: ts)
    refine (expression_tracks he .lowest ts).andThen fun e rest _ => ?_
    exact (moreArguments_tracks he rest).map fun _ => rfl
termination_by 8 * tokens.length + 1

theorem block_tracks (he : Placed whole g more endLine endLine') (tokens : List Token) :
    Tracks whole g more (Block.erase (.relined g)) (block endLine tokens)
      (block endLine' (moved g more tokens)) := by
  rw [block, block]
  refine (tracks_expect he .leftBrace tokens).andThen fun t rest _ => ?_
  exact (blockBody_tracks he rest).map fun _ => rfl
termination_by 8 * tokens.length + 5

theorem blockBody_tracks (he : Placed whole g more endLine endLine') (tokens : List Token) :
    Tracks whole g more (Statement.eraseAll (.relined g)) (blockBody endLine tokens)
      (blockBody endLine' (moved g more tokens)) := by
  cases tokens with
  | nil =>
    refine tracks_nil he.nil (blockBody endLine') fun hwhole => ?_
    rw [blockBody, blockBody]
    exact tracks_fail (congrArg _ (he.endLine hwhole))
  | cons t ts =>
    have hmoved : moved g more (t :: ts) = t.relined g :: moved g more ts := rfl
    rw [hmoved, blockBody, blockBody]
    refine tracks_ite (fun _ => (tracks_done rfl).past t _) fun _ => Tracks.past ?_ t _
    exact (statement_tracks he t ts).collect (fun rest _ => blockBody_tracks he rest)
      fun _ _ => rfl
termination_by 8 * tokens.length + 4

theorem statement_tracks (he : Placed whole g more endLine endLine') (t : Token)
    (tokens : List Token) :
    Tracks whole g more (Statement.erase (.relined g)) (statement endLine t tokens)
      (statement endLine' (t.relined g) (moved g more tokens)) := by
  have hkind : (t.relined g).kind = t.kind := rfl
  rw [statement, statement, hkind]
  refine Tracks.within ?_ _ _
  split
  · refine ((tracks_expect he .identifier tokens).recovering he.nil).andThen fun name rest _ => ?_
    refine ((tracks_expect he .assign rest).recovering he.nil).andThen fun _ rest _ => ?_
    refine (expression_tracks he .lowest rest).andThen fun e rest _ => ?_
    exact tracks_optionalSemicolon he.nil rfl rest
  · refine tracks_test he.nil (fun _ _ => rfl) (tracks_optionalSemicolon he.nil rfl tokens) ?_
    refine (expression_tracks he .lowest tokens).andThen fun e rest _ => ?_
    exact tracks_optionalSemicolon he.nil rfl rest
  · refine (expressionFrom_tracks he .lowest t tokens).andThen fun e rest _ => ?_
    exact tracks_optionalSemicolon he.nil rfl rest
termination_by 8 * tokens.length + 8

end

theorem statements_tracks (he : Placed whole g more endLine endLine') (tokens : List Token) :
    Tracks whole g more (Statement.eraseAll (.relined g)) (statements endLine tokens)
      (statements endLine' (moved g more tokens)) := by
  cases tokens with
  | nil =>
    refine tracks_nil he.nil (statements endLine') fun _ => ?_
    rw [statements, statements]
    exact tracks_done rfl
  | cons t ts =>
    have hmoved : moved g more (t :: ts) = t.relined g :: moved g more ts := rfl
    rw [hmoved, statements, statements]
    refine Tracks.past ?_ t _
    exact (statement_tracks he t ts).collect (fun rest _ => statements_tracks he rest)
      fun _ _ => rfl
termination_by tokens.length

end

end Parsing

end LetLang
