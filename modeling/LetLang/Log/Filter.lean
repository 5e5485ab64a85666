import LetLang.Log.Directive

/-! What the log shows.

A filter is a list of directives. Those that can be judged without knowing which spans are
open stand: of all that concern an entry the most precise one counts, and of two equally
precise ones the later. Those that concern spans care for the spans that they describe: such
a span is shown, and while it is open it grants the level of detail that they ask for. -/
namespace LetLang.Log

/-- What the log shows. -/
abbrev Filter := List Directive

/-- A span that is open, whether the log shows it, and the levels of detail that it grants. -/
structure OpenSpan where
  span : Span
  shown : Bool
  grants : List Level

/-- Does asking for detail up to `most` include `level`? -/
def includes (level most : Level) : Bool := rank level ≤ rank most

/-- Does a span that is open grant this level? -/
def granted (outer : List OpenSpan) (level : Level) : Bool :=
  outer.any fun o => o.grants.any (includes level)

/-! ### Directives that stand -/

/-- The name of the field that a scope names. -/
def Scope.fieldName (s : Scope) : Option String := s.field.map FieldPattern.name

/-- Is `t` as precise as `s`? A longer target is more precise; of two equally long ones, one
with a field is, and a later name of a field counts for more. -/
def Scope.atMost (s t : Scope) : Bool :=
  s.target.length < t.target.length
    || s.target.length == t.target.length
      && s.fieldName.all fun a => t.fieldName.any fun b => decide (a ≤ b)

namespace Directive

/-- Can a directive be judged without knowing the open spans? -/
def stands (d : Directive) : Bool :=
  d.scope.span.isNone && d.scope.field.all fun f => f.test = .present

/-- Is an entry of this target one that the directive is about? -/
def covers (d : Directive) (target : String) : Bool := target.startsWith d.scope.target

/-- Is there a field of the name that the directive gives, if it gives one? -/
def findsField (d : Directive) (names : List String) : Bool := d.scope.fieldName.all (· ∈ names)

/-- The more precise of two directives, the second if they are equally precise. -/
def refine (found : Option Directive) (d : Directive) : Option Directive :=
  if found.all fun e => e.scope.atMost d.scope then some d else found

end Directive

/-- Do those directives that stand show an entry of this level, where `concerns` says which
of them are about it? -/
def Filter.stands (filter : Filter) (concerns : Directive → Bool) (level : Level) : Bool :=
  let standing := filter.filter fun d => d.stands && concerns d
  ((standing.foldl Directive.refine none).bind Directive.level).any (includes level)

/-! ### Directives that concern spans -/

namespace Directive

/-- Does a directive concern spans? -/
def concernsSpans (d : Directive) : Bool := d.scope.span.isSome || d.scope.field.isSome

/-- Is a span one that the directive describes, whatever its fields hold? -/
def caresFor (d : Directive) (s : Span) : Bool :=
  d.concernsSpans && d.covers s.target && d.scope.span.all (· == s.name)
    && d.findsField (s.fields.map Field.name)

/-- Does the field that the directive names, if it names one, hold what is asked for? -/
def accepts (d : Directive) (s : Span) : Bool :=
  d.scope.field.all fun f => s.fields.any fun g => g.name == f.name && f.test.passes g.value

/-- The level of detail that a span grants by the directive. -/
def grant? (d : Directive) (s : Span) : Option Level := if d.accepts s then d.level else none

end Directive

namespace Filter

/-- The directives in force: one that is repeated later, at whatever level, is not. -/
def inForce : Filter → Filter
  | [] => []
  | d :: rest => if rest.any (·.scope = d.scope) then inForce rest else d :: inForce rest

/-- Are spans, which belong to all detail, looked at? They are if all detail is asked for
somewhere, or if the fields of spans have to be known. -/
def looksAtSpans (filter : Filter) : Bool :=
  filter.any fun d => d.level = some .trace || d.scope.field.any fun f => f.test ≠ .present

/-- The directives that care for a span. -/
def caring (filter : Filter) (s : Span) : Filter :=
  if filter.looksAtSpans then filter.inForce.filter (·.caresFor s) else []

/-- Opens a span within others. -/
def openSpan (filter : Filter) (outer : List OpenSpan) (s : Span) : OpenSpan :=
  let caring := filter.caring s
  ⟨s, !caring.isEmpty || filter.stands (·.covers s.target) .trace || granted outer .trace,
    caring.filterMap (·.grant? s)⟩

/-- Does the log show an event within these spans? -/
def shows (filter : Filter) (outer : List OpenSpan) (e : Event) : Bool :=
  let names := "message" :: e.fields.map Field.name
  filter.stands (fun d => d.covers e.target && d.findsField names) e.level
    || granted outer e.level

/-! ### Settings -/

/-- Directives are separated by commas. -/
def parse? (text : String) : Option Filter :=
  ((text.splitOn ",").filter (· ≠ "")).mapM Directive.parse?

/-- Warnings and errors alone, which is what is shown if nothing is asked for. -/
def quiet : Filter := [⟨⟨"", none, none⟩, some .warn⟩]

/-- Everything this program has to show. -/
def verbose : Filter := [⟨⟨"quill", none, none⟩, some .trace⟩]

end Filter

end LetLang.Log
