import LetLang.Log.Filter

/-! The log.

A line of the log shows one event and, before it, those of the spans around it that are shown
themselves. Spans alone have no lines.

The program does not look into a log. All that it knows of one is what can be asked for and what is
written then (`Writer`), and this one is the standard (`standard`). -/
namespace LetLang.Log

/-- A span as a line of the log shows it. -/
def showSpan (s : Span) : String :=
  s.name ++ "\x7b" ++ Field.renderAll s.fields ++ "\x7d"

/-- The spans around an event, from the outermost. -/
def showSpans : List Span → String
  | [] => ""
  | spans => ":".intercalate (spans.map showSpan) ++ ": "

/-- The name of a level in a column of five. -/
def column (level : Level) : String :=
  String.ofList (List.replicate (5 - level.name.length) ' ') ++ level.name

/-- The line of an event, given the spans around it from the outermost. -/
def showEvent (spans : List Span) (e : Event) : String :=
  column e.level ++ " " ++ showSpans spans ++ e.target ++ ": " ++ e.summary

/-- The spans that are shown, from the outermost; `outer` has the innermost first. -/
def shownSpans (outer : List OpenSpan) : List Span :=
  ((outer.filter (·.shown)).map OpenSpan.span).reverse

/-- The lines of a trace; `outer` are the spans open where it begins, the innermost first. -/
def linesWithin (filter : Filter) (outer : List OpenSpan) : List Entry → List String
  | [] => []
  | .enter s :: rest => linesWithin filter (filter.openSpan outer s :: outer) rest
  | .leave _ _ :: rest => linesWithin filter outer.tail rest
  | .event e :: rest =>
    let lines := linesWithin filter outer rest
    if filter.shows outer e then showEvent (shownSpans outer) e :: lines else lines

/-- The lines that a filter shows of a trace. -/
def lines (filter : Filter) (trace : List Entry) : List String := linesWithin filter [] trace

/-- The log of a trace, each line ended. -/
def text (filter : Filter) (trace : List Entry) : String :=
  String.join ((lines filter trace).map (· ++ "\n"))

/-- A way to keep a log: what is asked for if nothing else is and if all is, what a setting asks for
if it makes sense, and the text that is written of a trace. -/
structure Writer (F : Type) where
  quiet : F
  verbose : F
  parse? : String → Option F
  text : F → List Entry → String

/-- The log of this program. -/
def standard : Writer Filter := ⟨.quiet, .verbose, Filter.parse?, text⟩

end LetLang.Log
