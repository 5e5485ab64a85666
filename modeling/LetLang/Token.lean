/-! Tokens of the language.

A token is a kind, the exact text it was written with, and the line it stands on. Kinds
cover everything a source text can be cut into: words, numbers, operators, delimiters, the
three kinds of layout that never reach the parser (comments, line ends, blanks), characters
that start nothing, and the end of the input. -/
namespace LetLang

/-- What a piece of source text is. -/
inductive TokenKind where
  | int
  | trueWord
  | falseWord
  | letWord
  | returnWord
  | ifWord
  | elseWord
  | fnWord
  | identifier
  | assign
  | plus
  | minus
  | asterisk
  | slash
  | bang
  | equal
  | notEqual
  | less
  | greater
  | comma
  | semicolon
  | leftParen
  | rightParen
  | leftBrace
  | rightBrace
  | comment
  | newline
  | blank
  | illegal
  | endOfInput
  deriving DecidableEq

/-- The name of a kind in messages: operators and delimiters stand for themselves. -/
def TokenKind.name : TokenKind → String
  | .int => "INT"
  | .trueWord => "TRUE"
  | .falseWord => "FALSE"
  | .letWord => "LET"
  | .returnWord => "RETURN"
  | .ifWord => "IF"
  | .elseWord => "ELSE"
  | .fnWord => "FUNCTION"
  | .identifier => "IDENT"
  | .assign => "="
  | .plus => "+"
  | .minus => "-"
  | .asterisk => "*"
  | .slash => "/"
  | .bang => "!"
  | .equal => "=="
  | .notEqual => "!="
  | .less => "<"
  | .greater => ">"
  | .comma => ","
  | .semicolon => ";"
  | .leftParen => "("
  | .rightParen => ")"
  | .leftBrace => "\x7b"
  | .rightBrace => "\x7d"
  | .comment => "COMMENT"
  | .newline => "NEWLINE"
  | .blank => "WHITESPACE"
  | .illegal => "ILLEGAL"
  | .endOfInput => "EOF"

/-- Layout separates tokens and is dropped before parsing. -/
def TokenKind.isLayout : TokenKind → Bool
  | .comment | .newline | .blank => true
  | _ => false

/-- A token: its kind, its exact text, and the line it stands on. -/
structure Token where
  kind : TokenKind
  literal : String
  line : Nat
  deriving DecidableEq

/-- The token after the last one, on the line where the text ends. -/
def Token.endOfInput (line : Nat) : Token := ⟨.endOfInput, "", line⟩

end LetLang
