import LetLang.Text.Printable

/-! Quoted text.

Text is quoted so that every character of it can be seen: quotes and backslashes are
escaped, the common control characters have a letter of their own, and any other character
that is not printable is shown by its number. -/
namespace LetLang.Text

/-- A character as it stands between quotes. -/
def escape (c : Char) : String :=
  match c with
  | '"' => "\\\""
  | '\\' => "\\\\"
  | '\t' => "\\t"
  | '\n' => "\\n"
  | '\r' => "\\r"
  | '\x00' => "\\0"
  | c =>
    if isPrintable c then String.singleton c
    else "\\u\x7b" ++ String.ofList (Nat.toDigits 16 c.toNat) ++ "\x7d"

/-- A text between quotes. -/
def quote (s : String) : String := "\"" ++ String.join (s.toList.map escape) ++ "\""

end LetLang.Text
