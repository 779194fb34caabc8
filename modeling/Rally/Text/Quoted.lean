import Rally.Text.Printable
/-!
# Quoted text

A text between quotation marks, with escapes for the quotation mark, the backslash, common
controls and every character that would not show.
-/

namespace Rally

namespace Text

/-- The spelling of one character between quotation marks. -/
def quoteChar (c : Char) : String :=
  if c = '\x00' then "\\0"
  else if c = '\t' then "\\t"
  else if c = '\n' then "\\n"
  else if c = '\x0d' then "\\r"
  else if c = '"' then "\\\""
  else if c = '\\' then "\\\\"
  else if isSpelled c then
    "\\u\x7b" ++ String.ofList (Nat.toDigits 16 c.toNat) ++ "\x7d"
  else c.toString

/-- The text between quotation marks. -/
def quote (text : String) : String :=
  "\"" ++ text.foldl (fun quoted c => quoted ++ quoteChar c) "" ++ "\""

end Text

end Rally
