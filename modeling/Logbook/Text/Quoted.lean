/-!
# Characters in single quotes

A report that names a single character shows it in single quotes. A character that would not
show, or that would end the quotes, is escaped.

- `Text.quoted`: the quoted form of a character below `256`.
- `Text.isShown`: which of those characters stand for themselves.
-/

namespace Logbook.Text

/-- The characters below `256` that stand for themselves: all but control characters, the
no-break space and the soft hyphen. -/
def isShown (c : Char) : Bool :=
  let n := c.toNat
  (32 ≤ n && n ≤ 126) || (161 ≤ n && n ≤ 255 && n ≠ 173)

/-- A character between quotes: those with a short escape take it, and others that do not show
are given by their number. -/
def quotedBody (c : Char) : String :=
  match c with
  | '\x00' => "\\0"
  | '\t' => "\\t"
  | '\n' => "\\n"
  | '\r' => "\\r"
  | '\'' => "\\'"
  | '\\' => "\\\\"
  | _ =>
    if isShown c then c.toString
    else "\\u\x7b" ++ String.ofList (Nat.toDigits 16 c.toNat) ++ "\x7d"

/-- A character in single quotes. -/
def quoted (c : Char) : String := "'" ++ quotedBody c ++ "'"

end Logbook.Text
