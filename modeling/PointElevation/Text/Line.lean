/-!
# Lines

A text is cut at every line break that Unicode knows, and a carriage return followed by a line
feed is one break.  A break ends a line, so a text that ends with one has no empty line after it.
-/

namespace PointElevation.Text

/-- Line feed, carriage return, vertical tab, form feed, the file, group and record separators,
next line, line separator and paragraph separator. -/
def isLineBreak (c : Char) : Bool :=
  (0x0A ≤ c.toNat && c.toNat ≤ 0x0D) || (0x1C ≤ c.toNat && c.toNat ≤ 0x1E)
    || c.toNat == 0x85 || c.toNat == 0x2028 || c.toNat == 0x2029

/-- Puts a character in front of the first line. -/
def consLine (c : Char) : List (List Char) → List (List Char)
  | [] => [[c]]
  | line :: rest => (c :: line) :: rest

/-- The lines of a text, without their breaks. -/
def lines : List Char → List (List Char)
  | [] => []
  | '\r' :: '\n' :: rest => [] :: lines rest
  | c :: rest => if isLineBreak c then [] :: lines rest else consLine c (lines rest)

@[simp] theorem lines_nil : lines [] = [] := by
  simp [lines]

end PointElevation.Text
