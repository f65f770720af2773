/-!
# Blanks

Which characters may be trimmed off a text.  Three sets occur: all blanks of Unicode together with
the four information separators, used for listing lines and settings; the White_Space property,
which leaves the separators out; and the six blanks of ASCII.
-/

namespace PointElevation.Text

/-- Space, tab, line feed, vertical tab, form feed and carriage return. -/
def isAsciiBlank (c : Char) : Bool :=
  c == ' ' || (0x09 ≤ c.toNat && c.toNat ≤ 0x0D)

/-- Characters with the Unicode property White_Space. -/
def isWhiteSpace (c : Char) : Bool :=
  isAsciiBlank c || c.toNat == 0x85 || c.toNat == 0xA0 || c.toNat == 0x1680
    || (0x2000 ≤ c.toNat && c.toNat ≤ 0x200A) || c.toNat == 0x2028 || c.toNat == 0x2029
    || c.toNat == 0x202F || c.toNat == 0x205F || c.toNat == 0x3000

/-- White space and the information separators U+001C to U+001F. -/
def isBlank (c : Char) : Bool :=
  isWhiteSpace c || (0x1C ≤ c.toNat && c.toNat ≤ 0x1F)

/-- Drops characters of a class from both ends. -/
def trimBy (blank : Char → Bool) (s : List Char) : List Char :=
  ((s.dropWhile blank).reverse.dropWhile blank).reverse

/-- Drops blanks from both ends. -/
def trim (s : List Char) : List Char := trimBy isBlank s

/-- Drops blanks from the end. -/
def trimRight (s : List Char) : List Char := (s.reverse.dropWhile isBlank).reverse

/-- A letter of ASCII in lower case; every other character is left alone.  The words this is used
on hold no letter that a character outside ASCII would be lowered to. -/
def lower (s : List Char) : List Char := s.map Char.toLower

@[simp] theorem trimBy_nil (blank : Char → Bool) : trimBy blank [] = [] := rfl

end PointElevation.Text
