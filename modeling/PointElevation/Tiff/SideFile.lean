import PointElevation.Number.Reading

/-!
# Notes beside a file

Beside a raster file there may be another one with notes on it, in markup: elements between tags,
attributes in opening tags, and text.  The first thing in it has to be an element.  Its children for
bands carry the number of the band, and may carry a value for missing data, which then counts in
place of the one in the raster file (`noDataNote?`).  Names are compared without regard to case.

A file of notes that is not well formed says nothing.  References to characters are not resolved,
since no value in use needs one.
-/

namespace PointElevation.Tiff

open PointElevation.Number (splitSign)
open PointElevation.Text (digitsValue isAsciiBlank lower)

/-! ## Markup -/

/-- A piece of markup. -/
inductive Markup where
  | text (letters : List Char)
  | element (name : List Char) (attributes : List (List Char × List Char))
      (children : List Markup)
  /-- a comment or an instruction -/
  | remark

/-- A piece of a text of markup. -/
inductive Token where
  | text (letters : List Char)
  | opening (name : List Char) (attributes : List (List Char × List Char)) (closed : Bool)
  | closing (name : List Char)
  | remark

/-- What stands in front of a word, and what follows the word. -/
def splitAtWord? (word : List Char) : List Char → Option (List Char × List Char)
  | [] => none
  | c :: rest =>
      if word.isPrefixOf (c :: rest) then some ([], (c :: rest).drop word.length)
      else (splitAtWord? word rest).map fun (front, back) => (c :: front, back)

/-- Whether a character can stand in a name. -/
def isNameLetter (c : Char) : Bool :=
  !isAsciiBlank c && c ≠ '<' && c ≠ '>' && c ≠ '/' && c ≠ '=' && c ≠ '"' && c ≠ '\''

/-- A name and what follows it, behind blanks. -/
def splitName (s : List Char) : List Char × List Char :=
  let s := s.dropWhile isAsciiBlank
  (s.takeWhile isNameLetter, s.dropWhile isNameLetter)

/-- A value between quotes of either sort, behind blanks, and what follows it. -/
def readValue? (s : List Char) : Option (List Char × List Char) :=
  match s.dropWhile isAsciiBlank with
  | quote :: rest => if quote = '"' ∨ quote = '\'' then splitAtWord? [quote] rest else none
  | [] => none

/-- The attributes of an opening tag, at most `fuel` of them: whether the tag closes its element,
and what follows it. -/
def readAttributes? :
    Nat → List Char → Option (List (List Char × List Char) × Bool × List Char)
  | 0, _ => none
  | fuel + 1, s =>
      match s.dropWhile isAsciiBlank with
      | '>' :: rest => some ([], false, rest)
      | '/' :: '>' :: rest => some ([], true, rest)
      | s => do
          let (name, rest) := splitName s
          match name, rest.dropWhile isAsciiBlank with
          | _ :: _, '=' :: rest =>
              let (value, rest) ← readValue? rest
              let (others, closed, rest) ← readAttributes? fuel rest
              some ((name, value) :: others, closed, rest)
          | _, _ => none

/-- The first piece of a text of markup that begins with an angle bracket, and what follows it. -/
def readTag? (s : List Char) : Option (Token × List Char) :=
  if "<!--".toList.isPrefixOf s then
    (splitAtWord? "-->".toList (s.drop 4)).map fun (_, rest) => (.remark, rest)
  else if "<?".toList.isPrefixOf s then
    (splitAtWord? "?>".toList (s.drop 2)).map fun (_, rest) => (.remark, rest)
  else if "<![CDATA[".toList.isPrefixOf s then
    (splitAtWord? "]]>".toList (s.drop 9)).map fun (letters, rest) => (.text letters, rest)
  else if "<!".toList.isPrefixOf s then
    (splitAtWord? [ '>' ] (s.drop 2)).map fun (_, rest) => (.remark, rest)
  else if "</".toList.isPrefixOf s then
    let (name, rest) := splitName (s.drop 2)
    match rest.dropWhile isAsciiBlank with
    | '>' :: rest => some (.closing name, rest)
    | _ => none
  else do
    let (name, rest) := splitName (s.drop 1)
    if name.isEmpty then none
    else
      let (attributes, closed, rest) ← readAttributes? rest.length rest
      some (.opening name attributes closed, rest)

/-- The pieces of a text of markup, at most `fuel` of them.  Blanks between them are left out. -/
def tokens? : Nat → List Char → Option (List Token)
  | 0, s => if s.isEmpty then some [] else none
  | fuel + 1, s =>
      match s.dropWhile isAsciiBlank with
      | [] => some []
      | '<' :: rest => do
          let (token, rest) ← readTag? ('<' :: rest)
          let others ← tokens? fuel rest
          some (token :: others)
      | s => do
          let others ← tokens? fuel (s.dropWhile (· ≠ '<'))
          some (.text (s.takeWhile (· ≠ '<')) :: others)

/-- An element that is not closed yet; its children stand last one first. -/
structure OpenElement where
  name : List Char
  attributes : List (List Char × List Char)
  children : List Markup

/-- Elements that are not closed yet, the innermost first, and behind them the pieces of the whole
text, last one first. -/
structure Nesting where
  inner : List OpenElement
  done : List Markup

namespace Nesting

/-- A complete piece. -/
def add (n : Nesting) (m : Markup) : Nesting :=
  match n.inner with
  | [] => { n with done := m :: n.done }
  | e :: outer => { n with inner := { e with children := m :: e.children } :: outer }

/-- The next piece of the text. -/
def take? (n : Nesting) : Token → Option Nesting
  | .text letters => some (n.add (.text letters))
  | .remark => some (n.add .remark)
  | .opening name attributes true => some (n.add (.element name attributes []))
  | .opening name attributes false => some { n with inner := ⟨name, attributes, []⟩ :: n.inner }
  | .closing name =>
      match n.inner with
      | [] => none
      | e :: outer =>
          if lower e.name = lower name then
            some (add ⟨outer, n.done⟩ (.element e.name e.attributes e.children.reverse))
          else none

end Nesting

/-- The pieces of a whole text, with everything in them. -/
def readMarkup? (s : List Char) : Option (List Markup) := do
  let n ← (← tokens? s.length s).foldlM Nesting.take? ⟨[], []⟩
  if n.inner.isEmpty then some n.done.reverse else none

/-! ## Notes -/

namespace Markup

/-- Whether a piece is an element with a name. -/
def isNamed (name : String) : Markup → Bool
  | element own _ _ => lower own = lower name.toList
  | _ => false

/-- The text of an element that has nothing else in it. -/
def onlyText? : Markup → Option (List Char)
  | element _ _ [text letters] => some letters
  | _ => none

/-- What an element says under a name: in an attribute, or in the first child with that name. -/
def says? (name : String) : Markup → Option (List Char)
  | element _ attributes children =>
      match attributes.find? fun a => lower a.1 = lower name.toList with
      | some (_, value) => some value
      | none => (children.find? (isNamed name)).bind onlyText?
  | _ => none

def children : Markup → List Markup
  | element _ _ inner => inner
  | _ => []

end Markup

/-- The integer that a text begins with, behind blanks, or zero. -/
def leadingNat (text : List Char) : Nat :=
  let (negative, rest) := splitSign (text.dropWhile isAsciiBlank)
  if negative then 0 else digitsValue (rest.takeWhile Char.isDigit)

/-- The value for missing data that the notes have for a band.  Bands are counted from zero here,
and from one in the notes; the last value counts. -/
def noDataNote? (notes : String) (band : Nat) : Option (List Char) := do
  let root ← (← readMarkup? notes.toList).head?
  let bands := root.children.filter fun m =>
    m.isNamed "PAMRasterBand" && leadingNat ((m.says? "band").getD []) = band + 1
  (bands.filterMap (Markup.says? "NoDataValue")).getLast?

end PointElevation.Tiff
