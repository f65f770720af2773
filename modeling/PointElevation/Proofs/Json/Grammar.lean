import Mathlib.Algebra.Ring.Nat
import PointElevation.Json.Reader
import PointElevation.Text.Quoted

/-!
# Texts of JSON values

A value has many texts.  White space may stand around every value and every name, each character of
a string may be written as it is or by one of its escapes, and a number may end in zeros or begin
with a minus.  `Spells` puts texts together from their parts, with no regard to how they are taken
apart.  `Fits` says which values are small enough to be read at all.
-/

namespace PointElevation.Json

open PointElevation.Number (Decimal digitLimit)
open PointElevation.Text (hexDigits)

/-- White space, or nothing. -/
def Blank (s : List Char) : Prop := ∀ c ∈ s, isSpace c = true

instance (s : List Char) : Decidable (Blank s) := List.decidableBAll (isSpace · = true) s

/-! ## Strings -/

/-- Four hexadecimal digits, each in either case. -/
def SpellsUnit (digits : List Char) (unit : Nat) : Prop :=
  digits.map Char.toLower = hexDigits 4 unit

instance (digits : List Char) (unit : Nat) : Decidable (SpellsUnit digits unit) :=
  inferInstanceAs (Decidable (_ = _))

/-- The letters after a backslash, with what they stand for. -/
def shortEscapes : List (Char × Char) :=
  [('"', '"'), ('\\', '\\'), ('/', '/'), ('b', '\x08'), ('f', '\x0C'), ('n', '\n'), ('r', '\r'),
   ('t', '\t')]

/-- A character as it may stand in a string. -/
inductive SpellsChar : List Char → Char → Prop
  | raw {c : Char} : 0x20 ≤ c.toNat → c ≠ '"' → c ≠ '\\' → SpellsChar [c] c
  | short {letter c : Char} : (letter, c) ∈ shortEscapes → SpellsChar ['\\', letter] c
  | unit {digits : List Char} {c : Char} : c.toNat < 0x10000 → SpellsUnit digits c.toNat →
      SpellsChar ('\\' :: 'u' :: digits) c
  /-- beyond U+FFFF, two escapes: the upper and the lower ten bits of what is above it -/
  | pair {high low : List Char} {c : Char} : 0x10000 ≤ c.toNat →
      SpellsUnit high (0xD800 + (c.toNat - 0x10000) / 0x400) →
      SpellsUnit low (0xDC00 + (c.toNat - 0x10000) % 0x400) →
      SpellsChar ('\\' :: 'u' :: (high ++ '\\' :: 'u' :: low)) c

/-- Characters one after the other. -/
inductive SpellsChars : List Char → List Char → Prop
  | nil : SpellsChars [] []
  | cons {text : List Char} {c : Char} {texts cs : List Char} : SpellsChar text c →
      SpellsChars texts cs → SpellsChars (text ++ texts) (c :: cs)

/-- A string with its quotes. -/
inductive SpellsString : List Char → String → Prop
  | intro {text : List Char} {s : String} : SpellsChars text s.toList →
      SpellsString ('"' :: (text ++ ['"'])) s

/-- The name of a member, with white space around it. -/
inductive SpellsName : List Char → String → Prop
  | intro {before quoted after : List Char} {name : String} : Blank before →
      SpellsString quoted name → Blank after → SpellsName (before ++ (quoted ++ after)) name

theorem blank_nil : Blank [] := nofun

/-- A name needs no white space around it. -/
theorem SpellsName.of_string {text : List Char} {name : String} (h : SpellsString text name) :
    SpellsName text name := by
  have hname : SpellsName ([] ++ (text ++ [])) name := .intro blank_nil h blank_nil
  rwa [List.nil_append, List.append_nil] at hname

/-- Characters that need no escape may stand as they are. -/
theorem SpellsChars.plain {cs : List Char}
    (h : ∀ c ∈ cs, 0x20 ≤ c.toNat ∧ c ≠ '"' ∧ c ≠ '\\') : SpellsChars cs cs := by
  induction cs with
  | nil => exact .nil
  | cons c cs ih =>
      obtain ⟨⟨hcontrol, hquote, hbackslash⟩, hrest⟩ := List.forall_mem_cons.mp h
      exact .cons (.raw hcontrol hquote hbackslash) (ih hrest)

theorem SpellsChars.append {text cs texts ds : List Char} (h : SpellsChars text cs)
    (hrest : SpellsChars texts ds) : SpellsChars (text ++ texts) (cs ++ ds) := by
  induction h with
  | nil => exact hrest
  | cons hc _ ih =>
      rw [List.append_assoc]
      exact .cons hc ih

/-! ## Numbers -/

/-- The number that decimal digits write. -/
def natOf (digits : List Char) : Nat := Nat.ofDigitChars 10 digits 0

def signed (negative : Bool) (size : Nat) : Int := if negative then -(size : Int) else size

def minus (negative : Bool) : List Char := if negative then ['-'] else []

/-- At least one digit. -/
def Digits (s : List Char) : Prop := s ≠ [] ∧ ∀ c ∈ s, c.isDigit = true

/-- Digits that begin with a zero only if that is the only one. -/
def Whole (s : List Char) : Prop := Digits s ∧ (s.head? = some '0' → s = ['0'])

/-- The decimal places of a number, with their point. -/
inductive SpellsPlaces : List Char → List Char → Prop
  | absent : SpellsPlaces [] []
  | present {places : List Char} : Digits places → SpellsPlaces ('.' :: places) places

/-- The exponent of a number, with its mark. -/
inductive SpellsExponent : List Char → Int → Prop
  | absent : SpellsExponent [] 0
  | present {mark : Char} {sign digits : List Char} : mark ∈ ['e', 'E'] →
      sign ∈ [[], ['+'], ['-']] → Digits digits →
      SpellsExponent (mark :: (sign ++ digits)) (signed (sign = ['-']) (natOf digits))

/-! ## Values -/

/-- A member of an object, with a text of its name and one of its value. -/
structure Member where
  name : String
  nameText : List Char
  value : Json
  valueText : List Char

/-- The name and the value, with the colon between them. -/
def Member.text (member : Member) : List Char := member.nameText ++ ':' :: member.valueText

/-- A text of a value. -/
inductive Spells : List Char → Json → Prop
  | null : Spells "null".toList .null
  | bool (value : Bool) : Spells (toString value).toList (.bool value)
  | int {digits : List Char} (negative : Bool) : Whole digits →
      Spells (minus negative ++ digits) (.int (signed negative (natOf digits)))
  /-- the double precision number that is closest to the decimal -/
  | float {digits pointed places mark : List Char} {exponent : Int} (negative : Bool) :
      Whole digits → SpellsPlaces pointed places → SpellsExponent mark exponent →
      pointed ++ mark ≠ [] →
      Spells (minus negative ++ (digits ++ (pointed ++ mark)))
        (.float (Decimal.toBinary ⟨natOf (digits ++ places), exponent - places.length⟩
          negative).toFloat)
  | notANumber : Spells "NaN".toList (.float (0 / 0))
  | infinity : Spells "Infinity".toList (.float (1 / 0))
  | minusInfinity : Spells "-Infinity".toList (.float (-1 / 0))
  | string {text : List Char} {s : String} : SpellsString text s → Spells text (.string s)
  | noItems {gap : List Char} : Blank gap → Spells ('[' :: (gap ++ [']'])) (.array [])
  | array {items : List (List Char × Json)} : items ≠ [] → (∀ item ∈ items, Spells item.1 item.2) →
      Spells ('[' :: ([','].intercalate (items.map (·.1)) ++ [']'])) (.array (items.map (·.2)))
  | noMembers {gap : List Char} : Blank gap → Spells ('{' :: (gap ++ ['}'])) (.object [])
  | object {members : List Member} : members ≠ [] →
      (∀ member ∈ members, SpellsName member.nameText member.name) →
      (∀ member ∈ members, Spells member.valueText member.value) →
      Spells ('{' :: ([','].intercalate (members.map Member.text) ++ ['}']))
        (.object (members.map fun member => (member.name, member.value)))
  /-- white space around a value -/
  | spaced {before text after : List Char} {value : Json} : Blank before → Spells text value →
      Blank after → Spells (before ++ (text ++ after)) value

/-- The containers of a value lie in each other at most so often, and its whole numbers have no
more digits than are read. -/
inductive Fits : Nat → Json → Prop
  | null {room : Nat} : Fits room .null
  | bool {room : Nat} (value : Bool) : Fits room (.bool value)
  | int {room : Nat} {value : Int} : value.natAbs < 10 ^ digitLimit → Fits room (.int value)
  | float {room : Nat} (value : Float) : Fits room (.float value)
  | string {room : Nat} (value : String) : Fits room (.string value)
  | array {room : Nat} {items : List Json} : (∀ item ∈ items, Fits room item) →
      Fits (room + 1) (.array items)
  | object {room : Nat} {members : List (String × Json)} :
      (∀ member ∈ members, Fits room member.2) → Fits (room + 1) (.object members)

end PointElevation.Json
