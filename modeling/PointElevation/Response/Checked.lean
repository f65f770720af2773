import PointElevation.Json.Value
import PointElevation.Number.Reading

/-!
# Checking the fields of a response

A response is built from the members of a JSON object.  Every field has a type, and each type
accepts a little more than its own values: numbers may come as texts, truth values as words.  All
fields are checked before anything is refused, so the answer to a bad object is the list of
everything wrong with it: first by the order of the fields, then the members that are no fields.
-/

namespace PointElevation.Response

open PointElevation.Number

/-! ## What can be wrong -/

/-- What is wrong with a value. -/
inductive Problem where
  | missing
  | extraForbidden
  | stringType
  | floatType
  | floatParsing
  | intType
  | intParsing
  | intParsingSize
  | intFromFloat
  | finiteNumber
  | boolType
  | boolParsing
  | listType
  | modelType
deriving DecidableEq, Repr

/-- The word for a problem. -/
def Problem.code : Problem → String
  | .missing => "missing"
  | .extraForbidden => "extra_forbidden"
  | .stringType => "string_type"
  | .floatType => "float_type"
  | .floatParsing => "float_parsing"
  | .intType => "int_type"
  | .intParsing => "int_parsing"
  | .intParsingSize => "int_parsing_size"
  | .intFromFloat => "int_from_float"
  | .finiteNumber => "finite_number"
  | .boolType => "bool_type"
  | .boolParsing => "bool_parsing"
  | .listType => "list_type"
  | .modelType => "model_type"

/-- A step from a value to a part of it. -/
inductive Part where
  | field (name : String)
  | item (index : Nat)
deriving DecidableEq, Repr

/-- A problem and the way to the value that has it. -/
structure Violation where
  place : List Part
  problem : Problem
deriving DecidableEq, Repr

/-- A value, or everything that is wrong. -/
inductive Checked (α : Type) where
  | valid (value : α)
  | invalid (violations : List Violation)

namespace Checked

/-- The violations of both sides count. -/
def apply {α β : Type} : Checked (α → β) → Checked α → Checked β
  | .valid f, .valid a => .valid (f a)
  | .valid _, .invalid vs => .invalid vs
  | .invalid vs, .valid _ => .invalid vs
  | .invalid vs, .invalid ws => .invalid (vs ++ ws)

instance : Applicative Checked where
  pure := .valid
  seq f a := apply f (a ())

/-- A value that has a problem itself. -/
def refuse {α : Type} (problem : Problem) : Checked α := .invalid [⟨[], problem⟩]

/-- The check of a part, seen from the whole. -/
def within {α : Type} (part : Part) : Checked α → Checked α
  | .valid a => .valid a
  | .invalid vs => .invalid (vs.map fun v => { v with place := part :: v.place })

@[simp] theorem valid_seq_valid {α β : Type} (f : α → β) (a : α) :
    (Checked.valid f <*> Checked.valid a) = Checked.valid (f a) := rfl

@[simp] theorem map_valid {α β : Type} (f : α → β) (a : α) :
    (f <$> Checked.valid a) = Checked.valid (f a) := rfl

@[simp] theorem valid_seqLeft_valid {α β : Type} (a : α) (b : β) :
    (Checked.valid a <* Checked.valid b) = Checked.valid a := rfl

@[simp] theorem within_valid {α : Type} (part : Part) (a : α) :
    (Checked.valid a).within part = .valid a := rfl

end Checked

/-! ## The types of fields -/

open Checked (refuse)

/-- Texts. -/
def readString : Json → Checked String
  | .string s => .valid s
  | _ => refuse .stringType

/-- A text or nothing. -/
def readOptionalString : Json → Checked (Option String)
  | .null => .valid none
  | j => some <$> readString j

/-- Numbers: those of JSON unless they are too large, truth values, and texts that hold one. -/
def readFloat : Json → Checked Float
  | .float x => .valid x
  | .int n => if (floatOfInt n).isInf then refuse .floatType else .valid (floatOfInt n)
  | .bool b => .valid (if b then 1.0 else 0.0)
  | .string s =>
      match readFieldFloat? s with
      | some x => .valid x
      | none => refuse .floatParsing
  | _ => refuse .floatType

/-- Floating point numbers from here on are too large to be taken for integers. -/
def integerBound : Int := Int.pow 2 63

/-- The integer that a floating point number is. -/
def integerOfFloat (x : Float) : Checked Int :=
  match truncate? x with
  | none => refuse .finiteNumber
  | some n =>
      if !(Binary.ofFloat x).isIntegral then refuse .intFromFloat
      else if -integerBound < n ∧ n < integerBound then .valid n
      else refuse .intParsingSize

/-- Integers: those of JSON, truth values, numbers without fraction, and texts that hold one. -/
def readInt : Json → Checked Int
  | .int n => .valid n
  | .bool b => .valid (if b then 1 else 0)
  | .float x => integerOfFloat x
  | .string s =>
      match readFieldInt? s with
      | some n => .valid n
      | none => refuse (if isOverlong s then .intParsingSize else .intParsing)
  | _ => refuse .intType

/-- Words for true. -/
def trueWords : List String := ["1", "on", "t", "true", "y", "yes"]

/-- Words for false. -/
def falseWords : List String := ["0", "f", "false", "n", "no", "off"]

/-- Zero and one as truth values. -/
def boolOfInt (n : Int) : Checked Bool :=
  if n = 0 then .valid false
  else if n = 1 then .valid true
  else if -integerBound ≤ n ∧ n < integerBound then refuse .boolParsing
  else refuse .boolType

/-- Truth values: those of JSON, zero and one, and the words for them in any case. -/
def readBool : Json → Checked Bool
  | .bool b => .valid b
  | .int n => boolOfInt n
  | .float x =>
      match integerOfFloat x with
      | .valid n => boolOfInt n
      | .invalid _ => refuse .boolType
  | .string s =>
      let word := String.ofList (Text.lower s.toList)
      if word ∈ trueWords then .valid true
      else if word ∈ falseWords then .valid false
      else refuse .boolParsing
  | _ => refuse .boolType

/-- The items of an array, each checked at its place. -/
def readItems (read : Json → Checked α) : Nat → List Json → Checked (List α)
  | _, [] => .valid []
  | index, j :: rest =>
      List.cons <$> (read j).within (.item index) <*> readItems read (index + 1) rest

/-- Arrays. -/
def readList (read : Json → Checked α) : Json → Checked (List α)
  | .array items => readItems read 0 items
  | _ => refuse .listType

/-! ## Fields -/

/-- The members that a response is built from. -/
abbrev Fields := List (String × Json)

/-- A field that has to be there. -/
def required (fields : Fields) (name : String) (read : Json → Checked α) : Checked α :=
  (match Json.lastMember? name fields with
    | some j => read j
    | none => refuse .missing).within (.field name)

/-- A field with a value of its own. -/
def defaulted (fields : Fields) (name : String) (value : α) (read : Json → Checked α) :
    Checked α :=
  match Json.lastMember? name fields with
  | some j => (read j).within (.field name)
  | none => .valid value

/-- No members other than the fields. -/
def noOthers (fields : Fields) (names : List String) : Checked Unit :=
  match ((fields.map (·.1)).filter (· ∉ names)).eraseDups with
  | [] => .valid ()
  | others => .invalid (others.map fun name => ⟨[.field name], .extraForbidden⟩)

/-- The message about an object that is no response of a kind. -/
def violationsText (kind : String) (violations : List Violation) : String :=
  toString violations.length ++ " validation error" ++ (if violations.length = 1 then "" else "s")
    ++ " for " ++ kind

end PointElevation.Response
