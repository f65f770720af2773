import PointElevation.Number.Reading
import PointElevation.Text.Quoted

/-!
# The command line

The server takes the way it is reached, `stdio` or `http`, as an argument, and a host and a port as
options.  An option may be shortened as long as it is clear which one is meant, and its value may
follow behind an equals sign.  A minus sign in front of a number or of a text with a space makes no
option.  Two dashes end the options.

Arguments are first told apart one by one (`classify`), where a shortened option that could be
several ends everything, and then taken in from left to right (`consume`).  What has no place is
collected, and refused in the end.
-/

namespace PointElevation.Server

open PointElevation.Number (readSettingInt?)
open PointElevation.Text (quoted)

/-- The ways to reach the server. -/
inductive Mode where
  | stdio
  | http
deriving DecidableEq, Repr

namespace Mode

def text : Mode → String
  | .stdio => "stdio"
  | .http => "http"

def ofText? (s : String) : Option Mode :=
  if s = "stdio" then some .stdio else if s = "http" then some .http else none

end Mode

/-- What the command line asks for. -/
structure Arguments where
  mode : Option Mode
  host : String
  port : Int
deriving DecidableEq, Repr

/-- What holds where the command line says nothing. -/
def Arguments.default : Arguments := ⟨none, "localhost", 8004⟩

/-- The options. -/
inductive Switch where
  | help
  | host
  | port
deriving DecidableEq, Repr

/-- The spellings of the options. -/
def spellings : List (String × Switch) :=
  [("-h", .help), ("--help", .help), ("--host", .host), ("--port", .port)]

/-- An option in a message. -/
def Switch.title : Switch → String
  | .help => "-h/--help"
  | .host => "--host"
  | .port => "--port"

/-! ## Mistakes -/

/-- What is wrong with a command line. -/
inductive UsageFault where
  | ambiguous (text : String) (candidates : List String)
  | ignoredValue (switch : Switch) (value : String)
  | missingValue (switch : Switch)
  | notInteger (value : String)
  | unknownMode (value : String)
  | unplaced (arguments : List String)
deriving DecidableEq, Repr

def UsageFault.message : UsageFault → String
  | .ambiguous text candidates =>
      "ambiguous option: " ++ text ++ " could match " ++ ", ".intercalate candidates
  | .ignoredValue switch value =>
      "argument " ++ switch.title ++ ": ignored explicit argument " ++ quoted value
  | .missingValue switch => "argument " ++ switch.title ++ ": expected one argument"
  | .notInteger value => "argument --port: invalid int value: " ++ quoted value
  | .unknownMode value =>
      "argument mode: invalid choice: " ++ quoted value ++ " (choose from 'stdio', 'http')"
  | .unplaced arguments => "unrecognized arguments: " ++ " ".intercalate arguments

/-- Why the server does not start. -/
inductive Halt where
  | help
  | usage (fault : UsageFault)
deriving DecidableEq, Repr

/-! ## Telling arguments apart -/

/-- An argument by its role. -/
inductive Token where
  /-- two dashes, which end the options -/
  | dashes
  | plain (text : String)
  /-- an option, with what stands behind an equals sign in the same argument -/
  | switch (switch : Switch) (value : Option String)
  /-- the short option for help with letters behind it, with an equals sign in between or not -/
  | letters (text : List Char)
  | unknown (text : String)
deriving DecidableEq, Repr

/-- A text up to its first equals sign, and what follows the sign if there is one. -/
def splitAssignment (s : List Char) : String × Option String :=
  let name := String.ofList (s.takeWhile (· ≠ '='))
  match s.dropWhile (· ≠ '=') with
  | _ :: value => (name, some (String.ofList value))
  | [] => (name, none)

/-- A minus sign and digits, with a point in front of the last of them or not.  A line break at the
end does not matter. -/
def isNegativeNumber (s : List Char) : Bool :=
  let isDigit (c : Char) : Bool := (Text.digitValue? c).isSome
  match if s.getLast? = some '\n' then s.dropLast else s with
  | '-' :: rest =>
      match rest.dropWhile isDigit with
      | [] => !rest.isEmpty
      | '.' :: fraction => !fraction.isEmpty && fraction.all isDigit
      | _ => false
  | _ => false

/-- The role of an argument that begins with a dash but with no option in full. -/
def classifyOther (s : String) : Token :=
  if isNegativeNumber s.toList || ' ' ∈ s.toList then .plain s else .unknown s

/-- The role of an argument that begins with two dashes: the option that it is short for. -/
def classifyLong (s : String) : Except UsageFault Token :=
  let (name, value) := splitAssignment s.toList
  match spellings.filter fun spelling => spelling.1.startsWith name with
  | [(_, switch)] => .ok (.switch switch value)
  | [] => .ok (classifyOther s)
  | several => .error (.ambiguous s (several.map (·.1)))

/-- The role of an argument in front of the two dashes. -/
def classifyOne (s : String) : Except UsageFault Token :=
  if !s.startsWith "-" || s.length = 1 then .ok (.plain s)
  else
    let (name, value) := splitAssignment s.toList
    match spellings.lookup name, s.toList with
    | some .help, '-' :: 'h' :: '=' :: rest => .ok (.letters rest)
    | some switch, _ => .ok (.switch switch value)
    | none, '-' :: '-' :: _ => classifyLong s
    | none, '-' :: 'h' :: rest => .ok (.letters rest)
    | none, _ => .ok (classifyOther s)

/-- The roles of all arguments. -/
def classify : List String → Except UsageFault (List Token)
  | [] => .ok []
  | s :: rest =>
      if s = "--" then .ok (.dashes :: rest.map .plain)
      else do
        let token ← classifyOne s
        let tokens ← classify rest
        pure (token :: tokens)

/-! ## Taking arguments in -/

/-- The place of the mode. -/
inductive Place where
  | free
  /-- the argument before stands in it -/
  | justTaken
  | taken
deriving DecidableEq, Repr

/-- What has been taken in. -/
structure Taken where
  arguments : Arguments
  place : Place
  /-- the option that the next argument is the value of -/
  awaiting : Option Switch
  /-- arguments that have no place -/
  extra : List String

/-- Nothing has been taken in. -/
def Taken.nothing : Taken := ⟨Arguments.default, .free, none, []⟩

/-- The argument before is not the mode. -/
def Place.settle : Place → Place
  | .free => .free
  | _ => .taken

/-- Takes in the argument that stands for the mode. -/
def takeMode (t : Taken) (value : String) : Except Halt Taken :=
  match Mode.ofText? value with
  | some mode =>
      .ok { t with arguments := { t.arguments with mode := some mode }, place := .justTaken }
  | none => .error (.usage (.unknownMode value))

/-- Takes in the value of an option. -/
def takeValue (t : Taken) (switch : Switch) (value : String) : Except Halt Taken :=
  let t := { t with awaiting := none }
  match switch with
  | .help => .error (.usage (.ignoredValue .help value))
  | .host => .ok { t with arguments := { t.arguments with host := value } }
  | .port =>
      match readSettingInt? value with
      | some port => .ok { t with arguments := { t.arguments with port } }
      | none => .error (.usage (.notInteger value))

/-- Letters behind the short option for help.  The same letter is the same option again; what
remains behind it would be a value, and there is none to be given. -/
def helpLetters : List Char → Halt
  | ['h'] => .help
  | 'h' :: rest => helpLetters rest
  | value => .usage (.ignoredValue .help (String.ofList value))

/-- Keeps an argument that has no place. -/
def leave (t : Taken) (text : String) : Taken := { t with extra := t.extra ++ [text] }

/-- Takes in one argument where no value is awaited.  Two dashes next to the mode belong to it. -/
def takeToken (t : Taken) : Token → Except Halt Taken
  | .dashes =>
      .ok (if t.place = .taken then leave t "--" else { t with place := t.place.settle })
  | .plain text =>
      if t.place = .free then takeMode t text
      else .ok { leave t text with place := .taken }
  | .unknown text => .ok { leave t text with place := t.place.settle }
  | .letters text => .error (helpLetters text)
  | .switch .help none => .error .help
  | .switch switch none => .ok { t with place := t.place.settle, awaiting := some switch }
  | .switch switch (some value) => takeValue { t with place := t.place.settle } switch value

/-- Takes in one argument; if a value is awaited, it has to be one. -/
def consume (t : Taken) (token : Token) : Except Halt Taken :=
  match t.awaiting, token with
  | none, _ => takeToken t token
  | some switch, .plain value => takeValue t switch value
  | some switch, _ => .error (.usage (.missingValue switch))

/-- What is left to say when all arguments have been taken in. -/
def Taken.finish (t : Taken) : Except Halt Arguments :=
  match t.awaiting with
  | some switch => .error (.usage (.missingValue switch))
  | none => if t.extra.isEmpty then .ok t.arguments else .error (.usage (.unplaced t.extra))

/-- Reads the command line. -/
def Arguments.parse (arguments : List String) : Except Halt Arguments :=
  match classify arguments with
  | .error fault => .error (.usage fault)
  | .ok tokens => do
      let t ← tokens.foldlM consume .nothing
      t.finish

end PointElevation.Server
