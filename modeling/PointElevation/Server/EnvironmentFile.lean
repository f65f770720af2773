import PointElevation.Text.Blank
import PointElevation.Text.Utf8

/-!
# Environment files

A file of settings has one setting a line: a name, an equals sign and a value, blanks around the
sign allowed, the word `export` in front allowed, and `#` for comments, also after a blank behind
a value or in the place of one.  Names and values may stand in single quotes and values in double
quotes; quoted values may hold line breaks and escapes.  A line that is none of this is skipped, and
so is a byte order mark in front of everything.

Settings may refer to earlier settings and to variables by `$\x7bname\x7d`, or by
`$\x7bname:-text\x7d` with a text for a name that is not known.  Variables that are already set
count for more than the file, both in references and in the end.  A setting that no variable can
hold is a `LoadFault`.
-/

namespace PointElevation.Server

open PointElevation.Text (isBlank trimRight unifyLineEnds)

/-- Variables and their values. -/
abbrev Environment := List (String × String)

/-- A setting of a file, or a line that sets nothing: a name with or without a value. -/
abbrev Binding := Option (List Char × Option (List Char))

/-! ## Lines -/

/-- A blank that does not end the line. -/
def isInlineBlank (c : Char) : Bool := isBlank c && c ≠ '\n'

def skipInline (s : List Char) : List Char := s.dropWhile isInlineBlank

/-- What follows the end of the line. -/
def skipLine (s : List Char) : List Char := (s.dropWhile (· ≠ '\n')).drop 1

/-- What follows the word `export` and blanks. -/
def skipExport (s : List Char) : List Char :=
  let word := "export".toList
  let rest := s.drop word.length
  if word.isPrefixOf s && (rest.head?.any isInlineBlank) then skipInline rest else s

/-- A part of the text and what follows it; without such a part, where reading has to go on. -/
abbrev Reading (α : Type) := Except (List Char) (α × List Char)

/-- A character of a name without quotes. -/
def isNameChar (c : Char) : Bool := c ≠ '=' && c ≠ '#' && !isBlank c

/-- Reads the name of a setting; a comment has none. -/
def readName (s : List Char) : Reading (Option (List Char)) :=
  match s with
  | '#' :: _ => .ok (none, s)
  | '\'' :: rest =>
      let name := rest.takeWhile (· ≠ '\'')
      match rest.dropWhile (· ≠ '\'') with
      | _ :: tail => if name.isEmpty then .error s else .ok (some name, tail)
      | [] => .error s
  | _ =>
      let name := s.takeWhile isNameChar
      if name.isEmpty then .error s else .ok (some name, s.dropWhile isNameChar)

/-- Reads up to the quote that ends a value.  A backslash takes the character behind it along. -/
def untilQuote (quote : Char) : List Char → Option (List Char × List Char)
  | [] => none
  | '\\' :: c :: rest => (untilQuote quote rest).map fun (value, tail) => ('\\' :: c :: value, tail)
  | c :: rest =>
      if c = quote then some ([], rest)
      else (untilQuote quote rest).map fun (value, tail) => (c :: value, tail)

/-- What a backslash and a letter stand for between double quotes. -/
def doubleQuotedEscape? : Char → Option Char
  | '\\' => some '\\'
  | '\'' => some '\''
  | '"' => some '"'
  | 'a' => some '\x07'
  | 'b' => some '\x08'
  | 'f' => some '\x0c'
  | 'n' => some '\n'
  | 'r' => some '\r'
  | 't' => some '\t'
  | 'v' => some '\x0b'
  | _ => none

/-- What a backslash and a letter stand for between single quotes. -/
def singleQuotedEscape? : Char → Option Char
  | '\\' => some '\\'
  | '\'' => some '\''
  | _ => none

/-- Replaces escapes; a backslash that begins none stays. -/
def unescape (escape? : Char → Option Char) : List Char → List Char
  | [] => []
  | '\\' :: c :: rest =>
      match escape? c with
      | some meaning => meaning :: unescape escape? rest
      | none => '\\' :: unescape escape? (c :: rest)
  | c :: rest => c :: unescape escape? rest

/-- A value without quotes, up to a comment that follows a blank.  The flag says whether a blank
came before. -/
def beforeComment : Bool → List Char → List Char
  | _, [] => []
  | afterBlank, c :: rest =>
      if afterBlank && c = '#' then [] else c :: beforeComment (isBlank c) rest

/-- Reads a value that stands between quotes. -/
def readQuoted (quote : Char) (escape? : Char → Option Char) (s : List Char) :
    Reading (List Char) :=
  match untilQuote quote (s.drop 1) with
  | some (value, rest) => .ok (unescape escape? value, rest)
  | none => .error s

/-- Reads the value of a setting.  The flag says whether a blank came before. -/
def readValue (afterBlank : Bool) (s : List Char) : Reading (List Char) :=
  match s with
  | '\'' :: _ => readQuoted '\'' singleQuotedEscape? s
  | '"' :: _ => readQuoted '"' doubleQuotedEscape? s
  | _ =>
      .ok (trimRight (beforeComment afterBlank (s.takeWhile (· ≠ '\n'))), s.dropWhile (· ≠ '\n'))

/-- Reads an equals sign and a value, if there is an equals sign. -/
def readAssignment (s : List Char) : Reading (Option (List Char)) :=
  match s with
  | '=' :: rest =>
      (readValue (rest.head?.any isInlineBlank) (skipInline rest)).map fun (value, rest) =>
        (some value, rest)
  | _ => .ok (none, s)

/-- What follows a comment, if there is one. -/
def skipComment (s : List Char) : List Char :=
  match skipInline s with
  | '#' :: rest => rest.dropWhile (· ≠ '\n')
  | _ => s

/-- The end of the line. -/
def readEnd (s : List Char) : Reading Unit :=
  match skipInline s with
  | [] => .ok ((), [])
  | '\n' :: rest => .ok ((), rest)
  | _ => .error s

/-- Reads one setting that begins with the first character. -/
def readBinding (s : List Char) : Except (List Char) (Binding × List Char) := do
  let (name, rest) ← readName (skipExport s)
  let (value, rest) ← readAssignment (skipInline rest)
  let ((), rest) ← readEnd (skipComment rest)
  pure (name.map fun n => (n, value), rest)

/-- Reads one setting or skips a line after another, a given number of times at most. -/
def readBindings : Nat → List Char → List (List Char × Option (List Char))
  | 0, _ => []
  | count + 1, s =>
      match s.dropWhile isBlank with
      | [] => []
      | start =>
          match readBinding start with
          | .ok (some b, rest) => b :: readBindings count rest
          | .ok (none, rest) => readBindings count rest
          | .error place => readBindings count (skipLine place)

/-- The settings of a file, in their order.  Each of them and each line that is skipped takes up at
least one character. -/
def bindings (s : List Char) : List (List Char × Option (List Char)) :=
  readBindings (s.length + 1) s

/-! ## References -/

/-- A character of the name in a reference. -/
def isReferenceChar (c : Char) : Bool := c ≠ '}' && c ≠ ':'

/-- Reads a reference behind its opening brace: the name and the text for an unknown name. -/
def readReference (s : List Char) : Option ((List Char × List Char) × List Char) :=
  let name := s.takeWhile isReferenceChar
  match s.dropWhile isReferenceChar with
  | '}' :: rest => some ((name, []), rest)
  | ':' :: '-' :: tail =>
      match tail.dropWhile (· ≠ '}') with
      | '}' :: rest => some ((name, tail.takeWhile (· ≠ '}')), rest)
      | _ => none
  | _ => none

/-- Puts values in the place of references, of which a text has at most as many as characters. -/
def expand (value? : List Char → Option (List Char)) : Nat → List Char → List Char
  | 0, s => s
  | _ + 1, [] => []
  | count + 1, '$' :: '{' :: rest =>
      match readReference rest with
      | some ((name, default), tail) => (value? name).getD default ++ expand value? count tail
      | none => '$' :: expand value? count ('{' :: rest)
  | count + 1, c :: rest => c :: expand value? count rest

/-- Settings that are resolved, one for each name, in the order of their names in the file. -/
abbrev Resolved := List (String × Option String)

/-- What a reference means: a variable if there is one, else the last setting of the name, where a
setting without a value means nothing. -/
def reference? (environment : Environment) (known : Resolved) (name : List Char) :
    Option (List Char) :=
  let name := String.ofList name
  match environment.lookup name, known.lookup name with
  | some value, _ => some value.toList
  | none, some value => some ((value.map String.toList).getD [])
  | none, none => none

/-- Takes in a resolved setting; one of its name gives up its place to it. -/
def Resolved.set (name : String) (value : Option String) : Resolved → Resolved
  | [] => [(name, value)]
  | setting :: rest =>
      if setting.1 = name then (name, value) :: rest else setting :: set name value rest

/-- Resolves one setting with the help of those before it. -/
def resolveOne (environment : Environment) (known : Resolved)
    (binding : List Char × Option (List Char)) : Resolved :=
  let value := binding.2.map fun v =>
    String.ofList (expand (reference? environment known) v.length v)
  known.set (String.ofList binding.1) value

/-- Drops a byte order mark. -/
def skipMark : List Char → List Char
  | '\uFEFF' :: rest => rest
  | s => s

/-- The settings of a file.  Of several settings of one name the last counts. -/
def settings (environment : Environment) (file : String) : Resolved :=
  (bindings (unifyLineEnds (skipMark file.toList))).foldl (resolveOne environment) []

/-! ## Loading -/

/-- What keeps a setting from becoming a variable. -/
inductive LoadFault where
  /-- a zero character in the name or the value -/
  | zeroCharacter
  /-- an equals sign in the name -/
  | equalsSign
deriving DecidableEq, Repr

def LoadFault.message : LoadFault → String
  | .zeroCharacter => "embedded null byte"
  | .equalsSign => "illegal environment variable name"

/-- The variable that keeps files of settings from being loaded. -/
def disablingVariable : String := "PYTHON_DOTENV_DISABLED"

/-- Words that keep files of settings from being loaded. -/
def disablingWords : List String := ["1", "true", "t", "yes", "y"]

/-- A letter without regard to case; the long s is an s. -/
def foldCase (c : Char) : Char := if c = '\u017F' then 's' else c.toLower

/-- Whether files of settings are not to be loaded. -/
def loadsNothing (environment : Environment) : Bool :=
  (environment.lookup disablingVariable).any fun value =>
    String.ofList (value.toList.map foldCase) ∈ disablingWords

/-- A setting of a variable that is not set. -/
def addSetting (environment : Environment) (setting : String × Option String) :
    Except LoadFault Environment :=
  match environment.lookup setting.1, setting.2 with
  | none, some text =>
      if '\x00' ∈ setting.1.toList ∨ '\x00' ∈ text.toList then .error .zeroCharacter
      else if '=' ∈ setting.1.toList then .error .equalsSign
      else .ok (environment ++ [(setting.1, text)])
  | _, _ => .ok environment

/-- The environment with the settings of a file. -/
def Environment.load (environment : Environment) (file : String) :
    Except LoadFault Environment :=
  if loadsNothing environment then .ok environment
  else (settings environment file).foldlM addSetting environment

end PointElevation.Server
