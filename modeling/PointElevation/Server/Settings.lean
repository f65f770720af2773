import PointElevation.Number.Reading
import PointElevation.Provider.Basic
import PointElevation.Server.EnvironmentFile
import PointElevation.Text.Quoted

/-!
# Settings of the server

Three variables say where the cache is, how long an answer of the network may take, and whether the
cache is removed in the end.  A time that is no number is the only thing that can be wrong with
them.
-/

namespace PointElevation.Server

open PointElevation.Host
open PointElevation.Number (readSettingFloat?)
open PointElevation.Text (trim lower quoted)

/-- How a provider is to be made. -/
structure Settings where
  directory : String
  timeout : Float
  autoRemove : Bool

/-- Why there are no settings, or no provider for them. -/
inductive SetupFault where
  /-- a time that is no number -/
  | notNumeric (text : String)
  | provider (cause : ProviderFault)
deriving DecidableEq, Repr

def SetupFault.message : SetupFault → String
  | .notNumeric text => "could not convert string to float: " ++ quoted text
  | .provider cause => cause.message

/-- Words that switch something on. -/
def onWords : List String := ["1", "true", "yes", "on"]

/-- Whether a variable is set to a word that switches something on. -/
def isOn (environment : Environment) (name : String) : Bool :=
  let word := lower (trim ((environment.lookup name).getD "").toList)
  String.ofList word ∈ onWords

namespace Settings

def directoryVariable : String := "SWISSALTI3D_CACHE_DIR"

def timeoutVariable : String := "SWISSALTI3D_TIMEOUT_S"

def autoRemoveVariable : String := "SWISSALTI3D_AUTO_REMOVE"

/-- The settings in an environment. -/
def ofEnvironment (environment : Environment) : Except SetupFault Settings := do
  let timeout ←
    match environment.lookup timeoutVariable with
    | none => pure Downloader.defaultTimeout
    | some text =>
        match readSettingFloat? text with
        | some seconds => pure seconds
        | none => throw (.notNumeric text)
  pure
    { directory := (environment.lookup directoryVariable).getD Provider.defaultDirectory
      timeout
      autoRemove := isOn environment autoRemoveVariable }

/-- What the log says about the settings. -/
def note (s : Settings) : String :=
  "swissalti3d cache: " ++ s.directory ++ " (auto remove: "
    ++ (if s.autoRemove then "True" else "False") ++ ")"

end Settings

/-- Makes the provider that an environment asks for. -/
def makeProvider (environment : Environment) : HostM SetupFault Provider := do
  match Settings.ofEnvironment environment with
  | .error fault => throw fault
  | .ok settings =>
      say .info settings.note
      recast .provider
        (Provider.create settings.directory none settings.timeout settings.autoRemove)

end PointElevation.Server
