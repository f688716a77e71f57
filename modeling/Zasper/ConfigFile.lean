import Zasper.OperatingSystem
import Zasper.Structs

/-!
# The configuration file

One file under the user's home directory holds the tracking id, the last projects
and the theme. It is read and written as a whole.
-/
namespace Zasper.ConfigFile
open Zasper.JsonText Zasper.Structs Zasper.Programs Zasper.OperatingSystem
set_option linter.unusedSimpArgs false

structure Config where
  trackingID : String
  lastProjects : Option (List String)
  theme : String
deriving DecidableEq

def configFields : List (StructField Config) :=
  [ field "tracking_id" text (·.trackingID) (fun s v => { s with trackingID := v })
  , field "last_projects" (list text) (·.lastProjects) (fun s v => { s with lastProjects := v })
  , field "theme" text (·.theme) (fun s v => { s with theme := v }) ]

def config : Codec Config := struct ⟨"",none,""⟩ configFields

theorem configFields_good : Fields configFields := ⟨by decide,by simp [configFields]⟩

theorem config_inverse : config.Inverse := by
  intro w rewriting t
  refine (decode_encode_fields configFields_good rewriting _ _).trans ?_
  rw [configFields,foldl_field (text_inverse w rewriting),foldl_field (list_inverse text_inverse w rewriting),
    foldl_field (text_inverse w rewriting)]
  all_goals rfl

/-- Why the file could not be read or written. -/
inductive ConfigError where
  | os (cause : OsError)
  | decode (cause : UnmarshalError)
deriving DecidableEq

/-- The home directory is what the environment says, if it says one. -/
def getConfigFilePath (userHomeDir : Except OsError String) : Except OsError String :=
  userHomeDir.map (· ++ "/.zasper/config.json")

/-- The text before the last `sep`. -/
def beforeLast (sep : Char) (text : String) : String :=
  String.ofList ((text.toList.reverse.dropWhile (· ≠ sep)).drop 1).reverse

/-- Without a file the configuration is empty. -/
def readConfig (userHomeDir : Except OsError String) : Os (Except ConfigError Config) :=
  match getConfigFilePath userHomeDir with
  | .error e => pure (.error (.os e))
  | .ok filePath => .call (.readFile filePath) (fun
    | .error e => if e.notExist then pure (.ok config.zero) else pure (.error (.os e))
    | .ok bytes =>
      match config.decodeStream bytes config.zero with
      | (_,some cause) => pure (.error (.decode cause))
      | (value,none) => pure (.ok value))

/-- The file is created or emptied, and then written. -/
def writeConfig (userHomeDir : Except OsError String) (value : Config) : Os (Option ConfigError) :=
  match getConfigFilePath userHomeDir with
  | .error e => pure (some (.os e))
  | .ok filePath => .call (.mkdirAll (beforeLast '/' filePath)) (fun
    | some e => pure (some (.os e))
    | none => .call (.openFile filePath) (fun
      | some e => pure (some (.os e))
      | none => .call (.writeFile filePath (encodeIndent (config.encode value))) (fun err => pure (err.map .os))))

end Zasper.ConfigFile
