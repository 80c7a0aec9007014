/-
  ErrorContract.Config.Load
  ─────────────────────────
  **FROM A TEXT TO SETTINGS THAT CAN BE RELIED ON.**

      text  →  placeholders replaced  →  document  →  settings  →  checked

  The first step that fails gives the fault.
-/
import ErrorContract.Config.Schema
import ErrorContract.Config.Template
import ErrorContract.Toml.Reader

namespace ErrorContract.Config

open ErrorContract

/-! ## §1. Faults. -/

/-- Why a file has no text. -/
inductive ReadFault where
  | absent
  | notText
  deriving Repr, DecidableEq

/-- A fault in words. -/
def ReadFault.message : ReadFault → String
  | .absent => "No such file or directory (os error 2)"
  | .notText => "stream did not contain valid UTF-8"

/-- Why there is no configuration. -/
inductive LoadFault where
  | unreadable (path : String) (fault : ReadFault)
  | expansion (fault : Template.Fault)
  /-- The text is no document. -/
  | malformed
  /-- The document does not hold settings. -/
  | schema (mismatch : Mismatch)
  /-- The settings make no sense. -/
  | invalid (fault : Fault)
  deriving Repr

/-- A mismatch in words. -/
def mismatchMessage (mismatch : Mismatch) : String := mismatch.message Number.pointedStyle

/-- What is said of a fault, but for what is wrong with a text that is no document. -/
def LoadFault.message : LoadFault → String
  | .unreadable path fault => "failed to read config file " ++ path ++ ": " ++ fault.message
  | .expansion fault => "config variable expansion failed: " ++ fault.message
  | .malformed => "failed to parse config"
  | .schema mismatch => "failed to parse config: " ++ mismatchMessage mismatch
  | .invalid fault => fault.message

/-! ## §2. Reading. -/

/-- The settings in a document. -/
def ofDocument (document : Toml.Value) : Except Mismatch Config := Schema.config.read document

/-- The settings in an expanded text, not checked yet. -/
def decode (expanded : String) : Except LoadFault Config :=
  match Toml.parse expanded with
  | none => .error .malformed
  | some document => (ofDocument document).mapError .schema

/-- **The settings in a text**, placeholders replaced from the environment. -/
def parse (env : Environment) (text : String) : Except LoadFault Config := do
  let expanded ← (Template.expand env text).mapError .expansion
  let config ← decode expanded
  config.validate.mapError .invalid
  return config

/-- The text of a file, of which there are no bytes if it does not exist. -/
def fileText : Option (List UInt8) → Except ReadFault String
  | none => .error .absent
  | some bytes => (Utf8.decodeText bytes).mapError fun _ => .notText

/-- **The settings in a file.** -/
def load (env : Environment) (path : String) (content : Option (List UInt8)) :
    Except LoadFault Config := do
  let text ← (fileText content).mapError (.unreadable path)
  parse env text

end ErrorContract.Config
