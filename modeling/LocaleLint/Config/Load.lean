import LocaleLint.Files.Basic
import LocaleLint.Journal
import LocaleLint.Store.Path
import LocaleLint.Value.Basic
import LocaleLint.Yaml.Load

/-! # Loading the configuration

The configuration is a document in a file of a fixed name in a folder. Without the file, and with a
document that counts as absent, it is an empty mapping. -/

namespace LocaleLint

/-- Why there is no configuration. -/
inductive ConfigError where
  /-- The file breaks a rule of the format. -/
  | malformed
  /-- A scalar of the document has no value, or the bytes of the file are no text. -/
  | load (cause : Yaml.LoadError)
  | file (cause : FileError)
  deriving DecidableEq, Repr

namespace Config

/-- The configuration of a document without content. -/
def empty : Value := .mapping []

/-- The absolute path of the file in a folder. -/
def path (working folder : String) : List Char :=
  let folderPath := Path.absolute working.toList folder.toList
  Path.absolute working.toList (folderPath ++ "/config.yml".toList)

def ofBytes (bytes : List UInt8) : Except ConfigError Value :=
  match Yaml.loadFile bytes with
  | .error .malformed => .error .malformed
  | .error e => .error (.load e)
  | .ok document => .ok (if document.settings.isBlank then empty else document.settings)

/-- What is logged about the configuration of a file. -/
def journalOf : Except ConfigError Value → Journal
  | .error .malformed => .entry .malformedConfig
  | _ => .empty

def load (files : Files) (folder : String) : Run ConfigError Value :=
  let path := String.ofList (path files.working folder)
  match files.read path with
  | .ok bytes => ⟨journalOf (ofBytes bytes), ofBytes bytes⟩
  | .error .notFound =>
    ⟨.entry (.noConfig path), .ok empty⟩
  | .error e => .ofExcept (.error (.file e))

end Config

end LocaleLint
