import LocaleLint.Tree.Build
import LocaleLint.Yaml.Load

/-! # Locale documents

A locale document is a mapping of one entry: the locale and the mapping of its translations. The faults
of a document are looked for in a fixed order: the text, the document, its entries, the locale's value,
and the keys of the translations.

A document may nest to any depth. Only one that leads back into itself is endless; the limit on recursion that
ends the reading of a document without such a way back, if it nests deep enough, is left out. -/

namespace LocaleLint

/-- Why a text is no locale document. -/
inductive LocaleFault where
  | malformed
  | notMapping
  /-- The number of locales is not one. -/
  | localeCount (found : Nat)
  /-- The locale's value is no mapping. -/
  | notTranslations (locale : String)
  | duplicateKey (key : String)
  | undecodable (failure : Text.Utf8.Failure)
  deriving DecidableEq, Repr

/-- Why a locale file gives no tree. -/
inductive LocaleError where
  /-- The file is at fault, and the fault is reported with its name. -/
  | fault (filename : String) (fault : LocaleFault)
  /-- A scalar of the document has no value. -/
  | load (cause : Yaml.LoadError)
  /-- A key or a value of the document has no text. -/
  | coercion (cause : CoercionError)
  deriving DecidableEq, Repr

namespace LocaleFault

/-- The bytes that are no text. -/
def undecodableMessage (failure : Text.Utf8.Failure) : String :=
  let last := failure.position + failure.length - 1
  let place :=
    if failure.length = 1 then
      "byte 0x" ++ String.ofList (Text.hexPadded 2 failure.byte.toNat) ++ " in position " ++ toString failure.position
    else "bytes in position " ++ toString failure.position ++ "-" ++ toString last
  "'utf-8' codec can't decode " ++ place ++ ": " ++ failure.cause.message

def message : LocaleFault → String
  | malformed => "YAML error"
  | notMapping => "document is not a mapping"
  | localeCount found => "expected exactly one top-level locale key, found " ++ toString found
  | notTranslations locale => "locale \"" ++ locale ++ "\" does not hold a mapping"
  | duplicateKey key => "key \"" ++ key ++ "\" appears more than once after string coercion"
  | undecodable failure => undecodableMessage failure

end LocaleFault

/-- The text of a fault of a file. -/
def faultMessage (filename : String) (fault : LocaleFault) : String :=
  "Error loading " ++ filename ++ ": " ++ fault.message

structure Locale where
  name : String
  tree : Mapping

namespace Locale

def textOf (v : Value) : Except LocaleError String :=
  match v.scalarText with
  | .ok s => .ok (String.ofList s)
  | .error e => .error (.coercion e)

def ofValue (filename : String) (document : Value) : Except LocaleError Locale :=
  match document with
  | .mapping [(locale, .mapping translations)] =>
    match Tree.build translations "" with
    | .error (.duplicateKey key) => .error (.fault filename (.duplicateKey key))
    | .error (.coercion e) => .error (.coercion e)
    | .ok tree =>
      match textOf locale with
      | .error e => .error e
      | .ok name => .ok ⟨name, tree⟩
  | .mapping [(_, .endless)] => .error (.coercion .endless)
  | .mapping [(locale, _)] =>
    match textOf locale with
    | .error e => .error e
    | .ok name => .error (.fault filename (.notTranslations name))
  | .mapping entries => .error (.fault filename (.localeCount entries.length))
  | _ => .error (.fault filename .notMapping)

def parse (filename : String) (content : List Char) : Except LocaleError Locale :=
  match Yaml.load content with
  | .error .malformed => .error (.fault filename .malformed)
  | .error e => .error (.load e)
  | .ok document => ofValue filename document.value

end Locale

end LocaleLint
