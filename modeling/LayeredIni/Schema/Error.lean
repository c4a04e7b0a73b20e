/-
# Why a tree is not a value of a schema
-/

import LayeredIni.Schema.Basic
import LayeredIni.Text.Quoted
import LayeredIni.Tree.Basic

namespace LayeredIni

open LayeredIni.Text

/-- Why a tree cannot be read as a value of a schema. -/
inductive DecodeError
  /-- A text that denotes no value of the type. -/
  | invalidValue (text : String) (expected : Schema)
  /-- A text where the type needs a tree, or a tree where it needs a text. -/
  | invalidType (found : Node) (expected : Schema)
  /-- A text that stands for no variant of the choice. -/
  | unknownVariant (label : String) (enumeration : Enumeration)
  /-- A text that stands for a variant with data. -/
  | variantWithData (form : VariantForm)
  /-- A key that is no field of a strict record. -/
  | unknownField (name : String) (known : List String)
  /-- A field that must be there and is not. -/
  | missingField (name : String)

namespace DecodeError

/-- How a diagnostic speaks of a node. -/
def foundText : Node → String
  | .scalar text => "string " ++ quoted text
  | .tree _ => "map"

/-- How a diagnostic speaks of what a variant consists of. -/
def formText : VariantForm → String
  | .plain => "unit variant"
  | .wrapper => "newtype variant"
  | .tuple => "tuple variant"
  | .record => "struct variant"

/-- A name as a diagnostic shows it. -/
def nameText (name : String) : String :=
  "`" ++ name ++ "`"

/-- The names that would have been right; `kind` is what they name. -/
def alternativesText (kind : String) : List String → String
  | [] => "there are no " ++ kind
  | [only] => "expected " ++ nameText only
  | [first, second] => "expected " ++ nameText first ++ " or " ++ nameText second
  | names => "expected one of " ++ ", ".intercalate (names.map nameText)

/-- The wording of the error. -/
def message : DecodeError → String
  | invalidValue text expected =>
    "invalid value: string " ++ quoted text ++ ", expected " ++ expected.description
  | invalidType found expected =>
    "invalid type: " ++ foundText found ++ ", expected " ++ expected.description
  | unknownVariant label enumeration =>
    "unknown variant " ++ nameText label ++ ", " ++ alternativesText "variants" enumeration.labels
  | variantWithData form => "invalid type: unit variant, expected " ++ formText form
  | unknownField name known =>
    "unknown field " ++ nameText name ++ ", " ++ alternativesText "fields" known
  | missingField name => "missing field " ++ nameText name

end DecodeError

end LayeredIni
