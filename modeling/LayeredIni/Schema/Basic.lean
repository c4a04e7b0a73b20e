/-
# Schemas and the values that they describe

A schema says what type of value a configuration is to be read as. Records list
their fields in the order of their declaration; a field that is missing from a
tree takes its default, and an optional field without a default is absent.

Schemas and lists of fields are mutually inductive without any auxiliary type,
so that functions on them are structural recursions.
-/

import LayeredIni.Number.Binary

namespace LayeredIni

open LayeredIni.Number

/-- What a variant of a choice consists of. Only variants without data can be
read from a text. -/
inductive VariantForm
  | plain
  | wrapper
  | tuple
  | record
deriving DecidableEq, Repr

/-- A variant of a choice. -/
structure Variant where
  /-- The text that stands for the variant. -/
  label : String
  /-- What the variant consists of. -/
  form : VariantForm
deriving DecidableEq, Repr

/-- A choice between named variants. -/
structure Enumeration where
  /-- The name of the choice. -/
  name : String
  /-- The variants in the order of their declaration. -/
  variants : List Variant
deriving DecidableEq, Repr

/-- The texts that stand for variants, in the order of their declaration. -/
def Enumeration.labels (enumeration : Enumeration) : List String :=
  enumeration.variants.map Variant.label

/-- A value of a schema. -/
inductive Value
  /-- An integer. -/
  | integer (value : Int)
  /-- A floating-point number of a format. -/
  | float (format : Format) (value : Binary)
  /-- A truth value. -/
  | boolean (value : Bool)
  /-- A text. -/
  | text (value : String)
  /-- A single character. -/
  | character (value : Char)
  /-- The value of the unit type. -/
  | unit
  /-- What is left of something that was ignored. -/
  | ignored
  /-- A value in a wrapper. -/
  | wrapped (value : Value)
  /-- No value where one is optional. -/
  | absent
  /-- A value where one is optional. -/
  | present (value : Value)
  /-- Keys with their values, in the order of the keys. -/
  | map (entries : List (Value × Value))
  /-- A variant of a choice. -/
  | choice (label : String)
  /-- Fields with their values, in the order of their declaration. -/
  | record (fields : List (String × Value))
deriving Repr

mutual

/-- A type of values that a configuration can be read as. -/
inductive Schema
  /-- Integers. Texts are read as integers of at most 64 bits. -/
  | integer (type : IntegerType)
  /-- Floating-point numbers. -/
  | float (format : Format)
  /-- Truth values. -/
  | boolean
  /-- Texts. -/
  | text
  /-- Single characters. -/
  | character
  /-- The unit type, which anything is read as. -/
  | unit
  /-- Anything, without looking at it. -/
  | ignored
  /-- A named type without data, which nothing is read as. -/
  | marker (name : String)
  /-- Another type in a named wrapper. A node is read as the other type would be;
  only a diagnostic about a key, which no wrapper is read from, tells the name. -/
  | wrapper (name : String) (inner : Schema)
  /-- A value that may be missing from a record. -/
  | optional (inner : Schema)
  /-- Lists, which nothing is read as. -/
  | list (item : Schema)
  /-- Pairs, which nothing is read as. -/
  | pair (first second : Schema)
  /-- Trees with keys of one type and values of another. -/
  | map (keys values : Schema)
  /-- A choice between named variants. -/
  | choice (enumeration : Enumeration)
  /-- Trees with named fields. A strict record has no other keys. -/
  | record (name : String) (strict : Bool) (fields : Fields)

/-- The fields of a record in the order of their declaration. -/
inductive Fields
  /-- No fields. -/
  | nil
  /-- A field with its type and default, and the fields after it. -/
  | cons (name : String) (type : Schema) (default : Option Value) (rest : Fields)

end

/-- The names of the fields. -/
def Fields.names : Fields → List String
  | nil => []
  | cons name _ _ rest => name :: rest.names

/-- What a diagnostic says was expected. -/
def Schema.description : Schema → String
  | integer type => type.name
  | float format => "f" ++ toString format.width
  | boolean => "a boolean"
  | text => "a string"
  | character => "a character"
  | unit => "unit"
  | ignored => "anything at all"
  | marker name => "unit struct " ++ name
  | wrapper name _ => "tuple struct " ++ name
  | optional _ => "option"
  | list _ => "a sequence"
  | pair _ _ => "a tuple of size 2"
  | map _ _ => "a map"
  | choice enumeration => "enum " ++ enumeration.name
  | record name _ _ => "struct " ++ name

/-- The value of a field that is missing: its default, and otherwise no value
if the field is optional. -/
def Schema.whenMissing (default : Option Value) (type : Schema) : Option Value :=
  match default, type with
  | some value, _ => some value
  | none, optional _ => some .absent
  | none, _ => none

end LayeredIni
