/-
# Reading trees as values of a schema

`Schema.decode` reads a node as a value. Texts keep no trace of a type until
here: the same text is a number for one schema and a word for another.

The entries of a tree are taken in order, so the first one that cannot be read
decides which error is reported. Only when all of them can be read are missing
fields looked for, in the order of their declaration.
-/

import LayeredIni.Schema.Error
import LayeredIni.Text.Basic

namespace LayeredIni

open LayeredIni.Number LayeredIni.Text

/-- The truth value that a word stands for, in any letter case. -/
def truthValue? (word : List Char) : Option Bool :=
  if isOneOf ["true", "on", "yes", "1"] word then some true
  else if isOneOf ["false", "off", "no", "0", ""] word then some false
  else none

/-- Finds the variant that a text stands for. -/
def Enumeration.decode (enumeration : Enumeration) (label : String) : Except DecodeError Value :=
  match enumeration.variants.find? fun candidate => candidate.label == label with
  | none => .error (.unknownVariant label enumeration)
  | some found =>
    match found.form with
    | .plain => .ok (.choice label)
    | form => .error (.variantWithData form)

namespace Schema

/-- The character that a text consists of, if it consists of one. -/
def character? : List Char → Option Char
  | [c] => some c
  | _ => none

/-- What came of looking for a value of a type in a text. -/
def found (type : Schema) (text : String) : Option Value → Except DecodeError Value
  | some value => .ok value
  | none => .error (.invalidValue text type)

/-- The value that a text denotes in a type that texts can be read as. Numbers
and truth values are read between the blanks at either end of the text. -/
def decodeText (type : Schema) (text : String) : Except DecodeError Value :=
  match type with
  | .integer width =>
    if width.width ≤ 64 then type.found text ((width.parse? (trim text.toList)).map .integer)
    else .error (.invalidType (.scalar text) type)
  | .float format =>
    type.found text ((Binary.parse? format (trim text.toList)).map (.float format))
  | .boolean => type.found text ((truthValue? (trim text.toList)).map .boolean)
  | .character => type.found text ((character? text.toList).map .character)
  | .text => .ok (.text text)
  | .choice enumeration => enumeration.decode text
  | _ => .error (.invalidType (.scalar text) type)

/-- Reads a key. Keys are texts, and nothing but texts, single characters and
choices is read from them. -/
def decodeKey (type : Schema) (key : String) : Except DecodeError Value :=
  match type with
  | .text => type.decodeText key
  | .character => type.decodeText key
  | .choice _ => type.decodeText key
  | _ => .error (.invalidType (.scalar key) type)

/-- The order of the keys of a map: choices in the order of their declaration,
texts by their code points. -/
def keyLe (type : Schema) (left right : String) : Bool :=
  match type with
  | .choice enumeration =>
    enumeration.labels.idxOf left ≤ enumeration.labels.idxOf right
  | _ => left ≤ right

/-- A way of reading nodes: the value that a node denotes, or why it denotes none. -/
abbrev Reading := Node → Except DecodeError Value

/-- A field of a record with the reading of its type. -/
structure FieldReading where
  /-- The name of the field. -/
  name : String
  /-- How the node of the field is read. -/
  read : Reading
  /-- The value of the field when it is missing, if it may be. -/
  whenMissing : Option Value

/-- Reads the entries of a map in order, each key before its node. -/
def readMap (readKey : String → Except DecodeError Value) (readNode : Reading) :
    Bindings Node → Except DecodeError (Bindings (Value × Value))
  | [] => .ok []
  | (key, node) :: rest => do
    let first ← readKey key
    let second ← readNode node
    let others ← readMap readKey readNode rest
    return (key, first, second) :: others

/-- Reads the entries of a record in order. A key that is no field is an error
in a strict record and counts for nothing in any other. -/
def readEntries (strict : Bool) (fields : List FieldReading) :
    Bindings Node → Except DecodeError (Bindings Value)
  | [] => .ok []
  | (key, node) :: rest =>
    match fields.find? fun field => field.name == key with
    | none =>
      if strict then .error (.unknownField key (fields.map FieldReading.name))
      else readEntries strict fields rest
    | some field => do
      let value ← field.read node
      let others ← readEntries strict fields rest
      return (key, value) :: others

/-- The fields with their values in the order of their declaration. -/
def completeFields (found : Bindings Value) :
    List FieldReading → Except DecodeError (Bindings Value)
  | [] => .ok []
  | field :: rest =>
    match (found.lookup field.name).or field.whenMissing with
    | none => .error (.missingField field.name)
    | some value => do
      let others ← completeFields found rest
      return (field.name, value) :: others

end Schema

mutual

/-- Reads a node as a value of a type. -/
def Schema.decode : Schema → Schema.Reading
  | .unit, _ => .ok .unit
  | .ignored, _ => .ok .ignored
  | .wrapper _ inner, node => (inner.decode node).map Value.wrapped
  | .optional inner, node => (inner.decode node).map Value.present
  | .map keys values, .tree tree => do
    let entries ← Schema.readMap keys.decodeKey values.decode tree.toList
    let sorted := entries.mergeSort fun left right => keys.keyLe left.1 right.1
    return .map (sorted.map Prod.snd)
  | .record _ strict fields, .tree tree => do
    let found ← Schema.readEntries strict fields.readings tree.toList
    return .record (← Schema.completeFields found fields.readings)
  | type, .tree tree => .error (.invalidType (.tree tree) type)
  | type, .scalar text => type.decodeText text

/-- The readings of the fields of a record. -/
def Fields.readings : Fields → List Schema.FieldReading
  | .nil => []
  | .cons name type default rest =>
    ⟨name, type.decode, type.whenMissing default⟩ :: rest.readings

end

/-- Reads a whole tree as a value of a type. -/
def Tree.decode (tree : Tree) (type : Schema) : Except DecodeError Value :=
  type.decode (.tree tree)

end LayeredIni
