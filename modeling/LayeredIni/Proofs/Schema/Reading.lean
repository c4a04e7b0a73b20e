/-
# How entries are read

The readers of maps and records go through the entries of a tree in order and
stop at the first that cannot be read. When none stops them, what they make of
the entries can be said without that order: a map has each key and node as they
are read, and a record finds under the name of a field what the node of that
name is read as.

No entry is read with a look at the others, and no field of a record is filled
with a look at the others. So the reader of maps and both rounds of the reader of
records are `mapM`s, and what is known of these holds of the readers.
-/

import LayeredIni.Proofs.Bindings
import LayeredIni.Proofs.Fallible
import LayeredIni.Schema.Decode

namespace LayeredIni

open LayeredIni.Fallible

namespace Schema

/-- An entry of a map is read as a key and a value. -/
def EntryReads (readKey : String → Except DecodeError Value) (readNode : Reading)
    (binding : String × Node) (entry : String × Value × Value) : Prop :=
  entry.1 = binding.1 ∧ readKey binding.1 = .ok entry.2.1 ∧ readNode binding.2 = .ok entry.2.2

/-- The reading of one entry, its key before its node. -/
def readPair (readKey : String → Except DecodeError Value) (readNode : Reading)
    (binding : String × Node) : Except DecodeError (String × Value × Value) := do
  let first ← readKey binding.1
  let second ← readNode binding.2
  return (binding.1, first, second)

theorem readPair_eq_ok_iff {readKey : String → Except DecodeError Value} {readNode : Reading}
    {binding : String × Node} {entry : String × Value × Value} :
    readPair readKey readNode binding = .ok entry ↔ EntryReads readKey readNode binding entry := by
  constructor
  · intro h
    obtain ⟨first, hfirst, h⟩ := bind_eq_ok_iff.mp h
    obtain ⟨second, hsecond, h⟩ := bind_eq_ok_iff.mp h
    cases h
    exact ⟨rfl, hfirst, hsecond⟩
  · obtain ⟨name, first, second⟩ := entry
    rintro ⟨hname, hfirst, hsecond⟩
    obtain rfl : name = binding.1 := hname
    exact bind_eq_ok_iff.mpr ⟨first, hfirst, bind_eq_ok_iff.mpr ⟨second, hsecond, rfl⟩⟩

theorem readMap_eq_mapM (readKey : String → Except DecodeError Value) (readNode : Reading)
    (bindings : Bindings Node) :
    readMap readKey readNode bindings = bindings.mapM (readPair readKey readNode) := by
  induction bindings with
  | nil => rfl
  | cons binding bindings ih =>
    obtain ⟨key, node⟩ := binding
    rw [readMap, List.mapM_cons, readPair, ih]
    cases readKey key with
    | error fault => rfl
    | ok first => cases readNode node <;> rfl

theorem readMap_eq_ok_iff {readKey : String → Except DecodeError Value} {readNode : Reading}
    {bindings : Bindings Node} {entries : Bindings (Value × Value)} :
    readMap readKey readNode bindings = .ok entries ↔
      List.Forall₂ (EntryReads readKey readNode) bindings entries := by
  rw [readMap_eq_mapM, mapM_eq_ok_iff]
  simp only [readPair_eq_ok_iff]

theorem keys_of_readMap {readKey : String → Except DecodeError Value} {readNode : Reading}
    {bindings : Bindings Node} {entries : Bindings (Value × Value)}
    (h : readMap readKey readNode bindings = .ok entries) : entries.keys = bindings.keys := by
  have hreads := readMap_eq_ok_iff.mp h
  clear h
  induction hreads with
  | nil => rfl
  | cons hentry _ ih => exact congrArg₂ List.cons hentry.1 ih

theorem exists_key_of_readMap {readKey : String → Except DecodeError Value} {readNode : Reading}
    {bindings : Bindings Node} {entries : Bindings (Value × Value)}
    (h : readMap readKey readNode bindings = .ok entries) {entry : String × Value × Value}
    (hentry : entry ∈ entries) : readKey entry.1 = .ok entry.2.1 := by
  have hreads := readMap_eq_ok_iff.mp h
  clear h
  induction hreads with
  | nil => cases hentry
  | cons hfirst _ ih =>
    rcases List.mem_cons.mp hentry with rfl | hmem
    · rw [hfirst.1]
      exact hfirst.2.1
    · exact ih hmem

/-- The field that has a name, the first one if there are several. -/
def fieldOf? (fields : List FieldReading) (name : String) : Option FieldReading :=
  fields.find? fun field => field.name == name

/-- An entry that a record can have: under the name of a field a node that the
field reads, and under any other name anything, unless the record is strict. -/
def Admits (strict : Bool) (fields : List FieldReading) (binding : String × Node) : Prop :=
  match fieldOf? fields binding.1 with
  | none => strict = false
  | some field => ∃ value, field.read binding.2 = .ok value

theorem readEntries_cons (strict : Bool) (fields : List FieldReading) (key : String) (node : Node)
    (rest : Bindings Node) :
    readEntries strict fields ((key, node) :: rest) =
      match fieldOf? fields key with
      | none =>
        if strict then .error (.unknownField key (fields.map FieldReading.name))
        else readEntries strict fields rest
      | some field => do
        let value ← field.read node
        let others ← readEntries strict fields rest
        return (key, value) :: others := by
  rw [readEntries]
  rfl

/-- What a record gets from an entry: a name with a value, or nothing. -/
def readEntry (strict : Bool) (fields : List FieldReading) (entry : String × Node) :
    Except DecodeError (Option (String × Value)) :=
  match fieldOf? fields entry.1 with
  | none =>
    if strict then .error (.unknownField entry.1 (fields.map FieldReading.name)) else .ok none
  | some field => (field.read entry.2).map fun value => some (entry.1, value)

theorem readEntry_of_eq_none {strict : Bool} {fields : List FieldReading} {key : String}
    (h : fieldOf? fields key = none) (node : Node) :
    readEntry strict fields (key, node) =
      if strict then .error (.unknownField key (fields.map FieldReading.name)) else .ok none := by
  rw [readEntry, h]

theorem readEntry_of_eq_some {strict : Bool} {fields : List FieldReading} {key : String}
    {field : FieldReading} (h : fieldOf? fields key = some field) (node : Node) :
    readEntry strict fields (key, node) =
      (field.read node).map fun value => some (key, value) := by
  rw [readEntry, h]

/-- The entries are read one by one, each without a look at the others. -/
theorem readEntries_eq_mapM (strict : Bool) (fields : List FieldReading)
    (bindings : Bindings Node) :
    readEntries strict fields bindings =
      (bindings.mapM (readEntry strict fields)).map List.reduceOption := by
  induction bindings with
  | nil => rfl
  | cons entry bindings ih =>
    obtain ⟨key, node⟩ := entry
    rw [readEntries_cons, List.mapM_cons, ih]
    cases hfield : fieldOf? fields key with
    | none =>
      rw [readEntry_of_eq_none hfield]
      cases strict with
      | true => rfl
      | false => cases bindings.mapM (readEntry false fields) <;> rfl
    | some field =>
      rw [readEntry_of_eq_some hfield]
      cases hvalue : field.read node with
      | error fault => simp only [hvalue]; rfl
      | ok value => simp only [hvalue]; cases bindings.mapM (readEntry strict fields) <;> rfl

theorem admits_iff {strict : Bool} {fields : List FieldReading} {entry : String × Node} :
    Admits strict fields entry ↔ ∃ result, readEntry strict fields entry = .ok result := by
  rw [Admits, readEntry]
  cases fieldOf? fields entry.1 with
  | none => cases strict <;> simp
  | some field => simp [map_eq_ok_iff]

/-- The entries of a record are read if the record can have each of them. -/
theorem exists_readEntries_eq_ok_iff {strict : Bool} {fields : List FieldReading}
    {bindings : Bindings Node} :
    (∃ found, readEntries strict fields bindings = .ok found) ↔
      ∀ binding ∈ bindings, Admits strict fields binding := by
  simp only [readEntries_eq_mapM, map_eq_ok_iff, admits_iff, ← exists_mapM_eq_ok_iff]
  constructor
  · rintro ⟨found, results, hresults, -⟩
    exact ⟨results, hresults⟩
  · rintro ⟨results, hresults⟩
    exact ⟨results.reduceOption, results, hresults, rfl⟩

/-- An entry under no field adds nothing, and any other one what its field reads. -/
theorem exists_of_readEntries_cons {strict : Bool} {fields : List FieldReading} {key : String}
    {node : Node} {rest : Bindings Node} {found : Bindings Value}
    (h : readEntries strict fields ((key, node) :: rest) = .ok found) :
    ∃ others, readEntries strict fields rest = .ok others ∧
      (fieldOf? fields key = none ∧ found = others ∨
        ∃ field value, fieldOf? fields key = some field ∧ field.read node = .ok value ∧
          found = (key, value) :: others) := by
  rw [readEntries_cons] at h
  cases hfield : fieldOf? fields key with
  | none =>
    rw [hfield] at h
    cases strict with
    | true => cases h
    | false => exact ⟨found, h, .inl ⟨rfl, rfl⟩⟩
  | some field =>
    rw [hfield] at h
    obtain ⟨value, hvalue, h⟩ := bind_eq_ok_iff.mp h
    obtain ⟨others, hothers, h⟩ := bind_eq_ok_iff.mp h
    cases h
    exact ⟨others, hothers, .inr ⟨field, value, rfl, hvalue, rfl⟩⟩

/-- What a record finds under a name is what the field of that name reads
from the node of that name. -/
theorem lookup_readEntries {strict : Bool} {fields : List FieldReading} {bindings : Bindings Node}
    {found : Bindings Value} (h : readEntries strict fields bindings = .ok found) (name : String) :
    found.lookup name = (fieldOf? fields name).bind fun field =>
      (bindings.lookup name).bind fun node => (field.read node).toOption := by
  induction bindings generalizing found with
  | nil =>
    cases h
    cases fieldOf? fields name <;> rfl
  | cons binding bindings ih =>
    obtain ⟨key, node⟩ := binding
    obtain ⟨others, hothers, ⟨hfield, rfl⟩ | ⟨field, value, hfield, hvalue, rfl⟩⟩ :=
      exists_of_readEntries_cons h
    · rw [ih hothers]
      by_cases hname : name = key
      · subst hname
        rw [hfield]
        rfl
      · rw [Bindings.lookup_cons_of_ne hname]
    · by_cases hname : name = key
      · subst hname
        simp [hfield, hvalue, Except.toOption]
      · rw [Bindings.lookup_cons_of_ne hname, Bindings.lookup_cons_of_ne hname]
        exact ih hothers

/-- The entry that a field makes in a record. -/
def completeField (found : Bindings Value) (field : FieldReading) :
    Except DecodeError (String × Value) :=
  match (found.lookup field.name).or field.whenMissing with
  | none => .error (.missingField field.name)
  | some value => .ok (field.name, value)

/-- The fields are filled one by one, each without a look at the others. -/
theorem completeFields_eq_mapM (found : Bindings Value) (fields : List FieldReading) :
    completeFields found fields = fields.mapM (completeField found) := by
  induction fields with
  | nil => rfl
  | cons field fields ih =>
    rw [completeFields, List.mapM_cons, completeField, ih]
    cases (found.lookup field.name).or field.whenMissing <;> rfl

/-- A record is completed from what is found under the names of its fields. -/
theorem completeFields_congr {found other : Bindings Value}
    (h : ∀ name, found.lookup name = other.lookup name) (fields : List FieldReading) :
    completeFields found fields = completeFields other fields := by
  have hfield : completeField found = completeField other := by
    funext field
    rw [completeField, completeField, h field.name]
  rw [completeFields_eq_mapM, completeFields_eq_mapM, hfield]

end Schema

end LayeredIni
