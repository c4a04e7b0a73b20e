/-
# What reading a record comes to

A tree is read as a record in two rounds. The first one goes through the entries
of the tree in their order, the second one through the fields in the order of
their declaration, and either stops at the first failure. So an entry that cannot
be read counts before any field that is missing, wherever the two are, and an
entry that is no field counts for nothing unless the record is strict.

The names of the fields are distinct, as they are in every declaration of a record,
and their types are arbitrary. What is said here of a record holds of the records
in its fields as well.
-/

import LayeredIni.Proofs.Schema.Reading
import LayeredIni.Proofs.Tree.Same

namespace LayeredIni

open LayeredIni.Fallible LayeredIni.Schema

/-- A field as a record declares it. -/
structure Field where
  /-- The name of the field. -/
  name : String
  /-- What its node is read as. -/
  type : Schema
  /-- The value that it has without an entry. -/
  default : Option Value

/-- The fields in the order of their declaration. -/
def Fields.toList : Fields → List Field
  | .nil => []
  | .cons name type default rest => ⟨name, type, default⟩ :: rest.toList

/-- A field with the reading of its type. -/
def Field.reading (field : Field) : Schema.FieldReading :=
  ⟨field.name, field.type.decode, field.type.whenMissing field.default⟩

theorem Fields.readings_eq : (fields : Fields) → fields.readings = fields.toList.map Field.reading
  | .nil => rfl
  | .cons _ _ _ rest => congrArg (List.cons _) rest.readings_eq

theorem Fields.names_eq : (fields : Fields) → fields.names = fields.toList.map Field.name
  | .nil => rfl
  | .cons _ _ _ rest => congrArg (List.cons _) rest.names_eq

theorem Fields.map_name_readings (fields : Fields) :
    fields.readings.map FieldReading.name = fields.toList.map Field.name := by
  rw [fields.readings_eq, List.map_map]
  rfl

namespace Schema

/-- What is wrong with an entry of a record: the field of its name cannot be read,
or there is none and the record is strict. -/
inductive EntryFault (strict : Bool) (fields : List Field) : String × Node → DecodeError → Prop
  | unread {field : Field} {node : Node} {fault : DecodeError} :
    field ∈ fields → field.type.decode node = .error fault →
    EntryFault strict fields (field.name, node) fault
  | unknown {key : String} {node : Node} :
    strict = true → key ∉ fields.map Field.name →
    EntryFault strict fields (key, node) (.unknownField key (fields.map Field.name))

/-- A field that must have an entry and has none. -/
structure Missing (tree : Tree) (field : Field) : Prop where
  no_entry : tree.get? field.name = none
  no_default : field.default = none
  not_optional : ∀ inner, field.type ≠ .optional inner

/-- What a field is filled with: what its node is read as, or its default, or
nothing if it is optional. -/
inductive Filled (tree : Tree) (field : Field) : Value → Prop
  | read {node : Node} {value : Value} :
    tree.get? field.name = some node → field.type.decode node = .ok value →
    Filled tree field value
  | default {value : Value} :
    tree.get? field.name = none → field.default = some value → Filled tree field value
  | absent {inner : Schema} :
    tree.get? field.name = none → field.default = none → field.type = .optional inner →
    Filled tree field .absent

/-- What reading a tree as a record comes to. -/
inductive RecordOutcome (strict : Bool) (fields : List Field) (tree : Tree) :
    Except DecodeError Value → Prop
  /-- The first entry that is at fault is reported. -/
  | faulty {before after : Bindings Node} {entry : String × Node} {fault : DecodeError} :
    tree.toList = before ++ entry :: after →
    (∀ earlier ∈ before, ∀ other, ¬ EntryFault strict fields earlier other) →
    EntryFault strict fields entry fault →
    RecordOutcome strict fields tree (.error fault)
  /-- If there is none, the first field that is missing is reported. -/
  | missing {before after : List Field} {field : Field} :
    (∀ entry ∈ tree.toList, ∀ fault, ¬ EntryFault strict fields entry fault) →
    fields = before ++ field :: after → (∀ earlier ∈ before, ¬ Missing tree earlier) →
    Missing tree field →
    RecordOutcome strict fields tree (.error (.missingField field.name))
  /-- If there is none either, every field is filled. -/
  | complete {values : Bindings Value} :
    (∀ entry ∈ tree.toList, ∀ fault, ¬ EntryFault strict fields entry fault) →
    List.Forall₂ (fun field filled => filled.1 = field.name ∧ Filled tree field filled.2)
      fields values →
    RecordOutcome strict fields tree (.ok (.record values))

section Names

variable {fields : Fields} {name : String}

theorem fieldOf?_readings :
    fieldOf? fields.readings name =
      (fields.toList.find? fun field => field.name == name).map Field.reading := by
  rw [fieldOf?, fields.readings_eq, List.find?_map]
  rfl

theorem fieldOf?_readings_eq_none_iff :
    fieldOf? fields.readings name = none ↔ name ∉ fields.names := by
  rw [fieldOf?_readings, Option.map_eq_none_iff, List.find?_eq_none, fields.names_eq,
    List.mem_map]
  simp

/-- With distinct names, the field of a name is the only one that is declared under it. -/
theorem fieldOf?_readings_of_mem (hnames : fields.names.Nodup) {field : Field}
    (hfield : field ∈ fields.toList) :
    fieldOf? fields.readings field.name = some field.reading := by
  rw [fields.names_eq] at hnames
  have hfound : (fields.toList.find? fun own => own.name == field.name) = some field := by
    cases hown : fields.toList.find? fun own => own.name == field.name with
    | none =>
      have hother := List.find?_eq_none.mp hown field hfield
      simp at hother
    | some own =>
      have hname : own.name = field.name := by simpa using List.find?_some hown
      have hmem := List.mem_of_find?_eq_some hown
      rw [List.inj_on_of_nodup_map hnames hmem hfield hname]
  rw [fieldOf?_readings, hfound]
  rfl

end Names

/-! ## The first round: the entries -/

/-- An entry under a name that is no field is read as if it was not there, unless
the record is strict. -/
theorem readEntries_filter (fields : List FieldReading) (bindings : Bindings Node) :
    readEntries false fields (bindings.filter fun entry => (fieldOf? fields entry.1).isSome) =
      readEntries false fields bindings := by
  induction bindings with
  | nil => rfl
  | cons entry bindings ih =>
    obtain ⟨key, node⟩ := entry
    rw [readEntries_cons, List.filter_cons]
    cases hfield : fieldOf? fields key with
    | none => exact ih
    | some field =>
      rw [Option.isSome_some, if_pos rfl, readEntries_cons, hfield, ih]

section Entries

variable {strict : Bool} {fields : Fields} {tree : Tree}

/-- An entry stops the first round if it is at fault. -/
theorem readEntry_eq_error_iff (hnames : fields.names.Nodup) {entry : String × Node}
    {fault : DecodeError} :
    readEntry strict fields.readings entry = .error fault ↔
      EntryFault strict fields.toList entry fault := by
  obtain ⟨key, node⟩ := entry
  constructor
  · intro h
    by_cases hkey : key ∈ fields.names
    · rw [fields.names_eq] at hkey
      obtain ⟨field, hfield, rfl⟩ := List.mem_map.mp hkey
      rw [readEntry_of_eq_some (fieldOf?_readings_of_mem hnames hfield)] at h
      exact .unread hfield (map_eq_error_iff.mp h)
    · rw [readEntry_of_eq_none (fieldOf?_readings_eq_none_iff.mpr hkey),
        fields.map_name_readings] at h
      rw [fields.names_eq] at hkey
      cases strict with
      | true =>
        cases h
        exact .unknown rfl hkey
      | false => cases h
  · intro h
    cases h with
    | unread hfield hnode =>
      rw [readEntry_of_eq_some (fieldOf?_readings_of_mem hnames hfield)]
      exact map_eq_error_iff.mpr hnode
    | unknown hstrict hkey =>
      rw [← fields.names_eq] at hkey
      rw [readEntry_of_eq_none (fieldOf?_readings_eq_none_iff.mpr hkey),
        fields.map_name_readings, if_pos hstrict]

theorem admits_iff_no_fault (hnames : fields.names.Nodup) {entry : String × Node} :
    Admits strict fields.readings entry ↔
      ∀ fault, ¬ EntryFault strict fields.toList entry fault := by
  simp only [admits_iff, ← readEntry_eq_error_iff hnames]
  cases readEntry strict fields.readings entry <;> simp

theorem readEntries_eq_error_iff (hnames : fields.names.Nodup) {bindings : Bindings Node}
    {fault : DecodeError} :
    readEntries strict fields.readings bindings = .error fault ↔
      ∃ before entry after, bindings = before ++ entry :: after ∧
        (∀ earlier ∈ before, ∀ other, ¬ EntryFault strict fields.toList earlier other) ∧
        EntryFault strict fields.toList entry fault := by
  rw [readEntries_eq_mapM, map_eq_error_iff, mapM_eq_error_iff]
  simp only [← admits_iff, admits_iff_no_fault hnames, readEntry_eq_error_iff hnames]

theorem exists_readEntries_iff_no_fault (hnames : fields.names.Nodup)
    {bindings : Bindings Node} :
    (∃ found, readEntries strict fields.readings bindings = .ok found) ↔
      ∀ entry ∈ bindings, ∀ fault, ¬ EntryFault strict fields.toList entry fault := by
  simp only [exists_readEntries_eq_ok_iff, admits_iff_no_fault hnames]

end Entries

/-! ## The second round: the fields -/

theorem completeField_eq_ok_iff {found : Bindings Value} {field : FieldReading}
    {filled : String × Value} :
    completeField found field = .ok filled ↔
      filled.1 = field.name ∧ (found.lookup field.name).or field.whenMissing = some filled.2 := by
  obtain ⟨name, value⟩ := filled
  rw [completeField]
  cases (found.lookup field.name).or field.whenMissing <;> simp [eq_comm]

theorem completeField_eq_error_iff {found : Bindings Value} {field : FieldReading}
    {fault : DecodeError} :
    completeField found field = .error fault ↔
      (found.lookup field.name).or field.whenMissing = none ∧ fault = .missingField field.name := by
  rw [completeField]
  cases (found.lookup field.name).or field.whenMissing <;> simp [eq_comm]

/-- A field without an entry has its default, and no value if it is optional. -/
theorem whenMissing_eq_some_iff {type : Schema} {default : Option Value} {value : Value} :
    type.whenMissing default = some value ↔
      default = some value ∨
        default = none ∧ (∃ inner, type = .optional inner) ∧ value = .absent := by
  cases default with
  | some own => simp [whenMissing]
  | none => cases type <;> simp [whenMissing, eq_comm]

theorem whenMissing_eq_none_iff {type : Schema} {default : Option Value} :
    type.whenMissing default = none ↔ default = none ∧ ∀ inner, type ≠ .optional inner := by
  cases default with
  | some own => simp [whenMissing]
  | none => cases type <;> simp [whenMissing]

section Completion

variable {strict : Bool} {fields : Fields} {tree : Tree} {found : Bindings Value} {field : Field}

theorem lookup_found (hnames : fields.names.Nodup)
    (hfound : readEntries strict fields.readings tree.toList = .ok found)
    (hfield : field ∈ fields.toList) :
    found.lookup field.name =
      (tree.get? field.name).bind fun node => (field.type.decode node).toOption := by
  rw [lookup_readEntries hfound, fieldOf?_readings_of_mem hnames hfield]
  rfl

/-- After the first round, the node of a field has been read. -/
theorem exists_decode_of_found (hnames : fields.names.Nodup)
    (hfound : readEntries strict fields.readings tree.toList = .ok found)
    (hfield : field ∈ fields.toList) {node : Node} (hnode : tree.get? field.name = some node) :
    ∃ value, field.type.decode node = .ok value := by
  have hfaults := (exists_readEntries_iff_no_fault hnames).mp ⟨found, hfound⟩
  cases hvalue : field.type.decode node with
  | ok value => exact ⟨value, rfl⟩
  | error fault =>
    have hfault : EntryFault strict fields.toList (field.name, node) fault :=
      .unread hfield hvalue
    exact absurd hfault (hfaults _ (Tree.mem_toList_iff.mpr hnode) fault)

/-- A field is filled as it is declared from what the first round has found. -/
theorem filled_iff (hnames : fields.names.Nodup)
    (hfound : readEntries strict fields.readings tree.toList = .ok found)
    (hfield : field ∈ fields.toList) {value : Value} :
    (found.lookup field.name).or (field.type.whenMissing field.default) = some value ↔
      Filled tree field value := by
  rw [lookup_found hnames hfound hfield]
  cases hnode : tree.get? field.name with
  | none =>
    rw [Option.bind_none, Option.none_or, whenMissing_eq_some_iff]
    constructor
    · rintro (hdefault | ⟨hdefault, ⟨inner, htype⟩, rfl⟩)
      · exact .default hnode hdefault
      · exact .absent hnode hdefault htype
    · intro h
      cases h with
      | read hother _ => cases hnode.symm.trans hother
      | default _ hdefault => exact .inl hdefault
      | absent _ hdefault htype => exact .inr ⟨hdefault, ⟨_, htype⟩, rfl⟩
  | some node =>
    obtain ⟨own, hown⟩ := exists_decode_of_found hnames hfound hfield hnode
    have hread : ((some node).bind fun node => (field.type.decode node).toOption) = some own := by
      rw [Option.bind_some, hown]
      rfl
    rw [hread, Option.some_or]
    constructor
    · intro h
      cases h
      exact .read hnode hown
    · intro h
      cases h with
      | read hother hvalue =>
        cases hnode.symm.trans hother
        cases hown.symm.trans hvalue
        rfl
      | default hother _ => cases hnode.symm.trans hother
      | absent hother _ _ => cases hnode.symm.trans hother

theorem missing_iff (hnames : fields.names.Nodup)
    (hfound : readEntries strict fields.readings tree.toList = .ok found)
    (hfield : field ∈ fields.toList) :
    (found.lookup field.name).or (field.type.whenMissing field.default) = none ↔
      Missing tree field := by
  rw [lookup_found hnames hfound hfield, Option.or_eq_none_iff, whenMissing_eq_none_iff]
  constructor
  · rintro ⟨hlookup, hdefault, htype⟩
    refine ⟨?_, hdefault, htype⟩
    cases hnode : tree.get? field.name with
    | none => rfl
    | some node =>
      obtain ⟨own, hown⟩ := exists_decode_of_found hnames hfound hfield hnode
      rw [hnode, Option.bind_some, hown] at hlookup
      cases hlookup
  · rintro ⟨hnode, hdefault, htype⟩
    rw [hnode]
    exact ⟨rfl, hdefault, htype⟩

/-- The second round stops at a field if it is missing. -/
theorem exists_completeField_eq_ok_iff (hnames : fields.names.Nodup)
    (hfound : readEntries strict fields.readings tree.toList = .ok found)
    (hfield : field ∈ fields.toList) :
    (∃ filled, completeField found field.reading = .ok filled) ↔ ¬ Missing tree field := by
  simp only [completeField_eq_ok_iff]
  rw [← missing_iff hnames hfound hfield, ← ne_eq, Option.ne_none_iff_exists']
  constructor
  · rintro ⟨filled, -, hvalue⟩
    exact ⟨filled.2, hvalue⟩
  · rintro ⟨value, hvalue⟩
    exact ⟨(field.name, value), rfl, hvalue⟩

/-- The second round succeeds with every field filled. -/
theorem completeFields_eq_ok_iff (hnames : fields.names.Nodup)
    (hfound : readEntries strict fields.readings tree.toList = .ok found)
    {values : Bindings Value} :
    completeFields found fields.readings = .ok values ↔
      List.Forall₂ (fun field filled => filled.1 = field.name ∧ Filled tree field filled.2)
        fields.toList values := by
  have hfills (field : Field) (filled : String × Value) (hfield : field ∈ fields.toList) :
      completeField found field.reading = .ok filled ↔
        filled.1 = field.name ∧ Filled tree field filled.2 := by
    rw [← filled_iff hnames hfound hfield]
    exact completeField_eq_ok_iff
  -- What a field is filled with is known of the declared fields only.
  have hmem (R : Field → String × Value → Prop) :
      List.Forall₂ R fields.toList values ↔
        List.Forall₂ (fun field filled => field ∈ fields.toList ∧ R field filled)
          fields.toList values := by
    rw [List.forall₂_and_left]
    exact (and_iff_right fun _ hfield => hfield).symm
  rw [completeFields_eq_mapM, mapM_eq_ok_iff, fields.readings_eq, List.forall₂_map_left_iff,
    hmem, hmem fun field filled => filled.1 = field.name ∧ Filled tree field filled.2]
  simp only [and_congr_right_iff.mpr (hfills _ _)]

/-- The second round fails with the first field that is missing. -/
theorem completeFields_eq_error_iff (hnames : fields.names.Nodup)
    (hfound : readEntries strict fields.readings tree.toList = .ok found)
    {fault : DecodeError} :
    completeFields found fields.readings = .error fault ↔
      ∃ before field after, fields.toList = before ++ field :: after ∧
        (∀ earlier ∈ before, ¬ Missing tree earlier) ∧ Missing tree field ∧
        fault = .missingField field.name := by
  rw [completeFields_eq_mapM, fields.readings_eq, List.mapM_map, mapM_eq_error_iff]
  refine exists_congr fun before => exists_congr fun field => exists_congr fun after =>
    and_congr_right fun hsplit => ?_
  have hbefore (earlier : Field) (h : earlier ∈ before) : earlier ∈ fields.toList :=
    hsplit ▸ List.mem_append_left _ h
  have hfield : field ∈ fields.toList :=
    hsplit ▸ List.mem_append_right _ (List.mem_cons_self ..)
  refine and_congr (forall₂_congr fun earlier h => ?_) ?_
  · exact exists_completeField_eq_ok_iff hnames hfound (hbefore earlier h)
  · rw [← missing_iff hnames hfound hfield]
    exact completeField_eq_error_iff

end Completion

/-! ## Both rounds -/

section Record

variable {name : String} {strict : Bool} {fields : Fields} {tree : Tree}

theorem decode_record_eq_error_iff (hnames : fields.names.Nodup) {fault : DecodeError} :
    tree.decode (.record name strict fields) = .error fault ↔
      RecordOutcome strict fields.toList tree (.error fault) := by
  rw [Tree.decode, Schema.decode]
  constructor
  · intro h
    rcases bind_eq_error_iff.mp h with hentries | ⟨found, hfound, h⟩
    · obtain ⟨before, entry, after, hsplit, hbefore, hentry⟩ :=
        (readEntries_eq_error_iff hnames).mp hentries
      exact .faulty hsplit hbefore hentry
    · have hfaults := (exists_readEntries_iff_no_fault hnames).mp ⟨found, hfound⟩
      rcases bind_eq_error_iff.mp h with hfields | ⟨values, -, hvalues⟩
      · obtain ⟨before, field, after, hsplit, hbefore, hfield, rfl⟩ :=
          (completeFields_eq_error_iff hnames hfound).mp hfields
        exact .missing hfaults hsplit hbefore hfield
      · cases hvalues
  · intro h
    cases h with
    | faulty hsplit hbefore hentry =>
      exact bind_eq_error_iff.mpr (.inl
        ((readEntries_eq_error_iff hnames).mpr ⟨_, _, _, hsplit, hbefore, hentry⟩))
    | missing hfaults hsplit hbefore hfield =>
      obtain ⟨found, hfound⟩ := (exists_readEntries_iff_no_fault hnames).mpr hfaults
      have hfields := (completeFields_eq_error_iff hnames hfound).mpr
        ⟨_, _, _, hsplit, hbefore, hfield, rfl⟩
      exact bind_eq_error_iff.mpr (.inr ⟨found, hfound, bind_eq_error_iff.mpr (.inl hfields)⟩)

/-- A record is read if neither round fails. -/
theorem decode_record_eq_ok_iff (hnames : fields.names.Nodup) {value : Value} :
    tree.decode (.record name strict fields) = .ok value ↔
      RecordOutcome strict fields.toList tree (.ok value) := by
  rw [Tree.decode, Schema.decode]
  constructor
  · intro h
    obtain ⟨found, hfound, h⟩ := bind_eq_ok_iff.mp h
    obtain ⟨values, hvalues, h⟩ := bind_eq_ok_iff.mp h
    cases h
    exact .complete ((exists_readEntries_iff_no_fault hnames).mp ⟨found, hfound⟩)
      ((completeFields_eq_ok_iff hnames hfound).mp hvalues)
  · intro h
    cases h with
    | complete hfaults hfilled =>
      obtain ⟨found, hfound⟩ := (exists_readEntries_iff_no_fault hnames).mpr hfaults
      have hvalues := (completeFields_eq_ok_iff hnames hfound).mpr hfilled
      exact bind_eq_ok_iff.mpr ⟨found, hfound, bind_eq_ok_iff.mpr ⟨_, hvalues, rfl⟩⟩

theorem exists_mem_of_filled {declared : List Field} {values : Bindings Value}
    (h : List.Forall₂ (fun field filled => filled.1 = field.name ∧ Filled tree field filled.2)
      declared values) {field : Field} (hfield : field ∈ declared) :
    ∃ value, (field.name, value) ∈ values ∧ Filled tree field value := by
  induction h with
  | nil => cases hfield
  | @cons own filled _ _ hown _ ih =>
    rcases List.mem_cons.mp hfield with rfl | hrest
    · exact ⟨filled.2, hown.1 ▸ List.mem_cons_self .., hown.2⟩
    · obtain ⟨value, hvalue, hfilled⟩ := ih hrest
      exact ⟨value, List.mem_cons_of_mem _ hvalue, hfilled⟩

theorem Filled.of_optional {field : Field} {inner : Schema} {node : Node} {value : Value}
    (h : Filled tree field value) (htype : field.type = .optional inner)
    (hnode : tree.get? field.name = some node) :
    ∃ own, inner.decode node = .ok own ∧ value = .present own := by
  cases h with
  | read hother hvalue =>
    cases hnode.symm.trans hother
    rw [htype, Schema.decode] at hvalue
    obtain ⟨own, hown, rfl⟩ := map_eq_ok_iff.mp hvalue
    exact ⟨own, hown, rfl⟩
  | default hother _ => cases hnode.symm.trans hother
  | absent hother _ _ => cases hnode.symm.trans hother

/-- Without the entries that are no fields a record is read as it is with them,
unless it is strict. -/
theorem decode_record_filter :
    tree.decode (.record name false fields) = do
      let found ← readEntries false fields.readings
        (tree.toList.filter fun entry => entry.1 ∈ fields.names)
      return .record (← completeFields found fields.readings) := by
  -- To have a field of its name is to be under one of the names.
  have hkeep : (fun entry : String × Node => decide (entry.1 ∈ fields.names)) =
      fun entry => (fieldOf? fields.readings entry.1).isSome := by
    funext entry
    rw [Bool.eq_iff_iff, decide_eq_true_eq, ← not_iff_not, ← fieldOf?_readings_eq_none_iff]
    simp
  rw [hkeep, readEntries_filter, Tree.decode, Schema.decode]

/-- What reading a record comes to. The first entry at fault is reported, else
the first field that is missing, and else every field has the value of its node,
its default or nothing. An optional field with an entry is never without a value,
and entries that are no fields make no difference unless the record is strict. -/
theorem decode_record_classified (name : String) (strict : Bool) (fields : Fields)
    (hnames : fields.names.Nodup) (tree : Tree) :
    (∀ result, tree.decode (.record name strict fields) = result ↔
      RecordOutcome strict fields.toList tree result) ∧
    (∀ values, tree.decode (.record name strict fields) = .ok (.record values) →
      ∀ field ∈ fields.toList, ∀ inner, field.type = .optional inner →
        ∀ node, tree.get? field.name = some node →
          ∃ own, inner.decode node = .ok own ∧ (field.name, .present own) ∈ values) ∧
    (strict = false → ∀ other : Tree,
      (tree.toList.filter fun entry => entry.1 ∈ fields.names) =
        (other.toList.filter fun entry => entry.1 ∈ fields.names) →
      tree.decode (.record name strict fields) = other.decode (.record name strict fields)) := by
  refine ⟨fun result => ?_, ?_, ?_⟩
  · cases result with
    | error fault => exact decode_record_eq_error_iff hnames
    | ok value => exact decode_record_eq_ok_iff hnames
  · intro values h field hfield inner htype node hnode
    cases (decode_record_eq_ok_iff hnames).mp h with
    | complete _ hfilled =>
      obtain ⟨value, hvalue, hfield⟩ := exists_mem_of_filled hfilled hfield
      obtain ⟨own, hown, rfl⟩ := hfield.of_optional htype hnode
      exact ⟨own, hown, hvalue⟩
  · rintro rfl other hentries
    rw [decode_record_filter, decode_record_filter, hentries]

/-- Behind a branch that is no field, the first of two texts that cannot be read
is reported, although a field is missing as well. Another tree is read with the
value of its optional field, whatever it has besides. -/
theorem decode_record_classified_behind_branch :
    let fields : Fields := .cons "port" (.integer ⟨false, 8⟩) none
      (.cons "tls" (.optional .boolean) none (.cons "host" .text (some (.text "local"))
        (.cons "mark" .unit none .nil)))
    let type : Schema := .record "Server" false fields
    let faulty : Tree := ⟨.branch "other" (.scalar "port" "1" .nil)
      (.scalar "tls" "maybe" (.scalar "port" "300" .nil)), by decide⟩
    let sound : Tree := ⟨.scalar "tls" "on" (.branch "mark" .nil (.scalar "port" "80" .nil)),
      by decide⟩
    let extended : Tree := ⟨.scalar "tls" "on" (.branch "other" (.scalar "port" "x" .nil)
      (.branch "mark" .nil (.scalar "port" "80" .nil))), by decide⟩
    let values : Bindings Value := [("port", .integer 80), ("tls", .present (.boolean true)),
      ("host", .text "local"), ("mark", .unit)]
    fields.names.Nodup ∧
      RecordOutcome false fields.toList faulty (.error (.invalidValue "maybe" .boolean)) ∧
      (sound.decode type = .ok (.record values) ∧ sound.get? "tls" = some (.scalar "on") ∧
        ∃ own, Schema.boolean.decode (.scalar "on") = .ok own ∧ ("tls", .present own) ∈ values) ∧
      sound.toList.filter (·.1 ∈ fields.names) = extended.toList.filter (·.1 ∈ fields.names) ∧
      sound.decode type = extended.decode type := by
  intro fields type faulty sound extended values
  have hnames : fields.names.Nodup := by decide
  have hfaulty : faulty.decode type = .error (.invalidValue "maybe" .boolean) := rfl
  have hsound : sound.decode type = .ok (.record values) := rfl
  have hentries : sound.toList.filter (·.1 ∈ fields.names) =
      extended.toList.filter (·.1 ∈ fields.names) := by decide +kernel
  obtain ⟨houtcome, -, -⟩ := decode_record_classified "Server" false fields hnames faulty
  obtain ⟨-, hoptional, hother⟩ := decode_record_classified "Server" false fields hnames sound
  have htls : (⟨"tls", .optional .boolean, none⟩ : Field) ∈ fields.toList := by
    simp [fields, Fields.toList]
  exact ⟨hnames, (houtcome _).mp hfaulty,
    ⟨hsound, rfl, hoptional values hsound _ htls .boolean rfl (.scalar "on") rfl⟩,
    hentries, hother rfl extended hentries⟩

end Record

end Schema

end LayeredIni
