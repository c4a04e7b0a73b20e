/-
# Reading does not depend on the order of keys

Two trees that say the same are read as the same value of a type, or neither is
read as any. The order of the keys does decide which of several faults is
reported, since reading stops at the first one, but not whether there is one:
every entry has to be read in either order, a record finds its fields by name,
and a map is sorted by its keys before it becomes a value.
-/

import LayeredIni.Proofs.Schema.Reading
import LayeredIni.Proofs.Tree.Same
import Mathlib.Data.List.Forall2
import Mathlib.Order.Defs.LinearOrder

namespace LayeredIni

open LayeredIni.Fallible

namespace Schema

/-- A way of reading that does not depend on the order of keys: what is read from
a node is read from every node that says the same. -/
def Reading.IgnoresOrder (read : Reading) : Prop :=
  ∀ ⦃first second : Node⦄, first.Alike second → ∀ value, read first = .ok value →
    read second = .ok value

section KeyOrder

variable {type : Schema}

theorem keyLe_total (left right : String) :
    (type.keyLe left right || type.keyLe right left) = true := by
  cases type <;> simp [keyLe, Nat.le_total, String.le_total]

theorem keyLe_trans {left middle right : String} (hleft : type.keyLe left middle = true)
    (hright : type.keyLe middle right = true) : type.keyLe left right = true := by
  cases type with
  | choice enumeration =>
    simp only [keyLe, decide_eq_true_eq] at *
    exact Nat.le_trans hleft hright
  | _ =>
    simp only [keyLe, decide_eq_true_eq] at *
    exact String.le_trans hleft hright

theorem mem_labels_of_decode {enumeration : Enumeration} {label : String} {value : Value}
    (h : enumeration.decode label = .ok value) : label ∈ enumeration.labels := by
  unfold Enumeration.decode at h
  split at h
  · cases h
  · next variant hvariant =>
    have hlabel := List.find?_some hvariant
    rw [beq_iff_eq] at hlabel
    exact hlabel ▸ List.mem_map_of_mem (List.mem_of_find?_eq_some hvariant)

/-- Keys that are read have different places in the order. -/
theorem keyLe_antisymm {left right : String} {value other : Value}
    (hvalue : type.decodeKey left = .ok value) (hother : type.decodeKey right = .ok other)
    (hleft : type.keyLe left right = true) (hright : type.keyLe right left = true) :
    left = right := by
  cases type with
  | choice enumeration =>
    have hmem := mem_labels_of_decode hvalue
    simp only [keyLe, decide_eq_true_eq] at hleft hright
    exact (List.idxOf_inj hmem).mp (Nat.le_antisymm hleft hright)
  | _ =>
    simp only [keyLe, decide_eq_true_eq] at hleft hright
    exact String.le_antisymm hleft hright

end KeyOrder

/-- Sorting the entries of a map by their keys leaves nothing of their order. -/
theorem mergeSort_eq_of_perm {type : Schema} {entries others : Bindings (Value × Value)}
    (hperm : entries.Perm others) (hnodup : entries.keys.Nodup)
    (hkeys : ∀ entry ∈ entries, ∃ value, type.decodeKey entry.1 = .ok value) :
    entries.mergeSort (fun left right => type.keyLe left.1 right.1) =
      others.mergeSort (fun left right => type.keyLe left.1 right.1) := by
  have hsorted (list : Bindings (Value × Value)) :=
    List.pairwise_mergeSort (fun left middle right => @keyLe_trans type left.1 middle.1 right.1)
      (fun left right => @keyLe_total type left.1 right.1) list
  apply List.Perm.eq_of_pairwise _ (hsorted entries) (hsorted others)
  · exact (List.mergeSort_perm _ _).trans (hperm.trans (List.mergeSort_perm _ _).symm)
  · intro entry other hentry hother hle hge
    have hentry : entry ∈ entries := List.mem_mergeSort.mp hentry
    have hother : other ∈ entries := hperm.mem_iff.mpr (List.mem_mergeSort.mp hother)
    obtain ⟨value, hvalue⟩ := hkeys entry hentry
    obtain ⟨found, hfound⟩ := hkeys other hother
    exact List.inj_on_of_nodup_map hnodup hentry hother (keyLe_antisymm hvalue hfound hle hge)

/-- What a map reads from entries it reads from entries that say the same. -/
theorem forall₂_entryReads_of_alike {readKey : String → Except DecodeError Value}
    {readNode : Reading} (hread : readNode.IgnoresOrder) {bindings reordered : Bindings Node}
    {entries : Bindings (Value × Value)}
    (halike : List.Forall₂ (fun own other : String × Node => own.1 = other.1 ∧ own.2.Alike other.2)
      bindings reordered)
    (h : List.Forall₂ (EntryReads readKey readNode) bindings entries) :
    List.Forall₂ (EntryReads readKey readNode) reordered entries := by
  induction halike generalizing entries with
  | nil => exact h
  | cons hhead _ ih =>
    cases h with
    | cons hentry hrest =>
      obtain ⟨hkey, hfirst, hsecond⟩ := hentry
      rw [hhead.1] at hkey hfirst
      exact .cons ⟨hkey, hfirst, hread hhead.2 _ hsecond⟩ (ih hrest)

/-- Trees that say the same are read as the same entries of a map, in some order. -/
theorem exists_readMap_of_same {readKey : String → Except DecodeError Value} {readNode : Reading}
    (hread : readNode.IgnoresOrder) {first second : Tree} (hsame : first.same second = true)
    {entries : Bindings (Value × Value)}
    (h : readMap readKey readNode first.toList = .ok entries) :
    ∃ others, readMap readKey readNode second.toList = .ok others ∧ entries.Perm others := by
  obtain ⟨reordered, halike, hperm⟩ := Tree.exists_reordered hsame
  have hreordered := forall₂_entryReads_of_alike hread halike (readMap_eq_ok_iff.mp h)
  obtain ⟨others, hothers, hentries⟩ := List.perm_comp_forall₂ hperm.symm hreordered
  exact ⟨others, readMap_eq_ok_iff.mpr hothers, hentries.symm⟩

/-- If a record can have all entries of a tree, it can have those of a tree that
says the same. -/
theorem admits_of_same {strict : Bool} {fields : List FieldReading}
    (hfields : ∀ field ∈ fields, field.read.IgnoresOrder) {first second : Tree}
    (hsame : first.same second = true)
    (h : ∀ binding ∈ first.toList, Admits strict fields binding) :
    ∀ binding ∈ second.toList, Admits strict fields binding := by
  rintro ⟨key, node⟩ hmem
  obtain ⟨own, hown, halike⟩ := (Tree.same_iff_forall.mp (Tree.same_symm hsame)).2 key node
    (Tree.mem_toList_iff.mp hmem)
  have hadmits := h (key, own) (Tree.mem_toList_iff.mpr hown)
  unfold Admits at hadmits ⊢
  cases hfield : fieldOf? fields key with
  | none =>
    rw [hfield] at hadmits
    exact hadmits
  | some field =>
    rw [hfield] at hadmits
    obtain ⟨value, hvalue⟩ := hadmits
    exact ⟨value, hfields field (List.mem_of_find?_eq_some hfield) halike.symm value hvalue⟩

/-- Trees that say the same give a record the same values under all names. -/
theorem exists_readEntries_of_same {strict : Bool} {fields : List FieldReading}
    (hfields : ∀ field ∈ fields, field.read.IgnoresOrder) {first second : Tree}
    (hsame : first.same second = true) {found : Bindings Value}
    (h : readEntries strict fields first.toList = .ok found) :
    ∃ other, readEntries strict fields second.toList = .ok other ∧
      ∀ name, found.lookup name = other.lookup name := by
  have hadmits := exists_readEntries_eq_ok_iff.mp ⟨found, h⟩
  obtain ⟨other, hother⟩ :=
    exists_readEntries_eq_ok_iff.mpr (admits_of_same hfields hsame hadmits)
  refine ⟨other, hother, ?_⟩
  intro name
  rw [lookup_readEntries h, lookup_readEntries hother]
  cases hfield : fieldOf? fields name with
  | none => rfl
  | some field =>
    have hnodes : Option.Rel Node.Alike (first.toList.lookup name) (second.toList.lookup name) :=
      Tree.same_iff.mp hsame name
    cases hown : first.toList.lookup name with
    | none =>
      rw [hown] at hnodes
      generalize second.toList.lookup name = node? at hnodes ⊢
      cases hnodes
      rfl
    | some node =>
      have hnode := hadmits (name, node) (Tree.mem_toList_iff.mpr hown)
      unfold Admits at hnode
      rw [hfield] at hnode
      obtain ⟨value, hvalue⟩ := hnode
      rw [hown] at hnodes
      generalize second.toList.lookup name = node? at hnodes ⊢
      cases hnodes with
      | some halike =>
        have hsecond := hfields field (List.mem_of_find?_eq_some hfield) halike value hvalue
        simp [hvalue, hsecond]

/-- Putting what is read into something else keeps the order out of it. -/
theorem Reading.IgnoresOrder.map {read : Reading} (h : read.IgnoresOrder) (wrap : Value → Value) :
    Reading.IgnoresOrder fun node => (read node).map wrap := by
  intro first second halike value hvalue
  obtain ⟨inner, hinner, hwrap⟩ := map_eq_ok_iff.mp hvalue
  exact map_eq_ok_iff.mpr ⟨inner, h halike inner hinner, hwrap⟩

/-- Texts that say the same are the same, so only the reading of trees can depend
on the order of keys. -/
theorem Reading.ignoresOrder_of_trees {read : Reading}
    (h : ∀ first second : Tree, first.same second = true → ∀ value,
      read (.tree first) = .ok value → read (.tree second) = .ok value) : read.IgnoresOrder := by
  intro first second halike value hvalue
  obtain ⟨text, rfl, rfl⟩ | ⟨tree, other, rfl, rfl, hsame⟩ := halike.cases
  · exact hvalue
  · exact h tree other hsame value hvalue

/-- A type that no tree is read as does not depend on the order of keys. -/
theorem ignoresOrder_of_tree_ne_ok {type : Schema}
    (h : ∀ tree value, type.decode (.tree tree) ≠ .ok value) : type.decode.IgnoresOrder :=
  Reading.ignoresOrder_of_trees fun first _ _ value hvalue => absurd hvalue (h first value)

theorem decode_map_ignoresOrder {keys values : Schema} (hvalues : values.decode.IgnoresOrder) :
    (Schema.map keys values).decode.IgnoresOrder := by
  apply Reading.ignoresOrder_of_trees
  intro first second hsame value h
  rw [Schema.decode] at h ⊢
  obtain ⟨entries, hentries, h⟩ := bind_eq_ok_iff.mp h
  obtain ⟨others, hothers, hperm⟩ := exists_readMap_of_same hvalues hsame hentries
  have hnodup : entries.keys.Nodup := by
    rw [keys_of_readMap hentries]
    exact first.nodup_keys_toList
  have hsorted := mergeSort_eq_of_perm hperm hnodup fun entry hentry =>
    ⟨_, exists_key_of_readMap hentries hentry⟩
  refine bind_eq_ok_iff.mpr ⟨others, hothers, ?_⟩
  rw [← hsorted]
  exact h

theorem decode_record_ignoresOrder {name : String} {strict : Bool} {fields : Fields}
    (hfields : ∀ field ∈ fields.readings, field.read.IgnoresOrder) :
    (Schema.record name strict fields).decode.IgnoresOrder := by
  apply Reading.ignoresOrder_of_trees
  intro first second hsame value h
  rw [Schema.decode] at h ⊢
  obtain ⟨found, hfound, h⟩ := bind_eq_ok_iff.mp h
  obtain ⟨other, hother, hlookup⟩ := exists_readEntries_of_same hfields hsame hfound
  refine bind_eq_ok_iff.mpr ⟨other, hother, ?_⟩
  rw [← completeFields_congr hlookup]
  exact h

end Schema

mutual

theorem Schema.decode_ignoresOrder : (type : Schema) → type.decode.IgnoresOrder
  | .integer _ => Schema.ignoresOrder_of_tree_ne_ok fun _ _ h => by cases h
  | .float _ => Schema.ignoresOrder_of_tree_ne_ok fun _ _ h => by cases h
  | .boolean => Schema.ignoresOrder_of_tree_ne_ok fun _ _ h => by cases h
  | .text => Schema.ignoresOrder_of_tree_ne_ok fun _ _ h => by cases h
  | .character => Schema.ignoresOrder_of_tree_ne_ok fun _ _ h => by cases h
  | .marker _ => Schema.ignoresOrder_of_tree_ne_ok fun _ _ h => by cases h
  | .list _ => Schema.ignoresOrder_of_tree_ne_ok fun _ _ h => by cases h
  | .pair _ _ => Schema.ignoresOrder_of_tree_ne_ok fun _ _ h => by cases h
  | .choice _ => Schema.ignoresOrder_of_tree_ne_ok fun _ _ h => by cases h
  | .unit => fun _ _ _ _ h => h
  | .ignored => fun _ _ _ _ h => h
  | .wrapper _ inner => inner.decode_ignoresOrder.map Value.wrapped
  | .optional inner => inner.decode_ignoresOrder.map Value.present
  | .map _ values => Schema.decode_map_ignoresOrder values.decode_ignoresOrder
  | .record _ _ fields => Schema.decode_record_ignoresOrder fields.readings_ignoreOrder

theorem Fields.readings_ignoreOrder : (fields : Fields) →
    ∀ field ∈ fields.readings, field.read.IgnoresOrder
  | .nil => by
    intro field hfield
    cases hfield
  | .cons name type default rest => by
    intro field hfield
    rw [Fields.readings] at hfield
    rcases List.mem_cons.mp hfield with rfl | hmem
    · exact type.decode_ignoresOrder
    · exact rest.readings_ignoreOrder field hmem

end

/-- Decoding does not depend on the order of keys. Trees that say the same
are read as the same value of a type, or neither of them is read as any. -/
theorem Tree.decode_of_same (type : Schema) {first second : Tree}
    (hsame : first.same second = true) :
    (∃ value, first.decode type = .ok value ∧ second.decode type = .ok value) ∨
      ∃ fault other, first.decode type = .error fault ∧ second.decode type = .error other := by
  have halike : (Node.tree first).Alike (.tree second) := hsame
  cases hfirst : first.decode type with
  | ok value => exact .inl ⟨value, rfl, type.decode_ignoresOrder halike value hfirst⟩
  | error fault =>
    cases hsecond : second.decode type with
    | ok value =>
      have hvalue := type.decode_ignoresOrder halike.symm value hsecond
      cases hfirst.symm.trans hvalue
    | error other => exact .inr ⟨fault, other, rfl, rfl⟩

/-- The entries of a map and the fields of a record in another order, and a key
that is no field: both trees are read. -/
theorem Tree.decode_of_same_nested :
    let type : Schema := .record "Demo" false (.cons "name" .text none
      (.cons "marks" (.map .text (.optional .character)) none .nil))
    let first : Tree := ⟨.branch "marks" (.scalar "b" "x" (.scalar "a" "y" .nil))
      (.scalar "name" "demo" (.scalar "more" "z" .nil)), by decide⟩
    let second : Tree := ⟨.scalar "more" "z" (.scalar "name" "demo"
      (.branch "marks" (.scalar "a" "y" (.scalar "b" "x" .nil)) .nil)), by decide⟩
    first.same second = true ∧
      ∃ value, first.decode type = .ok value ∧ second.decode type = .ok value := by
  intro type first second
  have hsame : first.same second = true := by decide
  have hread : (first.decode type).toBool = true := by decide +kernel
  refine ⟨hsame, (decode_of_same type hsame).resolve_right ?_⟩
  rintro ⟨fault, other, hfirst, -⟩
  rw [hfirst] at hread
  cases hread

/-- Which fault is reported does depend on the order of keys. -/
example :
    let type : Schema := .record "Pair" false
      (.cons "a" .character none (.cons "b" .character none .nil))
    let first : Tree := ⟨.scalar "a" "xx" (.scalar "b" "yy" .nil), by decide⟩
    let second : Tree := ⟨.scalar "b" "yy" (.scalar "a" "xx" .nil), by decide⟩
    first.same second = true ∧ first.decode type = .error (.invalidValue "xx" .character) ∧
      second.decode type = .error (.invalidValue "yy" .character) :=
  ⟨by decide, rfl, rfl⟩

end LayeredIni
