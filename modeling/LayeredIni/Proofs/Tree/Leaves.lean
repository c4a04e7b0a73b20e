/-
# Trees as lists of leaves

A tree is known by the texts in it and the paths to them, as long as no tree
inside it is empty. Writing the texts to their paths one after the other, in
the order in which they stand, makes the same tree again. Dotted keys name the
paths, and different paths have different dotted keys.
-/

import LayeredIni.Proofs.Text.Split
import LayeredIni.Proofs.Tree.Lookup
import LayeredIni.Tree.Path
import Mathlib.Data.List.Nodup

namespace LayeredIni

open LayeredIni.Text

namespace Entries

/-- The texts with the paths to them, depth first. -/
def leaves : Entries → List (List String × String)
  | nil => []
  | scalar key text rest => ([key], text) :: rest.leaves
  | branch key children rest =>
    children.leaves.map (fun leaf => (key :: leaf.1, leaf.2)) ++ rest.leaves

/-- No tree among the entries is empty, at any level. -/
def Solid : Entries → Prop
  | nil => True
  | scalar _ _ rest => rest.Solid
  | branch _ children rest => children ≠ nil ∧ children.Solid ∧ rest.Solid

theorem exists_key_of_mem_leaves {entries : Entries} {leaf : List String × String}
    (h : leaf ∈ entries.leaves) : ∃ key path, leaf.1 = key :: path ∧ key ∈ entries.keys := by
  induction entries with
  | nil => cases h
  | scalar key text rest ih =>
    rcases List.mem_cons.mp h with rfl | h
    · exact ⟨key, [], rfl, List.mem_cons_self ..⟩
    · rcases ih h with ⟨own, path, heq, hkey⟩
      exact ⟨own, path, heq, List.mem_cons_of_mem _ hkey⟩
  | branch key children rest _ ih =>
    rcases List.mem_append.mp h with h | h
    · rcases List.mem_map.mp h with ⟨below, -, rfl⟩
      exact ⟨key, below.1, rfl, List.mem_cons_self ..⟩
    · rcases ih h with ⟨own, path, heq, hkey⟩
      exact ⟨own, path, heq, List.mem_cons_of_mem _ hkey⟩

theorem path_ne_nil_of_mem_leaves {entries : Entries} {leaf : List String × String}
    (h : leaf ∈ entries.leaves) : leaf.1 ≠ [] := by
  rcases exists_key_of_mem_leaves h with ⟨key, path, heq, -⟩
  rw [heq]
  exact List.cons_ne_nil key path

theorem leaves_ne_nil {entries : Entries} (h : entries ≠ nil) (hsolid : entries.Solid) :
    entries.leaves ≠ [] := by
  induction entries with
  | nil => exact absurd rfl h
  | scalar key text rest _ => exact List.cons_ne_nil _ _
  | branch key children rest ih _ =>
    intro hnil
    have hchildren : children.leaves = [] := by
      simpa using (List.append_eq_nil_iff.mp hnil).1
    exact ih hsolid.1 hsolid.2.1 hchildren

theorem nodup_paths {entries : Entries} (h : entries.Distinct) :
    (entries.leaves.map Prod.fst).Nodup := by
  induction entries with
  | nil => exact List.nodup_nil
  | scalar key text rest ih =>
    refine List.nodup_cons.mpr ⟨?_, ih h.2⟩
    intro hmem
    rcases List.mem_map.mp hmem with ⟨leaf, hleaf, heq⟩
    rcases exists_key_of_mem_leaves hleaf with ⟨own, path, hpath, hkey⟩
    rw [hpath] at heq
    cases heq
    exact h.1 hkey
  | branch key children rest ihChildren ih =>
    rw [leaves, List.map_append, List.map_map]
    refine List.nodup_append.mpr ⟨?_, ih h.2.2, ?_⟩
    · have hbelow := (ihChildren h.2.1).map (@List.cons_injective _ key)
      rw [List.map_map] at hbelow
      exact hbelow
    · intro first hfirst second hsecond heq
      rcases List.mem_map.mp hfirst with ⟨below, -, rfl⟩
      rcases List.mem_map.mp hsecond with ⟨leaf, hleaf, rfl⟩
      rcases exists_key_of_mem_leaves hleaf with ⟨own, path, hpath, hkey⟩
      rw [hpath] at heq
      cases heq
      exact h.1 hkey

theorem eq_of_toList_eq {first second : Entries} {hfirst : first.Distinct}
    {hsecond : second.Distinct} (h : first.toList hfirst = second.toList hsecond) :
    first = second := by
  induction first generalizing second with
  | nil => cases second with
    | nil => rfl
    | scalar => cases h
    | branch => cases h
  | scalar key text rest ih => cases second with
    | nil => cases h
    | scalar =>
      simp only [toList, List.cons.injEq, Prod.mk.injEq, Node.scalar.injEq] at h
      rw [h.1.1, h.1.2, ih h.2]
    | branch => simp [toList] at h
  | branch key children rest _ ih => cases second with
    | nil => cases h
    | scalar => simp [toList] at h
    | branch =>
      simp only [toList, List.cons.injEq, Prod.mk.injEq, Node.tree.injEq, Tree.mk.injEq] at h
      rw [h.1.1, h.1.2, ih h.2]

end Entries

namespace Tree

theorem eq_of_toList_eq {first second : Tree} (h : first.toList = second.toList) :
    first = second :=
  Tree.ext (Entries.eq_of_toList_eq h)

theorem toList_insert_of_not_mem {tree : Tree} {key : String} (h : key ∉ tree.keys)
    (node : Node) : (tree.insert key node).toList = tree.toList ++ [(key, node)] := by
  rw [toList_insert]
  apply Bindings.insert_of_not_mem
  rwa [keys_toList]

theorem child_of_not_mem {tree : Tree} {key : String} (h : key ∉ tree.keys) :
    tree.child key = empty := by
  have hnone : tree.get? key = none := by
    apply Bindings.lookup_eq_none_iff.mpr
    rwa [keys_toList]
  rw [child, hnone]

/-- Writes each text to its path, one after the other. -/
def writeLeaves (tree : Tree) (leaves : List (List String × String)) : Tree :=
  leaves.foldl (fun tree leaf => tree.write leaf.2 leaf.1) tree

/-- Writing below one key is writing into the tree of that key. -/
theorem writeLeaves_below (key : String) {leaves : List (List String × String)}
    (hleaves : leaves ≠ []) (hpaths : ∀ leaf ∈ leaves, leaf.1 ≠ []) (tree : Tree) :
    tree.writeLeaves (leaves.map fun leaf => (key :: leaf.1, leaf.2)) =
      tree.insert key (.tree ((tree.child key).writeLeaves leaves)) := by
  induction leaves generalizing tree with
  | nil => exact absurd rfl hleaves
  | cons leaf more ih =>
    have hwrite : tree.write leaf.2 (key :: leaf.1) =
        tree.insert key (.tree ((tree.child key).write leaf.2 leaf.1)) := by
      rcases List.exists_cons_of_ne_nil (hpaths _ (List.mem_cons_self ..)) with ⟨next, last, heq⟩
      rw [heq]
      rfl
    rw [List.map_cons, writeLeaves, List.foldl_cons, hwrite]
    cases more with
    | nil => rfl
    | cons second more =>
      have hmore : ∀ leaf ∈ second :: more, leaf.1 ≠ [] :=
        fun leaf hleaf => hpaths leaf (List.mem_cons_of_mem _ hleaf)
      apply (ih (List.cons_ne_nil _ _) hmore _).trans
      rw [child_insert_self, insert_insert]
      rfl

theorem not_mem_keys_insert {tree : Tree} {key : String} {keys : List String} (hkey : key ∉ keys)
    (hnew : ∀ later ∈ keys, later ∉ tree.keys) (node : Node) :
    ∀ later ∈ keys, later ∉ (tree.insert key node).keys := by
  intro later hlater hmem
  rcases Entries.mem_keys_insert.mp hmem with rfl | hmem
  · exact hkey hlater
  · exact hnew later hlater hmem

/-- Writing the leaves of entries adds these entries, if their keys are new. -/
theorem toList_writeLeaves {entries : Entries} (hdistinct : entries.Distinct)
    (hsolid : entries.Solid) (tree : Tree) (hnew : ∀ key ∈ entries.keys, key ∉ tree.keys) :
    (tree.writeLeaves entries.leaves).toList = tree.toList ++ entries.toList hdistinct := by
  induction entries generalizing tree with
  | nil => exact (List.append_nil _).symm
  | scalar key text rest ih =>
    rcases List.forall_mem_cons.mp hnew with ⟨hkey, hrest⟩
    have hlater := ih hdistinct.2 hsolid (tree.insert key (.scalar text))
      (not_mem_keys_insert hdistinct.1 hrest _)
    rw [toList_insert_of_not_mem hkey, List.append_assoc] at hlater
    exact hlater
  | branch key children rest ihChildren ih =>
    rcases List.forall_mem_cons.mp hnew with ⟨hkey, hrest⟩
    have hchildren : empty.writeLeaves children.leaves = ⟨children, hdistinct.2.1⟩ :=
      eq_of_toList_eq (ihChildren hdistinct.2.1 hsolid.2.1 empty fun _ _ => List.not_mem_nil)
    have hbelow : tree.writeLeaves (children.leaves.map fun leaf => (key :: leaf.1, leaf.2)) =
        tree.insert key (.tree ⟨children, hdistinct.2.1⟩) := by
      rw [writeLeaves_below key (Entries.leaves_ne_nil hsolid.1 hsolid.2.1)
        (fun _ => Entries.path_ne_nil_of_mem_leaves), child_of_not_mem hkey, hchildren]
    have hlater := ih hdistinct.2.2 hsolid.2.2 (tree.insert key (.tree ⟨children, hdistinct.2.1⟩))
      (not_mem_keys_insert hdistinct.1 hrest _)
    rw [toList_insert_of_not_mem hkey, List.append_assoc, ← hbelow, writeLeaves, writeLeaves,
      ← List.foldl_append] at hlater
    exact hlater

theorem writeLeaves_leaves (tree : Tree) (hsolid : tree.entries.Solid) :
    empty.writeLeaves tree.entries.leaves = tree :=
  eq_of_toList_eq (toList_writeLeaves tree.distinct hsolid empty fun _ _ => List.not_mem_nil)

end Tree

/-- A path as a key with dots between its segments. -/
def dotted (path : List String) : String :=
  ".".intercalate path

/-- The segments of a dotted key are those of its path. -/
theorem segments_dotted {path : List String} (hpath : path ≠ [])
    (hdots : ∀ key ∈ path, '.' ∉ key.toList) : segments "." (dotted path) = path := by
  have hchars : (dotted path).toList = ['.'].intercalate (path.map String.toList) := by
    rw [dotted, String.toList_intercalate]
    rfl
  have hpieces : pieces '.' [] (dotted path).toList = path.map String.toList := by
    rw [pieces_singleton, hchars]
    apply List.splitOn_intercalate
    · intro chars hmem
      rcases List.mem_map.mp hmem with ⟨key, hkey, rfl⟩
      exact hdots key hkey
    · simpa using hpath
  show (pieces '.' [] (dotted path).toList).map String.ofList = path
  have hsame : ∀ key ∈ path, (String.ofList ∘ String.toList) key = id key :=
    fun key _ => String.ofList_toList
  rw [hpieces, List.map_map, List.map_congr_left hsame, List.map_id]

end LayeredIni
