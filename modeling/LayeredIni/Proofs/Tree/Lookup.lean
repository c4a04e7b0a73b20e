/-
# Looking up and inserting

A tree is used through two views of it: what it gives a key, and the order of
its keys. Inserting changes the first at one key only, and the second only by
a new key at the end.
-/

import LayeredIni.Proofs.Bindings
import LayeredIni.Tree.Basic

namespace LayeredIni

namespace Entries

/-- The last of two nodes for one key stays. -/
theorem insert_insert (entries : Entries) (key : String) (first second : Node) :
    (entries.insert key first).insert key second = entries.insert key second := by
  have hcons (rest : Entries) : (cons key first rest).insert key second = cons key second rest := by
    cases first <;> simp [cons, insert]
  induction entries with
  | nil => exact hcons nil
  | scalar head text rest ih =>
    by_cases hhead : head = key
    · simp [insert, hhead, hcons]
    · simp [insert, hhead, ih]
  | branch head children rest _ ih =>
    by_cases hhead : head = key
    · simp [insert, hhead, hcons]
    · simp [insert, hhead, ih]

theorem keys_toList (entries : Entries) (h : entries.Distinct) :
    (entries.toList h).keys = entries.keys := by
  induction entries with
  | nil => rfl
  | scalar key text rest ih =>
    apply congrArg (key :: ·)
    exact ih h.2
  | branch key children rest _ ih =>
    apply congrArg (key :: ·)
    exact ih h.2.2

end Entries

namespace Tree

theorem keys_toList (tree : Tree) : tree.toList.keys = tree.keys :=
  Entries.keys_toList _ _

theorem mem_keys_iff {tree : Tree} {key : String} :
    key ∈ tree.keys ↔ ∃ node, tree.get? key = some node := by
  rw [← Option.ne_none_iff_exists', get?, Ne, Bindings.lookup_eq_none_iff, Decidable.not_not,
    keys_toList]

theorem get?_insert (tree : Tree) (key name : String) (node : Node) :
    (tree.insert key node).get? name = if name = key then some node else tree.get? name := by
  rw [get?, toList_insert, Bindings.lookup_insert]
  rfl

@[simp]
theorem get?_insert_self (tree : Tree) (key : String) (node : Node) :
    (tree.insert key node).get? key = some node := by
  rw [get?_insert, if_pos rfl]

theorem get?_insert_of_ne {key name : String} (h : name ≠ key) (tree : Tree) (node : Node) :
    (tree.insert key node).get? name = tree.get? name := by
  rw [get?_insert, if_neg h]

/-- A known key keeps its position and a new one comes last. -/
theorem keys_insert (tree : Tree) (key : String) (node : Node) :
    (tree.insert key node).keys = if key ∈ tree.keys then tree.keys else tree.keys ++ [key] := by
  rw [← keys_toList, ← keys_toList, toList_insert, Bindings.keys_insert]

theorem keys_insert_of_keys_eq {tree : Tree} {keys : List String}
    (h : tree.keys = keys.eraseDups) (key : String) (node : Node) :
    (tree.insert key node).keys = (keys ++ [key]).eraseDups := by
  rw [← keys_toList] at h ⊢
  rw [toList_insert]
  exact Bindings.keys_insert_of_keys_eq h key node

/-- The last of two nodes for one key stays. -/
@[simp]
theorem insert_insert (tree : Tree) (key : String) (first second : Node) :
    (tree.insert key first).insert key second = tree.insert key second :=
  Tree.ext (Entries.insert_insert _ _ _ _)

@[simp]
theorem child_insert_self (tree : Tree) (key : String) (subtree : Tree) :
    (tree.insert key (.tree subtree)).child key = subtree := by
  simp [child]

end Tree

end LayeredIni
