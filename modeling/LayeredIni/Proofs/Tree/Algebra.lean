/-
# The algebra of layers

The empty tree is neutral on either side of laying trees over each other, and
laying the same layer once more changes nothing. How three layers are bracketed
does not matter either, unless the middle one has a text where both others have
trees: laid over the lowest one first it removes that tree for good, but once
the highest one is over it the text is gone and the two trees are merged.

All equations are between trees and include the order of keys at every level.
They are proved key by key, by induction on the trees under the keys.
-/

import LayeredIni.Proofs.Tree.Order

namespace LayeredIni

namespace Tree

theorem child_eq_of_get?_eq {tree found : Tree} {key : String}
    (h : tree.get? key = some (.tree found)) : tree.child key = found := by
  rw [child, h]

theorem child_eq_empty_of_get?_ne {tree : Tree} {key : String}
    (h : ∀ found, tree.get? key ≠ some (.tree found)) : tree.child key = empty := by
  unfold child
  split
  · next found hfound => exact absurd hfound (h found)
  · rfl

theorem child_overlay (base layer : Tree) (key : String) :
    (base.overlay layer).child key =
      match layer.get? key with
      | none => base.child key
      | some (.scalar _) => empty
      | some (.tree found) => (base.child key).overlay found := by
  rw [child, get?_overlay]
  cases layer.get? key with
  | none => rfl
  | some node => cases node with
    | scalar text => rfl
    | tree found =>
      show (base.subtree [key]).overlay found = (base.child key).overlay found
      rw [subtree_singleton]

@[simp]
theorem overlay_empty (tree : Tree) : tree.overlay empty = tree := rfl

@[simp]
theorem empty_overlay (tree : Tree) : empty.overlay tree = tree := by
  induction tree using induction_children with
  | step tree ih =>
  apply eq_of_keys_eq_of_get?_eq
  · rw [keys_overlay]
    exact tree.eraseDups_keys
  · intro key
    rw [get?_overlay]
    cases hkey : tree.get? key with
    | none => rfl
    | some node => cases node with
      | scalar text => rfl
      | tree found =>
        show some (Node.tree ((empty.subtree [key]).overlay found)) = some (.tree found)
        rw [subtree_singleton]
        exact congrArg (some ∘ Node.tree) (ih key found hkey)

theorem overlay_overlay_self (base layer : Tree) :
    (base.overlay layer).overlay layer = base.overlay layer := by
  induction layer using induction_children generalizing base with
  | step layer ih =>
  apply eq_of_keys_eq_of_get?_eq
  · rw [keys_overlay_of_keys_eq (keys_overlay base layer), keys_overlay]
    exact eraseDups_append_of_subset (List.subset_append_right _ _)
  · intro key
    rw [get?_overlay, get?_overlay base]
    cases hkey : layer.get? key with
    | none => rfl
    | some node => cases node with
      | scalar text => rfl
      | tree found =>
        have hchild : (base.overlay layer).child key = (base.child key).overlay found := by
          rw [child_overlay, hkey]
        simp only [layered, subtree_singleton, hchild, ih key found hkey]

/-- A layer keeps two others apart if it has a text at a path where both of them
have trees. -/
def KeepsApart (middle lower upper : Tree) : Prop :=
  ∃ path text below above, middle.at? path = some (.scalar text) ∧
    lower.at? path = some (.tree below) ∧ upper.at? path = some (.tree above)

/-- A layer keeps two others apart if it does so below some key. -/
theorem KeepsApart.of_child {lower middle upper : Tree} {key : String}
    (h : (middle.child key).KeepsApart (lower.child key) (upper.child key)) :
    middle.KeepsApart lower upper := by
  obtain ⟨path, text, below, above, hmiddle, hlower, hupper⟩ := h
  have hpath : path ≠ [] := by
    rintro rfl
    cases hmiddle
  rw [at?_child hpath] at hmiddle hlower hupper
  exact ⟨key :: path, text, below, above, hmiddle, hlower, hupper⟩

/-- How three layers are bracketed does not matter unless the middle one
keeps the others apart. -/
theorem overlay_assoc {lower middle upper : Tree} (h : ¬ middle.KeepsApart lower upper) :
    (lower.overlay middle).overlay upper = lower.overlay (middle.overlay upper) := by
  induction upper using induction_children generalizing lower middle with
  | step upper ih =>
  apply eq_of_keys_eq_of_get?_eq
  · rw [keys_overlay_of_keys_eq (keys_overlay lower middle), keys_overlay, keys_overlay,
      eraseDups_append_eraseDups, List.append_assoc]
  · intro key
    rw [get?_overlay, get?_overlay lower (middle.overlay upper), get?_overlay middle upper]
    cases hupper : upper.get? key with
    | none => exact get?_overlay lower middle key
    | some node => cases node with
      | scalar text => rfl
      | tree above =>
        have habove := child_eq_of_get?_eq hupper
        simp only [layered, subtree_singleton, child_overlay]
        cases hmiddle : middle.get? key with
        | none =>
          have hnone : middle.child key = empty := by
            apply child_eq_empty_of_get?_ne
            simp [hmiddle]
          rw [hnone, empty_overlay]
        | some node => cases node with
          | scalar text =>
            -- A tree of the lowest layer would be kept apart from the highest one here.
            have hlower : lower.child key = empty := by
              apply child_eq_empty_of_get?_ne
              intro below hbelow
              rw [get?_eq_at?] at hbelow hmiddle hupper
              exact h ⟨[key], text, below, above, hmiddle, hbelow, hupper⟩
            have htext : middle.child key = empty := by
              apply child_eq_empty_of_get?_ne
              simp [hmiddle]
            rw [hlower, htext, empty_overlay, empty_overlay]
          | tree between =>
            have hbetween := child_eq_of_get?_eq hmiddle
            have hapart : ¬ between.KeepsApart (lower.child key) above := by
              rw [← hbetween, ← habove]
              exact mt KeepsApart.of_child h
            rw [hbetween, ih key above hupper hapart]

/-- The algebra of layers. The empty tree is neutral on either side, the same
layer twice is the layer once, and brackets do not matter unless the middle one
of three layers has a text where both others have trees. -/
theorem overlay_laws (first second third : Tree) :
    first.overlay empty = first ∧ empty.overlay first = first ∧
      (first.overlay second).overlay second = first.overlay second ∧
      (¬ second.KeepsApart first third →
        (first.overlay second).overlay third = first.overlay (second.overlay third)) :=
  ⟨overlay_empty first, empty_overlay first, overlay_overlay_self first second, overlay_assoc⟩

/-- A text at one key is at no longer path and under no other key. -/
theorem eq_singleton_of_at?_insert_scalar {path : List String} {key text found : String}
    (h : (empty.insert key (.scalar text)).at? path = some (.scalar found)) : path = [key] := by
  match path with
  | [] => cases h
  | name :: more =>
    by_cases hname : name = key
    · subst hname
      rw [at?_insert_self] at h
      cases more with
      | nil => rfl
      | cons next more => cases h
    · rw [at?_insert_of_ne hname, at?_empty (List.cons_ne_nil name more)] at h
      cases h

/-- A text between two layers removes a tree of the lower one. The higher one has
its tree under another key, so brackets do not matter. -/
theorem overlay_laws_of_text_between :
    let first : Tree := ⟨.branch "a" (.scalar "x" "1" .nil) (.scalar "b" "2" .nil), by decide⟩
    let second : Tree := empty.insert "a" (.scalar "off")
    let third : Tree := ⟨.branch "b" (.scalar "y" "3" .nil) (.scalar "c" "4" .nil), by decide⟩
    ¬ second.KeepsApart first third ∧
      (first.overlay second).overlay third = first.overlay (second.overlay third) ∧
      (first.overlay second).overlay third =
        ⟨.scalar "a" "off" (.branch "b" (.scalar "y" "3" .nil) (.scalar "c" "4" .nil)),
          by decide⟩ := by
  intro first second third
  have hthird : third.at? ["a"] = none := by decide
  have hapart : ¬ second.KeepsApart first third := by
    rintro ⟨path, text, below, above, hsecond, -, habove⟩
    rw [eq_singleton_of_at?_insert_scalar hsecond, hthird] at habove
    cases habove
  exact ⟨hapart, (overlay_laws first second third).2.2.2 hapart, by decide⟩

/-- A text between two trees under one key: laid over the lower tree first, it
removes an entry that otherwise stays. -/
example :
    let first : Tree := ⟨.branch "a" (.scalar "x" "1" .nil) .nil, by decide⟩
    let second : Tree := ⟨.scalar "a" "off" .nil, by decide⟩
    let third : Tree := ⟨.branch "a" (.scalar "y" "3" .nil) .nil, by decide⟩
    (first.overlay second).overlay third ≠ first.overlay (second.overlay third) := by
  decide

end Tree

end LayeredIni
