/-
# The order of keys

A tree consists of two things: the order of its keys, and what it gives each of
them. Two trees that agree in both are the same tree, which is how equations
between trees are proved here.

Every operation on trees is made of insertions, so the keys always stand in the
order in which they first come up. That order is written as `eraseDups` of
everything that comes up, the keys that are there already before all others.
-/

import LayeredIni.Proofs.Tree.Leaves
import LayeredIni.Proofs.Tree.Overlay

namespace LayeredIni

open LayeredIni.Text

namespace Tree

/-- A tree is known by the order of its keys and by what it gives each of them. -/
theorem eq_of_keys_eq_of_get?_eq {first second : Tree} (hkeys : first.keys = second.keys)
    (hget : ∀ key, first.get? key = second.get? key) : first = second := by
  apply eq_of_toList_eq
  apply Bindings.eq_of_keys_eq_of_lookup_eq
  · rw [keys_toList]
    exact first.nodup_keys
  · rw [keys_toList, keys_toList, hkeys]
  · exact hget

/-- What holds of a tree as soon as it holds of the trees under its keys holds of
every tree. -/
@[elab_as_elim]
theorem induction_children {motive : Tree → Prop}
    (step : ∀ tree : Tree, (∀ key found, tree.get? key = some (.tree found) → motive found) →
      motive tree)
    (tree : Tree) : motive tree := by
  have hchildren (entries : Entries) (hdistinct : entries.Distinct) :
      ∀ key found, (entries.toList hdistinct).lookup key = some (.tree found) → motive found := by
    induction entries with
    | nil =>
      intro key found hfound
      cases hfound
    | scalar head text rest ih =>
      intro key found hfound
      by_cases hkey : key = head
      · subst hkey
        rw [Entries.toList, List.lookup_cons_self] at hfound
        cases hfound
      · rw [Entries.toList, Bindings.lookup_cons_of_ne hkey] at hfound
        exact ih hdistinct.2 key found hfound
    | branch head children rest ihChildren ih =>
      intro key found hfound
      by_cases hkey : key = head
      · subst hkey
        rw [Entries.toList, List.lookup_cons_self] at hfound
        cases hfound
        exact step _ (ihChildren hdistinct.2.1)
      · rw [Entries.toList, Bindings.lookup_cons_of_ne hkey] at hfound
        exact ih hdistinct.2.2 key found hfound
  exact step tree (hchildren tree.entries tree.distinct)

theorem eraseDups_keys (tree : Tree) : tree.keys.eraseDups = tree.keys :=
  eraseDups_of_nodup tree.nodup_keys

/-- In a run of steps each of which lets some keys come up, all of them come up
in the order of the steps. Which keys of a tree are meant is left open: those at
its top, or those that it has at the end of some path. -/
theorem keys_foldl_of_keys_eq {α : Type} (keysOf : Tree → List String) {step : Tree → α → Tree}
    {named : α → List String} {items : List α}
    (hstep : ∀ item ∈ items, ∀ (tree : Tree) (keys : List String), keysOf tree = keys.eraseDups →
      keysOf (step tree item) = (keys ++ named item).eraseDups)
    {tree : Tree} {keys : List String} (h : keysOf tree = keys.eraseDups) :
    keysOf (items.foldl step tree) = (keys ++ items.flatMap named).eraseDups := by
  induction items generalizing tree keys with
  | nil => rwa [List.foldl_nil, List.flatMap_nil, List.append_nil]
  | cons item items ih =>
    obtain ⟨hitem, hitems⟩ := List.forall_mem_cons.mp hstep
    rw [List.foldl_cons, List.flatMap_cons, ← List.append_assoc]
    exact ih hitems (hitem tree keys h)

theorem keys_overlay_of_keys_eq {base : Tree} {keys : List String}
    (h : base.keys = keys.eraseDups) (layer : Tree) :
    (base.overlay layer).keys = (keys ++ layer.keys).eraseDups := by
  have hnamed : layer.keys = layer.toList.flatMap fun binding => [binding.1] := by
    rw [← keys_toList, Bindings.keys, List.map_eq_flatMap]
  rw [overlay_eq_foldl, hnamed]
  exact keys_foldl_of_keys_eq Tree.keys (fun binding _ _ _ hkeys =>
    keys_insert_of_keys_eq hkeys binding.1 _) h

/-- The keys of a tree under a layer come first, then those that only the
layer has, in its order. -/
theorem keys_overlay (base layer : Tree) :
    (base.overlay layer).keys = (base.keys ++ layer.keys).eraseDups :=
  keys_overlay_of_keys_eq base.eraseDups_keys.symm layer

theorem keys_write_of_keys_eq {tree : Tree} {keys : List String}
    (h : tree.keys = keys.eraseDups) (text : String) (path : List String) :
    (tree.write text path).keys = (keys ++ path.head?.toList).eraseDups := by
  match path with
  | [] =>
    rw [List.head?_nil, Option.toList_none, List.append_nil]
    exact h
  | [key] => exact keys_insert_of_keys_eq h key _
  | key :: next :: path => exact keys_insert_of_keys_eq h key _

theorem keys_writeAll_of_keys_eq {tree : Tree} {keys : List String}
    (h : tree.keys = keys.eraseDups) (separator : String) (values : Bindings String) :
    (tree.writeAll separator values).keys =
      (keys ++ values.flatMap fun binding =>
        (segments separator binding.1).head?.toList).eraseDups :=
  keys_foldl_of_keys_eq Tree.keys (fun binding _ _ _ hkeys => keys_write_of_keys_eq hkeys
    (trimmed binding.2) (segments separator binding.1)) h

/-- The key that a longer path goes on with after a path. -/
def nextKey? (path longer : List String) : Option String :=
  if path <+: longer then longer[path.length]? else none

theorem nextKey?_append (path rest : List String) : nextKey? path (path ++ rest) = rest.head? := by
  rw [nextKey?, if_pos (List.prefix_append path rest), List.getElem?_append_right (Nat.le_refl _),
    Nat.sub_self, List.head?_eq_getElem?]

theorem subtree_eq_of_at?_eq {tree found : Tree} {path : List String}
    (h : tree.at? path = some (.tree found)) : tree.subtree path = found := by
  rw [subtree, h]

/-- Writing a text lets the next key of its path come up at the end of a path,
unless the text takes the place of what is there. -/
theorem keys_subtree_write_of_keys_eq {tree : Tree} {path target keys : List String}
    (h : (tree.subtree path).keys = keys.eraseDups) (hpath : ¬ target <+: path) (text : String) :
    ((tree.write text target).subtree path).keys =
      (keys ++ (nextKey? path target).toList).eraseDups := by
  by_cases htowards : path <+: target
  · obtain ⟨rest, rfl⟩ := htowards
    have hrest : rest ≠ [] := by
      rintro rfl
      rw [List.append_nil] at hpath
      exact hpath List.prefix_rfl
    rw [subtree_eq_of_at?_eq (at?_write_towards hrest tree text path), nextKey?_append]
    exact keys_write_of_keys_eq h text rest
  · have hmeets : ¬ Meets target path := fun hmeets => hmeets.elim hpath htowards
    rw [subtree, at?_write_of_not_meets hmeets, nextKey?, if_neg htowards, Option.toList_none,
      List.append_nil]
    exact h

/-- Writing texts lets the next keys of their paths come up at the end of a path,
unless one of them takes the place of what is there. -/
theorem keys_subtree_writeAll {separator : String} {values : Bindings String} {path : List String}
    (h : ∀ key ∈ values.keys, ¬ segments separator key <+: path) (tree : Tree) :
    ((tree.writeAll separator values).subtree path).keys =
      ((tree.subtree path).keys ++
        values.keys.filterMap fun key => nextKey? path (segments separator key)).eraseDups := by
  have hnamed : (values.keys.filterMap fun key => nextKey? path (segments separator key)) =
      values.flatMap fun binding => (nextKey? path (segments separator binding.1)).toList := by
    rw [Bindings.keys, List.filterMap_map, List.filterMap_eq_flatMap_toList]
    rfl
  rw [hnamed]
  apply keys_foldl_of_keys_eq fun tree => (tree.subtree path).keys
  · intro binding hbinding tree keys hkeys
    have hpath := h binding.1 (List.mem_map_of_mem hbinding)
    exact keys_subtree_write_of_keys_eq hkeys hpath (trimmed binding.2)
  · exact (tree.subtree path).eraseDups_keys.symm

/-- The keys that a layer leaves where it has a tree over a tree of the base. -/
theorem keys_overlay_eq_append (base layer : Tree) :
    (base.overlay layer).keys = base.keys ++ layer.keys.filter (· ∉ base.keys) := by
  have hnew : (layer.keys.filter (· ∉ base.keys)).Nodup := layer.nodup_keys.filter _
  rw [keys_overlay, eraseDups_append_of_nodup base.nodup_keys, eraseDups_of_nodup hnew]

/-- Keys keep the order of their first insertion at the end of every path. Where
a layer has a tree over a tree of the base, the keys of the base come first and
then those that only the layer has, in its order. Where texts are written below
a path and none at it or on the way to it, the keys that were there come first
and then the new ones in the order in which the texts first name them. -/
theorem keys_at_path :
    (∀ (base layer own above : Tree) (path : List String),
      base.at? path = some (.tree own) → layer.at? path = some (.tree above) →
      ∃ merged, (base.overlay layer).at? path = some (.tree merged) ∧
        merged.keys = own.keys ++ above.keys.filter (· ∉ own.keys)) ∧
    ∀ (tree after : Tree) (separator : String) (values : Bindings String) (path : List String),
      (∀ key ∈ values.keys, ¬ segments separator key <+: path) →
      (tree.writeAll separator values).at? path = some (.tree after) →
      after.keys = (tree.subtree path).keys ++
        ((values.keys.filterMap fun key => nextKey? path (segments separator key)).filter
          (· ∉ (tree.subtree path).keys)).eraseDups := by
  constructor
  · intro base layer own above path hbase hlayer
    refine ⟨_, at?_overlay_of_eq_some hlayer base, ?_⟩
    rw [subtree_eq_of_at?_eq hbase]
    exact keys_overlay_eq_append own above
  · intro tree after separator values path hkeys hafter
    rw [← subtree_eq_of_at?_eq hafter, keys_subtree_writeAll hkeys tree,
      eraseDups_append_of_nodup (tree.subtree path).nodup_keys]

/-- A layer that names a key of the base after a key of its own, and texts that come
back to a level after others: a text gives way to a tree at its place. -/
theorem keys_at_path_revisited :
    let base : Tree := ⟨.branch "a" (.scalar "x" "1" (.scalar "y" "2" .nil)) .nil, by decide⟩
    let layer : Tree := ⟨.scalar "b" "0"
      (.branch "a" (.scalar "z" "3" (.scalar "x" "4" .nil)) .nil), by decide⟩
    let values : Bindings String :=
      [("a.c.m", "1"), ("b", "2"), ("a.x.n", "3"), ("a.c.o", "4"), ("a.d", "5")]
    (∃ own above merged, base.at? ["a"] = some (.tree own) ∧
      layer.at? ["a"] = some (.tree above) ∧
      (base.overlay layer).at? ["a"] = some (.tree merged) ∧ merged.keys = ["x", "y", "z"]) ∧
    (∀ key ∈ values.keys, ¬ segments "." key <+: ["a"]) ∧
    ∃ after, (base.writeAll "." values).at? ["a"] = some (.tree after) ∧
      after.keys = ["x", "y", "c", "d"] := by
  intro base layer values
  obtain ⟨hoverlay, hwrite⟩ := keys_at_path
  have hvalues : ∀ key ∈ values.keys, ¬ segments "." key <+: ["a"] := by decide +kernel
  have hafter : (base.writeAll "." values).at? ["a"] = some (.tree
      ⟨.branch "x" (.scalar "n" "3" .nil) (.scalar "y" "2"
        (.branch "c" (.scalar "m" "1" (.scalar "o" "4" .nil)) (.scalar "d" "5" .nil))),
        by decide⟩) := by
    decide +kernel
  refine ⟨?_, hvalues, _, hafter, ?_⟩
  · obtain ⟨merged, hmerged, hkeys⟩ := hoverlay base layer _ _ ["a"] rfl rfl
    exact ⟨_, _, merged, rfl, rfl, hmerged, hkeys⟩
  · rw [hwrite base _ "." values ["a"] hvalues hafter]
    decide +kernel

end Tree

end LayeredIni
