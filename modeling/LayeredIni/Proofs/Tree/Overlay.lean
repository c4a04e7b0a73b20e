/-
# What layers leave at each path

Laying a tree over another one is a fold over its entries, each of which takes
the place of the base's entry or, where both are trees, is laid over it. This
gives what every path leads to afterwards: the layer's own text or tree if it
has one there, nothing if the layer has a text on the way, and otherwise what
the base has. With many layers, the last one that has any of these decides.
-/

import LayeredIni.Proofs.Tree.Path
import LayeredIni.Tree.Overlay

namespace LayeredIni

theorem Entries.nodup_keys {entries : Entries} (h : entries.Distinct) : entries.keys.Nodup := by
  induction entries with
  | nil => exact List.nodup_nil
  | scalar key text rest ih => exact List.nodup_cons.mpr ⟨h.1, ih h.2⟩
  | branch key children rest _ ih => exact List.nodup_cons.mpr ⟨h.1, ih h.2.2⟩

namespace Tree

theorem nodup_keys (tree : Tree) : tree.keys.Nodup :=
  Entries.nodup_keys tree.distinct

theorem subtree_singleton (tree : Tree) (key : String) : tree.subtree [key] = tree.child key := by
  rw [subtree_cons, subtree_nil]

theorem child_insert_of_ne {key name : String} (h : name ≠ key) (tree : Tree) (node : Node) :
    (tree.insert key node).child name = tree.child name := by
  rw [child, get?_insert_of_ne h, child]

/-- What a layer's node at a path becomes over a base. -/
def layered (base : Tree) (path : List String) : Node → Node
  | .scalar text => .scalar text
  | .tree layer => .tree ((base.subtree path).overlay layer)

/-- Laying a layer over a base is laying its entries over it, one after the other. -/
theorem overlay_eq_foldl (base layer : Tree) :
    base.overlay layer = layer.toList.foldl
      (fun base binding => base.insert binding.1 (base.layered [binding.1] binding.2)) base := by
  obtain ⟨entries, hdistinct⟩ := layer
  show entries.over base = (entries.toList hdistinct).foldl _ base
  induction entries generalizing base with
  | nil => rfl
  | scalar key text rest ih => exact ih _ hdistinct.2
  | branch key children rest _ ih =>
    have hnode : base.layered [key] (.tree ⟨children, hdistinct.2.1⟩) =
        .tree (children.over (base.child key)) := by
      rw [layered, subtree_singleton]
      rfl
    rw [Entries.over, Entries.toList, List.foldl_cons, hnode]
    exact ih _ hdistinct.2.2

/-- Entries with distinct keys decide what is under these keys, and only there. -/
theorem get?_foldl_layered {bindings : Bindings Node} (h : bindings.keys.Nodup) (base : Tree)
    (key : String) :
    (bindings.foldl (fun base binding =>
        base.insert binding.1 (base.layered [binding.1] binding.2)) base).get? key =
      match bindings.lookup key with
      | none => base.get? key
      | some node => some (base.layered [key] node) := by
  induction bindings generalizing base with
  | nil => rfl
  | cons binding rest ih =>
    obtain ⟨head, node⟩ := binding
    obtain ⟨hhead, hrest⟩ := List.nodup_cons.mp h
    rw [List.foldl_cons, ih hrest]
    by_cases hkey : key = head
    · subst hkey
      have hnone : rest.lookup key = none := Bindings.lookup_eq_none_iff.mpr hhead
      rw [hnone, List.lookup_cons_self]
      exact get?_insert_self _ _ _
    · -- What the rest lays over its keys does not see the new entry.
      have hlayered (other : Node) :
          (base.insert head (base.layered [head] node)).layered [key] other =
            base.layered [key] other := by
        cases other with
        | scalar text => rfl
        | tree layer =>
          rw [layered, layered, subtree_singleton, subtree_singleton, child_insert_of_ne hkey]
      rw [Bindings.lookup_cons_of_ne hkey, get?_insert_of_ne hkey]
      simp only [hlayered]

/-- A key leads to the layer's node over the base's, or to the base's alone. -/
theorem get?_overlay (base layer : Tree) (key : String) :
    (base.overlay layer).get? key =
      match layer.get? key with
      | none => base.get? key
      | some node => some (base.layered [key] node) := by
  rw [overlay_eq_foldl, get?_foldl_layered]
  · rfl
  · rw [keys_toList]
    exact layer.nodup_keys

/-- The tree has a text on the way of a path, so that the path leads nowhere. -/
def Blocks (tree : Tree) (path : List String) : Prop :=
  ∃ front back text, front ≠ [] ∧ back ≠ [] ∧ path = front ++ back ∧
    tree.at? front = some (.scalar text)

/-- The tree has something to say about a path: a text or a tree that the path
leads to, or a text on its way. -/
def Touches (tree : Tree) (path : List String) : Prop :=
  (∃ node, tree.at? path = some node) ∨ tree.Blocks path

theorem touches_of_scalar {tree : Tree} {key text : String}
    (hkey : tree.get? key = some (.scalar text)) (path : List String) :
    tree.Touches (key :: path) := by
  have htext : tree.at? [key] = some (.scalar text) := by
    rw [← get?_eq_at?, hkey]
  cases path with
  | nil => exact .inl ⟨_, htext⟩
  | cons next more =>
    exact .inr ⟨[key], next :: more, text, List.cons_ne_nil _ _, List.cons_ne_nil _ _, rfl, htext⟩

theorem Touches.below {tree found : Tree} {key : String} {path : List String}
    (h : found.Touches path) (hkey : tree.get? key = some (.tree found)) :
    tree.Touches (key :: path) := by
  have hat (below : List String) : tree.at? (key :: below) = found.at? below := by
    rw [at?_cons, hkey]
    rfl
  rcases h with ⟨node, hnode⟩ | ⟨front, back, text, -, hback, rfl, htext⟩
  · exact .inl ⟨node, (hat path).trans hnode⟩
  · exact .inr ⟨key :: front, back, text, List.cons_ne_nil _ _, hback, rfl, (hat front).trans htext⟩

/-- What the layer has at the end of a path decides, over any base. -/
theorem at?_overlay_of_eq_some {layer : Tree} {path : List String} {node : Node}
    (h : layer.at? path = some node) (base : Tree) :
    (base.overlay layer).at? path = some (base.layered path node) := by
  induction path generalizing base layer with
  | nil =>
    cases h
    rfl
  | cons key path ih =>
    rw [at?_cons] at h ⊢
    rw [get?_overlay]
    cases hkey : layer.get? key with
    | none => simp [hkey] at h
    | some own =>
      rw [hkey, Option.bind_some] at h
      cases own with
      | scalar text => cases path with
        | nil =>
          cases h
          rfl
        | cons next more => cases h
      | tree found =>
        have hbelow := ih h (base.child key)
        rw [← subtree_singleton] at hbelow
        apply hbelow.trans
        cases node with
        | scalar text => rfl
        | tree deeper => rw [layered, layered, subtree_cons base key path, subtree_singleton]

/-- A text in the layer ends every path that would lead through it. -/
theorem at?_overlay_of_blocks {layer : Tree} {path : List String} (h : layer.Blocks path)
    (base : Tree) : (base.overlay layer).at? path = none := by
  obtain ⟨front, back, text, -, hback, rfl, htext⟩ := h
  obtain ⟨next, more, rfl⟩ := List.exists_cons_of_ne_nil hback
  rw [at?_append, at?_overlay_of_eq_some htext]
  rfl

/-- A layer that has nothing to say about a path changes nothing there. -/
theorem at?_overlay_of_not_touches {layer : Tree} {path : List String}
    (h : ¬ layer.Touches path) (base : Tree) : (base.overlay layer).at? path = base.at? path := by
  induction path generalizing base layer with
  | nil => exact absurd (.inl ⟨_, at?_nil layer⟩) h
  | cons key path ih =>
    rw [at?_cons, get?_overlay]
    cases hkey : layer.get? key with
    | none => exact (at?_cons base key path).symm
    | some node => cases node with
      | scalar text => exact absurd (touches_of_scalar hkey path) h
      | tree found =>
        have hbelow : ¬ found.Touches path := fun htouches => h (htouches.below hkey)
        -- Otherwise the layer would have a tree at the end of the path.
        have hpath : path ≠ [] := by
          rintro rfl
          exact hbelow (.inl ⟨_, at?_nil found⟩)
        calc
          ((base.subtree [key]).overlay found).at? path = (base.child key).at? path := by
            rw [subtree_singleton, ih hbelow]
          _ = base.at? (key :: path) := at?_child hpath base key

theorem overlayAll_append_cons (before after : List Tree) (layer : Tree) :
    overlayAll (before ++ layer :: after) =
      after.foldl overlay ((overlayAll before).overlay layer) := by
  rw [overlayAll, List.foldl_append, List.foldl_cons]
  rfl

theorem at?_foldl_overlay_of_forall_not_touches {layers : List Tree} {path : List String}
    (h : ∀ layer ∈ layers, ¬ layer.Touches path) (base : Tree) :
    (layers.foldl overlay base).at? path = base.at? path := by
  induction layers generalizing base with
  | nil => rfl
  | cons layer layers ih =>
    obtain ⟨hlayer, hlayers⟩ := List.forall_mem_cons.mp h
    calc
      (layers.foldl overlay (base.overlay layer)).at? path = (base.overlay layer).at? path :=
        ih hlayers _
      _ = base.at? path := at?_overlay_of_not_touches hlayer base

/-- Precedence of layers, path by path. If no layer has anything to say about
a path, the path leads nowhere. Otherwise the last layer that has decides: its
text is there, or a tree if it has a tree there, or nothing if it has a text on
the way. -/
theorem at?_overlayAll (layers : List Tree) {path : List String} (hpath : path ≠ []) :
    ((∀ layer ∈ layers, ¬ layer.Touches path) → (overlayAll layers).at? path = none) ∧
      ∀ (before after : List Tree) (layer : Tree), layers = before ++ layer :: after →
        layer.Touches path → (∀ later ∈ after, ¬ later.Touches path) →
        (∀ text, layer.at? path = some (.scalar text) →
          (overlayAll layers).at? path = some (.scalar text)) ∧
        (∀ found, layer.at? path = some (.tree found) →
          ∃ merged, (overlayAll layers).at? path = some (.tree merged)) ∧
        (layer.Blocks path → (overlayAll layers).at? path = none) := by
  constructor
  · intro hsilent
    exact (at?_foldl_overlay_of_forall_not_touches hsilent empty).trans (at?_empty hpath)
  · intro before after layer hlayers _ hlater
    have hlast : (overlayAll layers).at? path = ((overlayAll before).overlay layer).at? path := by
      rw [hlayers, overlayAll_append_cons]
      exact at?_foldl_overlay_of_forall_not_touches hlater _
    refine ⟨?_, ?_, ?_⟩
    · intro text htext
      exact hlast.trans (at?_overlay_of_eq_some htext _)
    · intro found hfound
      exact ⟨_, hlast.trans (at?_overlay_of_eq_some hfound _)⟩
    · intro hblocks
      exact hlast.trans (at?_overlay_of_blocks hblocks _)

/-- A text over a tree ends the paths into the tree, and they stay ended when a
later layer makes a tree with other keys there. -/
theorem at?_overlayAll_after_wipe :
    ["a", "b"] ≠ [] ∧
      (overlayAll [⟨.branch "a" (.scalar "b" "1" .nil) .nil, by decide⟩,
        ⟨.scalar "a" "off" .nil, by decide⟩,
        ⟨.branch "a" (.scalar "c" "2" .nil) .nil, by decide⟩]).at? ["a", "b"] = none := by
  have hblocks : Blocks ⟨.scalar "a" "off" .nil, by decide⟩ ["a", "b"] :=
    ⟨["a"], ["b"], "off", by simp, by simp, rfl, by decide⟩
  have hsilent : ¬ Touches ⟨.branch "a" (.scalar "c" "2" .nil) .nil, by decide⟩ ["a", "b"] := by
    rintro (⟨node, hnode⟩ | ⟨front, back, text, hfront, hback, hsplit, htext⟩)
    · cases hnode
    · match front with
      | [key] =>
        cases hsplit
        cases htext
      | first :: second :: more => simp_all
  refine ⟨by simp, ?_⟩
  exact ((at?_overlayAll _ (by simp)).2 [_] [_] _ rfl (.inr hblocks) (by simpa using hsilent)).2.2
    hblocks

end Tree

end LayeredIni
