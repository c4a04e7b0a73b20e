/-
# Trees that reading produces

Inside a section texts have no blanks at their ends, trees are not empty and no
key holds the separator. Writing texts at dotted keys keeps a section so, and so
does laying one such section over another: what a path leads to afterwards is
settled by the lemmas on writing and on layers, path by path. At the top of a
tree sections may be empty, and keys are names.
-/

import LayeredIni.Proofs.Text.Trim
import LayeredIni.Proofs.Tree.Overlay

namespace LayeredIni

open LayeredIni.Text

/-- The keys that cutting at a separator can give. The empty separator does not
cut and gives any key. -/
def IsPiece (separator key : String) : Prop :=
  separator ≠ "" → ¬ separator.toList <:+: key.toList

/-- The nodes inside a section: texts without blanks at their ends, and trees
that are not empty. -/
def Node.IsSettled : Node → Prop
  | .scalar text => trimmed text = text
  | .tree found => found.keys ≠ []

theorem isPiece_of_mem_segments {separator dotted key : String}
    (h : key ∈ segments separator dotted) : IsPiece separator key := by
  intro hseparator
  unfold segments at h
  split at h
  · next hnil => exact absurd (String.toList_eq_nil_iff.mp hnil) hseparator
  · next first more hmark =>
    obtain ⟨piece, hpiece, rfl⟩ := List.mem_map.mp h
    rw [hmark, String.toList_ofList]
    exact not_isInfix_of_mem_pieces hpiece

namespace Tree

variable {separator : String}

/-- Along every path in the tree the keys are pieces, and what the path leads to
is settled. -/
def Tidy (separator : String) (tree : Tree) : Prop :=
  ∀ path node, path ≠ [] → tree.at? path = some node →
    (∀ key ∈ path, IsPiece separator key) ∧ node.IsSettled

theorem tidy_empty : empty.Tidy separator := by
  intro path node hpath hnode
  rw [at?_empty hpath] at hnode
  cases hnode

theorem keys_insert_ne_nil (tree : Tree) (key : String) (node : Node) :
    (tree.insert key node).keys ≠ [] :=
  List.ne_nil_of_mem (Entries.mem_keys_insert.mpr (.inl rfl))

theorem keys_write_ne_nil {path : List String} (hpath : path ≠ []) (tree : Tree) (text : String) :
    (tree.write text path).keys ≠ [] := by
  obtain ⟨key, more, rfl⟩ := List.exists_cons_of_ne_nil hpath
  cases more <;> exact keys_insert_ne_nil _ _ _

theorem Tidy.write {tree : Tree} (h : tree.Tidy separator) {target : List String}
    (htarget : target ≠ []) (hpieces : ∀ key ∈ target, IsPiece separator key) {text : String}
    (htext : trimmed text = text) : (tree.write text target).Tidy separator := by
  have hshows := showsWrite_write htarget tree text
  intro path node hpath hnode
  -- A path ends at the text, goes beyond it, stops on the way to it or leads elsewhere.
  by_cases hmeets : Meets target path
  · by_cases hsame : target = path
    · subst hsame
      rw [(hshows target).same rfl] at hnode
      cases hnode
      exact ⟨hpieces, htext⟩
    · rcases hmeets with hbeyond | ⟨rest, rfl⟩
      · rw [(hshows path).beyond hbeyond hsame] at hnode
        cases hnode
      · have hrest : rest ≠ [] := mt List.append_right_eq_self.mpr hsame
        rw [at?_write_towards hrest] at hnode
        cases hnode
        exact ⟨fun key hkey => hpieces key (List.mem_append_left _ hkey),
          keys_write_ne_nil hrest _ _⟩
  · rw [at?_write_of_not_meets hmeets] at hnode
    exact h path node hpath hnode

theorem Tidy.writeAll {tree : Tree} (h : tree.Tidy separator) (values : Bindings String) :
    (tree.writeAll separator values).Tidy separator := by
  induction values generalizing tree with
  | nil => exact h
  | cons binding values ih =>
    obtain ⟨key, text⟩ := binding
    have hpieces : ∀ segment ∈ segments separator key, IsPiece separator segment :=
      fun _ => isPiece_of_mem_segments
    exact ih (h.write (segments_ne_nil separator key) hpieces (trimmed_trimmed text))

theorem keys_overlay_ne_nil {layer : Tree} (h : layer.keys ≠ []) (base : Tree) :
    (base.overlay layer).keys ≠ [] := by
  obtain ⟨key, hkey⟩ := List.exists_mem_of_ne_nil _ h
  obtain ⟨node, hnode⟩ := mem_keys_iff.mp hkey
  have hover : (base.overlay layer).get? key = some (base.layered [key] node) := by
    rw [get?_overlay, hnode]
  exact List.ne_nil_of_mem (mem_keys_iff.mpr ⟨_, hover⟩)

theorem Tidy.overlay {base layer : Tree} (hbase : base.Tidy separator)
    (hlayer : layer.Tidy separator) : (base.overlay layer).Tidy separator := by
  intro path node hpath hnode
  by_cases htouches : layer.Touches path
  · rcases htouches with ⟨own, hown⟩ | hblocks
    · obtain ⟨hpieces, hsettled⟩ := hlayer path own hpath hown
      rw [at?_overlay_of_eq_some hown] at hnode
      cases hnode
      refine ⟨hpieces, ?_⟩
      cases own with
      | scalar text => exact hsettled
      | tree found => exact keys_overlay_ne_nil hsettled _
    · rw [at?_overlay_of_blocks hblocks] at hnode
      cases hnode
  · rw [at?_overlay_of_not_touches htouches] at hnode
    exact hbase path node hpath hnode

end Tree

/-- The keys that a header can give a section. -/
def IsName (key : String) : Prop :=
  key ≠ "" ∧ trimmed key = key

/-- The nodes at the top of a tree: texts without blanks at their ends, and tidy
sections. -/
def Node.IsTopLevel (separator : String) : Node → Prop
  | .scalar text => trimmed text = text
  | .tree found => found.Tidy separator

namespace Tree

variable {separator : String}

/-- Every key at the top is a name and leads to a text or a tidy section. -/
def Assembled (separator : String) (tree : Tree) : Prop :=
  ∀ key node, tree.get? key = some node → IsName key ∧ node.IsTopLevel separator

theorem assembled_empty : empty.Assembled separator := by
  intro key node hnode
  cases hnode

theorem Assembled.insert {tree : Tree} (h : tree.Assembled separator) {key : String}
    (hkey : IsName key) {node : Node} (hnode : node.IsTopLevel separator) :
    (tree.insert key node).Assembled separator := by
  intro name found hfound
  rw [get?_insert] at hfound
  split at hfound
  · next hname =>
    cases hfound
    exact ⟨hname ▸ hkey, hnode⟩
  · exact h name found hfound

theorem Assembled.child {tree : Tree} (h : tree.Assembled separator) (key : String) :
    (tree.child key).Tidy separator := by
  unfold Tree.child
  split
  · next found hfound => exact (h key (.tree found) hfound).2
  · exact tidy_empty

theorem Assembled.overlay {base layer : Tree} (hbase : base.Assembled separator)
    (hlayer : layer.Assembled separator) : (base.overlay layer).Assembled separator := by
  intro key node hnode
  rw [get?_overlay] at hnode
  cases hown : layer.get? key with
  | none =>
    rw [hown] at hnode
    exact hbase key node hnode
  | some own =>
    rw [hown] at hnode
    cases hnode
    obtain ⟨hname, htop⟩ := hlayer key own hown
    refine ⟨hname, ?_⟩
    cases own with
    | scalar text => exact htop
    | tree found =>
      have hchild := hbase.child key
      rw [← subtree_singleton] at hchild
      exact hchild.overlay htop

/-- What every tree that is read satisfies, said path by path. -/
structure WellFormed (separator : String) (tree : Tree) : Prop where
  /-- Keys at the top are not empty and have no blanks at their ends. -/
  names : ∀ key ∈ tree.keys, key ≠ "" ∧ trimmed key = key
  /-- No text has blanks at its ends. -/
  texts : ∀ path text, tree.at? path = some (.scalar text) → trimmed text = text
  /-- Only sections themselves can be empty. -/
  trees : ∀ path found, 1 < path.length → tree.at? path = some (.tree found) → found.keys ≠ []
  /-- No key below the top holds the separator. -/
  pieces : separator ≠ "" → ∀ key path node, tree.at? (key :: path) = some node →
    ∀ segment ∈ path, ¬ separator.toList <:+: segment.toList
  /-- No key comes up twice at any level. -/
  nodup : ∀ path found, tree.at? path = some (.tree found) → found.keys.Nodup

/-- What a path of an assembled tree leads to below the key of a section. -/
theorem Assembled.below {tree : Tree} (h : tree.Assembled separator) {key : String}
    {path : List String} (hpath : path ≠ []) {node : Node}
    (hnode : tree.at? (key :: path) = some node) :
    (∀ segment ∈ path, IsPiece separator segment) ∧ node.IsSettled := by
  rw [← at?_child hpath] at hnode
  exact h.child key path node hpath hnode

theorem Assembled.wellFormed {tree : Tree} (h : tree.Assembled separator) :
    tree.WellFormed separator where
  names := by
    intro key hkey
    obtain ⟨node, hnode⟩ := mem_keys_iff.mp hkey
    exact (h key node hnode).1
  texts := by
    intro path text htext
    match path with
    | [] => cases htext
    | [key] =>
      rw [← get?_eq_at?] at htext
      exact (h key _ htext).2
    | key :: next :: more => exact (h.below (List.cons_ne_nil next more) htext).2
  trees := by
    intro path found hlength hfound
    match path with
    | key :: next :: more => exact (h.below (List.cons_ne_nil next more) hfound).2
  pieces := by
    intro hseparator key path node hnode segment hsegment
    exact (h.below (List.ne_nil_of_mem hsegment) hnode).1 segment hsegment hseparator
  nodup := fun _ found _ => found.nodup_keys

end Tree

end LayeredIni
