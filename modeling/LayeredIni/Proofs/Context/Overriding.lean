/-
# Overriding in a layer and overriding in place

Texts can be put over a tree in two ways: written into it directly, as the
entries of an inheriting section are, or written into an empty tree that is
then laid over it, as the same entries in a further source are. Both give the
same tree, with the same order of keys, unless a text is written first and a
longer path through it later: in the layer of its own such a text is gone
before it can remove anything from the tree below.
-/

import LayeredIni.Proofs.Context.Placement
import LayeredIni.Proofs.Tree.Algebra

namespace LayeredIni

open LayeredIni.Text

/-- No text is written on the way of a path that a later one is written to. -/
def Unobstructed (separator : String) (values : Bindings String) : Prop :=
  values.Pairwise fun earlier later =>
    ¬ (segments separator earlier.1 <+: segments separator later.1 ∧
      segments separator earlier.1 ≠ segments separator later.1)

instance (separator : String) (values : Bindings String) :
    Decidable (Unobstructed separator values) :=
  inferInstanceAs (Decidable (values.Pairwise fun earlier later =>
    ¬ (segments separator earlier.1 <+: segments separator later.1 ∧
      segments separator earlier.1 ≠ segments separator later.1)))

namespace Tree

/-- Laying a layer with one more entry is inserting what the entry becomes over
the base. -/
theorem overlay_insert (base layer : Tree) (key : String) (node : Node) :
    base.overlay (layer.insert key node) =
      (base.overlay layer).insert key (base.layered [key] node) := by
  apply eq_of_keys_eq_of_get?_eq
  · rw [keys_overlay, keys_insert_of_keys_eq layer.eraseDups_keys.symm, eraseDups_append_eraseDups,
      ← List.append_assoc, keys_insert_of_keys_eq (keys_overlay base layer)]
  · intro name
    rw [get?_overlay, get?_insert, get?_insert]
    by_cases hname : name = key
    · rw [if_pos hname, if_pos hname, hname]
    · rw [if_neg hname, if_neg hname, get?_overlay]

/-- A text on the way below a key is on the way through the key. -/
theorem Blocks.of_child {tree : Tree} {key : String} {path : List String}
    (h : (tree.child key).Blocks path) : tree.Blocks (key :: path) := by
  obtain ⟨front, back, text, hfront, hback, rfl, htext⟩ := h
  rw [at?_child hfront] at htext
  exact ⟨key :: front, back, text, List.cons_ne_nil key front, hback, rfl, htext⟩

/-- Over a layer that has no text on the way, writing into the layer is writing
into the result. -/
theorem overlay_write {layer : Tree} {path : List String} (h : ¬ layer.Blocks path) (base : Tree)
    (text : String) :
    base.overlay (layer.write text path) = (base.overlay layer).write text path := by
  induction path generalizing base layer with
  | nil => rfl
  | cons key path ih =>
    cases path with
    | nil => exact overlay_insert base layer key (.scalar text)
    | cons next more =>
      have hpath : next :: more ≠ [] := List.cons_ne_nil next more
      have hbelow := ih (mt Blocks.of_child h) (base.child key)
      have hchild :
          (base.child key).overlay (layer.child key) = (base.overlay layer).child key := by
        rw [child_overlay]
        cases hkey : layer.get? key with
        | none =>
          have hnone : layer.child key = empty := by
            apply child_eq_empty_of_get?_ne
            simp [hkey]
          rw [hnone, overlay_empty]
        | some node => cases node with
          | scalar found =>
            rw [get?_eq_at?] at hkey
            exact absurd ⟨[key], next :: more, found, List.cons_ne_nil _ _, hpath, rfl, hkey⟩ h
          | tree found => rw [child_eq_of_get?_eq hkey]
      rw [write_cons hpath, write_cons hpath, overlay_insert, layered, subtree_singleton, hbelow,
        hchild]

/-- A text that is found after writing one is this one or was there before. -/
theorem eq_or_eq_of_at?_write {tree : Tree} {target path : List String} {text found : String}
    (htarget : target ≠ []) (h : (tree.write text target).at? path = some (.scalar found)) :
    target = path ∨ tree.at? path = some (.scalar found) := by
  have hshows := showsWrite_write htarget tree text path
  by_cases hmeets : Meets target path
  · left
    by_contra hne
    rcases hmeets with hbeyond | htowards
    · rw [hshows.beyond hbeyond hne] at h
      cases h
    · obtain ⟨subtree, hsubtree⟩ := hshows.towards htowards (Ne.symm hne)
      rw [hsubtree] at h
      cases h
  · right
    rwa [at?_write_of_not_meets hmeets] at h

/-- The texts in a tree that is written from nothing are at the paths of the keys. -/
theorem exists_key_of_at?_writeAll {separator : String} {values : Bindings String}
    {path : List String} {found : String}
    (h : (empty.writeAll separator values).at? path = some (.scalar found)) :
    ∃ binding ∈ values, segments separator binding.1 = path := by
  induction values using List.reverseRecOn with
  | nil =>
    cases path with
    | nil => cases h
    | cons key more =>
      rw [writeAll, List.foldl_nil, at?_empty (List.cons_ne_nil key more)] at h
      cases h
  | append_singleton values binding ih =>
    rw [writeAll_append] at h
    rcases eq_or_eq_of_at?_write (segments_ne_nil separator binding.1) h with hlast | hearlier
    · exact ⟨binding, List.mem_append_right _ (List.mem_singleton_self binding), hlast⟩
    · obtain ⟨other, hother, hpath⟩ := ih hearlier
      exact ⟨other, List.mem_append_left _ hother, hpath⟩

/-- Laying texts over a tree as a layer is writing them into it. -/
theorem overlay_writeAll {separator : String} {values : Bindings String}
    (h : Unobstructed separator values) (base : Tree) :
    base.overlay (empty.writeAll separator values) = base.writeAll separator values := by
  induction values using List.reverseRecOn with
  | nil => rfl
  | append_singleton values last ih =>
    obtain ⟨hvalues, -, hlast⟩ := List.pairwise_append.mp h
    have hblocks : ¬ (empty.writeAll separator values).Blocks (segments separator last.1) := by
      rintro ⟨front, back, found, -, hback, hpath, hfound⟩
      obtain ⟨earlier, hmem, rfl⟩ := exists_key_of_at?_writeAll hfound
      apply hlast earlier hmem last (List.mem_singleton_self last)
      rw [hpath]
      exact ⟨List.prefix_append _ _, mt List.self_eq_append_right.mp hback⟩
    rw [writeAll_append, writeAll_append, ← ih hvalues]
    exact overlay_write hblocks base _

end Tree

namespace Context

variable {context : Context}

/-- Overriding in a layer is overriding in place. Texts none of which is on
the way of a later one give the same tree whether they are laid over a tree or
written into it. So a section that inherits from another one and overrides some
of it has the same tree as the other one under a layer with these entries. -/
theorem override_in_layer_or_in_place (context : Context) {values : Bindings String}
    (h : Unobstructed context.separator values) :
    (∀ base : Tree, base.overlay (Tree.empty.writeAll context.separator values) =
      base.writeAll context.separator values) ∧
    ∀ (base : Tree) (own inheriting : Document.Section) (parent child : String),
      own.body = .entries values → Header.parse own.header = .ok (.plain parent) →
      inheriting.body = .entries values →
      Header.parse inheriting.header = .ok (.inherit child parent) →
      ∃ layer after, context.place .empty own = .ok layer ∧
        context.place base inheriting = .ok after ∧
        after.get? child = (base.overlay layer).get? parent := by
  refine ⟨Tree.overlay_writeAll h, ?_⟩
  intro base own inheriting parent child hown hplain hinheriting hinherit
  refine ⟨_, _, place_of_parse .empty hplain, place_of_parse base hinherit, ?_⟩
  have hlayer : context.placed .empty (.plain parent) own.body =
      Tree.empty.insert parent (.tree (Tree.empty.writeAll context.separator values)) := by
    rw [hown]
    rfl
  have hafter : context.placed base (.inherit child parent) inheriting.body =
      base.insert child (.tree ((base.child parent).writeAll context.separator values)) := by
    rw [hinheriting]
    rfl
  rw [hlayer, hafter, Tree.get?_insert_self, Tree.overlay_insert, Tree.get?_insert_self,
    Tree.layered, Tree.subtree_singleton, Tree.overlay_writeAll h]

/-- A text in the way of a path, a tree in the place of a text and a key that is
written twice, overridden below the key of a section. -/
theorem override_in_layer_or_in_place_repeated :
    let base : Tree :=
      ⟨.branch "s" (.scalar "a" "off" (.branch "c" (.scalar "z" "0" .nil) .nil)) .nil, by decide⟩
    let values : Bindings String := [("a.b", "1"), ("c", "2"), ("a.b", " 3 "), ("a.d", "4")]
    Unobstructed "." values ∧
      (base.child "s").overlay (Tree.empty.writeAll "." values) =
        (base.child "s").writeAll "." values ∧
      (base.child "s").writeAll "." values =
        ⟨.branch "a" (.scalar "b" "3" (.scalar "d" "4" .nil)) (.scalar "c" "2" .nil), by decide⟩ ∧
      ∃ layer after, Context.place {} .empty ⟨"s", 1, .entries values⟩ = .ok layer ∧
        Context.place {} base ⟨"t : s", 1, .entries values⟩ = .ok after ∧
        after.get? "t" = (base.overlay layer).get? "s" := by
  intro base values
  have hvalues : Unobstructed "." values := by decide +kernel
  have hplain : Header.parse "s" = .ok (.plain "s") := by decide +kernel
  have hinherit : Header.parse "t : s" = .ok (.inherit "t" "s") := by decide +kernel
  obtain ⟨htrees, hsections⟩ := override_in_layer_or_in_place {} hvalues
  exact ⟨hvalues, htrees _, by decide +kernel,
    hsections base ⟨"s", 1, .entries values⟩ ⟨"t : s", 1, .entries values⟩ "s" "t" rfl hplain rfl
      hinherit⟩

/-- A text on the way of a later one removes a tree only where it is written
directly. -/
example :
    let base : Tree := ⟨.branch "a" (.scalar "c" "0" .nil) .nil, by decide⟩
    let values : Bindings String := [("a", "1"), ("a.b", "2")]
    base.overlay (Tree.empty.writeAll "." values) ≠ base.writeAll "." values := by
  decide +kernel

end Context

end LayeredIni
