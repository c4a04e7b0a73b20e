/-
# Trees that say the same

The comparison of trees counts the entries of the first one and looks up each
of them in the second. Its meaning is symmetric: both trees give the same keys
nodes that say the same. Seen as lists, one tree is the other one with its
entries in another order, up to what the nodes say.
-/

import LayeredIni.Proofs.Tree.Order
import LayeredIni.Tree.Same
import Mathlib.Data.List.Nodup
import Mathlib.Data.List.Perm.Subperm

namespace LayeredIni

/-- Two nodes say the same if they are the same text, or trees that say the same. -/
def Node.Alike : Node → Node → Prop
  | .scalar text, .scalar other => text = other
  | .tree found, .tree other => found.same other = true
  | _, _ => False

theorem Node.Alike.cases {first second : Node} (h : first.Alike second) :
    (∃ text, first = .scalar text ∧ second = .scalar text) ∨
      ∃ found other, first = .tree found ∧ second = .tree other ∧ found.same other = true := by
  cases first with
  | scalar text => cases second with
    | scalar other => exact .inl ⟨text, rfl, congrArg Node.scalar (Eq.symm h)⟩
    | tree other => cases h
  | tree found => cases second with
    | scalar other => cases h
    | tree other => exact .inr ⟨found, other, rfl, rfl, h⟩

theorem Node.alike_text (text : String) : (Node.scalar text).Alike (.scalar text) := rfl

theorem Node.alike_of_same {first second : Tree} (h : first.same second = true) :
    (Node.tree first).Alike (.tree second) := h

namespace Tree

theorem nodup_keys_toList (tree : Tree) : tree.toList.keys.Nodup := by
  rw [keys_toList]
  exact tree.nodup_keys

theorem nodup_toList (tree : Tree) : tree.toList.Nodup :=
  List.Nodup.of_map _ tree.nodup_keys_toList

theorem mem_toList_iff {tree : Tree} {key : String} {node : Node} :
    (key, node) ∈ tree.toList ↔ tree.get? key = some node :=
  (Bindings.lookup_eq_some_iff tree.nodup_keys_toList).symm

end Tree

theorem Entries.agree_iff {entries : Entries} (h : entries.Distinct) {other : Tree} :
    entries.agree other = true ↔ ∀ binding ∈ entries.toList h,
      ∃ node, other.get? binding.1 = some node ∧ binding.2.Alike node := by
  induction entries with
  | nil => simp [agree, toList]
  | scalar key text rest ih =>
    rw [agree, Bool.and_eq_true, ih h.2, toList, List.forall_mem_cons]
    apply and_congr_left'
    cases other.get? key with
    | none => simp
    | some node => cases node with
      | scalar found => simp [Node.Alike]
      | tree found => simp [Node.Alike]
  | branch key children rest _ ih =>
    rw [agree, Bool.and_eq_true, ih h.2.2, toList, List.forall_mem_cons]
    apply and_congr_left'
    cases other.get? key with
    | none => simp
    | some node => cases node with
      | scalar found => simp [Node.Alike]
      | tree found =>
        -- Comparing sizes and entries is comparing the trees.
        have hsame : (children.keys.length == found.size && children.agree found) =
            Tree.same ⟨children, h.2.1⟩ found := rfl
        simp [Node.Alike, hsame]

namespace Tree

variable {first second : Tree}

/-- The comparison is between the numbers of entries and from the first tree to the second. -/
theorem same_iff_forall : first.same second = true ↔
    first.keys.length = second.keys.length ∧ ∀ key node, first.get? key = some node →
      ∃ other, second.get? key = some other ∧ node.Alike other := by
  rw [same, Bool.and_eq_true, beq_iff_eq, Entries.agree_iff first.distinct]
  apply and_congr_right'
  constructor
  · intro h key node hnode
    exact h (key, node) (mem_toList_iff.mpr hnode)
  · rintro h ⟨key, node⟩ hmem
    exact h key node (mem_toList_iff.mp hmem)

theorem keys_perm_of_isSome_eq (h : ∀ key, (first.get? key).isSome = (second.get? key).isSome) :
    first.keys.Perm second.keys := by
  apply (List.perm_ext_iff_of_nodup first.nodup_keys second.nodup_keys).mpr
  intro key
  rw [mem_keys_iff, mem_keys_iff, ← Option.isSome_iff_exists, ← Option.isSome_iff_exists, h key]

/-- If as many keys are found again as there are, then no others are there. -/
theorem keys_perm_of_length_eq (hlength : first.keys.length = second.keys.length)
    (hfound : ∀ key ∈ first.keys, key ∈ second.keys) : first.keys.Perm second.keys :=
  (List.subperm_of_subset first.nodup_keys hfound).perm_of_length_le (Nat.le_of_eq hlength.symm)

/-- Two trees say the same if they give every key nodes that say the same, or
both nothing. -/
theorem same_iff : first.same second = true ↔
    ∀ key, Option.Rel Node.Alike (first.get? key) (second.get? key) := by
  rw [same_iff_forall]
  constructor
  · rintro ⟨hlength, hfound⟩ key
    have hperm : first.keys.Perm second.keys := by
      apply keys_perm_of_length_eq hlength
      intro name hname
      obtain ⟨node, hnode⟩ := mem_keys_iff.mp hname
      obtain ⟨other, hother, -⟩ := hfound name node hnode
      exact mem_keys_iff.mpr ⟨other, hother⟩
    cases hfirst : first.get? key with
    | some node =>
      obtain ⟨other, hother, halike⟩ := hfound key node hfirst
      rw [hother]
      exact .some halike
    | none =>
      have hsecond : second.get? key = none := by
        rw [Option.eq_none_iff_forall_ne_some]
        intro node hnode
        have hmem := hperm.mem_iff.mpr (mem_keys_iff.mpr ⟨node, hnode⟩)
        obtain ⟨own, hown⟩ := mem_keys_iff.mp hmem
        rw [hfirst] at hown
        cases hown
      rw [hsecond]
      exact .none
  · intro h
    constructor
    · apply List.Perm.length_eq
      apply keys_perm_of_isSome_eq
      intro key
      have hkey := h key
      generalize first.get? key = node?, second.get? key = other? at hkey ⊢
      cases hkey <;> rfl
    · intro key node hnode
      have hkey := h key
      rw [hnode] at hkey
      generalize second.get? key = other? at hkey ⊢
      cases hkey with
      | some halike => exact ⟨_, rfl, halike⟩

theorem same_symm (h : first.same second = true) : second.same first = true := by
  induction first using induction_children generalizing second with
  | step first ih =>
  rw [same_iff] at h ⊢
  intro key
  have hkey := h key
  have hbelow := ih key
  generalize first.get? key = node?, second.get? key = other? at hkey hbelow ⊢
  cases hkey with
  | none => exact .none
  | some halike =>
    apply Option.Rel.some
    obtain ⟨text, rfl, rfl⟩ | ⟨below, found, rfl, rfl, hsame⟩ := halike.cases
    · exact Node.alike_text text
    · exact Node.alike_of_same (hbelow below rfl hsame)

/-- The entry that a tree has for the key of another entry, and this entry itself
if it has none. -/
def counterpart (tree : Tree) (binding : String × Node) : String × Node :=
  (binding.1, (tree.get? binding.1).getD binding.2)

theorem counterpart_of_same (h : first.same second = true) {key : String} {node : Node}
    (hnode : first.get? key = some node) :
    second.get? key = some (second.counterpart (key, node)).2 ∧
      node.Alike (second.counterpart (key, node)).2 := by
  obtain ⟨other, hother, halike⟩ := (same_iff_forall.mp h).2 key node hnode
  have hentry : (second.counterpart (key, node)).2 = other := by
    show (second.get? key).getD node = other
    rw [hother, Option.getD_some]
  rw [hentry]
  exact ⟨hother, halike⟩

theorem keys_map_counterpart (tree : Tree) (bindings : Bindings Node) :
    Bindings.keys (bindings.map tree.counterpart) = bindings.keys := by
  rw [Bindings.keys, List.map_map]
  rfl

/-- The entries of trees that say the same are the same up to their order and
up to what their nodes say. -/
theorem exists_reordered (h : first.same second = true) :
    ∃ reordered,
      List.Forall₂ (fun own other : String × Node => own.1 = other.1 ∧ own.2.Alike other.2)
        first.toList reordered ∧ reordered.Perm second.toList := by
  refine ⟨first.toList.map second.counterpart, ?_, ?_⟩
  · rw [List.forall₂_map_right_iff, List.forall₂_same]
    rintro ⟨key, node⟩ hmem
    exact ⟨rfl, (counterpart_of_same h (mem_toList_iff.mp hmem)).2⟩
  · have hkeys : (Bindings.keys (first.toList.map second.counterpart)).Nodup := by
      rw [keys_map_counterpart]
      exact first.nodup_keys_toList
    apply (List.perm_ext_iff_of_nodup (List.Nodup.of_map _ hkeys) second.nodup_toList).mpr
    rintro ⟨key, other⟩
    rw [mem_toList_iff]
    constructor
    · intro hmem
      obtain ⟨⟨name, node⟩, hnode, heq⟩ := List.mem_map.mp hmem
      cases heq
      exact (counterpart_of_same h (mem_toList_iff.mp hnode)).1
    · intro hother
      obtain ⟨node, hnode, -⟩ := (same_iff_forall.mp (same_symm h)).2 key other hother
      have hentry := (counterpart_of_same h hnode).1
      rw [hother] at hentry
      exact List.mem_map.mpr ⟨(key, node), mem_toList_iff.mpr hnode,
        Prod.ext rfl (Option.some.inj hentry).symm⟩

end Tree

theorem Node.Alike.symm {first second : Node} (h : first.Alike second) : second.Alike first := by
  obtain ⟨text, rfl, rfl⟩ | ⟨found, other, rfl, rfl, hsame⟩ := h.cases
  · exact alike_text text
  · exact alike_of_same (Tree.same_symm hsame)

end LayeredIni
