/-
# Trees that say the same can stand for each other

The comparison of trees goes through the entries of one of them and counts those
of the other. What it comes to is what can be found out by looking up keys: two
trees say the same if no path tells them apart, and then whatever is done to both
leaves trees that say the same. So the order of keys, which everything here
depends on as it runs, is never seen in what keys lead to.

That holds although operations go through their trees in order. Each of them is
known by what it leaves under every key, and this is an induction on the trees
under the keys, or on the path that is written to.
-/

import LayeredIni.Proofs.Session
import LayeredIni.Proofs.Tree.Algebra
import LayeredIni.Proofs.Tree.Same

namespace LayeredIni

/-- Two nodes cannot be told apart without looking under their keys: they are the
same text, or trees of any kind. -/
def Node.LooksLike : Node → Node → Prop
  | .scalar text, .scalar other => text = other
  | .tree _, .tree _ => True
  | _, _ => False

theorem Node.LooksLike.refl (node : Node) : node.LooksLike node := by
  cases node with
  | scalar text => exact rfl
  | tree found => trivial

theorem Node.LooksLike.trans {first second third : Node} (hleft : first.LooksLike second)
    (hright : second.LooksLike third) : first.LooksLike third := by
  cases first <;> cases second <;> cases third <;> simp_all [Node.LooksLike]

/-- From nodes that say the same a path leads to nodes that look alike. -/
theorem Node.Alike.at? {first second : Node} (h : first.Alike second) (path : List String) :
    Option.Rel Node.LooksLike (first.at? path) (second.at? path) := by
  induction path generalizing first second with
  | nil =>
    obtain ⟨text, rfl, rfl⟩ | ⟨found, other, rfl, rfl, -⟩ := h.cases
    · exact .some (.refl _)
    · exact .some trivial
  | cons key path ih =>
    obtain ⟨text, rfl, rfl⟩ | ⟨found, other, rfl, rfl, hsame⟩ := h.cases
    · exact .none
    · have hkey := Tree.same_iff.mp hsame key
      show Option.Rel _ (found.at? (key :: path)) (other.at? (key :: path))
      rw [Tree.at?_cons, Tree.at?_cons]
      generalize found.get? key = node?, other.get? key = other? at hkey ⊢
      cases hkey with
      | none => exact .none
      | some halike => exact ih halike

namespace Tree

variable {first second : Tree}

/-- Two trees say the same if no path tells them apart: it leads to nothing in
both, to the same text in both or to a tree in both. -/
theorem same_iff_at? : first.same second = true ↔
    ∀ path, path ≠ [] → Option.Rel Node.LooksLike (first.at? path) (second.at? path) := by
  constructor
  · intro h path _
    exact (Node.alike_of_same h).at? path
  · intro h
    induction first using induction_children generalizing second with
    | step first ih =>
    rw [same_iff]
    intro key
    have hkey := h [key] (List.cons_ne_nil _ _)
    have hbelow (path : List String) := h (key :: path) (List.cons_ne_nil _ _)
    simp only [at?_cons] at hbelow
    rw [← get?_eq_at?, ← get?_eq_at?] at hkey
    have ih := ih key
    generalize first.get? key = node?, second.get? key = other? at hkey hbelow ih ⊢
    cases hkey with
    | none => exact .none
    | @some node other hlooks =>
      apply Option.Rel.some
      cases node with
      | scalar text => cases other with
        | scalar found => exact hlooks
        | tree found => cases hlooks
      | tree below => cases other with
        | scalar text => cases hlooks
        | tree found => exact ih below rfl fun path _ => hbelow path

theorem same_refl (tree : Tree) : tree.same tree = true := by
  rw [same_iff_at?]
  intro path _
  cases tree.at? path with
  | none => exact .none
  | some node => exact .some (.refl node)

theorem same_trans {third : Tree} (hleft : first.same second = true)
    (hright : second.same third = true) : first.same third = true := by
  rw [same_iff_at?] at *
  intro path hpath
  have hleft := hleft path hpath
  have hright := hright path hpath
  generalize first.at? path = own?, second.at? path = middle?, third.at? path = other?
    at hleft hright ⊢
  cases hleft with
  | none => exact hright
  | some hlooks => cases hright with
    | some hother => exact .some (hlooks.trans hother)

theorem mem_keys_iff_of_same (h : first.same second = true) {key : String} :
    key ∈ first.keys ↔ key ∈ second.keys := by
  have hkey := same_iff.mp h key
  rw [mem_keys_iff, mem_keys_iff]
  generalize first.get? key = node?, second.get? key = other? at hkey ⊢
  cases hkey <;> simp

theorem same_insert (h : first.same second = true) {node other : Node} (hnode : node.Alike other)
    (key : String) : (first.insert key node).same (second.insert key other) = true := by
  rw [same_iff] at h ⊢
  intro name
  rw [get?_insert, get?_insert]
  by_cases hname : name = key
  · rw [if_pos hname, if_pos hname]
    exact .some hnode
  · rw [if_neg hname, if_neg hname]
    exact h name

theorem same_child (h : first.same second = true) (key : String) :
    (first.child key).same (second.child key) = true := by
  have hkey := same_iff.mp h key
  unfold child
  generalize first.get? key = node?, second.get? key = other? at hkey ⊢
  cases hkey with
  | none => exact same_refl empty
  | some halike =>
    obtain ⟨text, rfl, rfl⟩ | ⟨below, found, rfl, rfl, hsame⟩ := halike.cases
    · exact same_refl empty
    · exact hsame

theorem same_write (h : first.same second = true) (text : String) (path : List String) :
    (first.write text path).same (second.write text path) = true := by
  induction path generalizing first second with
  | nil => exact h
  | cons key path ih =>
    by_cases hpath : path = []
    · subst hpath
      exact same_insert h (Node.alike_text text) key
    · rw [write_cons hpath, write_cons hpath]
      exact same_insert h (Node.alike_of_same (ih (same_child h key))) key

theorem same_writeAll (h : first.same second = true) (separator : String)
    (values : Bindings String) :
    (first.writeAll separator values).same (second.writeAll separator values) = true := by
  induction values generalizing first second with
  | nil => exact h
  | cons binding values ih => exact ih (same_write h _ _)

/-- Laying layers that say the same over trees that say the same. The induction
is on the trees under the keys of one layer. -/
theorem same_overlay {layer reordered : Tree} (h : first.same second = true)
    (hlayer : layer.same reordered = true) :
    (first.overlay layer).same (second.overlay reordered) = true := by
  induction layer using induction_children generalizing first second reordered with
  | step layer ih =>
  rw [same_iff]
  intro key
  have hbase := same_iff.mp h key
  have hkey := same_iff.mp hlayer key
  have ih := ih key
  rw [get?_overlay, get?_overlay]
  generalize layer.get? key = node?, reordered.get? key = other? at hkey ih ⊢
  cases hkey with
  | none => exact hbase
  | some halike =>
    apply Option.Rel.some
    obtain ⟨text, rfl, rfl⟩ | ⟨below, found, rfl, rfl, hbelow⟩ := halike.cases
    · exact Node.alike_text text
    · rw [layered, layered, subtree_singleton, subtree_singleton]
      exact Node.alike_of_same (ih below rfl (same_child h key) hbelow)

end Tree

theorem Node.alike_refl (node : Node) : node.Alike node := by
  cases node with
  | scalar text => exact alike_text text
  | tree found => exact alike_of_same found.same_refl

/-- A header comes to the same, and its section starts the same. -/
theorem Header.resolve_of_same (scope : Scope) (header : Header) {first second : Tree}
    (h : first.same second = true) :
    (header.resolve scope first).1 = (header.resolve scope second).1 ∧
      (header.resolve scope first).2.same (header.resolve scope second).2 = true := by
  have hempty := Node.alike_of_same (Tree.same_refl .empty)
  cases header with
  | plain name => exact ⟨rfl, Tree.same_insert h hempty name⟩
  | inherit child parent =>
    have hparent := Node.alike_of_same (Tree.same_child h parent)
    exact ⟨rfl, Tree.same_insert h hparent child⟩
  | conditional name condition =>
    simp only [Header.resolve]
    by_cases hcondition : condition.eval scope = true
    · rw [if_pos hcondition, if_pos hcondition]
      exact ⟨rfl, Tree.same_insert h hempty name⟩
    · rw [if_neg hcondition, if_neg hcondition]
      exact ⟨rfl, h⟩

namespace Operation

/-- A header comes to the same, or cannot be read for the same reason. -/
theorem apply_resolve_of_same (scope : Scope) (raw : String) {first second : Tree}
    (h : first.same second = true) :
    ((resolve scope raw).apply first).1 = ((resolve scope raw).apply second).1 ∧
      ((resolve scope raw).apply first).2.same ((resolve scope raw).apply second).2 = true := by
  rw [apply_resolve, apply_resolve]
  cases hparse : Header.parse raw with
  | error error =>
    rw [Tree.resolve_of_parse_error hparse, Tree.resolve_of_parse_error hparse]
    exact ⟨rfl, h⟩
  | ok header =>
    rw [Tree.resolve_of_parse hparse, Tree.resolve_of_parse hparse]
    obtain ⟨hresolution, hafter⟩ := header.resolve_of_same scope h
    exact ⟨congrArg (Except.ok ∘ Report.resolved) hresolution, hafter⟩

theorem same_apply (operation : Operation) {first second : Tree}
    (h : first.same second = true) :
    (operation.apply first).2.same (operation.apply second).2 = true := by
  cases operation with
  | resolve scope raw => exact (apply_resolve_of_same scope raw h).2
  | insert key node => exact Tree.same_insert h (Node.alike_refl node) key
  | replace key node =>
    rw [apply_replace, apply_replace, Tree.replace?, Tree.replace?]
    by_cases hkey : key ∈ first.keys
    · rw [if_pos hkey, if_pos ((Tree.mem_keys_iff_of_same h).mp hkey)]
      exact Tree.same_insert h (Node.alike_refl node) key
    · rw [if_neg hkey, if_neg (mt (Tree.mem_keys_iff_of_same h).mpr hkey)]
      exact h
  | merge separator values => exact Tree.same_writeAll h separator values
  | overlay layer => exact Tree.same_overlay h layer.same_refl
  | overlayText context text =>
    rw [apply_overlayText, apply_overlayText]
    cases context.parse text with
    | error error => exact h
    | ok layer => exact Tree.same_overlay h layer.same_refl

theorem same_foldl_apply (operations : List Operation) {first second : Tree}
    (h : first.same second = true) :
    (operations.foldl (fun tree operation => (operation.apply tree).2) first).same
      (operations.foldl (fun tree operation => (operation.apply tree).2) second) = true := by
  induction operations generalizing first second with
  | nil => exact h
  | cons operation operations ih => exact ih (operation.same_apply h)

end Operation

/-- Trees that say the same can stand for each other. They are those that no
path tells apart. Layers that say the same leave trees that say the same over
them, and so do the texts of a section and a header, which comes to the same or
fails with the same error. No session that starts with one of them instead of the
other ends with a tree that says something else. -/
theorem Tree.same_observed_and_kept :
    (∀ first second : Tree, first.same second = true ↔
      ∀ path, path ≠ [] → Option.Rel Node.LooksLike (first.at? path) (second.at? path)) ∧
    Equivalence (fun first second : Tree => first.same second = true) ∧
    ∀ first second : Tree, first.same second = true →
      (∀ layer reordered : Tree, layer.same reordered = true →
        (first.overlay layer).same (second.overlay reordered) = true) ∧
      (∀ separator values,
        (first.writeAll separator values).same (second.writeAll separator values) = true) ∧
      (∀ scope raw,
        ((Operation.resolve scope raw).apply first).1 =
          ((Operation.resolve scope raw).apply second).1 ∧
        ((Operation.resolve scope raw).apply first).2.same
          ((Operation.resolve scope raw).apply second).2 = true) ∧
      ∀ operations : List Operation,
        (operations.foldl (fun tree operation => (operation.apply tree).2) first).same
          (operations.foldl (fun tree operation => (operation.apply tree).2) second) = true := by
  refine ⟨fun _ _ => same_iff_at?, ⟨same_refl, same_symm, same_trans⟩, ?_⟩
  intro first second h
  refine ⟨?_, same_writeAll h, ?_, ?_⟩
  · intro layer reordered hlayer
    exact same_overlay h hlayer
  · intro scope raw
    exact Operation.apply_resolve_of_same scope raw h
  · intro operations
    exact Operation.same_foldl_apply operations h

/-- Trees and layers with their keys in different orders at both levels. The
layers leave different trees over them, which say the same. -/
theorem Tree.same_observed_and_kept_reordered :
    let first : Tree := ⟨.branch "a" (.scalar "x" "1" (.scalar "y" "2" .nil))
      (.scalar "b" "3" .nil), by decide⟩
    let second : Tree := ⟨.scalar "b" "3"
      (.branch "a" (.scalar "y" "2" (.scalar "x" "1" .nil)) .nil), by decide⟩
    let layer : Tree := ⟨.scalar "c" "4"
      (.branch "a" (.scalar "z" "5" (.scalar "w" "6" .nil)) .nil), by decide⟩
    let reordered : Tree := ⟨.branch "a" (.scalar "w" "6" (.scalar "z" "5" .nil))
      (.scalar "c" "4" .nil), by decide⟩
    first.same second = true ∧ layer.same reordered = true ∧
      first.overlay layer ≠ second.overlay reordered ∧
      (first.overlay layer).same (second.overlay reordered) = true ∧
      (first.writeAll "." [("b.v", "7")]).same (second.writeAll "." [("b.v", "7")]) = true ∧
      ((Operation.resolve Scope.empty "b : a").apply first).1 =
        ((Operation.resolve Scope.empty "b : a").apply second).1 ∧
      ((Operation.resolve Scope.empty "b : a").apply first).2.same
        ((Operation.resolve Scope.empty "b : a").apply second).2 = true := by
  intro first second layer reordered
  have hsame : first.same second = true := by decide
  have hlayer : layer.same reordered = true := by decide
  obtain ⟨-, -, hkept⟩ := same_observed_and_kept
  obtain ⟨hoverlay, hwrite, hresolve, -⟩ := hkept first second hsame
  exact ⟨hsame, hlayer, by decide, hoverlay layer reordered hlayer, hwrite _ _, hresolve _ _⟩

end LayeredIni
