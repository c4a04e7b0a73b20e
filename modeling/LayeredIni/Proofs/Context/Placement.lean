/-
# What the sections of a document leave under each key

Sections are placed one after the other into one tree, but what a key ends up
with does not depend on that order of events. The last section that counts and
has the key decides alone: its own text or entries, over nothing or over a copy
of what the sections before it leave under the name of its parent. This module
proves that reading, and that the keys stand in the order in which sections
that count first use them.
-/

import LayeredIni.Context
import LayeredIni.Proofs.Fallible
import LayeredIni.Proofs.Tree.Lookup

namespace LayeredIni

open LayeredIni.Text LayeredIni.Fallible

/-- The key of a header, unless the header does not count in a scope. -/
def Header.key? (scope : Scope) : Header → Option String
  | plain name => some name
  | inherit child _ => some child
  | conditional name condition => if condition.eval scope then some name else none

/-- What the entries of a section are written into, given what the sections
before it have left: a copy of the parent for an inheritance, else nothing. -/
def Header.startTree (earlier : Tree) : Header → Tree
  | inherit _ parent => earlier.child parent
  | _ => .empty

theorem Header.resolve_of_key?_eq_none {scope : Scope} {header : Header}
    (hkey : header.key? scope = none) (tree : Tree) :
    header.resolve scope tree = (.skip, tree) := by
  cases header with
  | plain name => cases hkey
  | inherit child parent => cases hkey
  | conditional name condition =>
    by_cases hholds : condition.eval scope = true
    · simp [key?, hholds] at hkey
    · simp [resolve, hholds]

/-- A header with a key reports it, and inserts what its section starts from. -/
theorem Header.resolve_of_key?_eq_some {scope : Scope} {header : Header} {key : String}
    (hkey : header.key? scope = some key) (tree : Tree) :
    ∃ resolution, resolution.key? = some key ∧ header.resolve scope tree =
      (resolution, tree.insert key (.tree (header.startTree tree))) := by
  cases header with
  | plain name =>
    obtain rfl : name = key := Option.some.inj hkey
    exact ⟨.accept name, rfl, rfl⟩
  | inherit child parent =>
    obtain rfl : child = key := Option.some.inj hkey
    exact ⟨.inherit child, rfl, rfl⟩
  | conditional name condition =>
    by_cases hholds : condition.eval scope = true
    · obtain rfl : name = key := by simpa [key?, hholds] using hkey
      exact ⟨.accept name, rfl, by simp [resolve, startTree, hholds]⟩
    · simp [key?, hholds] at hkey

namespace Context

variable (context : Context)

/-- The key of a section that can be read and counts. -/
def key? (part : Document.Section) : Option String :=
  match Header.parse part.header with
  | .error _ => none
  | .ok header => header.key? context.scope

/-- Whether a section has a key in the tree. -/
def counts (part : Document.Section) : Bool :=
  (context.key? part).isSome

/-- What a section gives its key: its text, or its entries written over what
its header starts from. -/
def declaredNode (earlier : Tree) (header : Header) : Document.Body → Node
  | .scalar value => .scalar (trimmed value)
  | .entries values => .tree ((header.startTree earlier).writeAll context.separator values)

/-- The tree with the section of a header added to it. -/
def placed (tree : Tree) (header : Header) (body : Document.Body) : Tree :=
  match header.key? context.scope with
  | none => tree
  | some key => tree.insert key (context.declaredNode tree header body)

variable {context}

theorem key?_eq_of_parse {part : Document.Section} {header : Header}
    (hparse : Header.parse part.header = .ok header) :
    context.key? part = header.key? context.scope := by
  rw [key?, hparse]

/-- The tree prepared for a section holds what the section starts from, and the
body then takes its place. -/
theorem insert_prepared (tree : Tree) (key : String) (header : Header)
    (body : Document.Body) :
    let prepared := tree.insert key (.tree (header.startTree tree))
    prepared.insert key (context.bodyNode (prepared.child key) body) =
      tree.insert key (context.declaredNode tree header body) := by
  have hnode : context.bodyNode (header.startTree tree) body =
      context.declaredNode tree header body := by
    cases body <;> rfl
  intro prepared
  rw [Tree.child_insert_self, Tree.insert_insert, hnode]

/-- Placing a section is inserting what it declares, if it counts. -/
theorem place_of_parse {part : Document.Section} {header : Header} (tree : Tree)
    (hparse : Header.parse part.header = .ok header) :
    context.place tree part = .ok (context.placed tree header part.body) := by
  rw [place, Tree.resolve_of_parse hparse]
  cases hkey : header.key? context.scope with
  | none => simp only [Header.resolve_of_key?_eq_none hkey, Resolution.key?, placed, hkey]
  | some key =>
    obtain ⟨resolution, hresolution, hresolve⟩ := Header.resolve_of_key?_eq_some hkey tree
    simp only [hresolve, hresolution, placed, hkey]
    exact congrArg Except.ok (insert_prepared tree key header part.body)

/-- What placing a section does. It succeeds if the header can be read. -/
theorem place_eq_ok_iff {part : Document.Section} {tree after : Tree} :
    context.place tree part = .ok after ↔
      ∃ header, Header.parse part.header = .ok header ∧
        context.placed tree header part.body = after := by
  cases hparse : Header.parse part.header with
  | error error => simp [place_of_parse_error hparse]
  | ok header => simp [place_of_parse tree hparse]

theorem placed_of_key?_eq_none {header : Header} (hkey : header.key? context.scope = none)
    (tree : Tree) (body : Document.Body) : context.placed tree header body = tree := by
  rw [placed, hkey]

theorem placed_of_key?_eq_some {header : Header} {key : String}
    (hkey : header.key? context.scope = some key) (tree : Tree) (body : Document.Body) :
    context.placed tree header body =
      tree.insert key (context.declaredNode tree header body) := by
  rw [placed, hkey]

theorem get?_place_of_ne {part : Document.Section} {tree after : Tree} {key : String}
    (hplace : context.place tree part = .ok after) (hkey : context.key? part ≠ some key) :
    after.get? key = tree.get? key := by
  obtain ⟨header, hparse, rfl⟩ := place_eq_ok_iff.mp hplace
  rw [key?_eq_of_parse hparse] at hkey
  cases hown : header.key? context.scope with
  | none => rw [placed_of_key?_eq_none hown]
  | some own =>
    have hne : key ≠ own := by
      intro heq
      subst heq
      exact hkey hown
    rw [placed_of_key?_eq_some hown, Tree.get?_insert_of_ne hne]

theorem exists_run_of_headers {parts : List Document.Section}
    (hheaders : ∀ part ∈ parts, ∃ header, Header.parse part.header = .ok header) (tree : Tree) :
    ∃ after, parts.foldlM context.place tree = .ok after := by
  induction parts generalizing tree with
  | nil => exact ⟨tree, rfl⟩
  | cons part parts ih =>
    obtain ⟨⟨header, hparse⟩, hothers⟩ := List.forall_mem_cons.mp hheaders
    obtain ⟨after, hrest⟩ := ih hothers (context.placed tree header part.body)
    exact ⟨after, foldlM_cons (place_of_parse tree hparse) hrest⟩

theorem get?_run_of_forall_ne {parts : List Document.Section} {tree after : Tree} {key : String}
    (hrun : parts.foldlM context.place tree = .ok after)
    (hkey : ∀ part ∈ parts, context.key? part ≠ some key) : after.get? key = tree.get? key := by
  induction parts generalizing tree with
  | nil => rw [foldlM_nil_eq_ok_iff.mp hrun]
  | cons part parts ih =>
    obtain ⟨middle, hplace, hrest⟩ := foldlM_cons_eq_ok_iff.mp hrun
    obtain ⟨hpart, hothers⟩ := List.forall_mem_cons.mp hkey
    calc
      after.get? key = middle.get? key := ih hrest hothers
      _ = tree.get? key := get?_place_of_ne hplace hpart

/-- The keys of a tree with a further section: its own one comes last if it is new. -/
theorem keys_place {part : Document.Section} {tree after : Tree}
    (hplace : context.place tree part = .ok after) {keys : List String}
    (hkeys : tree.keys = keys.eraseDups) :
    after.keys = (keys ++ (context.key? part).toList).eraseDups := by
  obtain ⟨header, hparse, rfl⟩ := place_eq_ok_iff.mp hplace
  rw [key?_eq_of_parse hparse]
  cases hown : header.key? context.scope with
  | none => simp [placed_of_key?_eq_none hown, hkeys]
  | some own =>
    rw [placed_of_key?_eq_some hown]
    exact Tree.keys_insert_of_keys_eq hkeys own _

/-- The keys of a run stand in the order of their first appearance. -/
theorem keys_run {parts : List Document.Section} {tree : Tree}
    (hrun : parts.foldlM context.place .empty = .ok tree) :
    tree.keys = (parts.filterMap context.key?).eraseDups := by
  induction parts using List.reverseRecOn generalizing tree with
  | nil => rw [← foldlM_nil_eq_ok_iff.mp hrun]; rfl
  | append_singleton parts part ih =>
    obtain ⟨middle, hrest, hlast⟩ := foldlM_append_eq_ok_iff.mp hrun
    obtain ⟨after, hplace, hnil⟩ := foldlM_cons_eq_ok_iff.mp hlast
    rw [← foldlM_nil_eq_ok_iff.mp hnil, keys_place hplace (ih hrest), List.filterMap_append]
    cases hkey : context.key? part <;> simp [hkey]

/-- A section that does not count leaves no trace. -/
theorem run_filter {parts : List Document.Section} {tree after : Tree}
    (hrun : parts.foldlM context.place tree = .ok after) :
    (parts.filter context.counts).foldlM context.place tree = .ok after := by
  induction parts generalizing tree with
  | nil => exact hrun
  | cons part parts ih =>
    obtain ⟨middle, hplace, hrest⟩ := foldlM_cons_eq_ok_iff.mp hrun
    by_cases hcounts : context.counts part = true
    · rw [List.filter_cons_of_pos hcounts]
      exact foldlM_cons hplace (ih hrest)
    · rw [List.filter_cons_of_neg hcounts]
      obtain ⟨header, hparse, rfl⟩ := place_eq_ok_iff.mp hplace
      rw [counts, key?_eq_of_parse hparse, Option.not_isSome_iff_eq_none] at hcounts
      rw [placed_of_key?_eq_none hcounts] at hrest
      exact ih hrest

/-- The last section that counts and has a key decides the node of the key. -/
theorem get?_run_of_last {before after : List Document.Section} {part : Document.Section}
    {tree : Tree} {key : String}
    (hrun : (before ++ part :: after).foldlM context.place .empty = .ok tree)
    (hkey : context.key? part = some key)
    (hlast : ∀ later ∈ after, context.key? later ≠ some key) :
    ∃ header earlier, Header.parse part.header = .ok header ∧
      context.treeOfSections before = .ok earlier ∧
      tree.get? key = some (context.declaredNode earlier header part.body) := by
  obtain ⟨earlier, hbefore, hrest⟩ := foldlM_append_eq_ok_iff.mp hrun
  obtain ⟨middle, hplace, hafter⟩ := foldlM_cons_eq_ok_iff.mp hrest
  obtain ⟨header, hparse, rfl⟩ := place_eq_ok_iff.mp hplace
  refine ⟨header, earlier, hparse, hbefore, ?_⟩
  rw [key?_eq_of_parse hparse] at hkey
  rw [get?_run_of_forall_ne hafter hlast, placed_of_key?_eq_some hkey, Tree.get?_insert_self]

/-- What a document declares. If its lines and headers can be read, a
document has a tree. Its keys are those of the sections that count, each at its
first appearance; sections that do not count could as well be missing; and
each key has the node that its last section declares over the tree of the
sections before that one. -/
theorem parse_declares (context : Context) (text : String) (parts : List Document.Section)
    (hsections : Document.sections text = .ok parts)
    (hheaders : ∀ part ∈ parts, ∃ header, Header.parse part.header = .ok header) :
    ∃ tree, context.parse text = .ok tree ∧
      tree.keys = (parts.filterMap context.key?).eraseDups ∧
      context.treeOfSections (parts.filter context.counts) = .ok tree ∧
      ∀ (before after : List Document.Section) (part : Document.Section) (key : String),
        parts = before ++ part :: after → context.key? part = some key →
        (∀ later ∈ after, context.key? later ≠ some key) →
        ∃ header earlier, Header.parse part.header = .ok header ∧
          context.treeOfSections before = .ok earlier ∧
          tree.get? key = some (context.declaredNode earlier header part.body) := by
  obtain ⟨tree, hrun⟩ := exists_run_of_headers hheaders .empty
  refine ⟨tree, ?_, keys_run hrun, run_filter hrun, ?_⟩
  · have htree : context.treeOfSections parts = .ok tree := hrun
    rw [parse_of_sections hsections, htree]
    rfl
  · intro before after part key hparts hkey hlast
    subst hparts
    exact get?_run_of_last hrun hkey hlast

/-- A parent that is declared again after its child has copied it: the child
keeps the copy. -/
theorem parse_declares_copy_before_redeclaration :
    ∃ tree, Context.parse {} "[a]\nx = 1\n[b : a]\ny = 2\n[a (on)]\nx = 9\n[b (off)]\n" =
        .ok tree ∧
      tree.keys = ["a", "b"] ∧
      ∃ header earlier, Header.parse "b : a" = .ok header ∧
        Context.treeOfSections {} [⟨"a", 1, .entries [("x", "1")]⟩] = .ok earlier ∧
        tree.get? "b" = some (declaredNode {} earlier header (.entries [("y", "2")])) := by
  have hplain : Header.parse "a" = .ok (.plain "a") := by decide +kernel
  have hchild : Header.parse "b : a" = .ok (.inherit "b" "a") := by decide +kernel
  have hon : Header.parse "a (on)" = .ok (.conditional "a" (.truthy (.literal "on"))) := by
    decide +kernel
  have hoff : Header.parse "b (off)" = .ok (.conditional "b" (.truthy (.literal "off"))) := by
    decide +kernel
  have hcounts : (Condition.truthy (.literal "on")).eval Scope.empty = true := by decide +kernel
  have hskipped : (Condition.truthy (.literal "off")).eval Scope.empty = false := by decide +kernel
  obtain ⟨tree, hparse, hkeys, -, hnode⟩ := parse_declares {}
    "[a]\nx = 1\n[b : a]\ny = 2\n[a (on)]\nx = 9\n[b (off)]\n"
    [⟨"a", 1, .entries [("x", "1")]⟩, ⟨"b : a", 3, .entries [("y", "2")]⟩,
      ⟨"a (on)", 5, .entries [("x", "9")]⟩, ⟨"b (off)", 7, .entries []⟩]
    (by decide +kernel) (by simp [hplain, hchild, hon, hoff])
  refine ⟨tree, hparse, ?_, ?_⟩
  · rw [hkeys]
    simp [key?, hplain, hchild, hon, hoff, Header.key?, hcounts, hskipped, List.eraseDups_cons]
  · exact hnode [⟨"a", 1, .entries [("x", "1")]⟩]
      [⟨"a (on)", 5, .entries [("x", "9")]⟩, ⟨"b (off)", 7, .entries []⟩]
      ⟨"b : a", 3, .entries [("y", "2")]⟩ "b" rfl (by simp [key?, hchild, Header.key?])
      (by simp [key?, hon, hoff, Header.key?, hcounts, hskipped])

end Context

end LayeredIni
