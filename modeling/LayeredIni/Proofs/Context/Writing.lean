/-
# Writing trees and reading them back

A tree is written with a line for each text at its top, followed by a section
for each tree at its top, whose lines lead to the texts in that tree along
dotted keys. If its keys and texts can stand in lines at all, reading the
document gives the tree back, with its keys in the same order at every level.
-/

import LayeredIni.Proofs.Context.Placement
import LayeredIni.Proofs.Document.Writing
import LayeredIni.Proofs.Header.Grammar
import LayeredIni.Proofs.Tree.Leaves
import LayeredIni.Proofs.Tree.Path

namespace LayeredIni

open LayeredIni.Text LayeredIni.Document LayeredIni.Fallible

/-- The keys that can stand at the top of a tree. They are plain headers. -/
@[mk_iff]
structure IsTopKey (key : String) : Prop extends IsKey key where
  no_parentheses : '(' ∉ key.toList ∧ ')' ∉ key.toList
  no_colon : ':' ∉ key.toList
  no_bracket : ']' ∉ key.toList

/-- The keys that can stand below the top of a tree. -/
@[mk_iff]
structure IsSegment (key : String) : Prop extends IsKey key where
  no_dot : '.' ∉ key.toList

/-- The texts that can stand in a tree. -/
@[mk_iff]
structure IsText (text : String) : Prop where
  trimmed_eq : trimmed text = text
  isValue : IsValue text

instance (key : String) : Decidable (IsTopKey key) :=
  decidable_of_iff' _ (isTopKey_iff key)

instance (key : String) : Decidable (IsSegment key) :=
  decidable_of_iff' _ (isSegment_iff key)

instance (text : String) : Decidable (IsText text) :=
  decidable_of_iff' _ (isText_iff text)

namespace Entries

/-- Entries that can stand in a section. -/
def Nested : Entries → Prop
  | nil => True
  | scalar key text rest => IsSegment key ∧ IsText text ∧ rest.Nested
  | branch key children rest =>
    IsSegment key ∧ children ≠ nil ∧ children.Nested ∧ rest.Nested

/-- Entries that are all trees. -/
def AllTrees : Entries → Prop
  | nil => True
  | scalar _ _ _ => False
  | branch _ _ rest => rest.AllTrees

/-- Entries that can be written as a document: the texts come first. -/
def Writable : Entries → Prop
  | nil => True
  | scalar key text rest => IsTopKey key ∧ IsText text ∧ rest.Writable
  | branch key children rest =>
    IsTopKey key ∧ children.Nested ∧ rest.AllTrees ∧ rest.Writable

instance decidableNested : (entries : Entries) → Decidable entries.Nested
  | nil => inferInstanceAs (Decidable True)
  | scalar key text rest =>
    have := decidableNested rest
    inferInstanceAs (Decidable (IsSegment key ∧ IsText text ∧ rest.Nested))
  | branch key children rest =>
    have := decidableNested children
    have := decidableNested rest
    inferInstanceAs (Decidable (IsSegment key ∧ children ≠ nil ∧ children.Nested ∧ rest.Nested))

instance decidableAllTrees : (entries : Entries) → Decidable entries.AllTrees
  | nil => inferInstanceAs (Decidable True)
  | scalar _ _ _ => inferInstanceAs (Decidable False)
  | branch _ _ rest => decidableAllTrees rest

instance decidableWritable : (entries : Entries) → Decidable entries.Writable
  | nil => inferInstanceAs (Decidable True)
  | scalar key text rest =>
    have := decidableWritable rest
    inferInstanceAs (Decidable (IsTopKey key ∧ IsText text ∧ rest.Writable))
  | branch key children rest =>
    have := decidableWritable rest
    inferInstanceAs
      (Decidable (IsTopKey key ∧ children.Nested ∧ rest.AllTrees ∧ rest.Writable))

/-- The lines of the document that writes the entries. -/
def lines : Entries → List (List Char)
  | nil => []
  | scalar key text rest => entryLine key (doubleQuoted text) :: rest.lines
  | branch key children rest =>
    headerLine key ::
      children.leaves.map (fun leaf => entryLine (dotted leaf.1) (doubleQuoted leaf.2)) ++
        rest.lines

/-- The sections of that document, from line `first` on. -/
def sections (first : Nat) : Entries → List Section
  | nil => []
  | scalar key text rest => ⟨key, first, .scalar text⟩ :: rest.sections (first + 1)
  | branch key children rest =>
    ⟨key, first, .entries (children.leaves.map fun leaf => (dotted leaf.1, leaf.2))⟩ ::
      rest.sections (first + (children.leaves.length + 1))

theorem Nested.solid {entries : Entries} (h : entries.Nested) : entries.Solid := by
  induction entries with
  | nil => trivial
  | scalar key text rest ih => exact ih h.2.2
  | branch key children rest ihChildren ih =>
    exact ⟨h.2.1, ihChildren h.2.2.1, ih h.2.2.2⟩

/-- The keys on a path and the text at its end. -/
theorem Nested.leaf {entries : Entries} (h : entries.Nested) {leaf : List String × String}
    (hleaf : leaf ∈ entries.leaves) : (∀ key ∈ leaf.1, IsSegment key) ∧ IsText leaf.2 := by
  induction entries generalizing leaf with
  | nil => cases hleaf
  | scalar key text rest ih =>
    rcases List.mem_cons.mp hleaf with rfl | hleaf
    · exact ⟨by simpa using h.1, h.2.1⟩
    · exact ih h.2.2 hleaf
  | branch key children rest ihChildren ih =>
    rcases List.mem_append.mp hleaf with hleaf | hleaf
    · rcases List.mem_map.mp hleaf with ⟨below, hbelow, rfl⟩
      rcases ihChildren h.2.2.1 hbelow with ⟨hkeys, htext⟩
      exact ⟨List.forall_mem_cons.mpr ⟨h.1, hkeys⟩, htext⟩
    · exact ih h.2.2.2 hleaf

theorem Nested.segments_dotted {entries : Entries} (h : entries.Nested)
    {leaf : List String × String} (hleaf : leaf ∈ entries.leaves) :
    segments "." (dotted leaf.1) = leaf.1 :=
  LayeredIni.segments_dotted (path_ne_nil_of_mem_leaves hleaf)
    fun key hkey => ((h.leaf hleaf).1 key hkey).no_dot

/-- Different paths have different keys. -/
theorem Nested.nodup_dotted {entries : Entries} (h : entries.Nested)
    (hdistinct : entries.Distinct) :
    (entries.leaves.map fun leaf => dotted leaf.1).Nodup := by
  have hinjective : ∀ first ∈ entries.leaves.map Prod.fst, ∀ second ∈ entries.leaves.map Prod.fst,
      dotted first = dotted second → first = second := by
    intro first hfirst second hsecond heq
    rcases List.mem_map.mp hfirst with ⟨left, hleft, rfl⟩
    rcases List.mem_map.mp hsecond with ⟨right, hright, rfl⟩
    rw [← h.segments_dotted hleft, heq, h.segments_dotted hright]
  have hnodup := (nodup_paths hdistinct).map_on hinjective
  rw [List.map_map] at hnodup
  exact hnodup

end Entries

theorem Document.IsKey.append_dot {first second : String} (hfirst : IsKey first)
    (hsecond : IsKey second) :
    IsKey (first ++ "." ++ second) := by
  have hne : first.toList ≠ [] := by simpa using hfirst.ne_empty
  have hne' : second.toList ≠ [] := by simpa using hsecond.ne_empty
  have hchars : (first ++ "." ++ second).toList = first.toList ++ (['.'] ++ second.toList) := by
    simp
  have htrimmed : IsTrimmed (first.toList ++ (['.'] ++ second.toList)) :=
    (trimmed_eq_self_iff.mp hfirst.trimmed_eq).between
      (trimmed_eq_self_iff.mp hsecond.trimmed_eq) hne hne' _
  refine ⟨?_, ?_, ?_, ?_, ?_⟩
  · rw [Ne, ← String.toList_inj, hchars]
    simp
  · rw [trimmed_eq_self_iff, hchars]
    exact htrimmed
  · simp [hchars, hfirst.no_equals, hsecond.no_equals]
  · simp [hchars, hfirst.no_lineFeed, hsecond.no_lineFeed]
  · rw [hchars, List.head?_append_of_ne_nil _ hne]
    exact hfirst.starts_entry

theorem isKey_dotted {path : List String} (hpath : path ≠ []) (hkeys : ∀ key ∈ path, IsKey key) :
    IsKey (dotted path) := by
  induction path with
  | nil => exact absurd rfl hpath
  | cons key more ih =>
    rcases List.forall_mem_cons.mp hkeys with ⟨hkey, hmore⟩
    cases more with
    | nil =>
      rw [dotted, String.intercalate_singleton]
      exact hkey
    | cons next more =>
      rw [dotted, String.intercalate_cons_cons]
      exact hkey.append_dot (ih (List.cons_ne_nil _ _) hmore)

theorem IsTopKey.isHeader {key : String} (h : IsTopKey key) : IsHeader key := by
  refine ⟨?_, h.no_lineFeed, ?_⟩
  · rw [h.trimmed_eq]
    exact h.ne_empty
  · intro front back heq _
    apply h.no_bracket
    simp [heq]

theorem IsTopKey.parse_eq {key : String} (h : IsTopKey key) :
    Header.parse key = .ok (.plain key) := by
  have hplain : Header.Outcome key.toList (.ok (.plain (trimmed key))) := by
    refine .plain h.no_parentheses.1 h.no_parentheses.2 fun before after heq _ => ?_
    apply h.no_colon
    simp [heq]
  rw [h.trimmed_eq] at hplain
  exact Header.parse_eq_ok_iff.mpr hplain.ofChars_eq

namespace Entries

theorem line_and_header_of_mem_sections {entries : Entries} {first : Nat} {part : Section}
    (h : part ∈ entries.sections first) : first ≤ part.line ∧ part.header ∈ entries.keys := by
  induction entries generalizing first with
  | nil => cases h
  | scalar key text rest ih =>
    rcases List.mem_cons.mp h with rfl | h
    · exact ⟨Nat.le_refl _, List.mem_cons_self ..⟩
    · rcases ih h with ⟨hline, hheader⟩
      exact ⟨by omega, List.mem_cons_of_mem _ hheader⟩
  | branch key children rest _ ih =>
    rcases List.mem_cons.mp h with rfl | h
    · exact ⟨Nat.le_refl _, List.mem_cons_self ..⟩
    · rcases ih h with ⟨hline, hheader⟩
      exact ⟨by omega, List.mem_cons_of_mem _ hheader⟩

theorem AllTrees.isHeaded {entries : Entries} (h : entries.AllTrees) {first : Nat} {part : Section}
    (hpart : part ∈ entries.sections first) : part.isHeaded = true := by
  induction entries generalizing first with
  | nil => cases hpart
  | scalar => cases h
  | branch key children rest _ ih =>
    rcases List.mem_cons.mp hpart with rfl | hpart
    · rfl
    · exact ih h hpart

/-- The section of a tree holds its leaves under keys that lines can give. -/
theorem Nested.section_wellFormed {key : String} {children : Entries} (hkey : IsTopKey key)
    (h : children.Nested) (hdistinct : children.Distinct) (line : Nat) :
    Section.WellFormed
      ⟨key, line, .entries (children.leaves.map fun leaf => (dotted leaf.1, leaf.2))⟩ := by
  refine ⟨hkey.isHeader, ?_, ?_⟩
  · rw [Bindings.keys, List.map_map]
    exact h.nodup_dotted hdistinct
  · intro binding hbinding
    rcases List.mem_map.mp hbinding with ⟨leaf, hleaf, rfl⟩
    rcases h.leaf hleaf with ⟨hkeys, htext⟩
    exact ⟨isKey_dotted (path_ne_nil_of_mem_leaves hleaf) fun key hkey => (hkeys key hkey).toIsKey,
      htext.isValue⟩

theorem Writable.sections_wellFormed {entries : Entries} (h : entries.Writable)
    (hdistinct : entries.Distinct) (first : Nat) : WellFormed (entries.sections first) := by
  induction entries generalizing first with
  | nil => exact ⟨fun _ hpart => absurd hpart List.not_mem_nil, .nil⟩
  | scalar key text rest ih =>
    have hrest := ih h.2.2 hdistinct.2 (first + 1)
    refine ⟨List.forall_mem_cons.mpr ⟨⟨h.1.toIsKey, h.2.1.isValue⟩, hrest.sections⟩,
      .cons ?_ hrest.order⟩
    intro part hpart
    refine ⟨(line_and_header_of_mem_sections hpart).1, ?_, ?_⟩
    · intro hheaded
      cases hheaded
    · intro hheaded
      cases hheaded
  | branch key children rest _ ih =>
    have hrest := ih h.2.2.2 hdistinct.2.2 (first + (children.leaves.length + 1))
    have hsection := h.2.1.section_wellFormed h.1 hdistinct.2.1 first
    refine ⟨List.forall_mem_cons.mpr ⟨hsection, hrest.sections⟩, .cons ?_ hrest.order⟩
    intro part hpart
    rcases line_and_header_of_mem_sections hpart with ⟨hline, hheader⟩
    refine ⟨?_, fun _ => h.2.2.1.isHeaded hpart, ?_⟩
    · show first < part.line
      omega
    · intro _ hsame
      apply hdistinct.1
      rw [show key = part.header from hsame]
      exact hheader

/-- The sections stand at the lines at which they are written. -/
theorem relined_sections (entries : Entries) (first : Nat) :
    relined first (entries.sections first) = entries.sections first := by
  induction entries generalizing first with
  | nil => rfl
  | scalar key text rest ih =>
    apply congrArg (_ :: ·)
    exact ih (first + 1)
  | branch key children rest _ ih =>
    rw [sections, relined]
    simp [Section.lines, ih]

/-- The lines of the sections, with values in double quotes. -/
theorem lines_eq (entries : Entries) (first : Nat) :
    ((entries.sections first).flatMap Section.lines).map Line.text = entries.lines := by
  induction entries generalizing first with
  | nil => rfl
  | scalar key text rest ih =>
    apply congrArg (_ :: ·)
    exact ih (first + 1)
  | branch key children rest _ ih =>
    rw [sections, List.flatMap_cons, List.map_append, ih, lines]
    simp [Section.lines, Line.text]

end Entries

/-- Dotted keys lead to the leaves that they were made for. -/
theorem Tree.writeAll_leaves {leaves : List (List String × String)}
    (h : ∀ leaf ∈ leaves, segments "." (dotted leaf.1) = leaf.1 ∧ trimmed leaf.2 = leaf.2)
    (tree : Tree) :
    tree.writeAll "." (leaves.map fun leaf => (dotted leaf.1, leaf.2)) =
      tree.writeLeaves leaves := by
  induction leaves generalizing tree with
  | nil => rfl
  | cons leaf more ih =>
    rcases List.forall_mem_cons.mp h with ⟨⟨hsegments, htrimmed⟩, hmore⟩
    rw [List.map_cons, writeAll_cons, hsegments, htrimmed]
    exact ih hmore _

namespace Context

variable (scope : Scope)

/-- A section with a key at the top gives the key what it declares. -/
theorem place_topKey (part : Section) (h : IsTopKey part.header) (tree : Tree) :
    place { scope } tree part =
      .ok (tree.insert part.header (declaredNode { scope } tree (.plain part.header) part.body)) :=
  place_of_parse tree h.parse_eq

theorem place_scalar {key text : String} (hkey : IsTopKey key) (htext : IsText text) (line : Nat)
    (tree : Tree) :
    place { scope } tree ⟨key, line, .scalar text⟩ = .ok (tree.insert key (.scalar text)) := by
  have hplace := place_topKey scope ⟨key, line, .scalar text⟩ hkey tree
  rw [declaredNode, htext.trimmed_eq] at hplace
  exact hplace

theorem place_leaves {key : String} {children : Entries} (hkey : IsTopKey key)
    (h : children.Nested) (hdistinct : children.Distinct) (line : Nat) (tree : Tree) :
    place { scope } tree
        ⟨key, line, .entries (children.leaves.map fun leaf => (dotted leaf.1, leaf.2))⟩ =
      .ok (tree.insert key (.tree ⟨children, hdistinct⟩)) := by
  have hleaves : ∀ leaf ∈ children.leaves,
      segments "." (dotted leaf.1) = leaf.1 ∧ trimmed leaf.2 = leaf.2 :=
    fun leaf hleaf => ⟨h.segments_dotted hleaf, (h.leaf hleaf).2.trimmed_eq⟩
  have htree : Tree.empty.writeAll "." (children.leaves.map fun leaf => (dotted leaf.1, leaf.2)) =
      ⟨children, hdistinct⟩ := by
    rw [Tree.writeAll_leaves hleaves]
    exact Tree.writeLeaves_leaves ⟨children, hdistinct⟩ h.solid
  rw [← htree]
  exact place_topKey scope ⟨key, line, .entries _⟩ hkey tree

/-- A section that adds a new entry, and then those that add the others. -/
theorem exists_run_cons {scope : Scope} {part : Section} {parts : List Section} {tree : Tree}
    {key : String} {node : Node} {others : Bindings Node} (hkey : key ∉ tree.keys)
    (hplace : place { scope } tree part = .ok (tree.insert key node))
    (hrest : ∃ after, parts.foldlM (place { scope }) (tree.insert key node) = .ok after ∧
      after.toList = (tree.insert key node).toList ++ others) :
    ∃ after, (part :: parts).foldlM (place { scope }) tree = .ok after ∧
      after.toList = tree.toList ++ (key, node) :: others := by
  rcases hrest with ⟨after, hrun, hlist⟩
  refine ⟨after, foldlM_cons hplace hrun, ?_⟩
  rw [hlist, Tree.toList_insert_of_not_mem hkey, List.append_assoc]
  rfl

/-- The sections of entries add these entries, if their keys are new. -/
theorem exists_run_sections {entries : Entries} (h : entries.Writable)
    (hdistinct : entries.Distinct) (first : Nat) (tree : Tree)
    (hnew : ∀ key ∈ entries.keys, key ∉ tree.keys) :
    ∃ after, (entries.sections first).foldlM (place { scope }) tree = .ok after ∧
      after.toList = tree.toList ++ entries.toList hdistinct := by
  induction entries generalizing first tree with
  | nil => exact ⟨tree, rfl, (List.append_nil _).symm⟩
  | scalar key text rest ih =>
    rcases List.forall_mem_cons.mp hnew with ⟨hkey, hrest⟩
    apply exists_run_cons hkey (place_scalar scope h.1 h.2.1 first tree)
    exact ih h.2.2 hdistinct.2 _ _ (Tree.not_mem_keys_insert hdistinct.1 hrest _)
  | branch key children rest _ ih =>
    rcases List.forall_mem_cons.mp hnew with ⟨hkey, hrest⟩
    apply exists_run_cons hkey (place_leaves scope h.1 h.2.1 hdistinct.2.1 first tree)
    exact ih h.2.2.2 hdistinct.2.2 _ _ (Tree.not_mem_keys_insert hdistinct.1 hrest _)

/-- A written tree is read back. -/
theorem parse_written (scope : Scope) (tree : Tree) (text : String)
    (htree : tree.entries.Writable) (htext : HasLines text tree.entries.lines) :
    parse { scope } text = .ok tree := by
  have hwritten : WrittenAs (tree.entries.sections 1) text := by
    refine ⟨_, forall₂_writtenAs_text _, ?_⟩
    rw [Entries.lines_eq]
    exact htext
  have hsections : Document.sections text = .ok (tree.entries.sections 1) := by
    rw [sections_of_writtenAs (htree.sections_wellFormed tree.distinct 1) hwritten,
      Entries.relined_sections]
  rcases exists_run_sections scope htree tree.distinct 1 .empty
    (fun _ _ => List.not_mem_nil) with ⟨after, hrun, hlist⟩
  have hafter : after = tree := Tree.eq_of_toList_eq hlist
  have hplaced : treeOfSections { scope } (tree.entries.sections 1) = .ok after := hrun
  rw [parse_of_sections hsections, hplaced, hafter]
  rfl

/-- Quotes and backslashes in texts, a semicolon and a bracket in keys, and two
levels below a section. -/
theorem parse_written_nested :
    ∃ tree : Tree,
      tree.entries = .scalar "name" "a \"b\" \\"
        (.branch "s" (.branch "x" (.scalar "y;" "1" (.scalar "z" "" .nil))
          (.scalar "]w" "2" .nil)) .nil) ∧
      Context.parse {} "name = \"a \\\"b\\\" \\\\\"\n[s]\nx.y; = \"1\"\nx.z = \"\"\n]w = \"2\"\n" =
        .ok tree := by
  refine ⟨⟨_, by decide⟩, rfl, parse_written .empty _ _ (by decide +kernel) (.inr ?_)⟩
  decide +kernel

end Context

end LayeredIni
