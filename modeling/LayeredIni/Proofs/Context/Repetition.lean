/-
# Repeated keys in a section

In a section a key keeps the place of its first line and takes the value of its
last one. The texts are then written to their paths in the order of these
places. What a path of the section leads to is therefore decided by one key: of
all keys whose paths meet it, the one that comes up last. This is the key of the
last such line unless that line repeats a key.
-/

import LayeredIni.Proofs.Context.Placement
import LayeredIni.Proofs.Document.Section
import LayeredIni.Proofs.Tree.Path

namespace LayeredIni

open LayeredIni.Text LayeredIni.Fallible

namespace Document

/-- The lines of the text are a header and then entries. Remarks between them do
not count. -/
def HasOneSection (text raw : String) (written : Bindings String) : Prop :=
  ∃ lines, readLines text = .ok lines ∧
    (lines.filter fun line => line.2 ≠ .remark).map Prod.snd =
      .header raw :: written.map fun binding => .entry binding.1 binding.2

/-- A text with one header has one section, with its entries collected. -/
theorem HasOneSection.sections_eq {text raw : String} {written : Bindings String}
    (h : HasOneSection text raw written) :
    ∃ number, sections text = .ok [⟨raw, number, .entries written.collect⟩] := by
  obtain ⟨lines, hread, hlines⟩ := h
  obtain ⟨⟨number, line⟩, rest, hkept, rfl, hrest⟩ := List.map_eq_cons_iff.mp hlines
  have hassemble : assemble lines = [⟨raw, number, .entries written.collect⟩] := by
    rw [assemble, ← foldl_add_filter, hkept, List.foldl_cons]
    exact congrArg Draft.sections (foldl_add_entries (List.forall_mem_nil _) number hrest [])
  refine ⟨number, ?_⟩
  rw [sections, hread]
  exact congrArg Except.ok hassemble

end Document

namespace Context

variable {context : Context}

/-- The tree of a document with one section, whose header is plain. -/
theorem parse_of_hasOneSection {text raw name : String} {written : Bindings String}
    (htext : Document.HasOneSection text raw written)
    (hraw : Header.parse raw = .ok (.plain name)) :
    context.parse text = .ok (Tree.empty.insert name
      (.tree (Tree.empty.writeAll context.separator written.collect))) := by
  obtain ⟨number, hsections⟩ := htext.sections_eq
  have hplace : context.treeOfSections [⟨raw, number, .entries written.collect⟩] =
      .ok (context.placed .empty (.plain name) (.entries written.collect)) :=
    foldlM_cons (place_of_parse .empty hraw) rfl
  rw [parse_of_sections hsections, hplace]
  rfl

/-- Of all keys whose paths meet a path, the one that comes up last decides
what the path leads to in the section, with the value of its last line. If there
is no such key, the path leads nowhere. -/
theorem showsWrite_of_last_key (context : Context) {text raw name : String}
    {written : Bindings String} (htext : Document.HasOneSection text raw written)
    (hraw : Header.parse raw = .ok (.plain name)) :
    ∃ tree inner, context.parse text = .ok tree ∧ tree.get? name = some (.tree inner) ∧
      ∀ path, path ≠ [] →
        ((∀ key ∈ written.keys, ¬ Meets (segments context.separator key) path) →
          inner.at? path = none) ∧
        ∀ before key after value, written.keys.eraseDups = before ++ key :: after →
          Meets (segments context.separator key) path →
          (∀ later ∈ after, ¬ Meets (segments context.separator later) path) →
          written.reverse.lookup key = some value →
          inner.ShowsWrite (segments context.separator key) (trimmed value) path := by
  refine ⟨_, _, parse_of_hasOneSection htext hraw, Tree.get?_insert_self _ _ _, ?_⟩
  intro path hpath
  constructor
  · intro hkeys
    have hcollect : ∀ key ∈ written.collect.keys,
        ¬ Meets (segments context.separator key) path := by
      intro key hkey
      rw [Bindings.keys_collect] at hkey
      exact hkeys key (List.mem_eraseDups.mp hkey)
    exact (Tree.at?_writeAll_of_forall_not_meets hcollect _).trans (Tree.at?_empty hpath)
  · intro before key after value hkeys _ hlast hvalue
    obtain ⟨front, back, hcollect, rfl⟩ := Bindings.collect_eq_append hkeys hvalue
    rw [hcollect]
    exact Tree.showsWrite_writeAll hlast _

/-- A section in which a key is repeated after a key that its path goes through. -/
theorem hasOneSection_repeated :
    Document.HasOneSection "[s]\na.b = 1\na = 2\na.b = 3\n" "s"
      [("a.b", "1"), ("a", "2"), ("a.b", "3")] :=
  ⟨[(1, .header "s"), (2, .entry "a.b" "1"), (3, .entry "a" "2"), (4, .entry "a.b" "3"),
    (5, .remark)], by decide +kernel, by decide⟩

/-- The key that came up last decides, although a later line repeats another one. -/
theorem showsWrite_of_last_key_repeated :
    Header.parse "s" = .ok (.plain "s") ∧
      ∃ tree inner, Context.parse {} "[s]\na.b = 1\na = 2\na.b = 3\n" = .ok tree ∧
        tree.get? "s" = some (.tree inner) ∧ inner.ShowsWrite ["a"] "2" ["a", "b"] := by
  have hraw : Header.parse "s" = .ok (.plain "s") := by decide +kernel
  have hsegments : segments "." "a" = ["a"] := by decide +kernel
  have htrimmed : trimmed "2" = "2" := by decide +kernel
  obtain ⟨tree, inner, hparse, hget, hpaths⟩ :=
    showsWrite_of_last_key {} hasOneSection_repeated hraw
  have hshows := (hpaths ["a", "b"] (by simp)).2 ["a.b"] "a" [] "2" (by decide)
    (by rw [hsegments]; decide) (by simp) (by decide)
  rw [hsegments, htrimmed] at hshows
  exact ⟨hraw, tree, inner, hparse, hget, hshows⟩

/-- The last line does not always decide. The last line that meets the path
`a.b` is the one that gives this very key the value `3`, but the path leads
nowhere, since the key keeps the place of its first line before that of `a`. -/
theorem last_line_lost :
    Document.HasOneSection "[s]\na.b = 1\na = 2\na.b = 3\n" "s"
        [("a.b", "1"), ("a", "2"), ("a.b", "3")] ∧
      Header.parse "s" = .ok (.plain "s") ∧ segments "." "a.b" = ["a", "b"] ∧
      ∃ tree inner, Context.parse {} "[s]\na.b = 1\na = 2\na.b = 3\n" = .ok tree ∧
        tree.get? "s" = some (.tree inner) ∧ inner.at? ["a", "b"] = none ∧
        ¬ inner.ShowsWrite (segments "." "a.b") (trimmed "3") ["a", "b"] := by
  have hraw : Header.parse "s" = .ok (.plain "s") := by decide +kernel
  have hsegments : segments "." "a.b" = ["a", "b"] := by decide +kernel
  have hparse : Context.parse {} "[s]\na.b = 1\na = 2\na.b = 3\n" = _ :=
    parse_of_hasOneSection hasOneSection_repeated hraw
  have hnowhere : (Tree.empty.writeAll "."
      (Bindings.collect [("a.b", "1"), ("a", "2"), ("a.b", "3")])).at? ["a", "b"] = none := by
    decide +kernel
  refine ⟨hasOneSection_repeated, hraw, hsegments, _, _, hparse, Tree.get?_insert_self _ _ _,
    hnowhere, ?_⟩
  intro hshows
  have htext := hshows.same hsegments
  rw [hnowhere] at htext
  cases htext

end Context

end LayeredIni
