/-
# Documents that grow

What has been read of a document does not depend on what follows. A line that
cannot be read is reported with the same number and the same fault whatever is
below it, and as long as there is none, further lines only add: sections at the
end of the list, and keys at the end of sections that are opened again. They
change neither the headers that are there nor the order of their keys, although
they can give a key another value.

Lines are compared without the blanks at their ends, so that it does not matter
which of the two common line endings a text has.
-/

import LayeredIni.Proofs.Document.Reading

namespace LayeredIni.Document

open LayeredIni.Text

/-- What further lines can do to the body of a section: its keys stay in front. -/
inductive Body.Grows : Body → Body → Prop
  | scalar (value : String) : Grows (scalar value) (scalar value)
  | entries {early late : Bindings String} (h : early.keys <+: late.keys) :
    Grows (entries early) (entries late)

/-- What further lines can do to a section. -/
structure Section.Grows (early late : Section) : Prop where
  header : late.header = early.header
  line : late.line = early.line
  body : early.body.Grows late.body

/-- What further lines can do to the sections of a document: the sections that
are there grow in their places, and new ones come after them. -/
def Grow (early late : List Section) : Prop :=
  ∃ grown new, late = grown ++ new ∧ List.Forall₂ Section.Grows early grown

theorem Body.Grows.refl (body : Body) : body.Grows body := by
  cases body with
  | scalar value => exact .scalar value
  | entries values => exact .entries List.prefix_rfl

theorem Section.Grows.refl (part : Section) : part.Grows part :=
  ⟨rfl, rfl, .refl part.body⟩

theorem Grow.refl (parts : List Section) : Grow parts parts :=
  ⟨parts, [], (List.append_nil parts).symm,
    List.forall₂_same.mpr fun part _ => Section.Grows.refl part⟩

/-- One more entry goes to the place of its key or behind all others. -/
theorem Body.Grows.insert {early : Body} {values : Bindings String}
    (h : early.Grows (.entries values)) (key value : String) :
    early.Grows (.entries (values.insert key value)) := by
  cases h with
  | entries hkeys =>
    apply entries
    rw [Bindings.keys_insert]
    split
    · exact hkeys
    · exact hkeys.trans (List.prefix_append _ _)

theorem Section.Grows.addEntry {early late : Section} (h : early.Grows late)
    (raw key value : String) : early.Grows (late.addEntry raw key value) where
  header := (late.header_addEntry raw key value).trans h.header
  line := (late.line_addEntry raw key value).trans h.line
  body := by
    have hbody := h.body
    unfold Section.addEntry
    split
    · exact hbody
    · next values hvalues =>
      split
      · rw [hvalues] at hbody
        exact hbody.insert key value
      · exact hbody

theorem Grow.addEntry {early late : List Section} (h : Grow early late) (raw key value : String) :
    Grow early (late.map (·.addEntry raw key value)) := by
  obtain ⟨grown, new, rfl, hgrown⟩ := h
  refine ⟨grown.map (·.addEntry raw key value), new.map (·.addEntry raw key value),
    List.map_append, ?_⟩
  rw [List.forall₂_map_right_iff]
  exact hgrown.imp fun _ _ hgrows => hgrows.addEntry raw key value

theorem Grow.append {early late : List Section} (h : Grow early late) (more : List Section) :
    Grow early (late ++ more) := by
  obtain ⟨grown, new, rfl, hgrown⟩ := h
  exact ⟨grown, new ++ more, List.append_assoc .., hgrown⟩

theorem Grow.add {early : List Section} {draft : Draft} (h : Grow early draft.sections)
    (numbered : Nat × Line) : Grow early (draft.add numbered).sections := by
  obtain ⟨number, line⟩ := numbered
  cases line with
  | remark => exact h
  | header raw =>
    unfold Draft.add
    dsimp only
    split
    · exact h
    · exact h.append _
  | entry key value =>
    unfold Draft.add
    dsimp only
    split
    · exact h.append _
    · exact h.addEntry _ key value

theorem Grow.run {early : List Section} {draft : Draft} (h : Grow early draft.sections)
    (lines : List (Nat × Line)) : Grow early (lines.foldl Draft.add draft).sections := by
  induction lines generalizing draft with
  | nil => exact h
  | cons line lines ih => exact ih (h.add line)

/-- The sections of the first lines grow into those of all lines. -/
theorem grow_assemble (front back : List Line) :
    Grow (assemble (numbered 1 front)) (assemble (numbered 1 (front ++ back))) := by
  rw [numbered_append]
  unfold assemble
  rw [List.foldl_append]
  exact (Grow.refl _).run _

/-- The same lines, except for blanks at their ends. -/
def SameLines (first second : List (List Char)) : Prop :=
  first.map trim = second.map trim

instance (first second : List (List Char)) : Decidable (SameLines first second) :=
  inferInstanceAs (Decidable (_ = _))

/-- Blanks at the ends of a line that are already cut off make no difference. -/
theorem read_trim (line : List Char) : Line.read (trim line) = Line.read line := by
  rw [Line.read, trim_trim, Line.read]

theorem meaning_trim (line : List Char) : meaning (trim line) = meaning line := by
  rw [meaning, read_trim, meaning]

theorem SameLines.map_eq {α : Type} {first second : List (List Char)} (h : SameLines first second)
    {f : List Char → α} (hf : ∀ line, f (trim line) = f line) : first.map f = second.map f := by
  have hlines (lines : List (List Char)) : lines.map f = (lines.map trim).map f := by
    rw [List.map_map]
    exact List.map_congr_left fun line _ => (hf line).symm
  rw [hlines, h, ← hlines]

theorem SameLines.readable {first second : List (List Char)} (h : SameLines first second)
    (hsecond : ∀ line ∈ second, IsReadable line) : ∀ line ∈ first, IsReadable line := by
  intro line hline
  have hread : Line.read line ∈ second.map Line.read :=
    h.map_eq read_trim ▸ List.mem_map_of_mem hline
  obtain ⟨other, hother, heq⟩ := List.mem_map.mp hread
  obtain ⟨content, hcontent⟩ := hsecond other hother
  exact ⟨content, heq ▸ hcontent⟩

/-- Lines that begin with the same lines up to the first one that cannot be read
have the same first line that cannot be read. -/
theorem SameLines.exists_first {before lines : List (List Char)} {bad : List Char}
    {fault : LineFault} (h : SameLines (lines.take (before.length + 1)) (before ++ [bad]))
    (hbefore : ∀ earlier ∈ before, IsReadable earlier) (hbad : Line.read bad = .error fault) :
    ∃ front line back, lines = front ++ line :: back ∧ front.length = before.length ∧
      (∀ earlier ∈ front, IsReadable earlier) ∧ Line.read line = .error fault := by
  obtain ⟨front, last, htake, hfront, hlast⟩ := List.map_eq_append_iff.mp (h.trans List.map_append)
  obtain ⟨line, rfl, hline⟩ := List.map_eq_singleton_iff.mp hlast
  have hlength : front.length = before.length := by
    simpa using congrArg List.length hfront
  refine ⟨front, line, lines.drop (before.length + 1), ?_, hlength,
    SameLines.readable hfront hbefore, ?_⟩
  · rw [List.append_cons, ← htake, List.take_append_drop]
  · rw [Line.read, hline]
    exact hbad

/-- The first line that cannot be read decides the error, and what has been
read before it does not depend on it. If a line of a document is reported, the
lines above it can be read by themselves, and every document that is the same up
to this line fails with the same number and the same fault. The first lines of a
document that can be read can be read by themselves, with sections that grow into
those of the document. -/
theorem first_bad_line_decides {text : String} {lines : List (List Char)}
    (h : ConsistsOf text lines) :
    (∀ error, sections text = .error error →
      0 < error.line ∧ error.line ≤ lines.length ∧
      (∀ early earlyLines, ConsistsOf early earlyLines →
        SameLines earlyLines (lines.take (error.line - 1)) →
        ∃ parts, sections early = .ok parts) ∧
      ∀ other otherLines, ConsistsOf other otherLines →
        SameLines (otherLines.take error.line) (lines.take error.line) →
        sections other = .error error) ∧
    ∀ parts, sections text = .ok parts →
      ∀ count early earlyLines, ConsistsOf early earlyLines →
        SameLines earlyLines (lines.take count) →
        ∃ earlyParts, sections early = .ok earlyParts ∧ Grow earlyParts parts := by
  constructor
  · rintro ⟨number, fault⟩ herror
    obtain ⟨before, bad, after, rfl, hbefore, hbad, hnumber⟩ :=
      h.exists_of_sections_eq_error herror
    obtain rfl : number = before.length + 1 := hnumber
    refine ⟨Nat.succ_pos _, by simp, ?_, ?_⟩
    · intro early earlyLines hearly hsame
      have htake : (before ++ bad :: after).take before.length = before := by simp
      have hread := SameLines.readable (htake ▸ hsame) hbefore
      exact ⟨_, hearly.sections_eq hread⟩
    · intro other otherLines hother hsame
      have htake : (before ++ bad :: after).take (before.length + 1) = before ++ [bad] := by
        rw [List.append_cons]
        exact List.take_left' List.length_append
      obtain ⟨front, line, back, rfl, hlength, hfront, hline⟩ :=
        SameLines.exists_first (htake ▸ hsame) hbefore hbad
      exact hlength ▸ hother.sections_eq_error hfront hline
  · intro parts hparts count early earlyLines hearly hsame
    have hread := h.readable hparts
    have hfront : ∀ line ∈ lines.take count, IsReadable line :=
      fun line hline => hread line (List.mem_of_mem_take hline)
    refine ⟨_, hearly.sections_eq (hsame.readable hfront), ?_⟩
    obtain rfl := Except.ok.inj (hparts.symm.trans (h.sections_eq hread))
    have hsplit : lines.map meaning =
        (lines.take count).map meaning ++ (lines.drop count).map meaning := by
      rw [← List.map_append, List.take_append_drop]
    rw [hsame.map_eq meaning_trim, hsplit]
    exact grow_assemble _ _

/-- A header without its bracket after a section that is opened twice. The other
document has other line endings and another line below the header, with the
missing bracket. The first three lines have the same sections as the first five,
with one key less. -/
theorem first_bad_line_decides_behind_repetition :
    let text := "[a]\nx = 1\r\n[b]\n[a] ; again\ny = 2\n[c\nz = 3"
    let lines := ["[a]", "x = 1\r", "[b]", "[a] ; again", "y = 2", "[c", "z = 3"].map String.toList
    let above := "[a]\nx = 1\n[b]\n[a] ; again\ny = 2\n"
    let aboveLines := ["[a]", "x = 1", "[b]", "[a] ; again", "y = 2"].map String.toList
    let other := "[a]\r\nx = 1\r\n[b]\n[a] ; again\ny = 2\n[c\n]\n"
    let otherLines :=
      ["[a]\r", "x = 1\r", "[b]", "[a] ; again", "y = 2", "[c", "]"].map String.toList
    ConsistsOf text lines ∧ sections text = .error ⟨6, .unterminatedHeader⟩ ∧
      (∃ parts, sections above = .ok parts) ∧
      ConsistsOf other otherLines ∧ sections other = .error ⟨6, .unterminatedHeader⟩ ∧
      ConsistsOf above aboveLines ∧
      sections "[a]\nx = 1\n[b]" = .ok [⟨"a", 1, .entries [("x", "1")]⟩, ⟨"b", 3, .entries []⟩] ∧
      Grow [⟨"a", 1, .entries [("x", "1")]⟩, ⟨"b", 3, .entries []⟩]
        [⟨"a", 1, .entries [("x", "1"), ("y", "2")]⟩, ⟨"b", 3, .entries []⟩] := by
  intro text lines above aboveLines other otherLines
  have htext : ConsistsOf text lines := ⟨.inl (by decide +kernel), by decide +kernel⟩
  have habove : ConsistsOf above aboveLines := ⟨.inr (by decide +kernel), by decide +kernel⟩
  have hother : ConsistsOf other otherLines := ⟨.inr (by decide +kernel), by decide +kernel⟩
  have hfront : ConsistsOf "[a]\nx = 1\n[b]" (["[a]", "x = 1", "[b]"].map String.toList) :=
    ⟨.inl (by decide +kernel), by decide +kernel⟩
  have herror : sections text = .error ⟨6, .unterminatedHeader⟩ := by decide +kernel
  have hread : sections above = .ok [⟨"a", 1, .entries [("x", "1"), ("y", "2")]⟩,
      ⟨"b", 3, .entries []⟩] := by decide +kernel
  have hearly : sections "[a]\nx = 1\n[b]" =
      .ok [⟨"a", 1, .entries [("x", "1")]⟩, ⟨"b", 3, .entries []⟩] := by decide +kernel
  obtain ⟨-, -, hfirst, hwhatever⟩ := (first_bad_line_decides htext).1 _ herror
  obtain ⟨parts, hparts, hgrow⟩ :=
    (first_bad_line_decides habove).2 _ hread 3 _ _ hfront (by decide +kernel)
  rw [Except.ok.inj (hparts.symm.trans hearly)] at hgrow
  exact ⟨htext, herror, hfirst _ _ habove (by decide +kernel), hother,
    hwhatever _ _ hother (by decide +kernel), habove, hearly, hgrow⟩

end LayeredIni.Document
