/-
# What the sections of a document are like

The lines of a document are read one by one into a draft, and this module says
what every draft satisfies: which sections can stand beside each other, and
what can stand in them. What one line does to a draft keeps it so, and the
sections of every document that can be read are therefore well formed.
-/

import LayeredIni.Document.Section
import LayeredIni.Proofs.Bindings
import LayeredIni.Proofs.Document.Line
import LayeredIni.Proofs.Fallible

namespace LayeredIni.Document

open LayeredIni.Text LayeredIni.Fallible

/-- Whether a section was opened by a header. -/
def Section.isHeaded (part : Section) : Bool :=
  match part.body with
  | .scalar _ => false
  | .entries _ => true

/-- What can stand in a section by itself. -/
def Section.WellFormed (part : Section) : Prop :=
  match part.body with
  | .scalar value => IsKey part.header ∧ IsValue value
  | .entries values =>
    IsHeader part.header ∧ values.keys.Nodup ∧
      ∀ binding ∈ values, IsKey binding.1 ∧ IsValue binding.2

/-- Which section can stand before which. -/
structure Section.Precedes (first second : Section) : Prop where
  line_lt : first.line < second.line
  /-- Entries that stand for themselves come before all headers. -/
  isHeaded : first.isHeaded → second.isHeaded
  /-- No two headers are the same. -/
  header_ne : first.isHeaded → first.header ≠ second.header

/-- Lists of sections that documents can have. -/
structure WellFormed (parts : List Section) : Prop where
  sections : ∀ part ∈ parts, part.WellFormed
  order : parts.Pairwise Section.Precedes

/-- Lines with the numbers from `first` on. -/
def numbered (first : Nat) : List Line → List (Nat × Line)
  | [] => []
  | line :: lines => (first, line) :: numbered (first + 1) lines

theorem numbered_append (first : Nat) (front back : List Line) :
    numbered first (front ++ back) =
      numbered first front ++ numbered (first + front.length) back := by
  induction front generalizing first with
  | nil => rfl
  | cons line front ih =>
    have hlength : first + (line :: front).length = first + 1 + front.length := by
      rw [List.length_cons]
      omega
    rw [hlength, List.cons_append, numbered, ih]
    rfl

theorem map_snd_numbered (first : Nat) (lines : List Line) :
    (numbered first lines).map Prod.snd = lines := by
  induction lines generalizing first with
  | nil => rfl
  | cons line lines ih => exact congrArg (line :: ·) (ih (first + 1))

theorem readLine_eq_ok_iff {text : List Char} {number : Nat} {read : Nat × Line} :
    readLine text number = .ok read ↔
      ∃ line, Line.read text = .ok line ∧ read = (number, line) := by
  unfold readLine
  cases Line.read text with
  | error fault => simp
  | ok line => simp [eq_comm]

/-- A text is read line by line, and its lines are numbered from 1. -/
theorem readLines_eq_ok_iff {text : String} {read : List (Nat × Line)} :
    readLines text = .ok read ↔
      ∃ lines, List.Forall₂ (fun piece line => Line.read piece = .ok line)
        (text.toList.splitOn '\n') lines ∧ read = numbered 1 lines := by
  rw [readLines, mapM_eq_ok_iff]
  generalize text.toList.splitOn '\n' = pieces
  generalize 1 = first
  induction pieces generalizing first read with
  | nil => simp [numbered]
  | cons piece pieces ih =>
    rw [List.zipIdx_cons, List.forall₂_cons_left_iff]
    refine ⟨?_, ?_⟩
    · rintro ⟨_, _, hline, hrest, rfl⟩
      rcases readLine_eq_ok_iff.mp hline with ⟨line, hread, rfl⟩
      rcases (ih (first + 1)).mp hrest with ⟨lines, hlines, rfl⟩
      exact ⟨line :: lines, .cons hread hlines, rfl⟩
    · rintro ⟨_, hlines, rfl⟩
      cases hlines with
      | @cons _ line _ lines hread hlines =>
        exact ⟨(first, line), numbered (first + 1) lines, readLine_eq_ok_iff.mpr ⟨line, hread, rfl⟩,
          (ih (first + 1)).mpr ⟨lines, hlines, rfl⟩, rfl⟩

theorem Section.isOpenedBy_iff {raw : String} {part : Section} :
    part.isOpenedBy raw = true ↔ part.isHeaded = true ∧ part.header = raw := by
  unfold isOpenedBy isHeaded
  cases part.body with
  | scalar value => simp
  | entries values => simp

@[simp]
theorem Section.header_addEntry (raw key value : String) (part : Section) :
    (part.addEntry raw key value).header = part.header := by
  unfold addEntry
  split <;> (try split) <;> rfl

@[simp]
theorem Section.line_addEntry (raw key value : String) (part : Section) :
    (part.addEntry raw key value).line = part.line := by
  unfold addEntry
  split <;> (try split) <;> rfl

@[simp]
theorem Section.isHeaded_addEntry (raw key value : String) (part : Section) :
    (part.addEntry raw key value).isHeaded = part.isHeaded := by
  unfold addEntry isHeaded
  cases hbody : part.body with
  | scalar text => simp [hbody]
  | entries values => by_cases hraw : part.header = raw <;> simp [hraw, hbody]

theorem map_addEntry_of_not_opened {done : List Section} {raw : String}
    (h : ∀ part ∈ done, part.isOpenedBy raw = false) (key value : String) :
    done.map (·.addEntry raw key value) = done := by
  have hsame : ∀ part ∈ done, part.addEntry raw key value = id part := by
    intro part hpart
    have hclosed := h part hpart
    unfold Section.isOpenedBy at hclosed
    unfold Section.addEntry
    split
    · rfl
    · next values hbody =>
      rw [hbody] at hclosed
      rw [if_neg (by simpa using hclosed), id]
  rw [List.map_congr_left hsame, List.map_id]

/-- Entries after a header fill the section that it has opened. -/
theorem foldl_add_entries {done : List Section} {raw : String}
    (hdone : ∀ part ∈ done, part.isOpenedBy raw = false) (line : Nat)
    {lines : List (Nat × Line)} {written : Bindings String}
    (hlines : lines.map Prod.snd = written.map fun binding => .entry binding.1 binding.2)
    (known : Bindings String) :
    lines.foldl Draft.add ⟨done ++ [⟨raw, line, .entries known⟩], some raw⟩ =
      ⟨done ++ [⟨raw, line, .entries
        (written.foldl (fun known binding => known.insert binding.1 binding.2) known)⟩],
        some raw⟩ := by
  induction written generalizing lines known with
  | nil =>
    rw [List.map_eq_nil_iff.mp hlines]
    rfl
  | cons binding written ih =>
    obtain ⟨⟨number, entry⟩, rest, rfl, rfl, hrest⟩ := List.map_eq_cons_iff.mp hlines
    have hstep : Draft.add ⟨done ++ [⟨raw, line, .entries known⟩], some raw⟩
        (number, .entry binding.1 binding.2) =
        ⟨done ++ [⟨raw, line, .entries (known.insert binding.1 binding.2)⟩], some raw⟩ := by
      simp only [Draft.add, List.map_append, map_addEntry_of_not_opened hdone]
      simp [Section.addEntry]
    rw [List.foldl_cons, hstep]
    exact ih hrest _

theorem Section.WellFormed.addEntry {part : Section} (h : part.WellFormed) {key value : String}
    (hkey : IsKey key) (hvalue : IsValue value) (raw : String) :
    (part.addEntry raw key value).WellFormed := by
  unfold Section.addEntry
  split
  · exact h
  · next values hbody =>
    split
    · rw [Section.WellFormed, hbody] at h
      rcases h with ⟨hheader, hkeys, hentries⟩
      refine ⟨hheader, Bindings.nodup_keys_insert hkeys key value, ?_⟩
      intro binding hbinding
      rcases Bindings.mem_of_mem_insert hbinding with rfl | hbinding
      · exact ⟨hkey, hvalue⟩
      · exact hentries binding hbinding
    · exact h

theorem foldl_add_filter (lines : List (Nat × Line)) (draft : Draft) :
    (lines.filter fun line => line.2 ≠ .remark).foldl Draft.add draft =
      lines.foldl Draft.add draft := by
  induction lines generalizing draft with
  | nil => rfl
  | cons line lines ih =>
    obtain ⟨number, content⟩ := line
    cases content with
    | remark => exact ih draft
    | header raw => exact ih _
    | entry key value => exact ih _

theorem WellFormed.append {parts : List Section} (h : WellFormed parts) {part : Section}
    (hpart : part.WellFormed) (hlast : ∀ earlier ∈ parts, earlier.Precedes part) :
    WellFormed (parts ++ [part]) := by
  refine ⟨?_, ?_⟩
  · rw [List.forall_mem_append]
    exact ⟨h.sections, by simpa using hpart⟩
  · rw [List.pairwise_append]
    refine ⟨h.order, List.pairwise_singleton _ _, ?_⟩
    intro earlier hearlier last hmem
    rw [List.mem_singleton.mp hmem]
    exact hlast earlier hearlier

theorem WellFormed.addEntry {parts : List Section} (h : WellFormed parts) {key value : String}
    (hkey : IsKey key) (hvalue : IsValue value) (raw : String) :
    WellFormed (parts.map (·.addEntry raw key value)) := by
  refine ⟨?_, ?_⟩
  · intro part hpart
    rcases List.mem_map.mp hpart with ⟨before, hbefore, rfl⟩
    exact (h.sections before hbefore).addEntry hkey hvalue raw
  · refine h.order.map _ ?_
    intro first second hprecedes
    exact ⟨by simpa using hprecedes.line_lt, by simpa using hprecedes.isHeaded,
      by simpa using hprecedes.header_ne⟩

/-- What every draft satisfies before the line with a given number. -/
structure Draft.Valid (draft : Draft) (next : Nat) : Prop where
  wellFormed : WellFormed draft.sections
  line_lt : ∀ part ∈ draft.sections, part.line < next
  unheaded : draft.current = none → ∀ part ∈ draft.sections, part.isHeaded = false

theorem Draft.valid_empty (next : Nat) : Draft.empty.Valid next :=
  ⟨⟨by simp [empty], .nil⟩, by simp [empty], by simp [empty]⟩

/-- A section that starts at the next line can come last. -/
theorem Draft.Valid.append {draft : Draft} (part : Section) (h : draft.Valid part.line)
    (hpart : part.WellFormed) (hheaded : ∀ earlier ∈ draft.sections, earlier.isHeaded →
      part.isHeaded ∧ earlier.header ≠ part.header) (current : Option String)
    (hcurrent : current = none → draft.current = none ∧ part.isHeaded = false) :
    Draft.Valid ⟨draft.sections ++ [part], current⟩ (part.line + 1) := by
  refine ⟨h.wellFormed.append hpart ?_, ?_, ?_⟩
  · intro earlier hearlier
    exact ⟨h.line_lt earlier hearlier, fun hopen => (hheaded earlier hearlier hopen).1,
      fun hopen => (hheaded earlier hearlier hopen).2⟩
  · rw [List.forall_mem_append]
    exact ⟨fun earlier hearlier => Nat.lt_succ_of_lt (h.line_lt earlier hearlier), by simp⟩
  · intro hnone
    rw [List.forall_mem_append]
    exact ⟨h.unheaded (hcurrent hnone).1, by simpa using (hcurrent hnone).2⟩

theorem Draft.Valid.add {draft : Draft} {next : Nat} (h : draft.Valid next) {line : Line}
    (hline : line.WellFormed) : (draft.add (next, line)).Valid (next + 1) := by
  have hlater : ∀ part ∈ draft.sections, part.line < next + 1 :=
    fun part hpart => Nat.lt_succ_of_lt (h.line_lt part hpart)
  cases line with
  | remark => exact ⟨h.wellFormed, hlater, h.unheaded⟩
  | header raw =>
    unfold Draft.add
    dsimp only
    split
    · exact ⟨h.wellFormed, hlater, fun hnone => by cases hnone⟩
    · next hnew =>
      refine Draft.Valid.append ⟨raw, next, .entries []⟩ h
        ⟨hline, List.nodup_nil, by simp⟩ ?_ (some raw) (fun hnone => by cases hnone)
      intro earlier hearlier hopen
      refine ⟨rfl, ?_⟩
      intro hsame
      apply hnew
      exact List.any_eq_true.mpr
        ⟨earlier, hearlier, Section.isOpenedBy_iff.mpr ⟨hopen, hsame⟩⟩
  | entry key value =>
    rcases hline with ⟨hkey, hvalue⟩
    unfold Draft.add
    dsimp only
    split
    · next hnone =>
      refine Draft.Valid.append ⟨key, next, .scalar value⟩ h ⟨hkey, hvalue⟩ ?_
        draft.current (fun _ => ⟨hnone, rfl⟩)
      intro earlier hearlier hopen
      rw [h.unheaded hnone earlier hearlier] at hopen
      cases hopen
    · next raw hsome =>
      refine ⟨h.wellFormed.addEntry hkey hvalue raw, ?_, ?_⟩
      · simpa using hlater
      · intro hnone
        rw [hsome] at hnone
        cases hnone

theorem Draft.Valid.run {draft : Draft} {first : Nat} (h : draft.Valid first) {lines : List Line}
    (hlines : ∀ line ∈ lines, line.WellFormed) :
    ((numbered first lines).foldl Draft.add draft).Valid (first + lines.length) := by
  induction lines generalizing draft first with
  | nil => exact h
  | cons line lines ih =>
    rcases List.forall_mem_cons.mp hlines with ⟨hline, hrest⟩
    rw [List.length_cons, ← Nat.add_assoc, Nat.add_right_comm]
    exact ih (h.add hline) hrest

theorem wellFormed_of_forall₂_read {pieces : List (List Char)} {lines : List Line}
    (hpieces : ∀ piece ∈ pieces, '\n' ∉ piece)
    (h : List.Forall₂ (fun piece line => Line.read piece = .ok line) pieces lines) :
    ∀ line ∈ lines, line.WellFormed := by
  induction h with
  | nil => simp
  | cons hread _ ih =>
    rcases List.forall_mem_cons.mp hpieces with ⟨hfirst, hrest⟩
    exact List.forall_mem_cons.mpr ⟨wellFormed_of_read hfirst hread, ih hrest⟩

theorem wellFormed_of_sections {text : String} {parts : List Section}
    (h : sections text = .ok parts) : WellFormed parts := by
  unfold sections at h
  cases hlines : readLines text with
  | error error =>
    rw [hlines] at h
    cases h
  | ok read =>
    rw [hlines] at h
    cases h
    rcases readLines_eq_ok_iff.mp hlines with ⟨lines, hread, rfl⟩
    have hwell : ∀ line ∈ lines, line.WellFormed :=
      wellFormed_of_forall₂_read (fun _ hpiece => not_mem_of_mem_splitOn hpiece) hread
    exact ((Draft.valid_empty 1).run hwell).wellFormed

end LayeredIni.Document
