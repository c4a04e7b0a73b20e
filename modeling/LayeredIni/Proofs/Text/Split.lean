/-
# Where texts are cut

A cut at the first mark is determined by what stands before it: a text without
the mark. Cutting at every occurrence of a single character is the splitting of
lists.
-/

import LayeredIni.Text.Split

namespace LayeredIni.Text

variable {mark : Char → Bool} {text before after : List Char}

/-- The cut is at a mark, and no mark stands before it. -/
theorem cutAtFirst_eq_some_iff :
    cutAtFirst mark text = some (before, after) ↔
      ∃ c, text = before ++ c :: after ∧ mark c = true ∧ ∀ d ∈ before, mark d = false := by
  induction text generalizing before with
  | nil => simp [cutAtFirst]
  | cons d rest ih =>
    unfold cutAtFirst
    by_cases hmark : mark d = true
    · rw [if_pos hmark]
      constructor
      · intro h
        cases h
        exact ⟨d, rfl, hmark, by simp⟩
      · rintro ⟨c, heq, -, hbefore⟩
        cases before with
        | nil => cases heq; rfl
        | cons e more =>
          cases heq
          rw [hbefore d (List.mem_cons_self ..)] at hmark
          cases hmark
    · rw [if_neg hmark, Option.map_eq_some_iff]
      constructor
      · rintro ⟨⟨front, back⟩, hcut, heq⟩
        cases heq
        obtain ⟨c, rfl, hc, hfront⟩ := ih.mp hcut
        refine ⟨c, rfl, hc, ?_⟩
        intro e he
        rcases List.mem_cons.mp he with rfl | he
        · exact Bool.eq_false_iff.mpr hmark
        · exact hfront e he
      · rintro ⟨c, heq, hc, hbefore⟩
        cases before with
        | nil =>
          cases heq
          exact absurd hc hmark
        | cons e more =>
          cases heq
          have hmore : ∀ d ∈ more, mark d = false :=
            fun d hd => hbefore d (List.mem_cons_of_mem _ hd)
          exact ⟨(more, after), ih.mpr ⟨c, rfl, hc, hmore⟩, rfl⟩

/-- A cut at the first mark, found. -/
theorem cutAtFirst_append_cons {c : Char} (hbefore : ∀ d ∈ before, mark d = false)
    (hc : mark c = true) (after : List Char) :
    cutAtFirst mark (before ++ c :: after) = some (before, after) :=
  cutAtFirst_eq_some_iff.mpr ⟨c, rfl, hc, hbefore⟩

theorem cutAtFirst_eq_none_iff : cutAtFirst mark text = none ↔ ∀ c ∈ text, mark c = false := by
  induction text with
  | nil => simp [cutAtFirst]
  | cons d rest ih =>
    unfold cutAtFirst
    by_cases hmark : mark d = true
    · simp [hmark]
    · simp [hmark, ih]

theorem pieces_ne_nil (first : Char) (more text : List Char) : pieces first more text ≠ [] := by
  unfold pieces
  split
  · exact List.cons_ne_nil _ _
  · split
    · exact List.cons_ne_nil _ _
    · split <;> exact List.cons_ne_nil _ _

/-- The first piece is what the text starts with. -/
theorem isPrefix_of_pieces_eq_cons {first : Char} {more piece : List Char}
    {others : List (List Char)} (h : pieces first more text = piece :: others) :
    piece <+: text := by
  fun_induction pieces first more text generalizing piece others with
  | case1 =>
    cases h
    exact List.prefix_rfl
  | case2 c rest _ _ =>
    cases h
    exact List.nil_prefix
  | case3 c rest _ hnone _ => exact absurd hnone (pieces_ne_nil first more rest)
  | case4 c rest _ next later hpieces ih =>
    cases h
    exact List.cons_prefix_cons.mpr ⟨rfl, ih hpieces⟩

/-- No piece holds the mark that the text is cut at, also where occurrences
of the mark overlap. -/
theorem not_isInfix_of_mem_pieces {first : Char} {more piece : List Char}
    (h : piece ∈ pieces first more text) : ¬ first :: more <:+: piece := by
  fun_induction pieces first more text generalizing piece with
  | case1 =>
    rw [List.mem_singleton.mp h]
    exact fun hmark => List.cons_ne_nil _ _ (List.infix_nil.mp hmark)
  | case2 c rest _ ih =>
    rcases List.mem_cons.mp h with rfl | h
    · exact fun hmark => List.cons_ne_nil _ _ (List.infix_nil.mp hmark)
    · exact ih h
  | case3 c rest _ hnone _ => exact absurd hnone (pieces_ne_nil first more rest)
  | case4 c rest hmark next later hpieces ih =>
    rw [hpieces] at ih
    rcases List.mem_cons.mp h with rfl | h
    · intro hinfix
      rcases List.infix_cons_iff.mp hinfix with hprefix | hinfix
      · -- The mark would have been found at this character already.
        obtain ⟨rfl, hmore⟩ := List.cons_prefix_cons.mp hprefix
        have hrest := hmore.trans (isPrefix_of_pieces_eq_cons hpieces)
        exact hmark ⟨rfl, List.isPrefixOf_iff_prefix.mpr hrest⟩
      · exact ih (List.mem_cons_self ..) hinfix
    · exact ih (List.mem_cons_of_mem _ h)

/-- The pieces between single characters are those of the list. -/
theorem pieces_singleton (first : Char) (text : List Char) :
    pieces first [] text = text.splitOn first := by
  induction text with
  | nil => rw [pieces, List.splitOn_nil]
  | cons c rest ih =>
    rw [pieces, List.splitOn_cons_eq_if_modifyHead]
    by_cases hc : c = first
    · simp [hc, ih]
    · simp only [hc, false_and, if_false, beq_iff_eq, ih]
      cases hsplit : rest.splitOn first with
      | nil => exact absurd hsplit (List.splitOn_ne_nil first rest)
      | cons piece others => rfl

/-- The pieces hold the characters of the text, without those that they were cut at. -/
theorem mem_and_ne_of_mem_splitOn {c d : Char} {piece : List Char}
    (h : piece ∈ text.splitOn c) (hd : d ∈ piece) : d ∈ text ∧ d ≠ c := by
  induction text generalizing piece with
  | nil =>
    rw [List.splitOn_nil, List.mem_singleton] at h
    rw [h] at hd
    exact absurd hd List.not_mem_nil
  | cons e rest ih =>
    -- The first character ends an empty piece or else comes in front of the first one.
    have hkeep : d ∈ rest ∧ d ≠ c → d ∈ e :: rest ∧ d ≠ c := And.imp_left (List.mem_cons_of_mem e)
    rw [List.splitOn_cons_eq_if_modifyHead] at h
    split at h
    · rcases List.mem_cons.mp h with rfl | h
      · exact absurd hd List.not_mem_nil
      · exact hkeep (ih h hd)
    · next he =>
      cases hsplit : rest.splitOn c with
      | nil => exact absurd hsplit (List.splitOn_ne_nil c rest)
      | cons first others =>
        rw [hsplit] at h ih
        rcases List.mem_cons.mp h with rfl | h
        · rcases List.mem_cons.mp hd with rfl | hd
          · exact ⟨List.mem_cons_self .., fun heq => he (beq_iff_eq.mpr heq)⟩
          · exact hkeep (ih (List.mem_cons_self ..) hd)
        · exact hkeep (ih (List.mem_cons_of_mem _ h) hd)

theorem not_mem_of_mem_splitOn {c : Char} {piece : List Char}
    (h : piece ∈ text.splitOn c) : c ∉ piece :=
  fun hc => (mem_and_ne_of_mem_splitOn h hc).2 rfl

end LayeredIni.Text
