/-
# What headers say

A header is classified by its parentheses and colons. With an opening
parenthesis it is conditional; with only closing ones it is no header. Without
parentheses it is an inheritance if some colon has a character of a word, or
ASCII white space, directly on either side, and the first such colon counts.
Colons before that one belong to the child, and the next one after it, whatever
stands beside it, ends the parent. Any other header is plain.

This is said here without reading anything, and `ofChars` is shown to give
exactly the outcome that is stated. In particular there is always one.
-/

import LayeredIni.Header
import LayeredIni.Proofs.Condition.Scan

namespace LayeredIni.Header

open LayeredIni.Text

/-- A character that can stand beside the colon of an inheritance. -/
def FlanksColon (c : Char) : Prop :=
  c ∈ [' ', '\t', '\n', '\x0c', '\r'] ∨ 'a' ≤ c ∧ c ≤ 'z' ∨ 'A' ≤ c ∧ c ≤ 'Z' ∨
    '0' ≤ c ∧ c ≤ '9' ∨ c = '_'

/-- A colon between the two texts joins a child to its parent. -/
def Joins (before after : List Char) : Prop :=
  (∃ c ∈ before.getLast?, FlanksColon c) ∧ ∃ c ∈ after.head?, FlanksColon c

/-- The first colon of the text that joins a child to its parent stands between
the two other texts. -/
structure FirstJoint (text before after : List Char) : Prop where
  /-- There is a colon between the two texts. -/
  eq_append : text = before ++ ':' :: after
  /-- It joins a child to its parent. -/
  joins : Joins before after
  /-- No colon before it does. -/
  first : ∀ earlier later, before = earlier ++ ':' :: later →
    ¬ Joins earlier (later ++ ':' :: after)

/-- What a text says as a header, or what is wrong with it. -/
inductive Outcome : List Char → Except Fault Header → Prop
  | missingName {before after : List Char} :
      '(' ∉ before → trim before = [] → Outcome (before ++ '(' :: after) (.error .missingName)
  | badCondition {before after : List Char} {error : Condition.Error} :
      '(' ∉ before → trim before ≠ [] → Condition.parseChars ('(' :: after) = .error error →
      Outcome (before ++ '(' :: after) (.error (.condition error))
  /-- The condition starts at the first parenthesis and goes on to the end. -/
  | conditional {before after : List Char} {condition : Condition} :
      '(' ∉ before → trim before ≠ [] → Condition.parseChars ('(' :: after) = .ok condition →
      Outcome (before ++ '(' :: after)
        (.ok (.conditional (String.ofList (trim before)) condition))
  | unopened {before after : List Char} :
      '(' ∉ before ++ ')' :: after → ')' ∉ before →
      Outcome (before ++ ')' :: after) (.error (.unopenedParenthesis (byteLength before)))
  | missingChild {text before after : List Char} :
      '(' ∉ text → ')' ∉ text → FirstJoint text before after → trim before = [] →
      Outcome text (.error .missingChild)
  /-- The name of the parent ends at the next colon, or else at the end. -/
  | inherit {text before parent rest : List Char} :
      '(' ∉ text → ')' ∉ text → FirstJoint text before (parent ++ rest) → trim before ≠ [] →
      ':' ∉ parent → (∀ c ∈ rest.head?, c = ':') →
      Outcome text
        (.ok (.inherit (String.ofList (trim before)) (String.ofList (trim parent))))
  | plain {text : List Char} :
      '(' ∉ text → ')' ∉ text →
      (∀ before after, text = before ++ ':' :: after → ¬ Joins before after) →
      Outcome text (.ok (.plain (String.ofList (trim text))))

theorem isFlank_iff {c : Char} : isFlank c = true ↔ FlanksColon c := by
  have hclass : c.isAlphanum = (decide ('A' ≤ c ∧ c ≤ 'Z') ||
      decide ('a' ≤ c) && decide (c ≤ 'z') || decide ('0' ≤ c) && decide (c ≤ '9')) := rfl
  simp only [isFlank, FlanksColon, hclass, Bool.or_eq_true, Bool.and_eq_true, beq_iff_eq,
    decide_eq_true_eq, List.mem_cons, List.not_mem_nil, or_false]
  grind

theorem joins_singleton_iff {c d : Char} {rest : List Char} :
    Joins [c] (d :: rest) ↔ FlanksColon c ∧ FlanksColon d := by
  simp [Joins]

theorem not_joins_nil_left (after : List Char) : ¬ Joins [] after := by
  simp [Joins]

theorem not_joins_nil_right (before : List Char) : ¬ Joins before [] := by
  simp [Joins]

theorem afterFlankedColon_eq_some_iff {c : Char} {text after : List Char} :
    afterFlankedColon c text = some after ↔ text = ':' :: after ∧ Joins [c] after := by
  unfold afterFlankedColon
  split
  · next next rest =>
    rw [Option.ite_none_right_eq_some, Bool.and_eq_true, isFlank_iff, isFlank_iff]
    constructor
    · rintro ⟨hflanks, heq⟩
      cases heq
      exact ⟨rfl, joins_singleton_iff.mpr hflanks⟩
    · rintro ⟨heq, hjoins⟩
      cases heq
      exact ⟨joins_singleton_iff.mp hjoins, rfl⟩
  · next hother =>
    constructor
    · intro h
      cases h
    · rintro ⟨rfl, hjoins⟩
      cases after with
      | nil => exact absurd hjoins (not_joins_nil_right [c])
      | cons d rest => exact absurd rfl (hother d rest)

/-- A colon that joins stands behind the first character, or joins also without
that character. -/
theorem Joins.cons_cases {c : Char} {rest before after : List Char} (h : Joins before after)
    (heq : c :: rest = before ++ ':' :: after) :
    (before = [c] ∧ afterFlankedColon c rest = some after) ∨
      ∃ more, before = c :: more ∧ rest = more ++ ':' :: after ∧ Joins more after := by
  cases before with
  | nil => exact absurd h (not_joins_nil_left after)
  | cons d more =>
    cases heq
    cases more with
    | nil => exact .inl ⟨rfl, afterFlankedColon_eq_some_iff.mpr ⟨rfl, h⟩⟩
    | cons d more =>
      rw [Joins, List.getLast?_cons_cons] at h
      exact .inr ⟨d :: more, rfl, rfl, h⟩

/-- A text that is cut is cut where the first colon joins, and a text that is
not cut has no such colon. -/
theorem cutAtColon_spec (text : List Char) :
    (∀ before after, cutAtColon text = some (before, after) → FirstJoint text before after) ∧
      (cutAtColon text = none →
        ∀ before after, text = before ++ ':' :: after → ¬ Joins before after) := by
  induction text with
  | nil =>
    constructor
    · intro before after h
      cases h
    · intro _ before after heq
      cases before <;> cases heq
  | cons c rest ih =>
    obtain ⟨ihsome, ihnone⟩ := ih
    unfold cutAtColon
    cases hcolon : afterFlankedColon c rest with
    | some found =>
      obtain ⟨rfl, hjoins⟩ := afterFlankedColon_eq_some_iff.mp hcolon
      constructor
      · intro before after h
        cases h
        refine ⟨rfl, hjoins, fun earlier later heq hearlier => ?_⟩
        cases earlier with
        | nil => exact not_joins_nil_left _ hearlier
        | cons d earlier => cases earlier <;> cases heq
      · intro h
        cases h
    | none =>
      -- The first colon of the text joins nothing, so every joint is one of the rest.
      constructor
      · intro before after h
        obtain ⟨⟨front, back⟩, hcut, hpair⟩ := Option.map_eq_some_iff.mp h
        cases hpair
        obtain ⟨rfl, hjoins, hfirst⟩ := ihsome front after hcut
        refine ⟨rfl, ?_, fun earlier later heq hearlier => ?_⟩
        · obtain ⟨⟨d, hd, hflanks⟩, hafter⟩ := hjoins
          exact ⟨⟨d, List.mem_getLast?_cons hd, hflanks⟩, hafter⟩
        · have htext :
              c :: (front ++ ':' :: after) = earlier ++ ':' :: (later ++ ':' :: after) := by
            rw [← List.cons_append, heq, List.append_assoc, List.cons_append]
          rcases hearlier.cons_cases htext with ⟨-, hfound⟩ | ⟨more, rfl, -, hmore⟩
          · rw [hcolon] at hfound
            cases hfound
          · exact hfirst more later (List.cons.inj heq).2 hmore
      · intro h before after heq hjoins
        rcases hjoins.cons_cases heq with ⟨-, hfound⟩ | ⟨more, -, hrest, hmore⟩
        · rw [hcolon] at hfound
          cases hfound
        · exact ihnone (Option.map_eq_none_iff.mp h) more after hrest hmore

theorem FirstJoint.unique {text before after before' after' : List Char}
    (h : FirstJoint text before after) (h' : FirstJoint text before' after') :
    before = before' ∧ after = after' := by
  rcases List.append_eq_append_iff.mp (h.eq_append.symm.trans h'.eq_append) with
    ⟨between, hbefore, hafter⟩ | ⟨between, hbefore, hafter⟩
  · cases between with
    | nil => exact ⟨by simpa using hbefore.symm, (List.cons.inj hafter).2⟩
    | cons c between =>
      cases hafter
      exact absurd h.joins (h'.first before between hbefore)
  · cases between with
    | nil => exact ⟨by simpa using hbefore, (List.cons.inj hafter).2.symm⟩
    | cons c between =>
      cases hafter
      exact absurd h'.joins (h.first before' between hbefore)

/-- A header is cut at the first colon that joins. -/
theorem cutAtColon_eq_some_iff {text before after : List Char} :
    cutAtColon text = some (before, after) ↔ FirstJoint text before after := by
  obtain ⟨hsome, hnone⟩ := cutAtColon_spec text
  refine ⟨hsome before after, fun h => ?_⟩
  cases hcut : cutAtColon text with
  | none => exact absurd h.joins (hnone hcut before after h.eq_append)
  | some cut =>
    obtain ⟨front, back⟩ := cut
    obtain ⟨rfl, rfl⟩ := (hsome front back hcut).unique h
    rfl

theorem cutAtColon_eq_none_iff {text : List Char} :
    cutAtColon text = none ↔
      ∀ before after, text = before ++ ':' :: after → ¬ Joins before after := by
  obtain ⟨hsome, hnone⟩ := cutAtColon_spec text
  refine ⟨hnone, fun h => ?_⟩
  cases hcut : cutAtColon text with
  | none => rfl
  | some cut =>
    obtain ⟨front, back⟩ := cut
    have hfirst := hsome front back hcut
    exact absurd hfirst.joins (h front back hfirst.eq_append)

theorem ofChars_of_opening {before after : List Char} (h : '(' ∉ before) :
    ofChars (before ++ '(' :: after) = conditionalOf before ('(' :: after) := by
  obtain ⟨htake, hdrop⟩ := takeWhile_dropWhile_of_not_mem h ('(' :: after) (by simp)
  rw [ofChars, if_pos (by simp), htake, hdrop]

theorem ofChars_of_closing {before after : List Char} (hopening : '(' ∉ before ++ ')' :: after)
    (hclosing : ')' ∉ before) :
    ofChars (before ++ ')' :: after) = .error (.unopenedParenthesis (byteLength before)) := by
  obtain ⟨htake, -⟩ := takeWhile_dropWhile_of_not_mem hclosing (')' :: after) (by simp)
  rw [ofChars, if_neg hopening, if_pos (by simp), htake]

theorem ofChars_of_no_parenthesis {text : List Char} (hopening : '(' ∉ text)
    (hclosing : ')' ∉ text) : ofChars text = simpleOf text := by
  rw [ofChars, if_neg hopening, if_neg hclosing]

theorem exists_parent (after : List Char) :
    ∃ parent rest, after = parent ++ rest ∧ ':' ∉ parent ∧ ∀ c ∈ rest.head?, c = ':' := by
  by_cases hcolon : ':' ∈ after
  · obtain ⟨parent, rest, rfl, hparent⟩ := List.eq_append_cons_of_mem hcolon
    exact ⟨parent, ':' :: rest, rfl, hparent, by simp⟩
  · exact ⟨after, [], (List.append_nil after).symm, hcolon, by simp⟩

theorem Outcome.ofChars_eq {text : List Char} {outcome : Except Fault Header}
    (h : Outcome text outcome) : ofChars text = outcome := by
  cases h with
  | missingName hbefore hname => simp [ofChars_of_opening hbefore, conditionalOf, hname]
  | badCondition hbefore hname hcondition =>
    simp [ofChars_of_opening hbefore, conditionalOf, hname, hcondition]
  | conditional hbefore hname hcondition =>
    simp [ofChars_of_opening hbefore, conditionalOf, hname, hcondition]
  | unopened hopening hclosing => exact ofChars_of_closing hopening hclosing
  | missingChild hopening hclosing hjoint hchild =>
    rw [ofChars_of_no_parenthesis hopening hclosing, simpleOf, cutAtColon_eq_some_iff.mpr hjoint]
    simp [hchild]
  | inherit hopening hclosing hjoint hchild hparent hrest =>
    rw [ofChars_of_no_parenthesis hopening hclosing, simpleOf, cutAtColon_eq_some_iff.mpr hjoint]
    simp [hchild, (takeWhile_dropWhile_of_not_mem hparent _ hrest).1]
  | plain hopening hclosing hnone =>
    rw [ofChars_of_no_parenthesis hopening hclosing, simpleOf, cutAtColon_eq_none_iff.mpr hnone]

theorem outcome_conditionalOf {before after : List Char} (h : '(' ∉ before) :
    Outcome (before ++ '(' :: after) (conditionalOf before ('(' :: after)) := by
  by_cases hname : trim before = []
  · simpa [conditionalOf, hname] using Outcome.missingName h hname
  · cases hcondition : Condition.parseChars ('(' :: after) with
    | error error =>
      simpa [conditionalOf, hname, hcondition] using Outcome.badCondition h hname hcondition
    | ok condition =>
      simpa [conditionalOf, hname, hcondition] using Outcome.conditional h hname hcondition

theorem outcome_simpleOf {text : List Char} (hopening : '(' ∉ text) (hclosing : ')' ∉ text) :
    Outcome text (simpleOf text) := by
  cases hcut : cutAtColon text with
  | none =>
    simpa [simpleOf, hcut] using Outcome.plain hopening hclosing (cutAtColon_eq_none_iff.mp hcut)
  | some cut =>
    obtain ⟨before, after⟩ := cut
    have hjoint := cutAtColon_eq_some_iff.mp hcut
    by_cases hchild : trim before = []
    · simpa [simpleOf, hcut, hchild] using Outcome.missingChild hopening hclosing hjoint hchild
    · obtain ⟨parent, rest, rfl, hparent, hrest⟩ := exists_parent after
      simpa [simpleOf, hcut, hchild, (takeWhile_dropWhile_of_not_mem hparent _ hrest).1]
        using Outcome.inherit hopening hclosing hjoint hchild hparent hrest

/-- Every text has an outcome as a header, and it is the one that reading gives. -/
theorem ofChars_eq_iff {text : List Char} {outcome : Except Fault Header} :
    ofChars text = outcome ↔ Outcome text outcome := by
  refine ⟨?_, Outcome.ofChars_eq⟩
  rintro rfl
  by_cases hopening : '(' ∈ text
  · obtain ⟨before, after, rfl, hbefore⟩ := List.eq_append_cons_of_mem hopening
    rw [ofChars_of_opening hbefore]
    exact outcome_conditionalOf hbefore
  · by_cases hclosing : ')' ∈ text
    · obtain ⟨before, after, rfl, hbefore⟩ := List.eq_append_cons_of_mem hclosing
      rw [ofChars_of_closing hopening hbefore]
      exact .unopened hopening hbefore
    · rw [ofChars_of_no_parenthesis hopening hclosing]
      exact outcome_simpleOf hopening hclosing

theorem parse_eq_ok_iff {raw : String} {header : Header} :
    parse raw = .ok header ↔ ofChars raw.toList = .ok header := by
  rw [parse]
  cases ofChars raw.toList <;> simp

/-- An error carries the header as it is written, and what is wrong with it. -/
theorem parse_eq_error_iff {raw : String} {error : Error} :
    parse raw = .error error ↔ error.raw = raw ∧ ofChars raw.toList = .error error.fault := by
  obtain ⟨text, fault⟩ := error
  rw [parse]
  cases ofChars raw.toList with
  | ok header => simp
  | error found => simp [eq_comm]

/-- An inheritance has no parenthesis, and its colon stands at neither end. -/
theorem Outcome.of_inherit {text : List Char} {child parent : String}
    (h : Outcome text (.ok (.inherit child parent))) :
    '(' ∉ text ∧ ')' ∉ text ∧
      ∃ before after, before ≠ [] ∧ after ≠ [] ∧ FirstJoint text before after := by
  cases h with
  | inherit hopening hclosing hjoint _ _ _ =>
    refine ⟨hopening, hclosing, _, _, ?_, ?_, hjoint⟩
    · intro hnil
      exact not_joins_nil_left _ (hnil ▸ hjoint.joins)
    · intro hnil
      exact not_joins_nil_right _ (hnil ▸ hjoint.joins)

/-- What a header says is settled by its parentheses and colons. Reading a
header gives what the grammar says that it is, with the same fault if there is
one, and the grammar says exactly one thing of every text. In particular there
is no inheritance with a parenthesis in it, and none by a colon at either end. -/
theorem parse_classified (raw : String) :
    (∀ header, parse raw = .ok header ↔ Outcome raw.toList (.ok header)) ∧
    (∀ error, parse raw = .error error ↔
      error.raw = raw ∧ Outcome raw.toList (.error error.fault)) ∧
    (∃! outcome, Outcome raw.toList outcome) ∧
    ∀ child parent, parse raw = .ok (.inherit child parent) →
      '(' ∉ raw.toList ∧ ')' ∉ raw.toList ∧
        ∃ before after, before ≠ [] ∧ after ≠ [] ∧ FirstJoint raw.toList before after := by
  refine ⟨fun header => ?_, fun error => ?_, ?_, fun child parent hparse => ?_⟩
  · rw [parse_eq_ok_iff, ofChars_eq_iff]
  · rw [parse_eq_error_iff, ofChars_eq_iff]
  · exact ⟨ofChars raw.toList, ofChars_eq_iff.mp rfl, fun outcome h => h.ofChars_eq.symm⟩
  · exact (ofChars_eq_iff.mp (parse_eq_ok_iff.mp hparse)).of_inherit

/-- Colons that do not join belong to the child, but any colon ends the parent. -/
example : parse "a:: é:b : c:é" = .ok (.inherit "a:: é:b" "c") := by
  decide +kernel

end LayeredIni.Header
