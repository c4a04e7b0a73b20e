/-
# JSON texts tell trees apart

A JSON text carries no types: whether an entry is a text or a tree shows in the
first character of its value only, and what belongs to it in quotes and braces
only. That is enough, because no quote of a text is written as it is. So each
written character, text and object shows where it ends, whatever follows it, and
two trees with one JSON text are the same tree.
-/

import LayeredIni.Tree.Json

namespace LayeredIni

namespace Json

/-- What is written can be told from what follows it, and determines what it
was written for. -/
def PrefixFree {α : Type} (write : α → List Char) : Prop :=
  ∀ first second rest others, write first ++ rest = write second ++ others →
    first = second ∧ rest = others

/-- The characters that are written as a letter after a backslash. -/
def letters : List (Char × Char) :=
  [('"', '"'), ('\\', '\\'), ('\x08', 'b'), ('\x0c', 'f'), ('\n', 'n'), ('\r', 'r'), ('\t', 't')]

/-- The ways in which characters are written. -/
inductive Written : Char → List Char → Prop
  | letter {c letter : Char} : (c, letter) ∈ letters → Written c ['\\', letter]
  | code {c : Char} : c.toNat < 0x20 →
      Written c ['\\', 'u', '0', '0', hexDigit (c.toNat / 16), hexDigit (c.toNat % 16)]
  | plain {c : Char} : c ≠ '"' → c ≠ '\\' → Written c [c]

theorem written_character (c : Char) : Written c (character c) := by
  unfold character
  split
  case h_8 hquote hescape _ _ _ _ _ =>
    split
    · next hcode => exact .code hcode
    · exact .plain hquote hescape
  all_goals exact .letter (by decide)

theorem eq_of_hexDigit_eq : ∀ m < 16, ∀ n < 16, hexDigit m = hexDigit n → m = n := by
  decide

/-- A written character shows where it ends and which character it is. -/
theorem Written.unique {c d : Char} {form other rest others : List Char} (hc : Written c form)
    (hd : Written d other) (h : form ++ rest = other ++ others) : c = d ∧ rest = others := by
  have hletters : ∀ entry ∈ letters, entry.2 ≠ 'u' ∧
      ∀ other ∈ letters, entry.2 = other.2 → entry.1 = other.1 := by decide
  cases hc with
  | letter hc =>
    cases hd with
    | letter hd =>
      simp only [List.cons_append, List.nil_append, List.cons.injEq, true_and] at h
      exact ⟨(hletters _ hc).2 _ hd h.1, h.2⟩
    | code =>
      simp only [List.cons_append, List.cons.injEq, true_and] at h
      exact absurd h.1 (hletters _ hc).1
    | plain _ hescape => exact absurd (List.cons.inj h).1.symm hescape
  | code hc =>
    cases hd with
    | letter hd =>
      simp only [List.cons_append, List.cons.injEq, true_and] at h
      exact absurd h.1.symm (hletters _ hd).1
    | code hd =>
      simp only [List.cons_append, List.nil_append, List.cons.injEq, true_and] at h
      obtain ⟨hhigh, hlow, hrest⟩ := h
      have hquotient := eq_of_hexDigit_eq _ (by omega) _ (by omega) hhigh
      have hremainder := eq_of_hexDigit_eq _ (by omega) _ (by omega) hlow
      refine ⟨Char.toNat_inj.mp ?_, hrest⟩
      omega
    | plain _ hescape => exact absurd (List.cons.inj h).1.symm hescape
  | plain _ hescape =>
    cases hd with
    | plain => exact List.cons.inj h
    | letter => exact absurd (List.cons.inj h).1 hescape
    | code => exact absurd (List.cons.inj h).1 hescape

theorem prefixFree_character : PrefixFree character :=
  fun c d _ _ => (written_character c).unique (written_character d)

theorem Written.exists_cons {c : Char} {form : List Char} (h : Written c form) :
    ∃ first more, form = first :: more ∧ first ≠ '"' := by
  cases h with
  | letter => exact ⟨_, _, rfl, by decide⟩
  | code => exact ⟨_, _, rfl, by decide⟩
  | plain hquote => exact ⟨_, _, rfl, hquote⟩

/-- The first quote ends a text. -/
theorem eq_of_flatMap_character {text other rest others : List Char}
    (h : text.flatMap character ++ '"' :: rest = other.flatMap character ++ '"' :: others) :
    text = other ∧ rest = others := by
  induction text generalizing other with
  | nil =>
    cases other with
    | nil => exact ⟨rfl, List.tail_eq_of_cons_eq h⟩
    | cons d other =>
      obtain ⟨first, more, hform, hquote⟩ := (written_character d).exists_cons
      rw [List.flatMap_cons, hform] at h
      exact absurd (List.cons.inj h).1.symm hquote
  | cons c text ih =>
    cases other with
    | nil =>
      obtain ⟨first, more, hform, hquote⟩ := (written_character c).exists_cons
      rw [List.flatMap_cons, hform] at h
      exact absurd (List.cons.inj h).1 hquote
    | cons d other =>
      rw [List.flatMap_cons, List.flatMap_cons, List.append_assoc, List.append_assoc] at h
      obtain ⟨rfl, htail⟩ := prefixFree_character _ _ _ _ h
      obtain ⟨rfl, hrest⟩ := ih htail
      exact ⟨rfl, hrest⟩

theorem prefixFree_string : PrefixFree string := by
  intro first second rest others h
  simp only [string, List.append_assoc, List.cons_append, List.cons.injEq, true_and,
    List.nil_append] at h
  obtain ⟨htext, hrest⟩ := eq_of_flatMap_character h
  exact ⟨String.toList_inj.mp htext, hrest⟩

/-- The members with a comma in front of each. -/
def followers (members : List (List Char)) : List Char :=
  members.flatMap fun member => ',' :: member

@[simp]
theorem followers_nil : followers [] = [] := rfl

@[simp]
theorem followers_cons (member : List Char) (members : List (List Char)) :
    followers (member :: members) = ',' :: (member ++ followers members) := rfl

/-- Only the first member of an object has no comma in front of it. -/
theorem comma_cons_intercalate {members : List (List Char)} (h : members ≠ []) :
    ',' :: [','].intercalate members = followers members := by
  induction members with
  | nil => exact absurd rfl h
  | cons member members ih =>
    cases members with
    | nil => simp
    | cons next members =>
      rw [followers_cons, ← ih (List.cons_ne_nil _ _), List.intercalate_cons_cons]
      simp

end Json

namespace Entries

open Json

/-- Whether there are entries shows behind the opening brace. -/
theorem eq_nil_or_exists_followers (entries : Entries) :
    entries = nil ∨
      ∃ text, followers entries.jsonMembers = ',' :: '"' :: text ∧ entries.jsonMembers ≠ [] := by
  cases entries with
  | nil => exact .inl rfl
  | scalar key text rest => exact .inr ⟨_, rfl, List.cons_ne_nil _ _⟩
  | branch key children rest => exact .inr ⟨_, rfl, List.cons_ne_nil _ _⟩

theorem eq_of_object {entries other : Entries} {rest others : List Char}
    (hmembers : followers entries.jsonMembers ++ '\x7d' :: rest =
      followers other.jsonMembers ++ '\x7d' :: others → entries = other ∧ rest = others)
    (h : object entries.jsonMembers ++ rest = object other.jsonMembers ++ others) :
    entries = other ∧ rest = others := by
  have hinner : [','].intercalate entries.jsonMembers ++ '\x7d' :: rest =
      [','].intercalate other.jsonMembers ++ '\x7d' :: others := by
    simpa [object] using h
  have hcommas := congrArg (',' :: ·) hinner
  simp only [← List.cons_append] at hcommas
  rcases entries.eq_nil_or_exists_followers with rfl | ⟨text, htext, hne⟩ <;>
    rcases other.eq_nil_or_exists_followers with rfl | ⟨text', htext', hne'⟩
  · exact ⟨rfl, List.tail_eq_of_cons_eq hinner⟩
  · rw [comma_cons_intercalate hne', htext'] at hcommas
    simp [jsonMembers] at hcommas
  · rw [comma_cons_intercalate hne, htext] at hcommas
    simp [jsonMembers] at hcommas
  · rw [comma_cons_intercalate hne, comma_cons_intercalate hne'] at hcommas
    exact hmembers hcommas

theorem eq_of_member {key other : String} {value others : List Char}
    (h : ',' :: (string key ++ ':' :: value) = ',' :: (string other ++ ':' :: others)) :
    key = other ∧ value = others := by
  obtain ⟨hkey, hvalue⟩ := prefixFree_string _ _ _ _ (List.tail_eq_of_cons_eq h)
  exact ⟨hkey, List.tail_eq_of_cons_eq hvalue⟩

/-- The members show where they end, and which entries they are written for. -/
theorem eq_of_followers {entries other : Entries} {rest others : List Char}
    (h : followers entries.jsonMembers ++ '\x7d' :: rest =
      followers other.jsonMembers ++ '\x7d' :: others) :
    entries = other ∧ rest = others := by
  induction entries generalizing other rest others with
  | nil =>
    cases other with
    | nil => exact ⟨rfl, List.tail_eq_of_cons_eq h⟩
    | scalar => simp [jsonMembers] at h
    | branch => simp [jsonMembers] at h
  | scalar key text more ih =>
    cases other with
    | nil => simp [jsonMembers] at h
    | scalar key' text' more' =>
      simp only [jsonMembers, followers_cons, List.cons_append, List.append_assoc] at h
      obtain ⟨rfl, htext⟩ := eq_of_member h
      obtain ⟨rfl, hmore⟩ := prefixFree_string _ _ _ _ htext
      obtain ⟨rfl, hrest⟩ := ih hmore
      exact ⟨rfl, hrest⟩
    | branch key' children' more' =>
      simp only [jsonMembers, followers_cons, List.cons_append, List.append_assoc] at h
      obtain ⟨-, hvalue⟩ := eq_of_member h
      simp [string, object] at hvalue
  | branch key children more ihchildren ih =>
    cases other with
    | nil => simp [jsonMembers] at h
    | scalar key' text' more' =>
      simp only [jsonMembers, followers_cons, List.cons_append, List.append_assoc] at h
      obtain ⟨-, hvalue⟩ := eq_of_member h
      simp [string, object] at hvalue
    | branch key' children' more' =>
      simp only [jsonMembers, followers_cons, List.cons_append, List.append_assoc] at h
      obtain ⟨rfl, hchildren⟩ := eq_of_member h
      obtain ⟨rfl, hmore⟩ := eq_of_object ihchildren hchildren
      obtain ⟨rfl, hrest⟩ := ih hmore
      exact ⟨rfl, hrest⟩

theorem prefixFree_object : PrefixFree fun entries : Entries => object entries.jsonMembers :=
  fun _ _ _ _ => eq_of_object eq_of_followers

end Entries

namespace Tree

/-- JSON texts tell trees apart: trees with the same text have the same keys in
the same order, with the same texts and trees, at every level. -/
theorem json_eq_iff (first second : Tree) : first.json = second.json ↔ first = second := by
  constructor
  · intro h
    have hobjects := String.ofList_injective h
    have hentries := Entries.prefixFree_object first.entries second.entries [] []
      (congrArg (· ++ []) hobjects)
    exact Tree.ext hentries.1
  · exact congrArg Tree.json

/-- A text that looks like an object stands in quotes. -/
example :
    (empty.insert "a" (.scalar "\x7b\x7d")).json = "\x7b\"a\":\"\x7b\x7d\"\x7d" ∧
      (empty.insert "a" (.tree empty)).json = "\x7b\"a\":\x7b\x7d\x7d" := by
  decide +kernel

end Tree

end LayeredIni
