/-
# Inserting into named values

What an insertion does to the value of a name, to the order of the names and to
the bindings as a whole. The order of the names is that of their first
appearance, which is written as `eraseDups` of everything that has come up.
-/

import LayeredIni.Bindings
import Mathlib.Data.List.Induction

namespace LayeredIni

section FirstAppearance

variable {keys more : List String} {key : String}

/-- What comes up last is kept only if it is new. -/
theorem eraseDups_concat :
    (keys ++ [key]).eraseDups = if key ∈ keys then keys.eraseDups else keys.eraseDups ++ [key] := by
  rw [List.eraseDups_append]
  by_cases hkey : key ∈ keys <;> simp [List.removeAll, List.eraseDups_cons, hkey]

theorem eraseDups_of_nodup (h : keys.Nodup) : keys.eraseDups = keys := by
  induction keys using List.reverseRecOn with
  | nil => rfl
  | append_singleton keys key ih =>
    obtain ⟨hkeys, -, hdisjoint⟩ := List.nodup_append.mp h
    have hkey : key ∉ keys := fun hmem => hdisjoint key hmem key (List.mem_singleton_self key) rfl
    rw [eraseDups_concat, if_neg hkey, ih hkeys]

/-- Leaving repetitions out beforehand makes no difference. -/
theorem eraseDups_append_eraseDups :
    (keys ++ more.eraseDups).eraseDups = (keys ++ more).eraseDups := by
  induction more using List.reverseRecOn with
  | nil => rfl
  | append_singleton more key ih =>
    by_cases hkey : key ∈ more
    · rw [eraseDups_concat, if_pos hkey, ih, ← List.append_assoc, eraseDups_concat,
        if_pos (List.mem_append_right _ hkey)]
    · rw [eraseDups_concat, if_neg hkey, ← List.append_assoc, ← List.append_assoc,
        eraseDups_concat, eraseDups_concat, ih]
      simp only [List.mem_append, List.mem_eraseDups]

theorem eraseDups_eraseDups : keys.eraseDups.eraseDups = keys.eraseDups :=
  @eraseDups_append_eraseDups [] keys

/-- What has come up before adds nothing. -/
theorem eraseDups_append_of_subset (h : more ⊆ keys) :
    (keys ++ more).eraseDups = keys.eraseDups := by
  induction more using List.reverseRecOn with
  | nil => rw [List.append_nil]
  | append_singleton more key ih =>
    have hkey : key ∈ keys ++ more := by
      apply List.mem_append_left
      exact h (List.mem_append_right _ (List.mem_singleton_self key))
    rw [← List.append_assoc, eraseDups_concat, if_pos hkey]
    exact ih fun name hname => h (List.mem_append_left _ hname)

theorem eraseDups_filter (keep : String → Bool) :
    (keys.filter keep).eraseDups = keys.eraseDups.filter keep := by
  induction keys using List.reverseRecOn with
  | nil => rfl
  | append_singleton keys key ih =>
    rw [List.filter_append, eraseDups_concat]
    by_cases hkeep : keep key = true
    · rw [List.filter_cons_of_pos hkeep, List.filter_nil, eraseDups_concat, ih]
      by_cases hkey : key ∈ keys <;> simp [hkey, hkeep]
    · rw [List.filter_cons_of_neg hkeep, List.filter_nil, List.append_nil, ih]
      by_cases hkey : key ∈ keys <;> simp [hkey, hkeep]

/-- Distinct keys stay as they are, and of what comes up after them only the new
keys are kept. -/
theorem eraseDups_append_of_nodup (h : keys.Nodup) :
    (keys ++ more).eraseDups = keys ++ (more.filter (· ∉ keys)).eraseDups := by
  have hnew : more.removeAll keys = more.filter (· ∉ keys) := by
    simp [List.removeAll]
  rw [List.eraseDups_append, eraseDups_of_nodup h, hnew]

/-- Distinct keys stay in front of whatever comes up after them. -/
theorem prefix_eraseDups_append (h : keys.Nodup) : keys <+: (keys ++ more).eraseDups := by
  rw [eraseDups_append_of_nodup h]
  exact List.prefix_append _ _

end FirstAppearance

namespace Bindings

variable {α : Type}

theorem lookup_cons_of_ne {key name : String} (h : name ≠ key) (value : α) (rest : Bindings α) :
    List.lookup name ((key, value) :: rest) = rest.lookup name := by
  rw [List.lookup_cons, beq_false_of_ne h]

/-- A binding is found under its own name and hides no other one. -/
theorem lookup_insert (bindings : Bindings α) (key name : String) (value : α) :
    (bindings.insert key value).lookup name =
      if name = key then some value else bindings.lookup name := by
  induction bindings with
  | nil =>
    by_cases hname : name = key
    · simp [insert, hname]
    · rw [if_neg hname]
      exact lookup_cons_of_ne hname value []
  | cons binding rest ih =>
    obtain ⟨head, old⟩ := binding
    by_cases hhead : head = key
    · subst hhead
      by_cases hname : name = head
      · simp [insert, hname]
      · simp [insert, hname, lookup_cons_of_ne hname]
    · by_cases hname : name = head
      · subst hname
        simp [insert, hhead]
      · simp [insert, hhead, lookup_cons_of_ne hname, ih]

theorem lookup_eq_none_iff {bindings : Bindings α} {key : String} :
    bindings.lookup key = none ↔ key ∉ bindings.keys := by
  rw [List.lookup_eq_none_iff, keys, List.mem_map]
  constructor
  · rintro hall ⟨binding, hbinding, rfl⟩
    exact absurd rfl (bne_iff_ne.mp (hall binding hbinding))
  · intro hkey binding hbinding
    apply bne_iff_ne.mpr
    intro heq
    exact hkey ⟨binding, hbinding, heq.symm⟩

/-- A known name keeps its position and a new one comes last. -/
theorem keys_insert (bindings : Bindings α) (key : String) (value : α) :
    (bindings.insert key value).keys =
      if key ∈ bindings.keys then bindings.keys else bindings.keys ++ [key] := by
  induction bindings with
  | nil => simp [insert, keys]
  | cons binding rest ih =>
    obtain ⟨head, old⟩ := binding
    by_cases hhead : head = key
    · simp [insert, keys, hhead]
    · have hkey : key ≠ head := fun heq => hhead heq.symm
      simp only [insert, hhead, if_false, keys, List.map_cons, List.mem_cons, hkey, false_or]
      rw [show List.map Prod.fst (insert key value rest) = keys (insert key value rest) from rfl,
        ih]
      split <;> simp_all [keys]

theorem keys_insert_of_keys_eq {bindings : Bindings α} {names : List String}
    (h : bindings.keys = names.eraseDups) (key : String) (value : α) :
    (bindings.insert key value).keys = (names ++ [key]).eraseDups := by
  rw [keys_insert, h, eraseDups_concat]
  simp only [List.mem_eraseDups]

theorem insert_of_not_mem {bindings : Bindings α} {key : String} (h : key ∉ bindings.keys)
    (value : α) : bindings.insert key value = bindings ++ [(key, value)] := by
  induction bindings with
  | nil => rfl
  | cons binding rest ih =>
    obtain ⟨head, old⟩ := binding
    simp only [keys, List.map_cons, List.mem_cons, not_or] at h
    have hhead : head ≠ key := fun heq => h.1 heq.symm
    rw [insert, if_neg hhead, ih h.2]
    rfl

theorem foldl_insert_of_nodup {known written : Bindings α} (h : (keys (known ++ written)).Nodup) :
    written.foldl (fun known binding => known.insert binding.1 binding.2) known =
      known ++ written := by
  induction written generalizing known with
  | nil => exact (List.append_nil known).symm
  | cons binding written ih =>
    have hnew : binding.1 ∉ known.keys := by
      intro hmem
      rw [keys, List.map_append] at h
      exact (List.nodup_append.mp h).2.2 _ hmem _ (List.mem_cons_self ..) rfl
    rw [List.append_cons] at h ⊢
    rw [List.foldl_cons, insert_of_not_mem hnew]
    exact ih h

theorem nodup_keys_insert {bindings : Bindings α} (h : bindings.keys.Nodup) (key : String)
    (value : α) : (bindings.insert key value).keys.Nodup := by
  rw [keys_insert]
  split
  · exact h
  · next hkey =>
    refine List.nodup_append.mpr ⟨h, by simp, ?_⟩
    intro name hname other hother
    rw [List.mem_singleton.mp hother]
    intro heq
    subst heq
    exact hkey hname

theorem mem_of_mem_insert {bindings : Bindings α} {key : String} {value : α}
    {binding : String × α} (h : binding ∈ bindings.insert key value) :
    binding = (key, value) ∨ binding ∈ bindings := by
  induction bindings with
  | nil => simpa [insert] using h
  | cons first rest ih =>
    obtain ⟨head, old⟩ := first
    unfold insert at h
    split at h
    · next hhead =>
      rcases List.mem_cons.mp h with heq | hmem
      · exact .inl (hhead ▸ heq)
      · exact .inr (List.mem_cons_of_mem _ hmem)
    · rcases List.mem_cons.mp h with heq | hmem
      · exact .inr (heq ▸ List.mem_cons_self ..)
      · exact (ih hmem).imp_right (List.mem_cons_of_mem _)

/-- With distinct names, a name is bound to what it is listed with. -/
theorem lookup_eq_some_iff {bindings : Bindings α}
    (h : bindings.keys.Nodup) {key : String} {value : α} :
    bindings.lookup key = some value ↔ (key, value) ∈ bindings := by
  induction bindings with
  | nil => simp
  | cons binding rest ih =>
    obtain ⟨head, first⟩ := binding
    obtain ⟨hhead, hrest⟩ := List.nodup_cons.mp h
    by_cases hkey : key = head
    · subst hkey
      have hnew : (key, value) ∉ rest := fun hmem => hhead (List.mem_map.mpr ⟨_, hmem, rfl⟩)
      simp [hnew, eq_comm]
    · rw [lookup_cons_of_ne hkey, ih hrest]
      simp [hkey]

/-- Bindings with distinct names are known by the order of the names and by what
each name is bound to. -/
theorem eq_of_keys_eq_of_lookup_eq {first second : Bindings α}
    (hnodup : first.keys.Nodup) (hkeys : first.keys = second.keys)
    (hlookup : ∀ name, first.lookup name = second.lookup name) : first = second := by
  induction first generalizing second with
  | nil => exact (List.map_eq_nil_iff.mp hkeys.symm).symm
  | cons binding first ih =>
    obtain ⟨head, value⟩ := binding
    cases second with
    | nil => cases hkeys
    | cons other second =>
      obtain ⟨name, found⟩ := other
      obtain ⟨hhead, hrest⟩ := List.cons.inj hkeys
      have hhead : head = name := hhead
      subst hhead
      obtain ⟨hnew, hnodup⟩ := List.nodup_cons.mp hnodup
      have hvalue : value = found := by
        have hself := hlookup head
        rw [List.lookup_cons_self, List.lookup_cons_self] at hself
        exact Option.some.inj hself
      have hother : ∀ name, first.lookup name = second.lookup name := by
        intro name
        by_cases hname : name = head
        · -- Under the first name, neither rest has anything.
          subst hname
          have hsecond : name ∉ keys second := fun hmem => hnew (hrest ▸ hmem)
          rw [lookup_eq_none_iff.mpr hnew, lookup_eq_none_iff.mpr hsecond]
        · have hcons := hlookup name
          rwa [lookup_cons_of_ne hname, lookup_cons_of_ne hname] at hcons
      rw [hvalue, ih hnodup hrest hother]

/-- The bindings that inserting the given ones in order makes. -/
def collect (written : Bindings α) : Bindings α :=
  written.foldl (fun known binding => known.insert binding.1 binding.2) []

theorem collect_concat (written : Bindings α) (binding : String × α) :
    collect (written ++ [binding]) = written.collect.insert binding.1 binding.2 := by
  rw [collect, List.foldl_append]
  rfl

/-- A name keeps the place at which it came up first. -/
theorem keys_collect (written : Bindings α) : written.collect.keys = written.keys.eraseDups := by
  induction written using List.reverseRecOn with
  | nil => rfl
  | append_singleton written binding ih =>
    have hkeys : keys (written ++ [binding]) = keys written ++ [binding.1] := List.map_append
    rw [collect_concat, keys_insert_of_keys_eq ih, hkeys]

theorem nodup_keys_collect (written : Bindings α) : written.collect.keys.Nodup := by
  induction written using List.reverseRecOn with
  | nil => exact List.nodup_nil
  | append_singleton written binding ih =>
    rw [collect_concat]
    exact nodup_keys_insert ih binding.1 binding.2

theorem lookup_collect (written : Bindings α) (key : String) :
    written.collect.lookup key = written.reverse.lookup key := by
  induction written using List.reverseRecOn with
  | nil => rfl
  | append_singleton written binding ih =>
    obtain ⟨own, value⟩ := binding
    rw [collect_concat, lookup_insert, ih, List.reverse_append]
    by_cases hkey : key = own
    · subst hkey
      simp
    · rw [if_neg hkey]
      exact (lookup_cons_of_ne hkey value written.reverse).symm

/-- Where a name stands among the collected ones, and with which value. -/
theorem collect_eq_append {written : Bindings α} {before after : List String} {key : String}
    {value : α} (hkeys : written.keys.eraseDups = before ++ key :: after)
    (hvalue : written.reverse.lookup key = some value) :
    ∃ front back : Bindings α, written.collect = front ++ (key, value) :: back ∧
      back.keys = after := by
  have hcollect : written.collect.keys = before ++ key :: after := by
    rw [keys_collect, hkeys]
  have hnodup : (before ++ key :: after).Nodup := hcollect ▸ nodup_keys_collect written
  obtain ⟨front, rest, hsplit, hfront, hrest⟩ := List.map_eq_append_iff.mp hcollect
  obtain ⟨⟨own, found⟩, back, rfl, rfl, hback⟩ := List.map_eq_cons_iff.mp hrest
  have hnew : own ∉ keys front := by
    intro hmem
    have hbefore : own ∈ before := hfront ▸ hmem
    exact (List.nodup_append.mp hnodup).2.2 own hbefore own (List.mem_cons_self ..) rfl
  have hfound : some found = some value := by
    rw [← hvalue, ← lookup_collect, hsplit, List.lookup_append, lookup_eq_none_iff.mpr hnew,
      List.lookup_cons_self]
    rfl
  cases hfound
  exact ⟨front, back, hsplit, hback⟩

end Bindings

end LayeredIni
