/-
# Runs that can fail

Every reader of this library goes through a list and stops at the first
failure. The lemmas here take a run that succeeds apart into its steps and put
it together again, so that no proof about a reader opens the monad itself.
-/

import LayeredIni.Bindings
import Mathlib.Data.List.Forall2

namespace LayeredIni.Fallible

universe u v w

variable {ε : Type u} {α : Type v} {σ : Type v}

/-- Whether a run has a certain result can be decided, whatever it could fail with. -/
instance decidableEqOk [DecidableEq α] :
    (run : Except ε α) → (result : α) → Decidable (run = .ok result)
  | .ok found, result => decidable_of_iff (found = result) (by rw [Except.ok.injEq])
  | .error _, _ => isFalse (nomatch ·)

theorem bind_eq_ok_iff {first : Except ε α} {rest : α → Except ε σ} {result : σ} :
    first >>= rest = .ok result ↔ ∃ value, first = .ok value ∧ rest value = .ok result := by
  cases first with
  | error error => simp [bind, Except.bind]
  | ok value => simp [bind, Except.bind]

theorem bind_eq_error_iff {first : Except ε α} {rest : α → Except ε σ} {failure : ε} :
    first >>= rest = .error failure ↔
      first = .error failure ∨ ∃ value, first = .ok value ∧ rest value = .error failure := by
  cases first with
  | error error => simp [bind, Except.bind]
  | ok value => simp [bind, Except.bind]

theorem map_eq_ok_iff {first : Except ε α} {change : α → σ} {result : σ} :
    first.map change = .ok result ↔ ∃ value, first = .ok value ∧ change value = result := by
  cases first <;> simp [Except.map]

theorem map_eq_error_iff {first : Except ε α} {change : α → σ} {failure : ε} :
    first.map change = .error failure ↔ first = .error failure := by
  cases first <;> simp [Except.map]

theorem foldlM_nil_eq_ok_iff {step : σ → α → Except ε σ} {start final : σ} :
    [].foldlM step start = .ok final ↔ start = final := by
  simp [pure, Except.pure]

theorem foldlM_cons_eq_ok_iff {step : σ → α → Except ε σ} {start final : σ} {input : α}
    {inputs : List α} :
    (input :: inputs).foldlM step start = .ok final ↔
      ∃ state, step start input = .ok state ∧ inputs.foldlM step state = .ok final := by
  rw [List.foldlM_cons, bind_eq_ok_iff]

theorem foldlM_append_eq_ok_iff {step : σ → α → Except ε σ} {start final : σ}
    {first second : List α} :
    (first ++ second).foldlM step start = .ok final ↔
      ∃ state, first.foldlM step start = .ok state ∧ second.foldlM step state = .ok final := by
  rw [List.foldlM_append, bind_eq_ok_iff]

theorem foldlM_append {step : σ → α → Except ε σ} {start middle final : σ}
    {first second : List α} (hfirst : first.foldlM step start = .ok middle)
    (hsecond : second.foldlM step middle = .ok final) :
    (first ++ second).foldlM step start = .ok final :=
  foldlM_append_eq_ok_iff.mpr ⟨middle, hfirst, hsecond⟩

theorem foldlM_cons {step : σ → α → Except ε σ} {start middle final : σ} {input : α}
    {inputs : List α} (hstep : step start input = .ok middle)
    (hrest : inputs.foldlM step middle = .ok final) :
    (input :: inputs).foldlM step start = .ok final :=
  foldlM_cons_eq_ok_iff.mpr ⟨middle, hstep, hrest⟩

theorem foldlM_congr {first second : σ → α → Except ε σ} {inputs : List α}
    (h : ∀ input ∈ inputs, ∀ state, first state input = second state input) (start : σ) :
    inputs.foldlM first start = inputs.foldlM second start := by
  induction inputs generalizing start with
  | nil => rfl
  | cons input inputs ih =>
    obtain ⟨hinput, hinputs⟩ := List.forall_mem_cons.mp h
    rw [List.foldlM_cons, List.foldlM_cons, hinput start]
    exact congrArg (second start input >>= ·) (funext (ih hinputs))

/-- Inputs that leave every state as it is can be left out. -/
theorem foldlM_filter {step : σ → α → Except ε σ} {keep : α → Bool} {inputs : List α}
    (h : ∀ input ∈ inputs, keep input = false → ∀ state, step state input = .ok state)
    (start : σ) : (inputs.filter keep).foldlM step start = inputs.foldlM step start := by
  induction inputs generalizing start with
  | nil => rfl
  | cons input inputs ih =>
    obtain ⟨hinput, hinputs⟩ := List.forall_mem_cons.mp h
    by_cases hkeep : keep input = true
    · rw [List.filter_cons_of_pos hkeep, List.foldlM_cons, List.foldlM_cons]
      exact congrArg (step start input >>= ·) (funext (ih hinputs))
    · rw [List.filter_cons_of_neg hkeep, List.foldlM_cons,
        hinput (Bool.eq_false_iff.mpr hkeep) start]
      exact ih hinputs start

/-- A run fails with the failure of one of its steps, before which it succeeds. -/
theorem foldlM_eq_error_iff {step : σ → α → Except ε σ} {start : σ} {inputs : List α}
    {failure : ε} :
    inputs.foldlM step start = .error failure ↔
      ∃ before input after state, inputs = before ++ input :: after ∧
        before.foldlM step start = .ok state ∧ step state input = .error failure := by
  constructor
  · intro h
    induction inputs generalizing start with
    | nil => cases h
    | cons input inputs ih =>
      rw [List.foldlM_cons] at h
      rcases bind_eq_error_iff.mp h with hinput | ⟨state, hinput, hrest⟩
      · exact ⟨[], input, inputs, start, rfl, rfl, hinput⟩
      · obtain ⟨before, failed, after, last, rfl, hbefore, hfailed⟩ := ih hrest
        exact ⟨input :: before, failed, after, last, rfl, foldlM_cons hinput hbefore, hfailed⟩
  · rintro ⟨before, input, after, state, rfl, hbefore, hinput⟩
    rw [List.foldlM_append, hbefore]
    show (input :: after).foldlM step state = _
    rw [List.foldlM_cons, hinput]
    rfl

theorem mapM_eq_ok_iff {f : α → Except ε σ} {inputs : List α} {results : List σ} :
    inputs.mapM f = .ok results ↔ List.Forall₂ (fun input result => f input = .ok result)
      inputs results := by
  induction inputs generalizing results with
  | nil =>
    rw [List.mapM_nil, List.forall₂_nil_left_iff]
    exact ⟨fun h => (Except.ok.inj h).symm, fun h => h ▸ rfl⟩
  | cons input inputs ih =>
    rw [List.mapM_cons, bind_eq_ok_iff, List.forall₂_cons_left_iff]
    refine ⟨?_, ?_⟩
    · rintro ⟨result, hresult, hrest⟩
      rcases bind_eq_ok_iff.mp hrest with ⟨more, hmore, heq⟩
      exact ⟨result, more, hresult, ih.mp hmore, (Except.ok.inj heq).symm⟩
    · rintro ⟨result, more, hresult, hmore, rfl⟩
      exact ⟨result, hresult, bind_eq_ok_iff.mpr ⟨more, ih.mpr hmore, rfl⟩⟩

/-- The first input that cannot be read decides how reading a list fails. -/
theorem mapM_eq_error {f : α → Except ε σ} {before after : List α} {input : α} {failure : ε}
    (hbefore : ∀ earlier ∈ before, ∃ result, f earlier = .ok result)
    (hinput : f input = .error failure) :
    (before ++ input :: after).mapM f = .error failure := by
  induction before with
  | nil =>
    rw [List.nil_append, List.mapM_cons, hinput]
    rfl
  | cons earlier before ih =>
    obtain ⟨⟨result, hresult⟩, hrest⟩ := List.forall_mem_cons.mp hbefore
    rw [List.cons_append, List.mapM_cons, hresult]
    show (before ++ input :: after).mapM f >>= _ = _
    rw [ih hrest]
    rfl

theorem exists_mapM_eq_ok_iff {f : α → Except ε σ} {inputs : List α} :
    (∃ results, inputs.mapM f = .ok results) ↔
      ∀ input ∈ inputs, ∃ result, f input = .ok result := by
  simp only [mapM_eq_ok_iff]
  constructor
  · rintro ⟨results, hreads⟩
    induction hreads with
    | nil => exact fun _ hinput => absurd hinput List.not_mem_nil
    | cons hread _ ih => exact List.forall_mem_cons.mpr ⟨⟨_, hread⟩, ih⟩
  · intro hreads
    induction inputs with
    | nil => exact ⟨[], .nil⟩
    | cons input inputs ih =>
      obtain ⟨⟨result, hresult⟩, hrest⟩ := List.forall_mem_cons.mp hreads
      obtain ⟨results, hresults⟩ := ih hrest
      exact ⟨result :: results, .cons hresult hresults⟩

theorem mapM_eq_error_iff {f : α → Except ε σ} {inputs : List α} {failure : ε} :
    inputs.mapM f = .error failure ↔
      ∃ before input after, inputs = before ++ input :: after ∧
        (∀ earlier ∈ before, ∃ result, f earlier = .ok result) ∧ f input = .error failure := by
  constructor
  · intro h
    induction inputs with
    | nil => cases h
    | cons input inputs ih =>
      rw [List.mapM_cons] at h
      rcases bind_eq_error_iff.mp h with hinput | ⟨result, hinput, hrest⟩
      · exact ⟨[], input, inputs, rfl, List.forall_mem_nil _, hinput⟩
      · rcases bind_eq_error_iff.mp hrest with hmore | ⟨results, -, hpure⟩
        · obtain ⟨before, failed, after, rfl, hbefore, hfailed⟩ := ih hmore
          exact ⟨input :: before, failed, after, rfl,
            List.forall_mem_cons.mpr ⟨⟨result, hinput⟩, hbefore⟩, hfailed⟩
        · cases hpure
  · rintro ⟨before, input, after, rfl, hbefore, hinput⟩
    exact mapM_eq_error hbefore hinput

theorem exists_of_mem_mapM {f : α → Except ε σ} {inputs : List α} {results : List σ}
    (h : inputs.mapM f = .ok results) {result : σ} (hresult : result ∈ results) :
    ∃ input ∈ inputs, f input = .ok result := by
  have hreads := mapM_eq_ok_iff.mp h
  obtain ⟨i, hi, rfl⟩ := List.mem_iff_getElem.mp hresult
  have hlength : i < inputs.length := hreads.length_eq ▸ hi
  exact ⟨inputs[i], List.getElem_mem hlength, hreads.get hlength hi⟩

end LayeredIni.Fallible
