/-
# Comparisons that agree

Two texts are ordered as numbers if both denote one, and by their code points
otherwise, so which order applies is decided by the two texts together. It is the
same order from either side, and it leaves nothing undecided but where `nan` takes
part. Equality is that of texts: `1.0` and `1` are different texts, although each
is at most the other.
-/

import LayeredIni.Condition.Evaluation
import Mathlib.Logic.ExistsUnique

namespace LayeredIni

namespace Number.Binary

variable {first second : Binary}

/-- What is no number compares with nothing, and everything else compares. -/
theorem compare?_eq_none_iff :
    first.compare? second = none ↔ first = .nan ∨ second = .nan := by
  cases first <;> cases second <;> simp [compare?]

theorem compare?_swap (first second : Binary) :
    second.compare? first = (first.compare? second).map Ordering.swap := by
  cases first with
  | nan => cases second <;> rfl
  | number s m =>
    cases second with
    | nan => rfl
    | number t n =>
      rw [compare?, compare?, Option.map_some, Std.OrientedOrd.eq_swap]

end Number.Binary

namespace Comparison

variable {left right : String}

/-- Both texts denote something in floating point, and that of one is no number. -/
def Unordered (left right : String) : Prop :=
  ∃ first second, number? left = some first ∧ number? right = some second ∧
    (first = .nan ∨ second = .nan)

theorem order?_eq_none_iff : order? left right = none ↔ Unordered left right := by
  unfold order? Unordered
  cases number? left with
  | none => simp
  | some first =>
    cases number? right with
    | none => simp
    | some second => simp [Number.Binary.compare?_eq_none_iff]

/-- From the other side the order is the same, turned round. Both texts are seen
either way, so they are ordered as numbers from both sides or from neither. -/
theorem order?_swap (left right : String) :
    order? right left = (order? left right).map Ordering.swap := by
  unfold order?
  cases number? left with
  | none => cases number? right <;> exact congrArg some Std.OrientedOrd.eq_swap
  | some first =>
    cases number? right with
    | none => exact congrArg some Std.OrientedOrd.eq_swap
    | some second => exact Number.Binary.compare?_swap first second

theorem exists_order? (h : ¬ Unordered left right) :
    ∃ ordering, order? left right = some ordering :=
  Option.ne_none_iff_exists'.mp (mt order?_eq_none_iff.mp h)

/-- A text that denotes a number or nothing in floating point is ordered beside itself. -/
theorem order?_self {text : String} (h : ¬ Unordered text text) : order? text text = some .eq := by
  obtain ⟨ordering, horder⟩ := exists_order? h
  have hswap := order?_swap text text
  rw [horder, Option.map_some, Option.some.injEq] at hswap
  rw [horder]
  cases ordering with
  | eq => rfl
  | lt => cases hswap
  | gt => cases hswap

/-- The comparison that says the same from the other side. -/
def converse : Comparison → Comparison
  | equal => equal
  | unequal => unequal
  | less => greater
  | atMost => atLeast
  | greater => less
  | atLeast => atMost

/-- The comparison that says the opposite, provided that the texts are ordered. -/
def negation : Comparison → Comparison
  | equal => unequal
  | unequal => equal
  | less => atLeast
  | atMost => greater
  | greater => atMost
  | atLeast => less

theorem holds_converse (left right : String) (comparison : Comparison) :
    holds right left comparison.converse = holds left right comparison := by
  cases comparison <;> simp only [converse, holds, order?_swap left right]
  case equal => exact BEq.comm
  case unequal => exact bne_comm
  all_goals
    cases order? left right with
    | none => rfl
    | some ordering => cases ordering <;> rfl

theorem holds_negation (h : ¬ Unordered left right) (comparison : Comparison) :
    holds left right comparison.negation = !holds left right comparison := by
  obtain ⟨ordering, horder⟩ := exists_order? h
  cases comparison <;> simp only [negation, holds, horder]
  case equal => rfl
  case unequal => exact (Bool.not_not _).symm
  all_goals cases ordering <;> rfl

theorem holds_of_unordered (h : Unordered left right) {comparison : Comparison}
    (hcomparison : comparison ∈ [less, atMost, greater, atLeast]) :
    holds left right comparison = false := by
  have horder := order?_eq_none_iff.mpr h
  cases comparison with
  | equal => simp at hcomparison
  | unequal => simp at hcomparison
  | _ => simp only [holds, horder, Option.any_none]

/-- How the comparisons rank two texts: one as less, one as greater, or each as at
most the other. -/
def Ranks (left right : String) : Ordering → Prop
  | .lt => holds left right .less = true
  | .gt => holds left right .greater = true
  | .eq => holds left right .atMost = true ∧ holds left right .atLeast = true

theorem ranks_iff {ordering : Ordering} :
    Ranks left right ordering ↔ order? left right = some ordering := by
  cases ordering <;> simp only [Ranks, holds] <;> cases order? left right with
  | none => simp
  | some found => cases found <;> simp

theorem existsUnique_ranks (h : ¬ Unordered left right) :
    ∃! ordering, Ranks left right ordering := by
  obtain ⟨ordering, horder⟩ := exists_order? h
  refine ⟨ordering, ranks_iff.mpr horder, fun other hother => ?_⟩
  exact Option.some.inj ((ranks_iff.mp hother).symm.trans horder)

/-- Comparisons agree with one another, whichever order they go by. From the
other side they say the same. If the texts are ordered, what is not at most is
greater and what is not at least is less, they are ordered in exactly one way, and
equal texts are each at most the other. If not, no comparison but that for equality
says anything of them. -/
theorem comparisons_agree (scope : Scope) (left right : Operand) :
    let compares (first : Operand) (comparison : Comparison) (second : Operand) : Bool :=
      (Condition.compare first comparison second).eval scope
    let first := left.text scope
    let second := right.text scope
    compares left .unequal right = !compares left .equal right ∧
      compares left .less right = compares right .greater left ∧
      compares left .atMost right = compares right .atLeast left ∧
      (¬ Unordered first second →
        compares left .atMost right = !compares left .greater right ∧
        compares left .atLeast right = !compares left .less right ∧
        (∃! ordering, Ranks first second ordering) ∧
        (compares left .equal right = true → Ranks first second .eq)) ∧
      (Unordered first second → ∀ comparison ∈ [less, atMost, greater, atLeast],
        compares left comparison right = false) := by
  intro compares first second
  refine ⟨rfl, (holds_converse first second .less).symm,
    (holds_converse first second .atMost).symm, fun hordered => ?_, fun hnone _ =>
    holds_of_unordered hnone⟩
  refine ⟨holds_negation hordered .greater, holds_negation hordered .less,
    existsUnique_ranks hordered, fun hequal => ?_⟩
  have hsame : first = second := beq_iff_eq.mp hequal
  rw [← hsame] at hordered ⊢
  exact ranks_iff.mpr (order?_self hordered)

/-- Two spellings of one number are different texts, and each is at most the other.
What is no number is neither more nor less than one. -/
theorem comparisons_agree_on_spellings :
    ¬ Unordered "1.0" " 1" ∧ (∃! ordering, Ranks "1.0" " 1" ordering) ∧
      (Condition.compare (.literal "1.0") .atMost (.literal " 1")).eval .empty = true ∧
      (Condition.compare (.literal "1.0") .equal (.literal " 1")).eval .empty = false ∧
      Unordered "NaN" "1" ∧
      (Condition.compare (.literal "NaN") .atMost (.literal "1")).eval .empty = false := by
  have horder : order? "1.0" " 1" = some .eq := by decide +kernel
  have hordered : ¬ Unordered "1.0" " 1" := by
    rw [← order?_eq_none_iff, horder]
    exact Option.some_ne_none _
  have hnone : Unordered "NaN" "1" := order?_eq_none_iff.mp (by decide +kernel)
  obtain ⟨-, -, -, hspellings, -⟩ :=
    comparisons_agree .empty (.literal "1.0") (.literal " 1")
  obtain ⟨hnegation, -, hunique, -⟩ := hspellings hordered
  obtain ⟨-, -, -, -, hnothing⟩ := comparisons_agree .empty (.literal "NaN") (.literal "1")
  refine ⟨hordered, hunique, hnegation.trans ?_, by decide, hnone,
    hnothing hnone .atMost (by decide)⟩
  decide +kernel

end Comparison

end LayeredIni
