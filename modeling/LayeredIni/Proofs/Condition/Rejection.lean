/-
# Where a rejected condition is at fault

The parser refuses a token as soon as no condition goes on with it, so that what
stands behind that token has no part in the error. Which place the error names
depends on how the tokens before it end. After a complete phrase inside a
parenthesis that is not closed yet, it is that parenthesis, the innermost one;
otherwise it is the token that is refused, or the end of the text.
-/

import LayeredIni.Proofs.Condition.Viability

namespace LayeredIni.Condition

open LayeredIni.Fallible

theorem not_holds_expecting (part : Condition) : ¬ Phase.expecting.Holds part := by
  intro hholds
  cases hholds

theorem not_holds_comparing (left : Operand) (comparison : Comparison) (part : Condition) :
    ¬ (Phase.comparing left comparison).Holds part := by
  intro hholds
  cases hholds

/-- What the parser answers to a token that it refuses. -/
inductive Refuses : State → Located → Error → Prop
  /-- No operand starts with the token. -/
  | operand {state : State} {next : Located} :
      (∀ part, ¬ state.phase.Holds part) →
      Refuses state next ⟨next.offset, .missingOperand next.token⟩
  /-- The innermost parenthesis would have to be closed first. -/
  | inside {state : State} {next : Located} {offset : Nat} :
      state.HoldsInside offset → Refuses state next ⟨offset, .unclosedParenthesis⟩
  | closing {state : State} {offset : Nat} :
      state.frames = [] → Refuses state ⟨offset, .closing⟩ ⟨offset, .unopenedParenthesis⟩
  | trailing {state : State} {next : Located} :
      state.frames = [] → Refuses state next ⟨next.offset, .trailingToken next.token⟩

theorem refuses_of_resume {state : State} {condition : Condition} {next : Located}
    {error : Error} (hholds : state.phase.Holds condition)
    (h : state.resume condition next = .error error) : Refuses state next error := by
  obtain ⟨phase, level, frames⟩ := state
  obtain ⟨offset, token⟩ := next
  cases frames with
  | nil =>
    cases token with
    | and => cases h
    | or => cases h
    | closing => cases h; exact .closing rfl
    | _ => cases h; exact .trailing rfl
  | cons frame frames =>
    cases token with
    | and => cases h
    | or => cases h
    | closing => cases h
    | _ => cases h; exact .inside ⟨condition, frame.level, frames, hholds, rfl⟩

theorem refuses_of_step {state : State} {next : Located} {error : Error}
    (h : state.step next = .error error) : Refuses state next error := by
  obtain ⟨phase, level, frames⟩ := state
  obtain ⟨offset, token⟩ := next
  cases phase with
  | expecting => cases token <;> cases h <;> exact .operand not_holds_expecting
  | comparing left comparison =>
    cases token <;> cases h <;> exact .operand (not_holds_comparing left comparison)
  | operand operand =>
    cases token with
    | comparison comparison => cases h
    | _ => exact refuses_of_resume (.operand operand) h
  | complete condition => cases token <;> exact refuses_of_resume (.complete condition) h

theorem State.HoldsInside.unique {state : State} {first second : Nat}
    (hfirst : state.HoldsInside first) (hsecond : state.HoldsInside second) : first = second := by
  obtain ⟨_, _, _, -, hopen⟩ := hfirst
  obtain ⟨_, _, _, -, hsame⟩ := hsecond
  rw [hopen] at hsame
  cases hsame
  rfl

theorem Refuses.of_holdsInside {state : State} {next : Located} {error : Error} {offset : Nat}
    (h : Refuses state next error) (hinside : state.HoldsInside offset) :
    error = ⟨offset, .unclosedParenthesis⟩ := by
  obtain ⟨part, level, frames, hholds, hopen⟩ := id hinside
  cases h with
  | operand hnone => exact absurd hholds (hnone part)
  | inside hother => rw [hother.unique hinside]
  | closing hclosed => rw [hclosed] at hopen; cases hopen
  | trailing hclosed => rw [hclosed] at hopen; cases hopen

theorem Refuses.offset_eq {state : State} {next : Located} {error : Error}
    (h : Refuses state next error) (houtside : ∀ offset, ¬ state.HoldsInside offset) :
    error.offset = next.offset := by
  cases h with
  | inside hinside => exact absurd hinside (houtside _)
  | _ => rfl

/-- What the parser answers to the end of a text that it refuses. -/
theorem finish_eq_error {state : State} {length : Nat} {error : Error}
    (h : state.finish length = .error error) :
    (∃ offset, state.HoldsInside offset ∧ error = ⟨offset, .unclosedParenthesis⟩) ∨
      (∀ part, ¬ state.phase.Holds part) ∧ error = ⟨length, .unexpectedEnd⟩ := by
  obtain ⟨phase, level, frames⟩ := state
  have hclose : ∀ part, phase.Holds part →
      State.close ⟨phase, level, frames⟩ part = .error error →
        ∃ offset, State.HoldsInside ⟨phase, level, frames⟩ offset ∧
          error = ⟨offset, .unclosedParenthesis⟩ := by
    intro part hholds herror
    cases frames with
    | nil => cases herror
    | cons frame frames =>
      cases herror
      exact ⟨frame.offset, ⟨part, frame.level, frames, hholds, rfl⟩, rfl⟩
  cases phase with
  | expecting => cases h; exact .inr ⟨not_holds_expecting, rfl⟩
  | comparing left comparison => cases h; exact .inr ⟨not_holds_comparing left comparison, rfl⟩
  | operand operand => exact .inl (hclose _ (.operand operand) h)
  | complete condition => exact .inl (hclose _ (.complete condition) h)

/-- Where the tokens go on in a text of `length` characters, which is its end if
there are none. -/
def nextOffset (length : Nat) (rest : List Located) : Nat :=
  (rest.head?.map Located.offset).getD length

/-- The first token that is refused decides the error, whatever stands behind it. -/
theorem ofTokens_of_step_eq_error {taken : List Located} {next : Located} {state : State}
    {error : Error} (hrun : taken.foldlM State.step .start = .ok state)
    (hstep : state.step next = .error error) (length : Nat) (others : List Located) :
    ofTokens length (taken ++ next :: others) = .error error := by
  rw [ofTokens, if_neg (by simp)]
  exact bind_eq_error_iff.mpr
    (.inl (foldlM_eq_error_iff.mpr ⟨taken, next, others, state, rfl, hrun, hstep⟩))

/-- If all tokens can be taken, the end of the text decides. -/
theorem ofTokens_of_run {tokens : List Located} {state : State} (hne : tokens ≠ [])
    (hrun : tokens.foldlM State.step .start = .ok state) (length : Nat) :
    ofTokens length tokens = state.finish length := by
  rw [ofTokens, if_neg (by simpa using hne), hrun]
  rfl

/-- A token with which no condition goes on is refused. -/
theorem ViableUpTo.refused {tokens taken more : List Located} {next : Located}
    (h : ViableUpTo tokens taken (next :: more)) :
    ∃ state error, taken.foldlM State.step .start = .ok state ∧
      state.step next = .error error := by
  obtain ⟨state, hrun⟩ := viable_iff_exists_run.mp h.viable
  cases hstep : state.step next with
  | error error => exact ⟨state, error, hrun, hstep⟩
  | ok after =>
    have hviable : Viable ((taken ++ [next]).map Located.token) :=
      viable_iff_exists_run.mpr
        ⟨after, foldlM_append hrun (foldlM_cons hstep (foldlM_nil_eq_ok_iff.mpr rfl))⟩
    exact absurd hviable (h.stuck next rfl)

/-- What is reported if all tokens can be taken, but form no condition. -/
theorem reported_of_run {tokens : List Located} {state : State} {length : Nat} {error : Error}
    (hrun : tokens.foldlM State.step .start = .ok state)
    (hreject : ofTokens length tokens = .error error) :
    (∀ offset, state.HoldsInside offset → error = ⟨offset, .unclosedParenthesis⟩) ∧
      ((∀ offset, ¬ state.HoldsInside offset) →
        error.offset = if tokens = [] then 0 else length) := by
  by_cases hne : tokens = []
  · subst hne
    obtain rfl := foldlM_nil_eq_ok_iff.mp hrun
    cases hreject
    refine ⟨?_, fun _ => rfl⟩
    rintro offset ⟨part, _, _, hholds, _⟩
    exact absurd hholds (not_holds_expecting part)
  · rw [ofTokens_of_run hne hrun] at hreject
    rw [if_neg hne]
    rcases finish_eq_error hreject with ⟨found, hinside, rfl⟩ | ⟨hnone, rfl⟩
    · refine ⟨fun offset hother => ?_, fun houtside => absurd hinside (houtside found)⟩
      rw [hinside.unique hother]
    · refine ⟨?_, fun _ => rfl⟩
      rintro offset ⟨part, _, _, hholds, _⟩
      exact absurd hholds (hnone part)

/-- Where rejected tokens are at fault. -/
theorem ViableUpTo.reported {tokens taken rest : List Located} {length : Nat} {error : Error}
    (h : ViableUpTo tokens taken rest) (hreject : ofTokens length tokens = .error error) :
    (∀ offset, EndsInside taken offset → error = ⟨offset, .unclosedParenthesis⟩) ∧
      ((∀ offset, ¬ EndsInside taken offset) →
        error.offset = if tokens = [] then 0 else nextOffset length rest) ∧
      ∀ next more, rest = next :: more → ∀ length others,
        ofTokens length (taken ++ next :: others) = .error error := by
  obtain rfl := h.append_eq
  cases rest with
  | cons next more =>
    obtain ⟨state, found, hrun, hstep⟩ := h.refused
    have hall := ofTokens_of_step_eq_error hrun hstep
    obtain rfl : found = error := Except.error.inj ((hall length more).symm.trans hreject)
    have hrefuses := refuses_of_step hstep
    simp only [endsInside_iff_holdsInside hrun]
    refine ⟨fun offset hinside => hrefuses.of_holdsInside hinside, fun houtside => ?_, ?_⟩
    · rw [if_neg (by simp)]
      exact hrefuses.offset_eq houtside
    · rintro _ _ ⟨⟩
      exact hall
  | nil =>
    obtain ⟨state, hrun⟩ := viable_iff_exists_run.mp h.viable
    rw [List.append_nil] at hreject ⊢
    simp only [endsInside_iff_holdsInside hrun]
    obtain ⟨hinside, houtside⟩ := reported_of_run hrun hreject
    exact ⟨hinside, houtside, fun next more hmore => by cases hmore⟩

/-- Where a rejected condition is at fault. The tokens of a text that is no
condition are viable up to some place and no further. If those before it end with
a complete phrase inside a parenthesis that is not closed yet, that parenthesis
is reported as unbalanced. Otherwise the place is that of the next token, or the
end of the text if there is none, or its start if it has no token at all. In no
case do the tokens behind the next one matter. -/
theorem parse_rejects_at (text : String) (tokens : List Located) (error : Error)
    (hscan : scan 0 text.toList = .ok tokens) (hreject : parse text = .error error) :
    (∃ taken rest, ViableUpTo tokens taken rest) ∧
      ∀ taken rest, ViableUpTo tokens taken rest →
        (∀ front, front <+: tokens → (Viable (front.map Located.token) ↔ front <+: taken)) ∧
        (∀ offset, EndsInside taken offset → error = ⟨offset, .unclosedParenthesis⟩) ∧
        ((∀ offset, ¬ EndsInside taken offset) →
          error.offset = if tokens = [] then 0 else nextOffset text.length rest) ∧
        ∀ next more, rest = next :: more → ∀ length others,
          ofTokens length (taken ++ next :: others) = .error error := by
  have hofTokens : ofTokens text.length tokens = .error error := by
    rw [parse, parseChars, hscan] at hreject
    rw [← String.length_toList]
    exact hreject
  refine ⟨exists_viableUpTo tokens, fun taken rest hsplit => ⟨?_, hsplit.reported hofTokens⟩⟩
  exact fun front hfront => hsplit.viable_iff hfront

/-- The group that `b` leaves open is at fault, not the token after it, and
what stands behind that token could be anything. -/
theorem parse_rejects_at_open_group :
    let taken : List Located :=
      [⟨0, .opening⟩, ⟨1, .word "a"⟩, ⟨3, .and⟩, ⟨6, .opening⟩, ⟨7, .word "b"⟩]
    let rest : List Located := [⟨9, .word "c"⟩, ⟨10, .closing⟩]
    scan 0 "(a && (b c)".toList = .ok (taken ++ rest) ∧ ViableUpTo (taken ++ rest) taken rest ∧
      EndsInside taken 6 ∧ parse "(a && (b c)" = .error ⟨6, .unclosedParenthesis⟩ ∧
      ∀ length others, ofTokens length (taken ++ ⟨9, .word "c"⟩ :: others) =
        .error ⟨6, .unclosedParenthesis⟩ := by
  intro taken rest
  have hscan : scan 0 "(a && (b c)".toList = .ok (taken ++ rest) := by decide +kernel
  have hreject : parse "(a && (b c)" = .error ⟨6, .unclosedParenthesis⟩ := by
    rw [parse, parseChars, hscan]
    rfl
  have hsplit : ViableUpTo (taken ++ rest) taken rest := by
    refine ⟨rfl, viable_iff_exists_run.mpr ⟨_, rfl⟩, ?_⟩
    rintro next ⟨⟩
    rw [viable_iff_exists_run]
    rintro ⟨state, hrun⟩
    cases hrun
  have hends : EndsInside taken 6 :=
    ⟨[⟨0, .opening⟩, ⟨1, .word "a"⟩, ⟨3, .and⟩], [], [⟨7, .word "b"⟩], .primary, _, rfl,
      (Token.Denotes.word "b").balanced, .truthy (.word "b")⟩
  obtain ⟨-, hall⟩ := parse_rejects_at _ _ _ hscan hreject
  obtain ⟨-, hinside, -, hbehind⟩ := hall taken rest hsplit
  exact ⟨hscan, hsplit, hends, hreject.trans (congrArg _ (hinside 6 hends)), hbehind _ _ rfl⟩

end LayeredIni.Condition
