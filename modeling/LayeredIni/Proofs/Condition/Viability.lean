/-
# Tokens that a condition starts with

Tokens are viable if some condition starts with them. What the parser has taken
is always viable, since it can be completed: by an operand where one must come,
and by a closing parenthesis for each open one. Conversely it takes whatever is
viable, because it takes every condition.

Viable tokens may end with a complete phrase inside a parenthesis that is not
closed yet. Neither this nor the viability is said in terms of the parser; its
states come in only where the two descriptions meet.
-/

import LayeredIni.Proofs.Condition.Parser
import Mathlib.Data.List.Induction

namespace LayeredIni.Condition

open LayeredIni.Fallible

/-- Some condition starts with the tokens. -/
def Viable (tokens : List Token) : Prop :=
  ∃ more condition, Derives .disjunction (tokens ++ more) condition

/-- The first tokens are viable, and no further one of the list is viable with them. -/
structure ViableUpTo (tokens taken rest : List Located) : Prop where
  /-- The list falls into the two parts. -/
  append_eq : taken ++ rest = tokens
  /-- Some condition starts with the first part. -/
  viable : Viable (taken.map Located.token)
  /-- No condition goes on with the next token. -/
  stuck : ∀ next ∈ rest.head?, ¬ Viable ((taken ++ [next]).map Located.token)

/-- From every state on, some tokens lead to a complete subcondition and leave
the open parentheses as they are. -/
theorem exists_run_to_holds (state : State) :
    ∃ (more : List Located) (after : State) (part : Condition),
      more.foldlM State.step state = .ok after ∧ after.phase.Holds part ∧
        after.frames = state.frames := by
  obtain ⟨phase, level, frames⟩ := state
  cases phase with
  | expecting =>
    refine ⟨[⟨0, .word "x"⟩], ⟨.operand (.literal "x"), level, frames⟩, _, ?_, .operand _, rfl⟩
    exact foldlM_cons (step_eq_ok_iff.mpr (.operand (.word "x"))) (foldlM_nil_eq_ok_iff.mpr rfl)
  | operand operand => exact ⟨[], _, _, rfl, .operand operand, rfl⟩
  | comparing left comparison =>
    let compared : Condition := .compare left comparison (.literal "x")
    refine ⟨[⟨0, .word "x"⟩], ⟨.complete compared, level, frames⟩, _, ?_, .complete _, rfl⟩
    exact foldlM_cons (step_eq_ok_iff.mpr (.compared (.word "x"))) (foldlM_nil_eq_ok_iff.mpr rfl)
  | complete condition => exact ⟨[], _, _, rfl, .complete condition, rfl⟩

/-- A complete subcondition can be completed to a condition, by closing the open
parentheses one after the other. -/
theorem exists_run_of_holds {phase : Phase} {part : Condition} (hholds : phase.Holds part)
    (level : Level) (frames : List Frame) :
    ∃ (more : List Located) (after : State) (condition : Condition),
      more.foldlM State.step ⟨phase, level, frames⟩ = .ok after ∧
        after.finish 0 = .ok condition := by
  induction frames generalizing phase level part with
  | nil => exact ⟨[], _, _, rfl, finish_eq_ok_iff.mpr ⟨part, hholds, rfl, rfl⟩⟩
  | cons frame frames ih =>
    obtain ⟨more, after, condition, hrun, hfinish⟩ :=
      ih (.complete (level.disjunction part)) frame.level
    exact ⟨⟨0, .closing⟩ :: more, after, condition,
      foldlM_cons (step_eq_ok_iff.mpr (.closing hholds)) hrun, hfinish⟩

/-- The parser can take tokens exactly if some condition starts with them. -/
theorem viable_iff_exists_run {tokens : List Located} :
    Viable (tokens.map Located.token) ↔
      ∃ state, tokens.foldlM State.step .start = .ok state := by
  constructor
  · rintro ⟨more, condition, hderives⟩
    have hmap : (tokens ++ more.map (Located.mk 0)).map Located.token =
        tokens.map Located.token ++ more := by
      simp [Function.comp_def]
    obtain ⟨phase, level, part, hrun, -⟩ := hderives.reads _ hmap .start [] rfl
    obtain ⟨state, hfirst, -⟩ := foldlM_append_eq_ok_iff.mp hrun
    exact ⟨state, hfirst⟩
  · rintro ⟨state, hrun⟩
    obtain ⟨more, middle, part, hmore, hholds, -⟩ := exists_run_to_holds state
    obtain ⟨closings, after, condition, hclosings, hfinish⟩ :=
      exists_run_of_holds hholds middle.level middle.frames
    have hspells := State.Spells.start.run (foldlM_append hrun (foldlM_append hmore hclosings))
    refine ⟨(more ++ closings).map Located.token, condition, ?_⟩
    simpa using hspells.finish hfinish

theorem Viable.of_append {first second : List Token} (h : Viable (first ++ second)) :
    Viable first := by
  obtain ⟨more, condition, hderives⟩ := h
  exact ⟨second ++ more, condition, by rwa [← List.append_assoc]⟩

theorem viable_nil : Viable [] :=
  ⟨[.word "x"], _, ((Derives.truthy (.word "x")).ofPrimary.ofUnary.ofConjunction)⟩

theorem exists_viableUpTo (tokens : List Located) :
    ∃ taken rest, ViableUpTo tokens taken rest := by
  induction tokens using List.reverseRecOn with
  | nil => exact ⟨[], [], rfl, viable_nil, by simp⟩
  | append_singleton tokens last ih =>
    obtain ⟨taken, rest, rfl, hviable, hstuck⟩ := ih
    cases rest with
    | cons next more => exact ⟨taken, next :: (more ++ [last]), by simp, hviable, hstuck⟩
    | nil =>
      by_cases hlast : Viable ((taken ++ [last]).map Located.token)
      · exact ⟨taken ++ [last], [], by simp, hlast, by simp⟩
      · exact ⟨taken, [last], by simp, hviable, by simpa using hlast⟩

/-- The beginnings of the tokens that are viable are those of what is taken. -/
theorem ViableUpTo.viable_iff {tokens taken rest front : List Located}
    (h : ViableUpTo tokens taken rest) (hfront : front <+: tokens) :
    Viable (front.map Located.token) ↔ front <+: taken := by
  obtain rfl := h.append_eq
  constructor
  · intro hviable
    rcases List.prefix_or_prefix_of_prefix hfront (List.prefix_append taken rest) with
      hshort | ⟨extra, rfl⟩
    · exact hshort
    · cases extra with
      | nil => exact (List.append_nil taken).symm ▸ List.prefix_refl taken
      | cons next more =>
        -- The next token would be viable together with what is taken.
        obtain ⟨back, rfl⟩ := (List.prefix_append_right_inj taken).mp hfront
        have hnext : Viable ((taken ++ [next]).map Located.token ++ more.map Located.token) := by
          simpa using hviable
        exact absurd hnext.of_append (h.stuck next rfl)
  · rintro ⟨more, rfl⟩
    exact Viable.of_append (List.map_append ▸ h.viable)

/-- The token sequences in which the parentheses match each other. -/
inductive Balanced : List Token → Prop
  | nil : Balanced []
  | single {token : Token} : token ≠ .opening → token ≠ .closing → Balanced [token]
  | group {tokens : List Token} :
      Balanced tokens → Balanced (.opening :: (tokens ++ [.closing]))
  | append {first second : List Token} :
      Balanced first → Balanced second → Balanced (first ++ second)

/-- The tokens end with a complete phrase inside a parenthesis that is not
closed yet, the innermost of which stands at the offset. -/
def EndsInside (tokens : List Located) (offset : Nat) : Prop :=
  ∃ outer front phrase rank condition,
    tokens = outer ++ ⟨offset, .opening⟩ :: (front ++ phrase) ∧
      Balanced ((front ++ phrase).map Located.token) ∧
      Derives rank (phrase.map Located.token) condition

/-- The tokens with which a phrase can end. -/
def Token.EndsPhrase (token : Token) : Prop :=
  token = .closing ∨ ∃ operand, token.Denotes operand

theorem Token.Denotes.balanced {token : Token} {operand : Operand} (h : token.Denotes operand) :
    Balanced [token] := by
  cases h <;> exact .single (by simp) (by simp)

theorem Derives.balanced {rank : Rank} {tokens : List Token} {condition : Condition}
    (h : Derives rank tokens condition) : Balanced tokens := by
  induction h with
  | ofConjunction _ ih => exact ih
  | ofUnary _ ih => exact ih
  | ofPrimary _ ih => exact ih
  | or _ _ ihfirst ihsecond =>
    exact ihfirst.append ((Balanced.single (by simp) (by simp)).append ihsecond)
  | and _ _ ihfirst ihsecond =>
    exact ihfirst.append ((Balanced.single (by simp) (by simp)).append ihsecond)
  | not _ ih => exact (Balanced.single (by simp) (by simp)).append ih
  | group _ ih => exact ih.group
  | compare _ hleft hright =>
    exact hleft.balanced.append ((Balanced.single (by simp) (by simp)).append hright.balanced)
  | truthy hdenotes => exact hdenotes.balanced

theorem Derives.exists_last {rank : Rank} {tokens : List Token} {condition : Condition}
    (h : Derives rank tokens condition) :
    ∃ front last, tokens = front ++ [last] ∧ last.EndsPhrase := by
  induction h with
  | ofConjunction _ ih => exact ih
  | ofUnary _ ih => exact ih
  | ofPrimary _ ih => exact ih
  | @or first _ _ _ _ _ _ ihsecond =>
    obtain ⟨front, last, rfl, hlast⟩ := ihsecond
    exact ⟨first ++ .or :: front, last, by simp, hlast⟩
  | @and first _ _ _ _ _ _ ihsecond =>
    obtain ⟨front, last, rfl, hlast⟩ := ihsecond
    exact ⟨first ++ .and :: front, last, by simp, hlast⟩
  | not _ ih =>
    obtain ⟨front, last, rfl, hlast⟩ := ih
    exact ⟨.not :: front, last, rfl, hlast⟩
  | @group tokens _ _ _ => exact ⟨.opening :: tokens, .closing, rfl, .inl rfl⟩
  | @compare first second _ right comparison _ hright =>
    exact ⟨[first, .comparison comparison], second, rfl, .inr ⟨right, hright⟩⟩
  | @truthy token operand hdenotes => exact ⟨[], token, rfl, .inr ⟨operand, hdenotes⟩⟩

/-- Only parentheses change which parentheses are open. -/
theorem Takes.frames_eq {state after : State} {next : Located} (h : Takes state next after)
    (hopening : next.token ≠ .opening) (hclosing : next.token ≠ .closing) :
    after.frames = state.frames := by
  cases h with
  | opening => exact absurd rfl hopening
  | closing => exact absurd rfl hclosing
  | _ => rfl

/-- Matching parentheses leave those that were open before. -/
theorem Balanced.frames_eq {tokens : List Token} (h : Balanced tokens) :
    ∀ {located : List Located} {state after : State}, located.map Located.token = tokens →
      located.foldlM State.step state = .ok after → after.frames = state.frames := by
  induction h with
  | nil =>
    intro located state after hmap hrun
    rw [List.map_eq_nil_iff.mp hmap] at hrun
    rw [foldlM_nil_eq_ok_iff.mp hrun]
  | single hopening hclosing =>
    intro located state after hmap hrun
    obtain ⟨next, rfl, rfl⟩ := List.map_eq_singleton_iff.mp hmap
    obtain ⟨middle, hstep, hnil⟩ := foldlM_cons_eq_ok_iff.mp hrun
    rw [← foldlM_nil_eq_ok_iff.mp hnil]
    exact (step_eq_ok_iff.mp hstep).frames_eq hopening hclosing
  | group _ ih =>
    intro located state after hmap hrun
    obtain ⟨first, between, last, rfl, hbetween⟩ := exists_between_of_map_token hmap
    obtain ⟨opened, hopen, hmore⟩ := foldlM_cons_eq_ok_iff.mp hrun
    obtain ⟨middle, hmiddle, hend⟩ := foldlM_append_eq_ok_iff.mp hmore
    obtain ⟨closed, hclose, hnil⟩ := foldlM_cons_eq_ok_iff.mp hend
    obtain rfl := foldlM_nil_eq_ok_iff.mp hnil
    have hsame := ih hbetween hmiddle
    -- Opening puts a parenthesis on the others, and closing takes this one off again.
    cases step_eq_ok_iff.mp hopen with
    | operand hdenotes => cases hdenotes
    | compared hdenotes => cases hdenotes
    | opening =>
      cases step_eq_ok_iff.mp hclose with
      | operand hdenotes => cases hdenotes
      | compared hdenotes => cases hdenotes
      | closing _ => exact (List.cons.inj hsame).2
  | append _ _ ihfirst ihsecond =>
    intro located state after hmap hrun
    obtain ⟨first, second, rfl, hfirst, hsecond⟩ := List.map_eq_append_iff.mp hmap
    obtain ⟨middle, hmiddle, hend⟩ := foldlM_append_eq_ok_iff.mp hrun
    rw [ihsecond hsecond hend, ihfirst hfirst hmiddle]

/-- After a token that can end a phrase a subcondition is complete. -/
theorem Takes.holds {state after : State} {next : Located} (h : Takes state next after)
    (hends : next.token.EndsPhrase) : ∃ part, after.phase.Holds part := by
  cases h with
  | operand => exact ⟨_, .operand _⟩
  | compared => exact ⟨_, .complete _⟩
  | closing => exact ⟨_, .complete _⟩
  | _ =>
    obtain heq | ⟨operand, hdenotes⟩ := hends
    · cases heq
    · cases hdenotes

/-- After a phrase a subcondition is complete. -/
theorem Derives.holds {rank : Rank} {located : List Located} {condition : Condition}
    {state after : State} (h : Derives rank (located.map Located.token) condition)
    (hrun : located.foldlM State.step state = .ok after) : ∃ part, after.phase.Holds part := by
  obtain ⟨front, last, hmap, hends⟩ := h.exists_last
  obtain ⟨before, final, rfl, -, hfinal⟩ := List.map_eq_append_iff.mp hmap
  obtain ⟨next, rfl, rfl⟩ := List.map_eq_singleton_iff.mp hfinal
  obtain ⟨middle, -, hend⟩ := foldlM_append_eq_ok_iff.mp hrun
  obtain ⟨stepped, hstep, hnil⟩ := foldlM_cons_eq_ok_iff.mp hend
  rw [← foldlM_nil_eq_ok_iff.mp hnil]
  exact (step_eq_ok_iff.mp hstep).holds hends

/-- The state has a complete subcondition in a parenthesis that is open. -/
def State.HoldsInside (state : State) (offset : Nat) : Prop :=
  ∃ part level frames, state.phase.Holds part ∧ state.frames = ⟨offset, level⟩ :: frames

theorem EndsInside.holdsInside {tokens : List Located} {offset : Nat} {state : State}
    (h : EndsInside tokens offset) (hrun : tokens.foldlM State.step .start = .ok state) :
    state.HoldsInside offset := by
  obtain ⟨outer, front, phrase, rank, condition, rfl, hbalanced, hderives⟩ := h
  obtain ⟨before, -, hrest⟩ := foldlM_append_eq_ok_iff.mp hrun
  obtain ⟨opened, hopen, hinside⟩ := foldlM_cons_eq_ok_iff.mp hrest
  obtain ⟨middle, -, hphrase⟩ := foldlM_append_eq_ok_iff.mp hinside
  obtain ⟨part, hholds⟩ := hderives.holds hphrase
  have hframes := hbalanced.frames_eq rfl hinside
  cases step_eq_ok_iff.mp hopen with
  | operand hdenotes => cases hdenotes
  | compared hdenotes => cases hdenotes
  | @opening level frames => exact ⟨part, level, frames, hholds, hframes⟩

/-- The ending of the tokens can be seen from the state that they lead to. -/
theorem endsInside_iff_holdsInside {tokens : List Located} {offset : Nat} {state : State}
    (hrun : tokens.foldlM State.step .start = .ok state) :
    EndsInside tokens offset ↔ state.HoldsInside offset := by
  refine ⟨fun h => h.holdsInside hrun, ?_⟩
  rintro ⟨part, level, frames, hholds, hopen⟩
  obtain ⟨outer, inner, phrase, hspelt, hframes, hlevel, hphase⟩ := State.Spells.start.run hrun
  have hprimary := hphase.primary hholds
  rw [hopen] at hframes
  obtain _ | @⟨_, _, before, around, -, -⟩ := hframes
  have hmap : tokens.map Located.token = before ++ around ++ .opening :: (inner ++ phrase) := by
    simpa using hspelt
  obtain ⟨first, place, inside, rfl, -, hinside⟩ := exists_split_of_map_token hmap
  obtain ⟨front, last, rfl, rfl, rfl⟩ := List.map_eq_append_iff.mp hinside
  have hbalanced : Balanced ((front ++ last).map Located.token) := by
    rw [List.map_append]
    exact (hlevel.disjunction hprimary).balanced
  have hends : EndsInside (first ++ ⟨place, .opening⟩ :: (front ++ last)) place :=
    ⟨first, front, last, .primary, part, rfl, hbalanced, hprimary⟩
  -- The parser has recorded the place of the parenthesis that the grammar finds open.
  obtain ⟨_, _, _, _, hsame⟩ := hends.holdsInside hrun
  rw [hopen] at hsame
  cases hsame
  exact hends

end LayeredIni.Condition
