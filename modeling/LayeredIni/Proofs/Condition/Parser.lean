/-
# The parser reads exactly the grammar

The parser takes one token at a time, so what it has read is a matter of its
state. Both directions are statements about a run between two states.

For soundness a state spells the tokens that led to it: each open parenthesis,
each half-finished connective and the phrase in hand contribute theirs, and a
step adds the token that it takes. For completeness a run over the tokens of a
phrase, from any state that expects one, ends with the phrase in hand and the
open parentheses untouched. The run being a function of the tokens, the second
direction also shows that no token sequence states two conditions.
-/

import LayeredIni.Condition.Parser
import LayeredIni.Proofs.Condition.Grammar
import LayeredIni.Proofs.Fallible
import Mathlib.Data.Set.Subsingleton

namespace LayeredIni.Condition

open LayeredIni.Fallible

/-! ## What a step does -/

/-- The subcondition that a phase holds complete. -/
inductive Phase.Holds : Phase → Condition → Prop
  /-- An operand is a test as soon as no comparison follows. -/
  | operand (operand : Operand) : Phase.Holds (.operand operand) (.truthy operand)
  | complete (condition : Condition) : Phase.Holds (.complete condition) condition

/-- What the parser does with a token that it accepts. -/
inductive Takes : State → Located → State → Prop
  | opening {level : Level} {frames : List Frame} {offset : Nat} :
      Takes ⟨.expecting, level, frames⟩ ⟨offset, .opening⟩
        ⟨.expecting, .start, ⟨offset, level⟩ :: frames⟩
  | not {level : Level} {frames : List Frame} {offset : Nat} :
      Takes ⟨.expecting, level, frames⟩ ⟨offset, .not⟩
        ⟨.expecting, ⟨level.disjunct, level.conjunct, level.negations + 1⟩, frames⟩
  | operand {level : Level} {frames : List Frame} {offset : Nat} {token : Token}
      {operand : Operand} : token.Denotes operand →
      Takes ⟨.expecting, level, frames⟩ ⟨offset, token⟩ ⟨.operand operand, level, frames⟩
  | comparison {level : Level} {frames : List Frame} {offset : Nat} {left : Operand}
      {comparison : Comparison} :
      Takes ⟨.operand left, level, frames⟩ ⟨offset, .comparison comparison⟩
        ⟨.comparing left comparison, level, frames⟩
  | compared {level : Level} {frames : List Frame} {offset : Nat} {token : Token}
      {left right : Operand} {comparison : Comparison} : token.Denotes right →
      Takes ⟨.comparing left comparison, level, frames⟩ ⟨offset, token⟩
        ⟨.complete (.compare left comparison right), level, frames⟩
  | and {phase : Phase} {level : Level} {frames : List Frame} {offset : Nat}
      {condition : Condition} : phase.Holds condition →
      Takes ⟨phase, level, frames⟩ ⟨offset, .and⟩
        ⟨.expecting, ⟨level.disjunct, some (level.conjunction condition), 0⟩, frames⟩
  | or {phase : Phase} {level : Level} {frames : List Frame} {offset : Nat}
      {condition : Condition} : phase.Holds condition →
      Takes ⟨phase, level, frames⟩ ⟨offset, .or⟩
        ⟨.expecting, ⟨some (level.disjunction condition), none, 0⟩, frames⟩
  | closing {phase : Phase} {level : Level} {frame : Frame} {frames : List Frame} {offset : Nat}
      {condition : Condition} : phase.Holds condition →
      Takes ⟨phase, level, frame :: frames⟩ ⟨offset, .closing⟩
        ⟨.complete (level.disjunction condition), frame.level, frames⟩

/-- A token after a subcondition that is complete is a connective or a closing
parenthesis. -/
theorem takes_of_resume {state after : State} {condition : Condition} {next : Located}
    (hholds : state.phase.Holds condition) (h : state.resume condition next = .ok after) :
    Takes state next after := by
  obtain ⟨phase, level, frames⟩ := state
  obtain ⟨offset, token⟩ := next
  cases token with
  | and => cases h; exact .and hholds
  | or => cases h; exact .or hholds
  | closing =>
    cases frames with
    | nil => cases h
    | cons frame frames => cases h; exact .closing hholds
  | _ => cases frames <;> cases h

/-- A phase that holds a subcondition leaves a connective or a closing parenthesis to it. -/
theorem step_of_holds {phase : Phase} {level : Level} {frames : List Frame}
    {condition : Condition} {next : Located} (hholds : phase.Holds condition)
    (hnext : ∀ comparison, next.token ≠ .comparison comparison) :
    State.step ⟨phase, level, frames⟩ next =
      State.resume ⟨phase, level, frames⟩ condition next := by
  obtain ⟨offset, token⟩ := next
  cases hholds with
  | operand operand =>
    cases token with
    | comparison comparison => exact absurd rfl (hnext comparison)
    | _ => rfl
  | complete condition => cases token <;> rfl

theorem step_eq_ok_iff {state after : State} {next : Located} :
    state.step next = .ok after ↔ Takes state next after := by
  constructor
  · intro h
    obtain ⟨phase, level, frames⟩ := state
    obtain ⟨offset, token⟩ := next
    cases phase with
    | expecting =>
      cases token with
      | opening => cases h; exact .opening
      | not => cases h; exact .not
      | reference name => cases h; exact .operand (.reference name)
      | quotation text => cases h; exact .operand (.quotation text)
      | word text => cases h; exact .operand (.word text)
      | _ => cases h
    | comparing left comparison =>
      cases token with
      | reference name => cases h; exact .compared (.reference name)
      | quotation text => cases h; exact .compared (.quotation text)
      | word text => cases h; exact .compared (.word text)
      | _ => cases h
    | operand operand =>
      cases token with
      | comparison comparison => cases h; exact .comparison
      | _ => exact takes_of_resume (.operand operand) h
    | complete condition =>
      cases token <;> exact takes_of_resume (.complete condition) h
  · intro h
    cases h with
    | opening => rfl
    | not => rfl
    | operand hdenotes => cases hdenotes <;> rfl
    | comparison => rfl
    | compared hdenotes => cases hdenotes <;> rfl
    | and hholds => rw [step_of_holds hholds (by simp)]; rfl
    | or hholds => rw [step_of_holds hholds (by simp)]; rfl
    | closing hholds => rw [step_of_holds hholds (by simp)]; rfl

/-- A text ends in a condition exactly when the last phrase is complete and no
parenthesis is open. -/
theorem finish_eq_ok_iff {state : State} {length : Nat} {condition : Condition} :
    state.finish length = .ok condition ↔
      ∃ part, state.phase.Holds part ∧ state.frames = [] ∧
        state.level.disjunction part = condition := by
  obtain ⟨phase, level, frames⟩ := state
  constructor
  · intro h
    cases phase with
    | expecting => cases h
    | comparing left comparison => cases h
    | operand operand =>
      cases frames with
      | nil => cases h; exact ⟨_, .operand operand, rfl, rfl⟩
      | cons frame frames => cases h
    | complete part =>
      cases frames with
      | nil => cases h; exact ⟨_, .complete part, rfl, rfl⟩
      | cons frame frames => cases h
  · rintro ⟨part, hholds, hframes, rfl⟩
    cases hframes
    cases hholds <;> rfl

/-- The tokens of a phrase that waits on the left of a connective, and of the
connective; none if nothing waits. -/
inductive Waiting (rank : Rank) (connective : Token) : Option Condition → List Token → Prop
  | none : Waiting rank connective none []
  | some {tokens : List Token} {condition : Condition} :
      Derives rank tokens condition →
      Waiting rank connective (some condition) (tokens ++ [connective])

/-- The tokens that a level has taken before its open subcondition. -/
inductive Level.Spells : Level → List Token → Prop
  | mk {disjunct conjunct : Option Condition} {outer inner : List Token} (negations : Nat) :
      Waiting .disjunction .or disjunct outer → Waiting .conjunction .and conjunct inner →
      Level.Spells ⟨disjunct, conjunct, negations⟩
        (outer ++ (inner ++ List.replicate negations .not))

/-- The tokens up to the innermost open parenthesis. -/
inductive FramesSpell : List Frame → List Token → Prop
  | nil : FramesSpell [] []
  /-- A parenthesis stands after the tokens of the level around it. -/
  | cons {frame : Frame} {frames : List Frame} {outer inner : List Token} :
      FramesSpell frames outer → frame.level.Spells inner →
      FramesSpell (frame :: frames) (outer ++ inner ++ [.opening])

/-- The tokens of the phrase in hand. -/
inductive Phase.Spells : Phase → List Token → Prop
  | expecting : Phase.Spells .expecting []
  | operand {token : Token} {operand : Operand} :
      token.Denotes operand → Phase.Spells (.operand operand) [token]
  | comparing {token : Token} {left : Operand} (comparison : Comparison) :
      token.Denotes left →
      Phase.Spells (.comparing left comparison) [token, .comparison comparison]
  | complete {tokens : List Token} {condition : Condition} :
      Derives .primary tokens condition → Phase.Spells (.complete condition) tokens

/-- The tokens that lead to a state. -/
def State.Spells (state : State) (tokens : List Token) : Prop :=
  ∃ outer inner phrase, tokens = outer ++ inner ++ phrase ∧
    FramesSpell state.frames outer ∧ state.level.Spells inner ∧ state.phase.Spells phrase

/-- A unary phrase stays one under further negations. -/
theorem Derives.negate {tokens : List Token} {condition : Condition}
    (h : Derives .unary tokens condition) (count : Nat) :
    Derives .unary (List.replicate count .not ++ tokens)
      (Condition.negate count condition) := by
  induction count with
  | zero => exact h
  | succ count ih => exact ih.not

/-- The last conjunction of a level, completed by a primary phrase. -/
theorem Waiting.conjunction {conjunct : Option Condition} {inner tokens : List Token}
    {condition : Condition} (hwaiting : Waiting .conjunction .and conjunct inner)
    (h : Derives .primary tokens condition) (disjunct : Option Condition) (negations : Nat) :
    Derives .conjunction (inner ++ List.replicate negations .not ++ tokens)
      (Level.conjunction ⟨disjunct, conjunct, negations⟩ condition) := by
  have hunary := h.ofPrimary.negate negations
  cases hwaiting with
  | none => exact hunary.ofUnary
  | some hleft => simpa [Level.conjunction] using hleft.and hunary

/-- A level completed by a primary phrase is a disjunction. -/
theorem Level.Spells.disjunction {level : Level} {inner tokens : List Token}
    {condition : Condition} (hlevel : level.Spells inner)
    (h : Derives .primary tokens condition) :
    Derives .disjunction (inner ++ tokens) (level.disjunction condition) := by
  obtain ⟨negations, houter, hinner⟩ := hlevel
  cases houter with
  | none => simpa [Level.disjunction] using (hinner.conjunction h none negations).ofConjunction
  | @some outer left hleft =>
    simpa [Level.disjunction] using hleft.or (hinner.conjunction h (some left) negations)

/-- What a phase holds complete is a primary phrase. -/
theorem Phase.Spells.primary {phase : Phase} {tokens : List Token} {condition : Condition}
    (hphase : phase.Spells tokens) (hholds : phase.Holds condition) :
    Derives .primary tokens condition := by
  cases hholds with
  | operand operand => cases hphase with | operand hdenotes => exact .truthy hdenotes
  | complete condition => cases hphase with | complete h => exact h

theorem Level.Spells.start : Level.start.Spells [] :=
  .mk 0 .none .none

theorem State.Spells.start : State.start.Spells [] :=
  ⟨[], [], [], rfl, .nil, .start, .expecting⟩

/-! ## Soundness -/

/-- Each step adds the token that it takes. -/
theorem State.Spells.step {state after : State} {tokens : List Token} {next : Located}
    (h : state.Spells tokens) (hstep : state.step next = .ok after) :
    after.Spells (tokens ++ [next.token]) := by
  obtain ⟨outer, inner, phrase, rfl, hframes, hlevel, hphase⟩ := h
  cases step_eq_ok_iff.mp hstep with
  | opening =>
    cases hphase
    exact ⟨_, [], [], by simp, .cons hframes hlevel, .start, .expecting⟩
  | not =>
    cases hphase
    obtain ⟨negations, hdisjunct, hconjunct⟩ := hlevel
    refine ⟨_, _, [], ?_, hframes, .mk (negations + 1) hdisjunct hconjunct, .expecting⟩
    simp [List.replicate_succ']
  | operand hdenotes =>
    cases hphase
    exact ⟨_, _, _, by simp, hframes, hlevel, .operand hdenotes⟩
  | @comparison _ _ _ left comparison =>
    cases hphase with
    | operand hdenotes => exact ⟨_, _, _, by simp, hframes, hlevel, .comparing comparison hdenotes⟩
  | compared hright =>
    cases hphase with
    | comparing _ hleft =>
      exact ⟨_, _, _, by simp, hframes, hlevel, .complete (.compare _ hleft hright)⟩
  | and hholds =>
    have hprimary := hphase.primary hholds
    obtain ⟨negations, hdisjunct, hconjunct⟩ := hlevel
    refine ⟨_, _, [], ?_, hframes,
      .mk 0 hdisjunct (.some (hconjunct.conjunction hprimary _ negations)), .expecting⟩
    simp
  | or hholds =>
    have hdisjunction := hlevel.disjunction (hphase.primary hholds)
    exact ⟨_, _, [], by simp, hframes, .mk 0 (.some hdisjunction) .none, .expecting⟩
  | closing hholds =>
    have hdisjunction := hlevel.disjunction (hphase.primary hholds)
    obtain _ | ⟨houter, haround⟩ := hframes
    exact ⟨_, _, _, by simp, houter, haround, .complete (.group hdisjunction)⟩

theorem State.Spells.run {state after : State} {tokens : List Token} {more : List Located}
    (h : state.Spells tokens) (hrun : more.foldlM State.step state = .ok after) :
    after.Spells (tokens ++ more.map Located.token) := by
  induction more generalizing state tokens with
  | nil =>
    cases foldlM_nil_eq_ok_iff.mp hrun
    simpa using h
  | cons next more ih =>
    obtain ⟨middle, hstep, hrest⟩ := foldlM_cons_eq_ok_iff.mp hrun
    simpa using ih (h.step hstep) hrest

/-- The tokens of a state in which a text may end form the condition that it ends with. -/
theorem State.Spells.finish {state : State} {tokens : List Token} {condition : Condition}
    {length : Nat} (h : state.Spells tokens) (hfinish : state.finish length = .ok condition) :
    Derives .disjunction tokens condition := by
  obtain ⟨outer, inner, phrase, rfl, hframes, hlevel, hphase⟩ := h
  obtain ⟨part, hholds, hclosed, rfl⟩ := finish_eq_ok_iff.mp hfinish
  rw [hclosed] at hframes
  cases hframes
  simpa using hlevel.disjunction (hphase.primary hholds)

/-! ## Completeness -/

/-- The levels in which a phrase of a rank may start. -/
def Rank.StartsIn (level : Level) : Rank → Prop
  | disjunction => level = .start
  | conjunction => level.conjunct = none ∧ level.negations = 0
  | unary => True
  | primary => True

/-- The level and the subcondition in hand after a phrase of a rank that states
`whole`: completed up to that rank, they make what `whole` makes of the level
before. -/
def Rank.Leaves (before : Level) (whole : Condition) (after : Level) (part : Condition) :
    Rank → Prop
  | disjunction => after.disjunction part = whole
  | conjunction => after.disjunct = before.disjunct ∧ after.conjunction part = whole
  | unary =>
    after.disjunct = before.disjunct ∧ after.conjunct = before.conjunct ∧
      negate after.negations part = negate before.negations whole
  | primary => after = before ∧ part = whole

/-- A run over a phrase ends with the phrase in hand and the same parentheses open. -/
def Reads (rank : Rank) (tokens : List Located) (whole : Condition) : Prop :=
  ∀ (level : Level) (frames : List Frame), rank.StartsIn level →
    ∃ phase after part, tokens.foldlM State.step ⟨.expecting, level, frames⟩ =
        .ok ⟨phase, after, frames⟩ ∧
      phase.Holds part ∧ rank.Leaves level whole after part

theorem negate_not (count : Nat) (condition : Condition) :
    negate count (.not condition) = .not (negate count condition) := by
  induction count with
  | zero => rfl
  | succ count ih => rw [negate, ih, negate]

/-- Each way to build a phrase is a way to build a run. This is the first of them. -/
theorem Reads.or {first second : List Located} {left right : Condition} {offset : Nat}
    (hfirst : Reads .disjunction first left) (hsecond : Reads .conjunction second right) :
    Reads .disjunction (first ++ ⟨offset, .or⟩ :: second) (.or left right) := by
  intro level frames hstart
  obtain ⟨phase, middle, part, hrun, hholds, (hleft : middle.disjunction part = left)⟩ :=
    hfirst level frames hstart
  obtain ⟨final, after, last, hrest, hfinal, hsame, hright⟩ :=
    hsecond ⟨some left, none, 0⟩ frames ⟨rfl, rfl⟩
  have hstep : State.step ⟨phase, middle, frames⟩ ⟨offset, .or⟩ =
      .ok ⟨.expecting, ⟨some left, none, 0⟩, frames⟩ := by
    rw [step_eq_ok_iff, ← hleft]
    exact .or hholds
  refine ⟨final, after, last, foldlM_append hrun (foldlM_cons hstep hrest), hfinal, ?_⟩
  show after.disjunction last = .or left right
  rw [Level.disjunction, hsame, hright]

theorem Reads.and {first second : List Located} {left right : Condition} {offset : Nat}
    (hfirst : Reads .conjunction first left) (hsecond : Reads .unary second right) :
    Reads .conjunction (first ++ ⟨offset, .and⟩ :: second) (.and left right) := by
  intro level frames hstart
  obtain ⟨phase, middle, part, hrun, hholds, hdisjunct, hleft⟩ := hfirst level frames hstart
  obtain ⟨final, after, last, hrest, hfinal, hsame, hconjunct, hright⟩ :=
    hsecond ⟨level.disjunct, some left, 0⟩ frames trivial
  have hstep : State.step ⟨phase, middle, frames⟩ ⟨offset, .and⟩ =
      .ok ⟨.expecting, ⟨level.disjunct, some left, 0⟩, frames⟩ := by
    rw [step_eq_ok_iff, ← hleft, ← hdisjunct]
    exact .and hholds
  refine ⟨final, after, last, foldlM_append hrun (foldlM_cons hstep hrest), hfinal, hsame, ?_⟩
  rw [Level.conjunction, hconjunct, hright]
  rfl

theorem Reads.ofConjunction {tokens : List Located} {condition : Condition}
    (h : Reads .conjunction tokens condition) : Reads .disjunction tokens condition := by
  intro level frames hstart
  obtain rfl : level = .start := hstart
  obtain ⟨phase, after, part, hrun, hholds, hdisjunct, hpart⟩ := h .start frames ⟨rfl, rfl⟩
  refine ⟨phase, after, part, hrun, hholds, ?_⟩
  show after.disjunction part = condition
  rw [Level.disjunction, hdisjunct]
  exact hpart

theorem Reads.ofUnary {tokens : List Located} {condition : Condition}
    (h : Reads .unary tokens condition) : Reads .conjunction tokens condition := by
  intro level frames hstart
  obtain ⟨hnone, hzero⟩ := hstart
  obtain ⟨phase, after, part, hrun, hholds, hdisjunct, hconjunct, hpart⟩ :=
    h level frames trivial
  refine ⟨phase, after, part, hrun, hholds, hdisjunct, ?_⟩
  rw [Level.conjunction, hconjunct, hnone, hpart, hzero]
  rfl

theorem Reads.ofPrimary {tokens : List Located} {condition : Condition}
    (h : Reads .primary tokens condition) : Reads .unary tokens condition := by
  intro level frames hstart
  obtain ⟨phase, after, part, hrun, hholds, rfl, rfl⟩ := h level frames trivial
  exact ⟨phase, after, part, hrun, hholds, rfl, rfl, rfl⟩

theorem Reads.not {tokens : List Located} {condition : Condition} {offset : Nat}
    (h : Reads .unary tokens condition) :
    Reads .unary (⟨offset, .not⟩ :: tokens) (.not condition) := by
  intro level frames hstart
  obtain ⟨phase, after, part, hrun, hholds, hdisjunct, hconjunct, hpart⟩ :=
    h ⟨level.disjunct, level.conjunct, level.negations + 1⟩ frames trivial
  refine ⟨phase, after, part, foldlM_cons (step_eq_ok_iff.mpr .not) hrun, hholds, hdisjunct,
    hconjunct, ?_⟩
  rw [hpart, negate_not, negate]

theorem Reads.group {tokens : List Located} {condition : Condition} {first last : Nat}
    (h : Reads .disjunction tokens condition) :
    Reads .primary (⟨first, .opening⟩ :: (tokens ++ [⟨last, .closing⟩])) condition := by
  intro level frames hstart
  obtain ⟨phase, after, part, hrun, hholds, (hpart : after.disjunction part = condition)⟩ :=
    h .start (⟨first, level⟩ :: frames) rfl
  have hclose : State.step ⟨phase, after, ⟨first, level⟩ :: frames⟩ ⟨last, .closing⟩ =
      .ok ⟨.complete condition, level, frames⟩ := by
    rw [step_eq_ok_iff, ← hpart]
    exact .closing hholds
  refine ⟨_, level, condition, foldlM_cons (step_eq_ok_iff.mpr .opening)
    (foldlM_append hrun (foldlM_cons hclose (foldlM_nil_eq_ok_iff.mpr rfl))),
    .complete condition, rfl, rfl⟩

theorem Reads.compare {first second : Located} {left right : Operand} {offset : Nat}
    (comparison : Comparison) (hleft : first.token.Denotes left)
    (hright : second.token.Denotes right) :
    Reads .primary [first, ⟨offset, .comparison comparison⟩, second]
      (.compare left comparison right) := by
  intro level frames hstart
  refine ⟨_, level, _, foldlM_cons (step_eq_ok_iff.mpr (.operand hleft))
    (foldlM_cons (step_eq_ok_iff.mpr .comparison) (foldlM_cons
      (step_eq_ok_iff.mpr (.compared hright)) (foldlM_nil_eq_ok_iff.mpr rfl))),
    .complete _, rfl, rfl⟩

theorem Reads.truthy {token : Located} {operand : Operand}
    (hdenotes : token.token.Denotes operand) : Reads .primary [token] (.truthy operand) := by
  intro level frames hstart
  exact ⟨_, level, _, foldlM_cons (step_eq_ok_iff.mpr (.operand hdenotes))
    (foldlM_nil_eq_ok_iff.mpr rfl), .operand operand, rfl, rfl⟩

/-- A token of located ones has an offset, and the others stand before and behind it. -/
theorem exists_split_of_map_token {located : List Located} {before behind : List Token}
    {token : Token} (h : located.map Located.token = before ++ token :: behind) :
    ∃ front offset back, located = front ++ ⟨offset, token⟩ :: back ∧
      front.map Located.token = before ∧ back.map Located.token = behind := by
  obtain ⟨front, rest, rfl, hfront, hrest⟩ := List.map_eq_append_iff.mp h
  obtain ⟨⟨offset, _⟩, back, rfl, rfl, hback⟩ := List.map_eq_cons_iff.mp hrest
  exact ⟨front, offset, back, rfl, hfront, hback⟩

theorem exists_between_of_map_token {located : List Located} {inner : List Token}
    (h : located.map Located.token = .opening :: (inner ++ [.closing])) :
    ∃ first between last, located = ⟨first, .opening⟩ :: (between ++ [⟨last, .closing⟩]) ∧
      between.map Located.token = inner := by
  obtain ⟨⟨first, _⟩, rest, rfl, rfl, hrest⟩ := List.map_eq_cons_iff.mp h
  obtain ⟨between, last, behind, rfl, hbetween, hbehind⟩ := exists_split_of_map_token hrest
  obtain rfl := List.map_eq_nil_iff.mp hbehind
  exact ⟨first, between, last, rfl, hbetween⟩

theorem Derives.reads {rank : Rank} {tokens : List Token} {condition : Condition}
    (h : Derives rank tokens condition) :
    ∀ located : List Located, located.map Located.token = tokens →
      Reads rank located condition := by
  induction h with
  | ofConjunction _ ih => exact fun located heq => (ih located heq).ofConjunction
  | ofUnary _ ih => exact fun located heq => (ih located heq).ofUnary
  | ofPrimary _ ih => exact fun located heq => (ih located heq).ofPrimary
  | or _ _ ihfirst ihsecond =>
    intro located heq
    obtain ⟨first, offset, second, rfl, hfirst, hsecond⟩ := exists_split_of_map_token heq
    exact (ihfirst first hfirst).or (ihsecond second hsecond)
  | and _ _ ihfirst ihsecond =>
    intro located heq
    obtain ⟨first, offset, second, rfl, hfirst, hsecond⟩ := exists_split_of_map_token heq
    exact (ihfirst first hfirst).and (ihsecond second hsecond)
  | not _ ih =>
    intro located heq
    obtain ⟨⟨offset, _⟩, rest, rfl, rfl, hrest⟩ := List.map_eq_cons_iff.mp heq
    exact (ih rest hrest).not
  | group _ ih =>
    intro located heq
    obtain ⟨first, between, last, rfl, hbetween⟩ := exists_between_of_map_token heq
    exact (ih between hbetween).group
  | compare comparison hleft hright =>
    intro located heq
    obtain ⟨first, rest, rfl, rfl, hrest⟩ := List.map_eq_cons_iff.mp heq
    obtain ⟨⟨offset, _⟩, final, rfl, rfl, hfinal⟩ := List.map_eq_cons_iff.mp hrest
    obtain ⟨second, rfl, rfl⟩ := List.map_eq_singleton_iff.mp hfinal
    exact .compare comparison hleft hright
  | truthy hdenotes =>
    intro located heq
    obtain ⟨token, rfl, rfl⟩ := List.map_eq_singleton_iff.mp heq
    exact .truthy hdenotes

/-- Located tokens form a condition exactly when the grammar derives it from them. -/
theorem ofTokens_eq_ok_iff {length : Nat} {tokens : List Located} {condition : Condition} :
    ofTokens length tokens = .ok condition ↔
      Derives .disjunction (tokens.map Located.token) condition := by
  unfold ofTokens
  constructor
  · intro h
    split at h
    · cases h
    · obtain ⟨state, hrun, hfinish⟩ := bind_eq_ok_iff.mp h
      have hspells := State.Spells.start.run hrun
      exact hspells.finish hfinish
  · intro h
    have hne : tokens ≠ [] := by
      intro hnil
      subst hnil
      exact h.ne_nil rfl
    obtain ⟨phase, level, part, hrun, hholds, hpart⟩ := h.reads tokens rfl .start [] rfl
    rw [if_neg (by simpa using hne), bind_eq_ok_iff]
    exact ⟨_, hrun, finish_eq_ok_iff.mpr ⟨part, hholds, rfl, hpart⟩⟩

theorem Derives.unique {tokens : List Token} {first second : Condition}
    (hfirst : Derives .disjunction tokens first) (hsecond : Derives .disjunction tokens second) :
    first = second := by
  have hmap : (tokens.map (Located.mk 0)).map Located.token = tokens := by
    rw [List.map_map]
    exact List.map_id tokens
  have hread : ∀ condition, Derives .disjunction tokens condition →
      ofTokens 0 (tokens.map (Located.mk 0)) = .ok condition := by
    intro condition h
    rw [ofTokens_eq_ok_iff, hmap]
    exact h
  exact Except.ok.inj ((hread first hfirst).symm.trans (hread second hsecond))

/-- The conditions are those of the grammar. A text states a condition
exactly when its tokens derive it, and no token sequence derives two. -/
theorem parse_eq_ok_iff_derives (text : String) (condition : Condition) :
    (parse text = .ok condition ↔
      ∃ tokens, scan 0 text.toList = .ok tokens ∧
        Derives .disjunction (tokens.map Located.token) condition) ∧
    ∀ tokens : List Token, {stated | Derives .disjunction tokens stated}.Subsingleton := by
  refine ⟨?_, fun tokens first hfirst second hsecond => hfirst.unique hsecond⟩
  unfold parse parseChars
  rw [bind_eq_ok_iff]
  simp only [ofTokens_eq_ok_iff]

example : parse "!a && b || c" =
    .ok (.or (.and (.not (.truthy (.literal "a"))) (.truthy (.literal "b")))
      (.truthy (.literal "c"))) := by
  decide +kernel

end LayeredIni.Condition
