/-
# Parsing conditions

Conditions are read from their tokens in one pass. Negation binds tighter
than conjunction, conjunction tighter than disjunction, and both connectives
associate to the left; parentheses group and leave no trace in the result.

The parser keeps what it has read in a `State`. A `Level` holds the parts of
one parenthesised condition that wait for their right-hand side, a `Frame`
what surrounds an open parenthesis, and a `Phase` what the last token was part
of. `State.step` takes one token, so the parser never looks past the first
token that cannot continue a condition.
-/

import LayeredIni.Condition.Scan

namespace LayeredIni

namespace Condition

/-- The parts of a condition that wait for the next subcondition. -/
structure Level where
  /-- What stands before the last `||`. -/
  disjunct : Option Condition
  /-- What stands between there and the last `&&`. -/
  conjunct : Option Condition
  /-- The number of negations after that. -/
  negations : Nat
deriving DecidableEq, Repr

/-- Nothing waits at the start of a condition. -/
def Level.start : Level :=
  ⟨none, none, 0⟩

/-- A condition under a number of negations. -/
def negate : Nat → Condition → Condition
  | 0, condition => condition
  | n + 1, condition => .not (negate n condition)

/-- The level's last conjunction, completed by a subcondition. -/
def Level.conjunction (level : Level) (condition : Condition) : Condition :=
  match level.conjunct with
  | none => negate level.negations condition
  | some left => .and left (negate level.negations condition)

/-- The whole level, completed by a subcondition. -/
def Level.disjunction (level : Level) (condition : Condition) : Condition :=
  match level.disjunct with
  | none => level.conjunction condition
  | some left => .or left (level.conjunction condition)

/-- The surroundings of an open parenthesis. -/
structure Frame where
  /-- Where the parenthesis stands. -/
  offset : Nat
  /-- The level in which it stands. -/
  level : Level
deriving DecidableEq, Repr

/-- What the last token was part of. -/
inductive Phase
  /-- A subcondition must start here. -/
  | expecting
  /-- An operand that a comparison may follow. -/
  | operand (operand : Operand)
  /-- The left-hand side of a comparison whose right-hand side must come. -/
  | comparing (left : Operand) (comparison : Comparison)
  /-- A subcondition that only a connective or a parenthesis can follow. -/
  | complete (condition : Condition)
deriving DecidableEq, Repr

/-- Everything the parser knows after some tokens. -/
structure State where
  /-- What the last token was part of. -/
  phase : Phase
  /-- The innermost level. -/
  level : Level
  /-- The open parentheses, the innermost first. -/
  frames : List Frame
deriving DecidableEq, Repr

/-- The state before the first token. -/
def State.start : State :=
  ⟨.expecting, .start, []⟩

/-- Takes a token after a subcondition that it does not extend. -/
def State.resume (state : State) (condition : Condition) (next : Located) :
    Except Error State :=
  match next.token, state.frames with
  | .and, frames =>
    let left := state.level.conjunction condition
    .ok ⟨.expecting, ⟨state.level.disjunct, some left, 0⟩, frames⟩
  | .or, frames =>
    let left := state.level.disjunction condition
    .ok ⟨.expecting, ⟨some left, none, 0⟩, frames⟩
  | .closing, frame :: frames =>
    .ok ⟨.complete (state.level.disjunction condition), frame.level, frames⟩
  | .closing, [] => .error ⟨next.offset, .unopenedParenthesis⟩
  | _, frame :: _ => .error ⟨frame.offset, .unclosedParenthesis⟩
  | token, [] => .error ⟨next.offset, .trailingToken token⟩

/-- Takes one token. -/
def State.step (state : State) (next : Located) : Except Error State :=
  match state.phase, next.token with
  | .expecting, .opening =>
    .ok ⟨.expecting, .start, ⟨next.offset, state.level⟩ :: state.frames⟩
  | .expecting, .not =>
    .ok { state with level.negations := state.level.negations + 1 }
  | .expecting, token =>
    match token.operand? with
    | some operand => .ok { state with phase := .operand operand }
    | none => .error ⟨next.offset, .missingOperand token⟩
  | .comparing left comparison, token =>
    match token.operand? with
    | some right => .ok { state with phase := .complete (.compare left comparison right) }
    | none => .error ⟨next.offset, .missingOperand token⟩
  | .operand left, .comparison comparison =>
    .ok { state with phase := .comparing left comparison }
  | .operand operand, _ => state.resume (.truthy operand) next
  | .complete condition, _ => state.resume condition next

/-- The condition that ends in a given subcondition, unless a parenthesis is open. -/
def State.close (state : State) (condition : Condition) : Except Error Condition :=
  match state.frames with
  | [] => .ok (state.level.disjunction condition)
  | frame :: _ => .error ⟨frame.offset, .unclosedParenthesis⟩

/-- The condition that a text of `length` characters ends with in this state. -/
def State.finish (state : State) (length : Nat) : Except Error Condition :=
  match state.phase with
  | .expecting => .error ⟨length, .unexpectedEnd⟩
  | .comparing _ _ => .error ⟨length, .unexpectedEnd⟩
  | .operand operand => state.close (.truthy operand)
  | .complete condition => state.close condition

/-- The condition that the tokens of a text of `length` characters form. -/
def ofTokens (length : Nat) (tokens : List Located) : Except Error Condition :=
  if tokens.isEmpty then .error ⟨0, .noTokens⟩
  else do
    let state ← tokens.foldlM State.step State.start
    state.finish length

/-- The condition that a text states. -/
def parseChars (text : List Char) : Except Error Condition := do
  ofTokens text.length (← scan 0 text)

/-- The condition that a text states. -/
def parse (text : String) : Except Error Condition :=
  parseChars text.toList

end Condition

end LayeredIni
