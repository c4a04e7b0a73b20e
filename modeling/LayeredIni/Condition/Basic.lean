/-
# Conditions

A condition is a truth-functional combination of two kinds of tests: that an
operand is truthy, and that two operands compare in a given way. Operands are
texts, written out or looked up by name.
-/

namespace LayeredIni

/-- A text in a condition. -/
inductive Operand
  /-- The text that a name stands for. -/
  | reference (name : String)
  /-- The text itself. -/
  | literal (text : String)
deriving DecidableEq, Repr

/-- The ways of comparing two operands. -/
inductive Comparison
  | equal
  | unequal
  | less
  | atMost
  | greater
  | atLeast
deriving DecidableEq, Repr

/-- How a comparison is written. -/
def Comparison.symbol : Comparison → String
  | equal => "=="
  | unequal => "!="
  | less => "<"
  | atMost => "<="
  | greater => ">"
  | atLeast => ">="

/-- A test that a section header can make. -/
inductive Condition
  /-- The operand says neither nothing nor no. -/
  | truthy (operand : Operand)
  /-- The operands compare as stated. -/
  | compare (left : Operand) (comparison : Comparison) (right : Operand)
  /-- The condition fails. -/
  | not (condition : Condition)
  /-- Both conditions hold. -/
  | and (left right : Condition)
  /-- At least one of the conditions holds. -/
  | or (left right : Condition)
deriving DecidableEq, Repr

/-- The names that a condition refers to. -/
def Operand.names : Operand → List String
  | reference name => [name]
  | literal _ => []

/-- The names that a condition refers to, in the order in which they are written. -/
def Condition.names : Condition → List String
  | truthy operand => operand.names
  | compare left _ right => left.names ++ right.names
  | not condition => condition.names
  | and left right => left.names ++ right.names
  | or left right => left.names ++ right.names

end LayeredIni
