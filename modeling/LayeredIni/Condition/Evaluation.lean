/-
# The truth of conditions

A condition is evaluated in a scope. Equality compares texts as they are. The
order of two texts is the order of the numbers they denote if both denote one
after trimming, and else the order of their code points; `nan` denotes what
compares with nothing.
-/

import LayeredIni.Condition.Basic
import LayeredIni.Number.Binary
import LayeredIni.Scope
import LayeredIni.Text.Basic

namespace LayeredIni

open LayeredIni.Text LayeredIni.Number

/-- The text that an operand stands for. -/
def Operand.text (scope : Scope) : Operand → String
  | reference name => scope.text name
  | literal text => text

namespace Comparison

/-- The number that a text denotes between its blanks. -/
def number? (text : String) : Option Binary :=
  Binary.parse? .double (trim text.toList)

/-- The order of two texts, as numbers if both denote one. -/
def order? (left right : String) : Option Ordering :=
  match number? left, number? right with
  | some first, some second => first.compare? second
  | _, _ => some (compare left right)

/-- Whether two texts compare in a given way. -/
def holds (left right : String) : Comparison → Bool
  | equal => left == right
  | unequal => left != right
  | less => (order? left right).any (· == .lt)
  | atMost => (order? left right).any (· != .gt)
  | greater => (order? left right).any (· == .gt)
  | atLeast => (order? left right).any (· != .lt)

end Comparison

namespace Condition

/-- Whether a text counts as true by itself: it is neither blank nor one of the
words for no, in any letter case and between any blanks. -/
def isTruthy (text : String) : Bool :=
  !isOneOf ["", "0", "false", "off", "no"] (trim text.toList)

/-- Whether a condition holds in a scope. -/
def eval (scope : Scope) : Condition → Bool
  | truthy operand => isTruthy (operand.text scope)
  | compare left comparison right => comparison.holds (left.text scope) (right.text scope)
  | not condition => !condition.eval scope
  | and left right => left.eval scope && right.eval scope
  | or left right => left.eval scope || right.eval scope

end Condition

end LayeredIni
