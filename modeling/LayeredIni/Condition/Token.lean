/-
# The tokens of conditions

The words of the condition language: parentheses, connectives, comparisons
and operands. Each stands in a text at an offset that counts characters.
-/

import LayeredIni.Condition.Basic

namespace LayeredIni.Condition

/-- A token of the condition language. -/
inductive Token
  /-- An opening parenthesis. -/
  | opening
  /-- A closing parenthesis. -/
  | closing
  /-- The connective `&&`, also written `and`. -/
  | and
  /-- The connective `||`, also written `or`. -/
  | or
  /-- The negation `!`, also written `not`. -/
  | not
  /-- A comparison. -/
  | comparison (comparison : Comparison)
  /-- A reference to a name. -/
  | reference (name : String)
  /-- A quoted text. -/
  | quotation (text : String)
  /-- A bare word. -/
  | word (text : String)
deriving DecidableEq, Repr

/-- How a diagnostic speaks of a token. -/
def Token.description : Token → String
  | opening => "'('"
  | closing => "')'"
  | and => "'&&'"
  | or => "'||'"
  | not => "'!'"
  | comparison _ => "comparison"
  | reference name => "'$" ++ name ++ "'"
  | quotation text => "string \"" ++ text ++ "\""
  | word text => "'" ++ text ++ "'"

/-- The operand that a token denotes, if it denotes one. -/
def Token.operand? : Token → Option Operand
  | reference name => some (Operand.reference name)
  | quotation text => some (.literal text)
  | word text => some (.literal text)
  | _ => none

/-- A token with the number of characters before it. -/
structure Located where
  /-- The number of characters before the token. -/
  offset : Nat
  /-- The token. -/
  token : Token
deriving DecidableEq, Repr

/-- What is wrong with a text that is no condition. -/
inductive Fault
  /-- A reference whose brace is never closed. -/
  | unterminatedReference
  /-- A reference in braces to something that is no name. -/
  | invalidName (name : List Char)
  /-- A dollar sign without a name. -/
  | missingName
  /-- A quoted text without its closing quote. -/
  | unterminatedQuotation
  /-- A character that begins no token. -/
  | unknownOperator (operator : Char)
  /-- A text without any token. -/
  | noTokens
  /-- A token where an operand must stand. -/
  | missingOperand (found : Token)
  /-- The end of the text where an operand must stand. -/
  | unexpectedEnd
  /-- An opening parenthesis that nothing closes in time. -/
  | unclosedParenthesis
  /-- A closing parenthesis that nothing opened. -/
  | unopenedParenthesis
  /-- A token after a complete condition. -/
  | trailingToken (found : Token)
deriving DecidableEq, Repr

/-- The wording of a fault. -/
def Fault.message : Fault → String
  | unterminatedReference => "unterminated '$\x7b'"
  | invalidName name => "invalid name '$\x7b" ++ String.ofList name ++ "\x7d'"
  | missingName => "expected a name after '$'"
  | unterminatedQuotation => "unterminated string"
  | unknownOperator operator => "unknown operator '" ++ operator.toString ++ "'"
  | noTokens => "empty condition"
  | missingOperand found => "expected a value, found " ++ found.description
  | unexpectedEnd => "unexpected end of condition"
  | unclosedParenthesis => "unbalanced '('"
  | unopenedParenthesis => "unbalanced ')'"
  | trailingToken found => "unexpected " ++ found.description ++ " after condition"

/-- A fault with the number of characters before it. -/
structure Error where
  /-- The number of characters before the fault. -/
  offset : Nat
  /-- What is wrong there. -/
  fault : Fault
deriving DecidableEq, Repr

/-- The wording of the error. -/
def Error.message (error : Error) : String :=
  "at offset " ++ toString error.offset ++ ": " ++ error.fault.message

end LayeredIni.Condition
