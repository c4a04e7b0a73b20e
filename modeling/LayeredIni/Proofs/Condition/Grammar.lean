/-
# The grammar of conditions

Which token sequences are conditions, and which condition each of them is, is
said here without any parser. A phrase belongs to one of four ranks, and a rank
is built from phrases of the next one, so that negation binds tighter than
conjunction and conjunction tighter than disjunction. The connectives are left
recursive: of several on one level, the last one is the outermost.

Nothing here decides how a sequence is read. That the reading is unique is a
consequence of the parser and is proved together with it.
-/

import LayeredIni.Condition.Token

namespace LayeredIni.Condition

/-- The operands that a token can stand for: a name for what it refers to, and
a text, in quotes or not, for itself. -/
inductive Token.Denotes : Token → Operand → Prop
  | reference (name : String) : Denotes (.reference name) (.reference name)
  | quotation (text : String) : Denotes (.quotation text) (.literal text)
  | word (text : String) : Denotes (.word text) (.literal text)

/-- The ranks of phrases, the loosest first. -/
inductive Rank
  /-- Conjunctions joined by `||`. -/
  | disjunction
  /-- Negated or plain phrases joined by `&&`. -/
  | conjunction
  /-- A phrase under any number of negations. -/
  | unary
  /-- A test, or a condition in parentheses. -/
  | primary
deriving DecidableEq, Repr

/-- The token sequences that form a phrase of a rank, with the condition that
each of them states. -/
inductive Derives : Rank → List Token → Condition → Prop
  | ofConjunction {tokens : List Token} {condition : Condition} :
      Derives .conjunction tokens condition → Derives .disjunction tokens condition
  | or {first second : List Token} {left right : Condition} :
      Derives .disjunction first left → Derives .conjunction second right →
      Derives .disjunction (first ++ .or :: second) (.or left right)
  | ofUnary {tokens : List Token} {condition : Condition} :
      Derives .unary tokens condition → Derives .conjunction tokens condition
  | and {first second : List Token} {left right : Condition} :
      Derives .conjunction first left → Derives .unary second right →
      Derives .conjunction (first ++ .and :: second) (.and left right)
  | ofPrimary {tokens : List Token} {condition : Condition} :
      Derives .primary tokens condition → Derives .unary tokens condition
  | not {tokens : List Token} {condition : Condition} :
      Derives .unary tokens condition → Derives .unary (.not :: tokens) (.not condition)
  /-- Parentheses group and leave no trace. -/
  | group {tokens : List Token} {condition : Condition} :
      Derives .disjunction tokens condition →
      Derives .primary (.opening :: (tokens ++ [.closing])) condition
  | compare {first second : Token} {left right : Operand} (comparison : Comparison) :
      first.Denotes left → second.Denotes right →
      Derives .primary [first, .comparison comparison, second] (.compare left comparison right)
  | truthy {token : Token} {operand : Operand} :
      token.Denotes operand → Derives .primary [token] (.truthy operand)

theorem Derives.ne_nil {rank : Rank} {tokens : List Token} {condition : Condition}
    (h : Derives rank tokens condition) : tokens ≠ [] := by
  induction h with
  | ofConjunction _ ih => exact ih
  | ofUnary _ ih => exact ih
  | ofPrimary _ ih => exact ih
  | or => simp
  | and => simp
  | not => simp
  | group => simp
  | compare => simp
  | truthy => simp

end LayeredIni.Condition
