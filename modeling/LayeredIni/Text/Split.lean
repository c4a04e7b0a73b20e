/-
# Cutting texts

A line is cut at its first equals sign, a quoted value at its closing quote,
and a dotted key at every occurrence of its separator. The functions here do
the cutting; none of them loses a character, apart from the marks that they
cut at.
-/

namespace LayeredIni.Text

/-- The texts before and after the first character that satisfies `mark`, if
there is one. -/
def cutAtFirst (mark : Char → Bool) : List Char → Option (List Char × List Char)
  | [] => none
  | c :: rest =>
    if mark c then some ([], rest)
    else (cutAtFirst mark rest).map fun (before, after) => (c :: before, after)

/-- The pieces of a text between the occurrences of the mark `first :: more`.
Occurrences are taken from the left and do not overlap; empty pieces count. -/
def pieces (first : Char) (more : List Char) : List Char → List (List Char)
  | [] => [[]]
  | c :: rest =>
    if c = first ∧ more.isPrefixOf rest then
      [] :: pieces first more (rest.drop more.length)
    else
      match pieces first more rest with
      | [] => [[c]]
      | piece :: others => (c :: piece) :: others
termination_by text => text.length
decreasing_by all_goals (simp only [List.length_cons, List.length_drop]; omega)

end LayeredIni.Text
