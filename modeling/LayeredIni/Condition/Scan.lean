/-
# Reading tokens

`scan` splits a text into the tokens that it consists of. A token is read at
the first character that is no blank; which reader applies is decided by the
characters found there, and every reader takes as much as it can.
-/

import LayeredIni.Condition.Token
import LayeredIni.Text.Alphanumeric
import LayeredIni.Text.Basic
import LayeredIni.Text.Split

namespace LayeredIni.Condition

open LayeredIni.Text

/-- A character of a name. -/
def isNameChar (c : Char) : Bool :=
  isAlphanumeric c || c == '_'

/-- A character of a bare word. -/
def isWordChar (c : Char) : Bool :=
  isNameChar c || c == '.' || c == '-' || c == '/'

/-- The spellings of the tokens that are not made of word characters. A
spelling that starts another one comes after it, so that the first spelling
found is the longest. -/
def symbols : List (List Char × Token) :=
  [ (['&', '&'], .and), (['|', '|'], .or),
    (['=', '='], .comparison .equal), (['!', '='], .comparison .unequal),
    (['<', '='], .comparison .atMost), (['>', '='], .comparison .atLeast),
    (['<'], .comparison .less), (['>'], .comparison .greater),
    (['!'], .not), (['('], .opening), ([')'], .closing) ]

/-- Reads the symbol that a text starts with, if it starts with one. -/
def readSymbol (text : List Char) : Option (Token × List Char) :=
  (symbols.find? fun (spelling, _) => spelling.isPrefixOf text).map fun (spelling, token) =>
    (token, text.drop spelling.length)

/-- Reads a name in braces, after its opening brace. -/
def readBraced (text : List Char) : Except Fault (Token × List Char) :=
  match cutAtFirst (· == '\x7d') text with
  | none => .error .unterminatedReference
  | some (name, after) =>
    if name.isEmpty || !name.all isNameChar then .error (.invalidName name)
    else .ok (.reference (String.ofList name), after)

/-- Reads a name, after its dollar sign. -/
def readName (text : List Char) : Except Fault (Token × List Char) :=
  let name := text.takeWhile isNameChar
  if name.isEmpty then .error .missingName
  else .ok (.reference (String.ofList name), text.dropWhile isNameChar)

/-- Reads up to a closing double quote and returns what follows it. A backslash
makes the next character part of the text, whatever it is. -/
def readEscaped : List Char → Option (List Char × List Char)
  | [] => none
  | '"' :: rest => some ([], rest)
  | '\\' :: c :: rest => (readEscaped rest).map fun (text, after) => (c :: text, after)
  | c :: rest => (readEscaped rest).map fun (text, after) => (c :: text, after)

/-- The token of a quotation that was read to its end. -/
def closeQuotation : Option (List Char × List Char) → Except Fault (Token × List Char)
  | none => .error .unterminatedQuotation
  | some (text, after) => .ok (.quotation (String.ofList text), after)

/-- The token of a bare word: a connective in any letter case, or the word itself. -/
def wordToken (word : List Char) : Token :=
  if isOneOf ["and"] word then .and
  else if isOneOf ["or"] word then .or
  else if isOneOf ["not"] word then .not
  else .word (String.ofList word)

/-- Reads the token that starts with `c` and returns what follows it. -/
def readToken (c : Char) (rest : List Char) : Except Fault (Token × List Char) :=
  match readSymbol (c :: rest) with
  | some read => .ok read
  | none =>
    if c = '$' then
      match rest with
      | '\x7b' :: rest => readBraced rest
      | rest => readName rest
    else if c = '"' then closeQuotation (readEscaped rest)
    else if c = '\'' then closeQuotation (cutAtFirst (· == '\'') rest)
    else if isWordChar c then
      .ok (wordToken (c :: rest.takeWhile isWordChar), rest.dropWhile isWordChar)
    else .error (.unknownOperator c)

theorem length_cutAtFirst_le {mark : Char → Bool} {text before after : List Char}
    (h : cutAtFirst mark text = some (before, after)) : after.length ≤ text.length := by
  induction text generalizing before after with
  | nil => simp [cutAtFirst] at h
  | cons c rest ih =>
    unfold cutAtFirst at h
    split at h
    · cases h; simp
    · obtain ⟨⟨b, a⟩, hcut, heq⟩ := Option.map_eq_some_iff.mp h
      cases heq
      exact Nat.le_succ_of_le (ih hcut)

theorem length_readEscaped_le {text value after : List Char}
    (h : readEscaped text = some (value, after)) : after.length ≤ text.length := by
  fun_induction readEscaped text generalizing value after with
  | case1 => simp at h
  | case2 => cases h; simp
  | case3 c rest ih =>
    obtain ⟨⟨t, a⟩, hread, heq⟩ := Option.map_eq_some_iff.mp h
    cases heq
    have := ih hread
    simp only [List.length_cons]; omega
  | case4 c rest _ _ ih =>
    obtain ⟨⟨t, a⟩, hread, heq⟩ := Option.map_eq_some_iff.mp h
    cases heq
    exact Nat.le_succ_of_le (ih hread)

theorem length_dropWhile_le (p : Char → Bool) (text : List Char) :
    (text.dropWhile p).length ≤ text.length :=
  (List.dropWhile_suffix p).length_le

theorem length_closeQuotation_le {bound : Nat} {read : Option (List Char × List Char)}
    {token : Token} {after : List Char}
    (hread : ∀ text after, read = some (text, after) → after.length ≤ bound)
    (h : closeQuotation read = .ok (token, after)) : after.length ≤ bound := by
  match read, h with
  | some (text, rest), h =>
    cases h
    exact hread _ _ rfl

theorem length_readSymbol_le {c : Char} {rest after : List Char} {token : Token}
    (h : readSymbol (c :: rest) = some (token, after)) : after.length ≤ rest.length := by
  obtain ⟨⟨spelling, t⟩, hfind, heq⟩ := Option.map_eq_some_iff.mp h
  have hpositive : ∀ entry ∈ symbols, 0 < entry.1.length := by decide
  have hspelling : 0 < spelling.length := hpositive _ (List.mem_of_find?_eq_some hfind)
  cases heq
  simp only [List.length_drop, List.length_cons]; omega

theorem length_readToken_le {c : Char} {rest after : List Char} {token : Token}
    (h : readToken c rest = .ok (token, after)) : after.length ≤ rest.length := by
  unfold readToken at h
  split at h
  · next hsymbol =>
    cases h
    exact length_readSymbol_le hsymbol
  · split at h
    · split at h
      · next inner =>
        unfold readBraced at h
        split at h
        · simp at h
        · next hcut =>
          split at h
          · simp at h
          · cases h
            exact Nat.le_succ_of_le (length_cutAtFirst_le hcut)
      · unfold readName at h
        dsimp only at h
        split at h
        · simp at h
        · cases h
          exact length_dropWhile_le _ _
    · split at h
      · exact length_closeQuotation_le (fun _ _ => length_readEscaped_le) h
      · split at h
        · exact length_closeQuotation_le (fun _ _ => length_cutAtFirst_le) h
        · split at h
          · cases h
            exact length_dropWhile_le _ _
          · simp at h

/-- The tokens of a text that starts after `offset` characters, or the first
place where no token can be read. -/
def scan (offset : Nat) : List Char → Except Error (List Located)
  | [] => .ok []
  | c :: rest =>
    if isBlank c then scan (offset + 1) rest
    else
      match h : readToken c rest with
      | .error fault => .error ⟨offset, fault⟩
      | .ok (token, after) =>
        have : after.length ≤ rest.length := length_readToken_le h
        match scan (offset + (1 + rest.length - after.length)) after with
        | .error error => .error error
        | .ok tokens => .ok (⟨offset, token⟩ :: tokens)
termination_by text => text.length

end LayeredIni.Condition
