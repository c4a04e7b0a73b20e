/-
# Written tokens are scanned

A token can be written in several ways: a connective by its symbol or by its
word in any letter case, a name with or without braces. Each of them is scanned
as the token, provided that what follows it is not read as more of it. For a
list of tokens this is a matter of which token stands directly before which, so
that any blanks may stand between them, but need not.
-/

import LayeredIni.Condition.Scan
import LayeredIni.Proofs.Document.Line
import Mathlib.Data.List.Chain

namespace LayeredIni

open LayeredIni.Text LayeredIni.Document

namespace Text

/-- Whether every range of one set ends before or starts behind those of another. -/
def Ranges.apart (first second : Ranges) : Bool :=
  first.all fun (low, high) => second.all fun (start, stop) =>
    Nat.blt high start || Nat.blt stop low

theorem Ranges.contains_of_apart {first second : Ranges} {c : Char}
    (hapart : first.apart second = true) (h : first.contains c = true) :
    second.contains c = false := by
  obtain ⟨⟨low, high⟩, hrange, hbounds⟩ := List.any_eq_true.mp h
  apply List.any_eq_false.mpr
  rintro ⟨start, stop⟩ hother
  have hsides := List.all_eq_true.mp (List.all_eq_true.mp hapart _ hrange) _ hother
  simp only [Bool.or_eq_true, Bool.and_eq_true, Nat.blt_eq, decide_eq_true_eq] at hsides hbounds ⊢
  omega

/-- The ASCII letters and digits. -/
def asciiAlphanumericRanges : Ranges :=
  [(0x30, 0x39), (0x41, 0x5A), (0x61, 0x7A)]

theorem isAlphanum_iff {c : Char} :
    c.isAlphanum = true ↔ asciiAlphanumericRanges.contains c = true := by
  have hclass : c.isAlphanum = (decide (0x41 ≤ c.toNat ∧ c.toNat ≤ 0x5A) ||
      decide (0x61 ≤ c.toNat) && decide (c.toNat ≤ 0x7A) ||
      decide (0x30 ≤ c.toNat) && decide (c.toNat ≤ 0x39)) := rfl
  simp only [hclass, Ranges.contains, asciiAlphanumericRanges, List.any_cons, List.any_nil,
    Bool.or_false, Bool.or_eq_true, Bool.and_eq_true, decide_eq_true_eq]
  omega

theorem isAlphanumeric_of_isBlank {c : Char} (h : isBlank c = true) :
    isAlphanumeric c = false := by
  have hascii : blankRanges.apart asciiAlphanumericRanges = true := by decide
  have hother : blankRanges.apart alphanumericRanges = true := by decide +kernel
  rw [isAlphanumeric]
  split
  · rw [Bool.eq_false_iff, Ne, isAlphanum_iff, Ranges.contains_of_apart hascii h]
    exact Bool.false_ne_true
  · exact Ranges.contains_of_apart hother h

/-- Only letters and digits become letters and digits in lower case. -/
theorem isAlphanum_of_toLower {c : Char} (h : c.toLower.isAlphanum = true) :
    c.isAlphanum = true := by
  unfold Char.toLower at h
  split at h
  · next hcapital =>
    have hupper : c.isUpper = true := decide_eq_true hcapital
    show (c.isUpper || c.isLower || c.isDigit) = true
    rw [hupper]
    rfl
  · exact h

theorem isOneOf_iff {words : List String} {text : List Char} :
    isOneOf words text = true ↔ String.ofList (lowerCase text) ∈ words := by
  rw [isOneOf, List.any_eq_true]
  constructor
  · rintro ⟨word, hword, heq⟩
    rwa [← beq_iff_eq.mp heq, String.ofList_toList]
  · exact fun hmem => ⟨_, hmem, by simp⟩

/-- A run of characters is taken up to the first character that ends it. -/
theorem takeWhile_dropWhile_append {p : Char → Bool} {front rest : List Char}
    (hfront : ∀ c ∈ front, p c = true) (hrest : ∀ c ∈ rest.head?, p c = false) :
    (front ++ rest).takeWhile p = front ∧ (front ++ rest).dropWhile p = rest := by
  rw [List.takeWhile_append_of_pos hfront, List.dropWhile_append_of_pos hfront]
  cases rest with
  | nil => simp
  | cons c rest =>
    have hc : p c = false := hrest c rfl
    simp [hc]

/-- What is left behind a run of characters starts with one that ends it. -/
theorem head_dropWhile (p : Char → Bool) (text : List Char) :
    ∀ c ∈ (text.dropWhile p).head?, p c = false := by
  intro c hc
  have hhead := List.head?_dropWhile_not p text
  rw [Option.mem_def.mp hc] at hhead
  simpa using hhead

/-- A text is taken up to the first occurrence of a character, if there is one. -/
theorem takeWhile_dropWhile_of_not_mem {mark : Char} {front : List Char} (hfront : mark ∉ front)
    (rest : List Char) (hrest : ∀ c ∈ rest.head?, c = mark) :
    (front ++ rest).takeWhile (· != mark) = front ∧
      (front ++ rest).dropWhile (· != mark) = rest := by
  apply takeWhile_dropWhile_append
  · intro c hc
    apply bne_iff_ne.mpr
    rintro rfl
    exact hfront hc
  · intro c hc
    simp [hrest c hc]

end Text

namespace Condition

variable {c : Char} {rest : List Char}

theorem isWordChar_of_isNameChar (h : isNameChar c = true) : isWordChar c = true := by
  simp [isWordChar, h]

theorem isWordChar_of_isAlphanum (h : c.isAlphanum = true) : isWordChar c = true := by
  have hlast : ∀ range ∈ asciiAlphanumericRanges, range.2 < 0x80 := by decide
  have hascii : c.toNat < 0x80 := by
    obtain ⟨range, hrange, hbounds⟩ := List.any_eq_true.mp (isAlphanum_iff.mp h)
    rw [Bool.and_eq_true, decide_eq_true_eq, decide_eq_true_eq] at hbounds
    exact Nat.lt_of_le_of_lt hbounds.2 (hlast range hrange)
  apply isWordChar_of_isNameChar
  simp [isNameChar, isAlphanumeric, hascii, h]

theorem isWordChar_of_isBlank (h : isBlank c = true) : isWordChar c = false := by
  have hmark : ∀ mark, isBlank mark = false → (c == mark) = false := by
    intro mark hmark
    apply beq_false_of_ne
    rintro rfl
    rw [h] at hmark
    cases hmark
  rw [isWordChar, isNameChar, isAlphanumeric_of_isBlank h, hmark '_' (by decide),
    hmark '.' (by decide), hmark '-' (by decide), hmark '/' (by decide)]
  rfl

theorem isNameChar_of_isBlank (h : isBlank c = true) : isNameChar c = false := by
  rw [Bool.eq_false_iff]
  intro hname
  have hword := isWordChar_of_isNameChar hname
  rw [isWordChar_of_isBlank h] at hword
  cases hword

theorem isBlank_of_isWordChar (h : isWordChar c = true) : isBlank c = false := by
  rw [Bool.eq_false_iff]
  intro hblank
  rw [isWordChar_of_isBlank hblank] at h
  cases h

/-! ## Ways to write a token -/

/-- The symbol of a token that has one. -/
def Token.symbol? : Token → Option String
  | opening => some "("
  | closing => some ")"
  | and => some "&&"
  | or => some "||"
  | not => some "!"
  | comparison kind => some kind.symbol
  | _ => none

/-- The word of a connective, in lower case. -/
def Token.keyword? : Token → Option String
  | and => some "and"
  | or => some "or"
  | not => some "not"
  | _ => none

/-- The ways to write a token. -/
inductive Token.WrittenAs : Token → List Char → Prop
  | symbol {token : Token} {symbol : String} :
      token.symbol? = some symbol → WrittenAs token symbol.toList
  /-- The letters of a word may be in any case. -/
  | keyword {token : Token} {keyword : String} {spelling : List Char} :
      token.keyword? = some keyword → lowerCase spelling = keyword.toList →
      WrittenAs token spelling
  | name (name : String) : WrittenAs (.reference name) ('$' :: name.toList)
  | bracedName (name : String) :
      WrittenAs (.reference name) ('$' :: '\x7b' :: (name.toList ++ ['\x7d']))
  | quotation (text : String) : WrittenAs (.quotation text) (doubleQuoted text)

/-- The names that a condition can refer to. -/
def IsReference (name : String) : Prop :=
  name ≠ "" ∧ ∀ c ∈ name.toList, isNameChar c = true

/-- Whether a character that directly follows a token is read as more of it. -/
def Token.absorbs : Token → Char → Bool
  | and, c => isWordChar c
  | or, c => isWordChar c
  | not, c => isWordChar c || c == '='
  | comparison _, c => c == '='
  | reference _, c => isNameChar c
  | _, _ => false

/-! ## Reading a token -/

theorem readSymbol_eq_none (h : ∀ entry ∈ symbols, entry.1.head? ≠ some c) :
    readSymbol (c :: rest) = none := by
  rw [readSymbol, Option.map_eq_none_iff, List.find?_eq_none]
  intro entry hentry hstarts
  obtain ⟨more, hmore⟩ := List.isPrefixOf_iff_prefix.mp hstarts
  cases hspelling : entry.1 with
  | nil => exact absurd hspelling ((by decide : ∀ entry ∈ symbols, entry.1 ≠ []) entry hentry)
  | cons d spelling =>
    rw [hspelling] at hmore
    cases hmore
    exact h entry hentry (by rw [hspelling]; rfl)

theorem readSymbol_of_isWordChar (h : isWordChar c = true) : readSymbol (c :: rest) = none := by
  apply readSymbol_eq_none
  intro entry hentry hhead
  have hsymbols : ∀ entry ∈ symbols, entry.1.head?.any isWordChar = false := by decide
  have hnone := hsymbols entry hentry
  rw [hhead, Option.any_some, h] at hnone
  cases hnone

/-- A symbol is read, unless what follows makes it a longer one. -/
theorem readSymbol_append {token : Token} {symbol : String} (h : token.symbol? = some symbol)
    (hrest : ∀ c ∈ rest.head?, token.absorbs c = false) :
    readSymbol (symbol.toList ++ rest) = some (token, rest) := by
  have hequals : (∀ c ∈ rest.head?, (c == '=') = false) →
      ['='].isPrefixOf rest = false := by
    intro hhead
    cases rest with
    | nil => rfl
    | cons d rest =>
      have hd : d ≠ '=' := by simpa using hhead d rfl
      simp [List.isPrefixOf, hd.symm]
  cases token with
  | opening => cases h; rfl
  | closing => cases h; rfl
  | and => cases h; rfl
  | or => cases h; rfl
  | not =>
    cases h
    have hlonger := hequals fun c hc => (Bool.or_eq_false_iff.mp (hrest c hc)).2
    simp [readSymbol, symbols, hlonger]
  | comparison kind =>
    cases h
    have hlonger := hequals hrest
    cases kind <;> simp [readSymbol, symbols, Comparison.symbol, hlonger]
  | _ => cases h

theorem readToken_of_readSymbol {read : Token × List Char}
    (h : readSymbol (c :: rest) = some read) : readToken c rest = .ok read := by
  unfold readToken
  rw [h]

theorem readToken_word {more : List Char} (hc : isWordChar c = true)
    (hmore : ∀ d ∈ more, isWordChar d = true) (hrest : ∀ d ∈ rest.head?, isWordChar d = false) :
    readToken c (more ++ rest) = .ok (wordToken (c :: more), rest) := by
  have hother : c ≠ '$' ∧ c ≠ '"' ∧ c ≠ '\'' := by
    refine ⟨?_, ?_, ?_⟩ <;> (rintro rfl; revert hc; decide)
  obtain ⟨htake, hdrop⟩ := takeWhile_dropWhile_append hmore hrest
  unfold readToken
  rw [readSymbol_of_isWordChar hc]
  simp only [hother, hc, htake, hdrop, if_true, if_false]

theorem wordToken_of_keyword {token : Token} {keyword : String} {spelling : List Char}
    (hkeyword : token.keyword? = some keyword) (hcase : lowerCase spelling = keyword.toList) :
    wordToken spelling = token := by
  unfold wordToken isOneOf
  rw [hcase]
  cases token with
  | and => cases hkeyword; rfl
  | or => cases hkeyword; rfl
  | not => cases hkeyword; rfl
  | _ => cases hkeyword

theorem isWordChar_of_keyword {token : Token} {keyword : String} {spelling : List Char}
    (hkeyword : token.keyword? = some keyword) (hcase : lowerCase spelling = keyword.toList) :
    ∀ c ∈ spelling, isWordChar c = true := by
  have hletters : ∀ d ∈ keyword.toList, d.isAlphanum = true := by
    rw [← List.all_eq_true]
    cases token with
    | and => cases hkeyword; decide
    | or => cases hkeyword; decide
    | not => cases hkeyword; decide
    | _ => cases hkeyword
  intro c hc
  apply isWordChar_of_isAlphanum
  apply isAlphanum_of_toLower
  apply hletters
  rw [← hcase]
  exact List.mem_map_of_mem hc

theorem readToken_keyword {token : Token} {keyword : String} {more : List Char}
    (hkeyword : token.keyword? = some keyword) (hcase : lowerCase (c :: more) = keyword.toList)
    (hrest : ∀ d ∈ rest.head?, token.absorbs d = false) :
    readToken c (more ++ rest) = .ok (token, rest) := by
  have hends : ∀ d ∈ rest.head?, isWordChar d = false := by
    intro d hd
    have habsorbs := hrest d hd
    cases token with
    | and => exact habsorbs
    | or => exact habsorbs
    | not => exact (Bool.or_eq_false_iff.mp habsorbs).1
    | _ => cases hkeyword
  obtain ⟨hc, hmore⟩ := List.forall_mem_cons.mp (isWordChar_of_keyword hkeyword hcase)
  rw [readToken_word hc hmore hends, wordToken_of_keyword hkeyword hcase]

theorem readToken_brace (rest : List Char) : readToken '$' ('\x7b' :: rest) = readBraced rest := by
  have hsymbol : readSymbol ('$' :: '\x7b' :: rest) = none := readSymbol_eq_none (by decide)
  unfold readToken
  rw [hsymbol]
  rfl

theorem readToken_dollar (h : rest.head? ≠ some '\x7b') : readToken '$' rest = readName rest := by
  have hsymbol : readSymbol ('$' :: rest) = none := readSymbol_eq_none (by decide)
  unfold readToken
  rw [hsymbol]
  simp only [if_true]
  split
  · exact absurd rfl h
  · rfl

theorem readToken_name {name : String} (hname : IsReference name)
    (hrest : ∀ d ∈ rest.head?, isNameChar d = false) :
    readToken '$' (name.toList ++ rest) = .ok (.reference name, rest) := by
  obtain ⟨hne, hchars⟩ := hname
  have hfirst : (name.toList ++ rest).head? ≠ some '\x7b' := by
    have hnonempty : name.toList ≠ [] := by simpa using hne
    rw [List.head?_append_of_ne_nil _ hnonempty]
    intro hhead
    exact absurd (hchars _ (List.mem_of_head? hhead)) (by decide)
  obtain ⟨htake, hdrop⟩ := takeWhile_dropWhile_append hchars hrest
  rw [readToken_dollar hfirst]
  simp [readName, htake, hdrop, hne]

theorem readToken_bracedName {name : String} (hname : IsReference name) (rest : List Char) :
    readToken '$' ('\x7b' :: (name.toList ++ ['\x7d']) ++ rest) = .ok (.reference name, rest) := by
  obtain ⟨hne, hchars⟩ := hname
  have hinner : ∀ c ∈ name.toList, (c == '\x7d') = false := by
    intro c hc
    apply beq_false_of_ne
    rintro rfl
    exact absurd (hchars _ hc) (by decide)
  have hcut : cutAtFirst (· == '\x7d') (name.toList ++ '\x7d' :: rest) =
      some (name.toList, rest) := cutAtFirst_append_cons hinner rfl rest
  have hall : name.toList.all isNameChar = true := List.all_eq_true.mpr hchars
  rw [List.cons_append, readToken_brace]
  simp [readBraced, hcut, hne, hall]

theorem readEscaped_escaped (value rest : List Char) :
    readEscaped (escaped value ++ '"' :: rest) = some (value, rest) := by
  induction value with
  | nil => rfl
  | cons c more ih =>
    by_cases hc : c = '"' ∨ c = '\\'
    · have hstep : escaped (c :: more) ++ '"' :: rest =
          '\\' :: c :: (escaped more ++ '"' :: rest) := by
        simp [escaped, hc]
      rw [hstep, readEscaped, ih]
      rfl
    · have hstep : escaped (c :: more) ++ '"' :: rest = c :: (escaped more ++ '"' :: rest) := by
        simp [escaped, hc]
      rw [hstep, readEscaped, ih]
      · rfl
      · exact fun heq => hc (.inl heq)
      · exact fun d last heq => absurd (.inr heq) hc

theorem readToken_doubleQuote (rest : List Char) :
    readToken '"' rest = closeQuotation (readEscaped rest) := by
  have hsymbol : readSymbol ('"' :: rest) = none := readSymbol_eq_none (by decide)
  unfold readToken
  rw [hsymbol]
  rfl

theorem readToken_singleQuote (rest : List Char) :
    readToken '\'' rest = closeQuotation (cutAtFirst (· == '\'') rest) := by
  have hsymbol : readSymbol ('\'' :: rest) = none := readSymbol_eq_none (by decide)
  unfold readToken
  rw [hsymbol]
  rfl

theorem readToken_quotation (text : String) (rest : List Char) :
    readToken '"' (escaped text.toList ++ ['"'] ++ rest) = .ok (.quotation text, rest) := by
  have hread : readEscaped (escaped text.toList ++ ['"'] ++ rest) = some (text.toList, rest) := by
    rw [List.append_assoc]
    exact readEscaped_escaped text.toList rest
  rw [readToken_doubleQuote, hread]
  simp [closeQuotation]

theorem exists_cons_of_symbol {token : Token} {symbol : String}
    (h : token.symbol? = some symbol) :
    ∃ c more, symbol.toList = c :: more ∧ isBlank c = false := by
  cases token with
  | comparison kind =>
    cases h
    cases kind <;> exact ⟨_, _, rfl, by decide⟩
  | reference name => cases h
  | quotation text => cases h
  | word text => cases h
  | _ => cases h; exact ⟨_, _, rfl, by decide⟩

theorem exists_cons_of_keyword {token : Token} {keyword : String} {spelling : List Char}
    (hkeyword : token.keyword? = some keyword) (hcase : lowerCase spelling = keyword.toList) :
    ∃ c more, spelling = c :: more := by
  apply List.exists_cons_of_ne_nil
  rintro rfl
  cases token with
  | and => cases hkeyword; cases hcase
  | or => cases hkeyword; cases hcase
  | not => cases hkeyword; cases hcase
  | _ => cases hkeyword

/-- A written token is read, unless what follows is read as more of it. -/
theorem Token.WrittenAs.read {token : Token} {spelling : List Char} (h : token.WrittenAs spelling)
    (hname : ∀ name, token = .reference name → IsReference name)
    (hrest : ∀ c ∈ rest.head?, token.absorbs c = false) :
    ∃ c more, spelling = c :: more ∧ isBlank c = false ∧
      readToken c (more ++ rest) = .ok (token, rest) := by
  cases h with
  | @symbol _ symbol hsymbol =>
    obtain ⟨c, more, hspelling, hblank⟩ := exists_cons_of_symbol hsymbol
    have hread := readSymbol_append hsymbol hrest
    rw [hspelling] at hread ⊢
    exact ⟨c, more, rfl, hblank, readToken_of_readSymbol hread⟩
  | @keyword _ keyword _ hkeyword hcase =>
    obtain ⟨c, more, rfl⟩ := exists_cons_of_keyword hkeyword hcase
    have hletter : isWordChar c = true :=
      isWordChar_of_keyword hkeyword hcase c (List.mem_cons_self ..)
    exact ⟨c, more, rfl, isBlank_of_isWordChar hletter, readToken_keyword hkeyword hcase hrest⟩
  | name name =>
    exact ⟨'$', name.toList, rfl, by decide, readToken_name (hname name rfl) hrest⟩
  | bracedName name =>
    exact ⟨'$', _, rfl, by decide, readToken_bracedName (hname name rfl) rest⟩
  | quotation text => exact ⟨'"', _, rfl, by decide, readToken_quotation text rest⟩

/-! ## Scanning a text -/

theorem scan_append_of_blank {blanks : List Char} (h : ∀ c ∈ blanks, isBlank c = true)
    (offset : Nat) (text : List Char) :
    scan offset (blanks ++ text) = scan (offset + blanks.length) text := by
  induction blanks generalizing offset with
  | nil => rfl
  | cons c blanks ih =>
    obtain ⟨hc, hblanks⟩ := List.forall_mem_cons.mp h
    rw [List.cons_append, scan, if_pos hc, ih hblanks, List.length_cons]
    congr 1
    omega

/-- A token is scanned where it starts, and the rest from where it ends. -/
theorem scan_of_readToken {token : Token} {after : List Char} {tokens : List Located}
    {offset : Nat} (hc : isBlank c = false) (hread : readToken c rest = .ok (token, after))
    (hrest : scan (offset + (1 + rest.length - after.length)) after = .ok tokens) :
    scan offset (c :: rest) = .ok (⟨offset, token⟩ :: tokens) := by
  rw [scan, if_neg (by simp [hc])]
  split
  · next hfault =>
    rw [hread] at hfault
    cases hfault
  · next hok =>
    rw [hread] at hok
    cases hok
    rw [hrest]

/-- The texts that write a list of tokens: each in one of its ways, with any
blanks before, between and after them. -/
inductive Spaced : List Token → List Char → Prop
  | nil {blanks : List Char} : (∀ c ∈ blanks, isBlank c = true) → Spaced [] blanks
  | cons {token : Token} {tokens : List Token} {blanks spelling text : List Char} :
      (∀ c ∈ blanks, isBlank c = true) → token.WrittenAs spelling → Spaced tokens text →
      Spaced (token :: tokens) (blanks ++ (spelling ++ text))

/-- The first token can be written directly before the second one. -/
def Token.Precedes (first second : Token) : Prop :=
  ∀ spelling, second.WrittenAs spelling → ∀ c ∈ spelling.head?, first.absorbs c = false

theorem Token.absorbs_of_isBlank (token : Token) (h : isBlank c = true) :
    token.absorbs c = false := by
  have hword := isWordChar_of_isBlank h
  have hname := isNameChar_of_isBlank h
  have hequals : c ≠ '=' := by
    rintro rfl
    exact absurd h (by decide)
  cases token <;> simp [absorbs, hword, hname, hequals]

theorem Token.WrittenAs.ne_nil {token : Token} {spelling : List Char}
    (h : token.WrittenAs spelling) : spelling ≠ [] := by
  cases h with
  | symbol hsymbol =>
    obtain ⟨c, more, hspelling, -⟩ := exists_cons_of_symbol hsymbol
    rw [hspelling]
    exact List.cons_ne_nil _ _
  | keyword hkeyword hcase =>
    obtain ⟨c, more, rfl⟩ := exists_cons_of_keyword hkeyword hcase
    exact List.cons_ne_nil _ _
  | name => exact List.cons_ne_nil _ _
  | bracedName => exact List.cons_ne_nil _ _
  | quotation => exact List.cons_ne_nil _ _

/-- What is written after a token is not read as more of it, if the next token
can stand directly after it. -/
theorem Spaced.not_absorbed {token : Token} {tokens : List Token} {text : List Char}
    (h : Spaced tokens text) (hnext : ∀ next ∈ tokens.head?, token.Precedes next) :
    ∀ c ∈ text.head?, token.absorbs c = false := by
  intro c hc
  cases h with
  | nil hblanks => exact token.absorbs_of_isBlank (hblanks c (List.mem_of_head? hc))
  | @cons next _ blanks spelling _ hblanks hwritten _ =>
    cases blanks with
    | nil =>
      rw [List.nil_append, List.head?_append_of_ne_nil _ hwritten.ne_nil] at hc
      exact hnext next rfl spelling hwritten c hc
    | cons blank blanks =>
      cases hc
      exact token.absorbs_of_isBlank (hblanks _ (List.mem_cons_self ..))

/-- A text that writes tokens is scanned into these tokens, if each of them
can stand directly before the next one. -/
theorem Spaced.exists_scan {tokens : List Token} {text : List Char} (h : Spaced tokens text)
    (hchain : tokens.IsChain Token.Precedes)
    (hnames : ∀ name, .reference name ∈ tokens → IsReference name) (offset : Nat) :
    ∃ located, scan offset text = .ok located ∧ located.map Located.token = tokens := by
  induction h generalizing offset with
  | @nil blanks hblanks =>
    have hscan := scan_append_of_blank hblanks offset []
    rw [List.append_nil] at hscan
    exact ⟨[], by rw [hscan, scan], rfl⟩
  | @cons token tokens blanks spelling text hblanks hwritten hrest ih =>
    obtain ⟨hnext, hchain⟩ := List.isChain_cons.mp hchain
    obtain ⟨c, more, rfl, hc, hread⟩ := hwritten.read
      (fun name heq => hnames name (heq ▸ List.mem_cons_self ..)) (hrest.not_absorbed hnext)
    obtain ⟨located, hscan, rfl⟩ := ih hchain
      (fun name hname => hnames name (List.mem_cons_of_mem _ hname))
      (offset + blanks.length + (1 + (more ++ text).length - text.length))
    refine ⟨⟨offset + blanks.length, token⟩ :: located, ?_, rfl⟩
    rw [scan_append_of_blank hblanks]
    exact scan_of_readToken hc hread hscan

end Condition

end LayeredIni
