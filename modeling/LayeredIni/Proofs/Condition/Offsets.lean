/-
# Where tokens and faults stand

A token that is scanned has a spelling in the text, and its offset is the number
of characters before that spelling. The same is true of what cannot be read: the
text from the offset of an error on starts with what the error names. In either
case the first character is no blank. The parser adds no offsets of its own, so
that every error about a condition says in characters where its fault is.

Of the spellings in `Token.WrittenAs` a writer may choose any. `Token.ReadFrom`
also has those that are never written: bare words, text in single quotes, and
backslashes before characters that need none.
-/

import LayeredIni.Proofs.Condition.Rejection
import LayeredIni.Proofs.Condition.Scan

namespace LayeredIni.Condition

open LayeredIni.Text LayeredIni.Fallible

variable {c : Char} {rest : List Char}

/-- The texts between double quotes that stand for a text: a backslash stands
for nothing, and the character after it for itself. -/
inductive Unescapes : List Char → List Char → Prop
  | nil : Unescapes [] []
  | plain {c : Char} {body text : List Char} :
      c ≠ '"' → c ≠ '\\' → Unescapes body text → Unescapes (c :: body) (c :: text)
  | escaped (c : Char) {body text : List Char} :
      Unescapes body text → Unescapes ('\\' :: c :: body) (c :: text)

/-- What a token can be read from. -/
inductive Token.ReadFrom : Token → List Char → Prop
  | symbol {token : Token} {symbol : String} :
      token.symbol? = some symbol → ReadFrom token symbol.toList
  | keyword {token : Token} {keyword : String} {spelling : List Char} :
      token.keyword? = some keyword → lowerCase spelling = keyword.toList →
      ReadFrom token spelling
  | name (name : List Char) : ReadFrom (.reference (String.ofList name)) ('$' :: name)
  | bracedName (name : List Char) :
      ReadFrom (.reference (String.ofList name)) ('$' :: '\x7b' :: (name ++ ['\x7d']))
  | doubleQuoted {body text : List Char} :
      Unescapes body text → ReadFrom (.quotation (String.ofList text)) ('"' :: (body ++ ['"']))
  | singleQuoted {text : List Char} :
      '\'' ∉ text → ReadFrom (.quotation (String.ofList text)) ('\'' :: (text ++ ['\'']))
  | word {text : List Char} : text ≠ [] → ReadFrom (.word (String.ofList text)) text

/-- The text starts with a spelling of the token. -/
def Token.Starts (token : Token) (text : List Char) : Prop :=
  ∃ spelling after, token.ReadFrom spelling ∧ text = spelling ++ after

/-- The token that a fault speaks of. -/
def Fault.token? : Fault → Option Token
  | missingOperand found => some found
  | trailingToken found => some found
  | unclosedParenthesis => some .opening
  | unopenedParenthesis => some .closing
  | _ => none

/-- The texts that start with what a fault names. -/
inductive Fault.Starts : Fault → List Char → Prop
  | unterminatedReference {rest : List Char} :
      '\x7d' ∉ rest → Starts .unterminatedReference ('$' :: '\x7b' :: rest)
  | invalidName (name after : List Char) :
      Starts (.invalidName name) ('$' :: '\x7b' :: (name ++ '\x7d' :: after))
  | missingName (rest : List Char) : Starts .missingName ('$' :: rest)
  | unterminatedQuotation {quote : Char} (rest : List Char) :
      quote = '"' ∨ quote = '\'' → Starts .unterminatedQuotation (quote :: rest)
  | unknownOperator (operator : Char) (rest : List Char) :
      Starts (.unknownOperator operator) (operator :: rest)
  | token {fault : Fault} {token : Token} {text : List Char} :
      fault.token? = some token → token.Starts text → Starts fault text

theorem exists_body_of_readEscaped {text value after : List Char}
    (h : readEscaped text = some (value, after)) :
    ∃ body, text = body ++ '"' :: after ∧ Unescapes body value := by
  fun_induction readEscaped text generalizing value after with
  | case1 => cases h
  | case2 rest =>
    cases h
    exact ⟨[], rfl, .nil⟩
  | case3 c rest ih =>
    obtain ⟨⟨text, last⟩, hread, heq⟩ := Option.map_eq_some_iff.mp h
    cases heq
    obtain ⟨body, rfl, hbody⟩ := ih hread
    exact ⟨'\\' :: c :: body, rfl, .escaped c hbody⟩
  | case4 c rest hquote hescape ih =>
    obtain ⟨⟨text, last⟩, hread, heq⟩ := Option.map_eq_some_iff.mp h
    cases heq
    -- A backslash that nothing follows is not closed either.
    have hplain : c ≠ '\\' := by
      rintro rfl
      cases rest with
      | nil => cases hread
      | cons next more => exact hescape next more rfl rfl
    obtain ⟨body, rfl, hbody⟩ := ih hread
    exact ⟨c :: body, rfl, .plain hquote hplain hbody⟩

theorem Unescapes.readEscaped {body text : List Char} (h : Unescapes body text)
    (rest : List Char) : readEscaped (body ++ '"' :: rest) = some (text, rest) := by
  induction h with
  | nil => rfl
  | plain hquote hescape _ ih =>
    rw [List.cons_append, Condition.readEscaped, ih]
    · rfl
    · exact hquote
    · exact fun d last heq => absurd heq hescape
  | escaped c _ ih =>
    rw [List.cons_append, List.cons_append, Condition.readEscaped, ih]
    rfl

theorem exists_text_of_closeQuotation {read : Option (List Char × List Char)} {token : Token}
    {after : List Char} (h : closeQuotation read = .ok (token, after)) :
    ∃ text, read = some (text, after) ∧ token = .quotation (String.ofList text) := by
  match read, h with
  | some (text, rest), h =>
    cases h
    exact ⟨text, rfl, rfl⟩

theorem closeQuotation_eq_error {read : Option (List Char × List Char)} {fault : Fault}
    (h : closeQuotation read = .error fault) : fault = .unterminatedQuotation := by
  match read, h with
  | none, h =>
    cases h
    rfl

theorem readFrom_of_readSymbol {token : Token} {after : List Char}
    (h : readSymbol (c :: rest) = some (token, after)) :
    ∃ more, rest = more ++ after ∧ token.ReadFrom (c :: more) := by
  obtain ⟨⟨spelling, found⟩, hfind, heq⟩ := Option.map_eq_some_iff.mp h
  cases heq
  have hsymbols : ∀ entry ∈ symbols, entry.2.symbol?.map String.toList = some entry.1 := by decide
  obtain ⟨symbol, hsymbol, rfl⟩ :=
    Option.map_eq_some_iff.mp (hsymbols _ (List.mem_of_find?_eq_some hfind))
  have hstarts : symbol.toList <+: c :: rest := List.isPrefixOf_iff_prefix.mp (by
    simpa using List.find?_some hfind)
  obtain ⟨first, more, hspelling, -⟩ := exists_cons_of_symbol hsymbol
  have hread := Token.ReadFrom.symbol hsymbol
  obtain ⟨after, heq⟩ := hstarts
  rw [hspelling] at heq hread ⊢
  cases heq
  exact ⟨more, by simp, hread⟩

theorem readFrom_wordToken {word : List Char} (hne : word ≠ []) :
    (wordToken word).ReadFrom word := by
  have hkeyword : ∀ keyword : String, isOneOf [keyword] word = true →
      lowerCase word = keyword.toList := by
    intro keyword h
    rw [← List.mem_singleton.mp (isOneOf_iff.mp h), String.toList_ofList]
  unfold wordToken
  split
  · next h => exact .keyword rfl (hkeyword _ h)
  · split
    · next h => exact .keyword rfl (hkeyword _ h)
    · split
      · next h => exact .keyword rfl (hkeyword _ h)
      · exact .word hne

theorem exists_name_of_readBraced {token : Token} {text after : List Char}
    (h : readBraced text = .ok (token, after)) :
    ∃ name, IsReference (String.ofList name) ∧ text = name ++ '\x7d' :: after ∧
      token = .reference (String.ofList name) := by
  unfold readBraced at h
  split at h
  · cases h
  · next name last hcut =>
    split at h
    · cases h
    · next hname =>
      cases h
      obtain ⟨mark, rfl, hmark, -⟩ := cutAtFirst_eq_some_iff.mp hcut
      obtain rfl : mark = '\x7d' := beq_iff_eq.mp hmark
      exact ⟨name, by simpa [IsReference] using hname, rfl, rfl⟩

theorem starts_of_readBraced {fault : Fault} {text : List Char}
    (h : readBraced text = .error fault) : fault.Starts ('$' :: '\x7b' :: text) := by
  unfold readBraced at h
  split at h
  · next hcut =>
    cases h
    refine .unterminatedReference fun hmem => ?_
    simpa using cutAtFirst_eq_none_iff.mp hcut _ hmem
  · next name last hcut =>
    split at h
    · cases h
      obtain ⟨mark, rfl, hmark, -⟩ := cutAtFirst_eq_some_iff.mp hcut
      obtain rfl : mark = '\x7d' := beq_iff_eq.mp hmark
      exact .invalidName name last
    · cases h

/-- A name ends where a character stands that is none of a name. -/
theorem exists_name_of_readName {token : Token} {text after : List Char}
    (h : readName text = .ok (token, after)) :
    ∃ name, IsReference (String.ofList name) ∧ text = name ++ after ∧
      token = .reference (String.ofList name) ∧ ∀ d ∈ after.head?, isNameChar d = false := by
  unfold readName at h
  dsimp only at h
  split at h
  · cases h
  · next hne =>
    cases h
    refine ⟨text.takeWhile isNameChar, ⟨by simpa using hne, ?_⟩,
      (List.takeWhile_append_dropWhile ..).symm, rfl, head_dropWhile isNameChar text⟩
    rw [String.toList_ofList]
    exact fun d hd => List.mem_takeWhile_imp hd

theorem readName_eq_error {fault : Fault} {text : List Char} (h : readName text = .error fault) :
    fault = .missingName := by
  unfold readName at h
  dsimp only at h
  split at h
  · cases h; rfl
  · cases h

/-- Which reader applies is decided by the first characters. -/
theorem readToken_cases (c : Char) (rest : List Char) :
    (∃ token after, readSymbol (c :: rest) = some (token, after) ∧
      readToken c rest = .ok (token, after)) ∨
    (∃ more, c = '$' ∧ rest = '\x7b' :: more ∧ readToken c rest = readBraced more) ∨
    (c = '$' ∧ readToken c rest = readName rest) ∨
    (c = '"' ∧ readToken c rest = closeQuotation (readEscaped rest)) ∨
    (c = '\'' ∧ readToken c rest = closeQuotation (cutAtFirst (· == '\'') rest)) ∨
    (isWordChar c = true ∧ readToken c rest =
      .ok (wordToken (c :: rest.takeWhile isWordChar), rest.dropWhile isWordChar)) ∨
    readToken c rest = .error (.unknownOperator c) := by
  generalize hread : readToken c rest = outcome
  unfold readToken at hread
  split at hread
  · next read hsymbol => exact .inl ⟨read.1, read.2, hsymbol, hread.symm⟩
  · split at hread
    · next hdollar =>
      split at hread
      · exact .inr (.inl ⟨_, hdollar, rfl, hread.symm⟩)
      · exact .inr (.inr (.inl ⟨hdollar, hread.symm⟩))
    · split at hread
      · next hdouble => exact .inr (.inr (.inr (.inl ⟨hdouble, hread.symm⟩)))
      · split at hread
        · next hsingle => exact .inr (.inr (.inr (.inr (.inl ⟨hsingle, hread.symm⟩))))
        · split at hread
          · next hword => exact .inr (.inr (.inr (.inr (.inr (.inl ⟨hword, hread.symm⟩)))))
          · exact .inr (.inr (.inr (.inr (.inr (.inr hread.symm)))))

theorem readFrom_of_readToken {token : Token} {after : List Char}
    (h : readToken c rest = .ok (token, after)) :
    ∃ more, rest = more ++ after ∧ token.ReadFrom (c :: more) := by
  rcases readToken_cases c rest with ⟨found, last, hsymbol, hread⟩ | ⟨more, rfl, rfl, hread⟩ |
    ⟨rfl, hread⟩ | ⟨rfl, hread⟩ | ⟨rfl, hread⟩ | ⟨-, hread⟩ | hread <;> rw [hread] at h
  · cases h
    exact readFrom_of_readSymbol hsymbol
  · obtain ⟨name, -, rfl, rfl⟩ := exists_name_of_readBraced h
    exact ⟨'\x7b' :: (name ++ ['\x7d']), by simp, .bracedName name⟩
  · obtain ⟨name, -, rfl, rfl, -⟩ := exists_name_of_readName h
    exact ⟨name, rfl, .name name⟩
  · obtain ⟨text, hescaped, rfl⟩ := exists_text_of_closeQuotation h
    obtain ⟨body, rfl, hbody⟩ := exists_body_of_readEscaped hescaped
    exact ⟨body ++ ['"'], by simp, .doubleQuoted hbody⟩
  · obtain ⟨text, hcut, rfl⟩ := exists_text_of_closeQuotation h
    obtain ⟨mark, rfl, hmark, hbefore⟩ := cutAtFirst_eq_some_iff.mp hcut
    obtain rfl : mark = '\'' := beq_iff_eq.mp hmark
    refine ⟨text ++ ['\''], by simp, .singleQuoted fun hmem => ?_⟩
    simpa using hbefore _ hmem
  · cases h
    exact ⟨rest.takeWhile isWordChar, (List.takeWhile_append_dropWhile ..).symm,
      readFrom_wordToken (List.cons_ne_nil _ _)⟩
  · cases h

/-- A fault of reading a token is found at what it names. -/
theorem starts_of_readToken {fault : Fault} (h : readToken c rest = .error fault) :
    fault.Starts (c :: rest) := by
  rcases readToken_cases c rest with ⟨found, last, -, hread⟩ | ⟨more, rfl, rfl, hread⟩ |
    ⟨rfl, hread⟩ | ⟨rfl, hread⟩ | ⟨rfl, hread⟩ | ⟨-, hread⟩ | hread <;> rw [hread] at h
  · cases h
  · exact starts_of_readBraced h
  · rw [readName_eq_error h]
    exact .missingName rest
  · rw [closeQuotation_eq_error h]
    exact .unterminatedQuotation rest (.inl rfl)
  · rw [closeQuotation_eq_error h]
    exact .unterminatedQuotation rest (.inr rfl)
  · cases h
  · cases h
    exact .unknownOperator c rest

/-- Behind `offset` characters the text goes on as stated, and with a character
that is no blank. -/
def StandsAt (starts : List Char → Prop) (text : List Char) (offset : Nat) : Prop :=
  ∃ c rest, text.drop offset = c :: rest ∧ isBlank c = false ∧ starts (c :: rest)

theorem StandsAt.offset_lt {starts : List Char → Prop} {text : List Char} {offset : Nat}
    (h : StandsAt starts text offset) : offset < text.length := by
  obtain ⟨c, rest, hdrop, -⟩ := h
  apply Nat.lt_of_not_le
  intro hle
  rw [List.drop_eq_nil_of_le hle] at hdrop
  cases hdrop

theorem StandsAt.append_left {starts : List Char → Prop} {text : List Char} {offset : Nat}
    (h : StandsAt starts text offset) (front : List Char) :
    StandsAt starts (front ++ text) (front.length + offset) := by
  obtain ⟨c, rest, hdrop, hc, hstarts⟩ := h
  exact ⟨c, rest, by rw [List.drop_length_add_append, hdrop], hc, hstarts⟩

theorem StandsAt.imp {first second : List Char → Prop} {text : List Char} {offset : Nat}
    (h : StandsAt first text offset) (himp : ∀ text, first text → second text) :
    StandsAt second text offset := by
  obtain ⟨c, rest, hdrop, hc, hstarts⟩ := h
  exact ⟨c, rest, hdrop, hc, himp _ hstarts⟩

theorem standsAt_of_scan {start : Nat} {text : List Char} {tokens : List Located}
    (h : scan start text = .ok tokens) {located : Located} (hmem : located ∈ tokens) :
    ∃ offset, located.offset = start + offset ∧ StandsAt located.token.Starts text offset := by
  fun_induction scan start text generalizing tokens with
  | case1 =>
    cases h
    cases hmem
  | case2 start c rest hblank ih =>
    obtain ⟨offset, heq, hstands⟩ := ih h hmem
    exact ⟨1 + offset, by omega, hstands.append_left [c]⟩
  | case3 => cases h
  | case4 => cases h
  | case5 start c rest hblank token after hread _ more hscan ih =>
    cases h
    obtain ⟨taken, rfl, hfrom⟩ := readFrom_of_readToken hread
    rcases List.mem_cons.mp hmem with rfl | hmem
    · have hstarts : token.Starts (c :: (taken ++ after)) := ⟨_, after, hfrom, rfl⟩
      exact ⟨0, rfl, c, taken ++ after, rfl, Bool.eq_false_iff.mpr hblank, hstarts⟩
    · obtain ⟨offset, heq, hstands⟩ := ih hscan hmem
      refine ⟨(c :: taken).length + offset, ?_, hstands.append_left (c :: taken)⟩
      simp only [List.length_append, List.length_cons] at heq ⊢
      omega

theorem standsAt_of_scan_eq_error {start : Nat} {text : List Char} {error : Error}
    (h : scan start text = .error error) :
    ∃ offset, error.offset = start + offset ∧ StandsAt error.fault.Starts text offset := by
  fun_induction scan start text with
  | case1 => cases h
  | case2 start c rest hblank ih =>
    obtain ⟨offset, heq, hstands⟩ := ih h
    exact ⟨1 + offset, by omega, hstands.append_left [c]⟩
  | case3 start c rest hblank fault hread =>
    cases h
    exact ⟨0, rfl, c, rest, rfl, Bool.eq_false_iff.mpr hblank, starts_of_readToken hread⟩
  | case4 start c rest hblank token after hread _ failure hscan ih =>
    cases h
    obtain ⟨taken, rfl, -⟩ := readFrom_of_readToken hread
    obtain ⟨offset, heq, hstands⟩ := ih hscan
    refine ⟨(c :: taken).length + offset, ?_, hstands.append_left (c :: taken)⟩
    simp only [List.length_append, List.length_cons] at heq ⊢
    omega
  | case5 => cases h

/-- The fault is about something that the text has, and not about what it lacks. -/
def Fault.NamesText : Fault → Prop
  | noTokens => False
  | unexpectedEnd => False
  | _ => True

theorem EndsInside.mem {tokens : List Located} {offset : Nat} (h : EndsInside tokens offset) :
    ⟨offset, .opening⟩ ∈ tokens := by
  obtain ⟨outer, front, phrase, -, -, rfl, -⟩ := h
  simp

/-- A refusal speaks of the refused token, or of one that was taken. -/
theorem Refuses.names {taken : List Located} {state : State} {next : Located} {error : Error}
    (h : Refuses state next error) (hrun : taken.foldlM State.step .start = .ok state) :
    ∃ token, error.fault.token? = some token ∧
      (⟨error.offset, token⟩ ∈ taken ∨ next = ⟨error.offset, token⟩) := by
  cases h with
  | operand => exact ⟨next.token, rfl, .inr rfl⟩
  | inside hinside =>
    exact ⟨.opening, rfl, .inl ((endsInside_iff_holdsInside hrun).mpr hinside).mem⟩
  | closing => exact ⟨.closing, rfl, .inr rfl⟩
  | trailing => exact ⟨next.token, rfl, .inr rfl⟩

/-- An error of the parser speaks of one of the tokens, at its offset, unless
something is missing. -/
theorem names_of_ofTokens_eq_error {length : Nat} {tokens : List Located} {error : Error}
    (h : ofTokens length tokens = .error error) :
    error = ⟨0, .noTokens⟩ ∨ error = ⟨length, .unexpectedEnd⟩ ∨
      ∃ token, error.fault.token? = some token ∧ ⟨error.offset, token⟩ ∈ tokens := by
  obtain ⟨taken, rest, hsplit⟩ := exists_viableUpTo tokens
  obtain rfl := hsplit.append_eq
  cases rest with
  | cons next more =>
    obtain ⟨state, found, hrun, hstep⟩ := hsplit.refused
    rw [ofTokens_of_step_eq_error hrun hstep] at h
    cases h
    obtain ⟨token, htoken, hmem | rfl⟩ := (refuses_of_step hstep).names hrun
    · exact .inr (.inr ⟨token, htoken, List.mem_append_left _ hmem⟩)
    · exact .inr (.inr ⟨token, htoken, by simp⟩)
  | nil =>
    obtain ⟨state, hrun⟩ := viable_iff_exists_run.mp hsplit.viable
    rw [List.append_nil] at h ⊢
    by_cases hne : taken = []
    · subst hne
      cases h
      exact .inl rfl
    · rw [ofTokens_of_run hne hrun] at h
      rcases finish_eq_error h with ⟨offset, hinside, rfl⟩ | ⟨-, rfl⟩
      · exact .inr (.inr ⟨.opening, rfl, ((endsInside_iff_holdsInside hrun).mpr hinside).mem⟩)
      · exact .inr (.inl rfl)

/-- The offset of an error counts characters, and what the error names stands there. -/
theorem standsAt_of_parseChars_eq_error {text : List Char} {error : Error}
    (h : parseChars text = .error error) :
    error.offset ≤ text.length ∧
      (error.fault.NamesText → StandsAt error.fault.Starts text error.offset) := by
  have hwithin : StandsAt error.fault.Starts text error.offset →
      error.offset ≤ text.length ∧
        (error.fault.NamesText → StandsAt error.fault.Starts text error.offset) :=
    fun hstands => ⟨Nat.le_of_lt hstands.offset_lt, fun _ => hstands⟩
  rcases bind_eq_error_iff.mp h with hscan | ⟨tokens, hscan, hreject⟩
  · obtain ⟨offset, heq, hstands⟩ := standsAt_of_scan_eq_error hscan
    rw [Nat.zero_add] at heq
    exact hwithin (heq ▸ hstands)
  · rcases names_of_ofTokens_eq_error hreject with rfl | rfl | ⟨token, htoken, hmem⟩
    · exact ⟨Nat.zero_le _, False.elim⟩
    · exact ⟨Nat.le_refl _, False.elim⟩
    · obtain ⟨offset, heq, hstands⟩ := standsAt_of_scan hscan hmem
      rw [Nat.zero_add] at heq
      subst heq
      exact hwithin (hstands.imp fun _ => .token htoken)

end LayeredIni.Condition
