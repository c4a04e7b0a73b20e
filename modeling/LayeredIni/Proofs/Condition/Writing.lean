/-
# Writing conditions and reading them back

A condition is written with every part of a connective in parentheses, so that
its tokens are determined by it. What is left open is how each token is spelled
and where blanks stand. A connective stands beside parentheses only, which is
why its word needs no blanks around it either. Whatever the choice, the text is
read as the condition, and so is a header with the text in parentheses.
-/

import LayeredIni.Proofs.Condition.Parser
import LayeredIni.Proofs.Header.Grammar

namespace LayeredIni

open LayeredIni.Text LayeredIni.Document LayeredIni.Fallible

/-- The token that an operand is written as. A text stands in quotes. -/
def Operand.token : Operand → Condition.Token
  | reference name => .reference name
  | literal text => .quotation text

namespace Condition

/-- Tokens in parentheses. -/
def enclosed (tokens : List Token) : List Token :=
  .opening :: (tokens ++ [.closing])

/-- The tokens of a condition. Every part of a connective is in parentheses. -/
def tokens : Condition → List Token
  | truthy operand => [operand.token]
  | compare left comparison right => [left.token, .comparison comparison, right.token]
  | not condition => .not :: enclosed condition.tokens
  | and left right => enclosed left.tokens ++ .and :: enclosed right.tokens
  | or left right => enclosed left.tokens ++ .or :: enclosed right.tokens

/-- The texts that write a condition. -/
def IsWrittenAs (condition : Condition) (text : String) : Prop :=
  Spaced condition.tokens text.toList

theorem denotes_token (operand : Operand) : operand.token.Denotes operand := by
  cases operand with
  | reference name => exact .reference name
  | literal text => exact .quotation text

/-- The tokens of a condition state it. -/
theorem derives_tokens (condition : Condition) :
    Derives .disjunction condition.tokens condition := by
  induction condition with
  | truthy operand => exact .ofConjunction (.ofUnary (.ofPrimary (.truthy (denotes_token operand))))
  | compare left comparison right =>
    have hprimary := Derives.compare comparison (denotes_token left) (denotes_token right)
    exact .ofConjunction (.ofUnary (.ofPrimary hprimary))
  | not condition ih => exact .ofConjunction (.ofUnary (.not (.ofPrimary ih.group)))
  | and left right ihLeft ihRight =>
    exact .ofConjunction (.and (.ofUnary (.ofPrimary ihLeft.group)) (.ofPrimary ihRight.group))
  | or left right ihLeft ihRight =>
    have hleft := Derives.ofConjunction (.ofUnary (.ofPrimary ihLeft.group))
    exact .or hleft (.ofUnary (.ofPrimary ihRight.group))

@[simp]
theorem reference_mem_enclosed {name : String} {tokens : List Token} :
    .reference name ∈ enclosed tokens ↔ .reference name ∈ tokens := by
  simp [enclosed]

theorem mem_names_of_mem_tokens {condition : Condition} {name : String}
    (h : .reference name ∈ condition.tokens) : name ∈ condition.names := by
  have hoperand : ∀ operand : Operand, .reference name = operand.token → name ∈ operand.names := by
    intro operand heq
    cases operand with
    | reference own => cases heq; exact List.mem_singleton_self name
    | literal text => cases heq
  induction condition with
  | truthy operand => exact hoperand operand (List.mem_singleton.mp h)
  | compare left comparison right =>
    have hoperands : .reference name = left.token ∨ .reference name = right.token := by
      simpa [tokens] using h
    exact List.mem_append.mpr (hoperands.imp (hoperand left) (hoperand right))
  | not condition ih => exact ih (by simpa [tokens] using h)
  | and left right ihLeft ihRight =>
    have hparts : .reference name ∈ left.tokens ∨ .reference name ∈ right.tokens := by
      simpa [tokens] using h
    exact List.mem_append.mpr (hparts.imp ihLeft ihRight)
  | or left right ihLeft ihRight =>
    have hparts : .reference name ∈ left.tokens ∨ .reference name ∈ right.tokens := by
      simpa [tokens] using h
    exact List.mem_append.mpr (hparts.imp ihLeft ihRight)

theorem opening_precedes (next : Token) : Token.opening.Precedes next :=
  fun _ _ _ _ => rfl

theorem closing_precedes (next : Token) : Token.closing.Precedes next :=
  fun _ _ _ _ => rfl

/-- A token with a symbol and no word can follow every token that does not
absorb the first character of the symbol. -/
theorem Token.precedes_of_symbol {first second : Token} {symbol : String}
    (hsymbol : second.symbol? = some symbol) (hkeyword : second.keyword? = none)
    (hhead : symbol.toList.head?.any first.absorbs = false) : first.Precedes second := by
  intro spelling hwritten c hc
  cases hwritten with
  | symbol hown =>
    rw [hsymbol] at hown
    cases hown
    rw [Option.mem_def.mp hc] at hhead
    exact hhead
  | keyword hown =>
    rw [hkeyword] at hown
    cases hown
  | _ => cases hsymbol

theorem operand_precedes_closing (operand : Operand) : operand.token.Precedes .closing := by
  cases operand with
  | reference name =>
    have hparenthesis : ")".toList.head?.any isNameChar = false := by decide
    exact Token.precedes_of_symbol rfl rfl hparenthesis
  | literal text => exact fun _ _ _ _ => rfl

theorem operand_precedes_comparison (operand : Operand) (comparison : Comparison) :
    operand.token.Precedes (.comparison comparison) := by
  cases operand with
  | reference name =>
    have hsymbol : comparison.symbol.toList.head?.any isNameChar = false := by
      cases comparison <;> decide
    exact Token.precedes_of_symbol rfl rfl hsymbol
  | literal text => exact fun _ _ _ _ => rfl

/-- No operand starts with an equals sign. -/
theorem comparison_precedes_operand (comparison : Comparison) (operand : Operand) :
    (Token.comparison comparison).Precedes operand.token := by
  intro spelling hwritten c hc
  cases operand with
  | reference name =>
    cases hwritten with
    | symbol hsymbol => cases hsymbol
    | keyword hkeyword => cases hkeyword
    | name => cases hc; rfl
    | bracedName => cases hc; rfl
  | literal text =>
    cases hwritten with
    | symbol hsymbol => cases hsymbol
    | keyword hkeyword => cases hkeyword
    | quotation => cases hc; rfl

theorem connective_precedes_opening {connective : Token} {keyword : String}
    (h : connective.keyword? = some keyword) : connective.Precedes .opening := by
  have hparenthesis : "(".toList.head?.any connective.absorbs = false := by
    cases connective with
    | and => decide
    | or => decide
    | not => decide
    | _ => cases h
  exact Token.precedes_of_symbol rfl rfl hparenthesis

/-- Tokens that can stand beside each other, whatever follows them in parentheses. -/
def IsPhrase (tokens : List Token) : Prop :=
  ∀ rest : List Token, rest.IsChain Token.Precedes → (∀ next ∈ rest.head?, next = .closing) →
    (tokens ++ rest).IsChain Token.Precedes

/-- In parentheses they can stand before everything. -/
theorem IsPhrase.enclosed {tokens rest : List Token} (h : IsPhrase tokens)
    (hrest : rest.IsChain Token.Precedes) :
    (Condition.enclosed tokens ++ rest).IsChain Token.Precedes := by
  have hclosed := h (.closing :: rest) (hrest.cons fun next _ => closing_precedes next) (by simp)
  simpa [Condition.enclosed] using hclosed.cons fun next _ => opening_precedes next

theorem isPhrase_tokens (condition : Condition) : IsPhrase condition.tokens := by
  induction condition with
  | truthy operand =>
    intro rest hrest hnext
    refine hrest.cons ?_
    intro next hhead
    rw [hnext next hhead]
    exact operand_precedes_closing operand
  | compare left comparison right =>
    intro rest hrest hnext
    have hright : (right.token :: rest).IsChain Token.Precedes := by
      refine hrest.cons ?_
      intro next hhead
      rw [hnext next hhead]
      exact operand_precedes_closing right
    exact .cons_cons (operand_precedes_comparison left comparison)
      (.cons_cons (comparison_precedes_operand comparison right) hright)
  | not condition ih =>
    intro rest hrest _
    exact .cons_cons (connective_precedes_opening rfl) (ih.enclosed hrest)
  | and left right ihLeft ihRight =>
    intro rest hrest _
    have hright : (.and :: (enclosed right.tokens ++ rest)).IsChain Token.Precedes :=
      .cons_cons (connective_precedes_opening rfl) (ihRight.enclosed hrest)
    simpa [tokens] using ihLeft.enclosed hright
  | or left right ihLeft ihRight =>
    intro rest hrest _
    have hright : (.or :: (enclosed right.tokens ++ rest)).IsChain Token.Precedes :=
      .cons_cons (connective_precedes_opening rfl) (ihRight.enclosed hrest)
    simpa [tokens] using ihLeft.enclosed hright

theorem Token.WrittenAs.spaced {token : Token} {spelling : List Char}
    (h : token.WrittenAs spelling) : Spaced [token] spelling := by
  have hnone : ∀ c ∈ ([] : List Char), isBlank c = true := List.forall_mem_nil _
  have hspaced := Spaced.cons hnone h (.nil hnone)
  rwa [List.nil_append, List.append_nil] at hspaced

theorem Spaced.after_blanks {tokens : List Token} {text blanks : List Char}
    (h : Spaced tokens text) (hblanks : ∀ c ∈ blanks, isBlank c = true) :
    Spaced tokens (blanks ++ text) := by
  cases h with
  | nil hown => exact .nil (List.forall_mem_append.mpr ⟨hblanks, hown⟩)
  | cons hown hwritten hrest =>
    rw [← List.append_assoc]
    exact .cons (List.forall_mem_append.mpr ⟨hblanks, hown⟩) hwritten hrest

theorem Spaced.append {first second : List Token} {front back : List Char}
    (hfirst : Spaced first front) (hsecond : Spaced second back) :
    Spaced (first ++ second) (front ++ back) := by
  induction hfirst with
  | nil hblanks => exact hsecond.after_blanks hblanks
  | cons hblanks hwritten _ ih =>
    rw [List.append_assoc, List.append_assoc]
    exact .cons hblanks hwritten ih

theorem Spaced.enclosed {tokens : List Token} {text : List Char} (h : Spaced tokens text) :
    Spaced (Condition.enclosed tokens) ('(' :: (text ++ [')'])) := by
  have hopening : Token.opening.WrittenAs "(".toList := .symbol rfl
  have hclosing : Token.closing.WrittenAs ")".toList := .symbol rfl
  exact hopening.spaced.append (h.append hclosing.spaced)

theorem exists_spaced_operand (operand : Operand) : ∃ text, Spaced [operand.token] text := by
  cases operand with
  | reference name => exact ⟨_, (Token.WrittenAs.name name).spaced⟩
  | literal text => exact ⟨_, (Token.WrittenAs.quotation text).spaced⟩

theorem exists_spaced_tokens (condition : Condition) : ∃ text, Spaced condition.tokens text := by
  have hsymbol : ∀ {token : Token} {symbol : String}, token.symbol? = some symbol →
      Spaced [token] symbol.toList := fun h => (Token.WrittenAs.symbol h).spaced
  induction condition with
  | truthy operand => exact exists_spaced_operand operand
  | compare left comparison right =>
    obtain ⟨front, hfront⟩ := exists_spaced_operand left
    obtain ⟨back, hback⟩ := exists_spaced_operand right
    have hcomparison : (Token.comparison comparison).symbol? = some comparison.symbol := rfl
    exact ⟨_, hfront.append ((hsymbol hcomparison).append hback)⟩
  | not condition ih =>
    obtain ⟨text, htext⟩ := ih
    exact ⟨_, (hsymbol (rfl : Token.not.symbol? = some "!")).append htext.enclosed⟩
  | and left right ihLeft ihRight =>
    obtain ⟨front, hfront⟩ := ihLeft
    obtain ⟨back, hback⟩ := ihRight
    have hand := hsymbol (rfl : Token.and.symbol? = some "&&")
    exact ⟨_, hfront.enclosed.append (hand.append hback.enclosed)⟩
  | or left right ihLeft ihRight =>
    obtain ⟨front, hfront⟩ := ihLeft
    obtain ⟨back, hback⟩ := ihRight
    have hor := hsymbol (rfl : Token.or.symbol? = some "||")
    exact ⟨_, hfront.enclosed.append (hor.append hback.enclosed)⟩

/-- A text is read as what its tokens state, if these can stand beside each other. -/
theorem parseChars_of_spaced {tokens : List Token} {text : List Char} {condition : Condition}
    (h : Spaced tokens text) (hchain : tokens.IsChain Token.Precedes)
    (hnames : ∀ name, .reference name ∈ tokens → IsReference name)
    (hstates : Derives .disjunction tokens condition) : parseChars text = .ok condition := by
  obtain ⟨located, hscan, rfl⟩ := h.exists_scan hchain hnames 0
  exact bind_eq_ok_iff.mpr ⟨located, hscan, ofTokens_eq_ok_iff.mpr hstates⟩

end Condition

/-- A header with a condition in parentheses after its name. -/
theorem Header.parse_conditional {name text : String} {condition : Condition} (hne : name ≠ "")
    (htrimmed : trimmed name = name) (hplain : '(' ∉ name.toList)
    (htext : Condition.parseChars ('(' :: (text.toList ++ [')'])) = .ok condition) :
    Header.parse (name ++ " (" ++ text ++ ")") = .ok (.conditional name condition) := by
  have hchars : (name ++ " (" ++ text ++ ")").toList =
      (name.toList ++ [' ']) ++ '(' :: (text.toList ++ [')']) := by
    simp
  have hbefore : '(' ∉ name.toList ++ [' '] := by simpa using hplain
  have hname : trim (name.toList ++ [' ']) = name.toList := by
    have hblank : ∀ c ∈ [' '], isBlank c = true := by simp; decide
    rw [trim_append_right hblank]
    exact trim_eq_self_iff.mpr (trimmed_eq_self_iff.mp htrimmed)
  have hread := Header.Outcome.conditional hbefore (by simpa [hname] using hne) htext
  rw [hname, String.ofList_toList] at hread
  rw [parse_eq_ok_iff, hchars, hread.ofChars_eq]

namespace Condition

/-- Conditions survive writing and reading. Every condition can be written,
and if it refers to names that can be written at all, each of its texts is read
as the condition. In parentheses after a name, the text makes the header of a
section that counts under the condition. -/
theorem parse_of_isWrittenAs (condition : Condition)
    (hnames : ∀ name ∈ condition.names, IsReference name) :
    (∃ text, condition.IsWrittenAs text) ∧
      ∀ text, condition.IsWrittenAs text →
        parse text = .ok condition ∧
          ∀ name : String, name ≠ "" → trimmed name = name → '(' ∉ name.toList →
            Header.parse (name ++ " (" ++ text ++ ")") = .ok (.conditional name condition) := by
  obtain ⟨chars, hchars⟩ := exists_spaced_tokens condition
  refine ⟨⟨String.ofList chars, by rwa [IsWrittenAs, String.toList_ofList]⟩, ?_⟩
  intro text htext
  have hreferences : ∀ name, .reference name ∈ condition.tokens → IsReference name :=
    fun name hname => hnames name (mem_names_of_mem_tokens hname)
  have hphrase := isPhrase_tokens condition
  refine ⟨?_, ?_⟩
  · have hchain := hphrase [] .nil (by simp)
    rw [List.append_nil] at hchain
    exact parseChars_of_spaced htext hchain hreferences (derives_tokens condition)
  · intro name hne htrimmed hplain
    have hchain := hphrase.enclosed .nil
    rw [List.append_nil] at hchain
    refine Header.parse_conditional hne htrimmed hplain
      (parseChars_of_spaced htext.enclosed hchain ?_ ?_)
    · intro other hother
      exact hreferences other (reference_mem_enclosed.mp hother)
    · exact .ofConjunction (.ofUnary (.ofPrimary (derives_tokens condition).group))

/-- Words for connectives, a name in braces, and a text with a quote, a
parenthesis and a backslash in it. -/
theorem parse_of_isWrittenAs_words :
    IsReference "A" ∧
      parse "(nOt\t( $\x7bA\x7d)) OR(\"\\\"(\\\\\")" =
        .ok (.or (.not (.truthy (.reference "A"))) (.truthy (.literal "\"(\\"))) ∧
      Header.parse "s ((nOt\t( $\x7bA\x7d)) OR(\"\\\"(\\\\\"))" =
        .ok (.conditional "s"
          (.or (.not (.truthy (.reference "A"))) (.truthy (.literal "\"(\\")))) := by
  have hname : IsReference "A" := ⟨by decide, List.all_eq_true.mp (by decide)⟩
  have hwritten : IsWrittenAs (.or (.not (.truthy (.reference "A")))
      (.truthy (.literal "\"(\\"))) "(nOt\t( $\x7bA\x7d)) OR(\"\\\"(\\\\\")" := by
    have hspace : ∀ c ∈ [' '], isBlank c = true := List.all_eq_true.mp (by decide)
    have htab : ∀ c ∈ ['\t'], isBlank c = true := List.all_eq_true.mp (by decide)
    have hnot : Token.not.WrittenAs "nOt".toList := .keyword rfl (by decide)
    have hor : Token.or.WrittenAs "OR".toList := .keyword rfl (by decide)
    have hinner := ((Token.WrittenAs.bracedName "A").spaced.after_blanks hspace).enclosed
    have hleft := (hnot.spaced.append (hinner.after_blanks htab)).enclosed
    have hright := (Token.WrittenAs.quotation "\"(\\").spaced.enclosed
    exact hleft.append ((hor.spaced.after_blanks hspace).append hright)
  have hnames : ∀ name ∈ (Condition.or (.not (.truthy (.reference "A")))
      (.truthy (.literal "\"(\\"))).names, IsReference name := by
    intro name hmem
    rwa [List.mem_singleton.mp hmem]
  obtain ⟨hparse, hheader⟩ := (parse_of_isWrittenAs _ hnames).2 _ hwritten
  have htrimmed : trimmed "s" = "s" := by decide +kernel
  exact ⟨hname, hparse, hheader "s" (by decide) htrimmed (by decide)⟩

end Condition

end LayeredIni
