/-
# The pieces of a condition

A text that can be scanned falls into blanks and one piece for each token: its
spelling with the blanks behind it. Each piece is scanned to its token by itself.
For a token ends where its reader stops, and that is decided by the character
behind it at most; a blank continues no token. So, too, two texts with blanks
between them are scanned to the tokens of the one and then those of the other.

`Scans` describes what is scanned with offsets that count from the start of the
text at hand. Every fact about the tokens of a text is an induction on it.
-/

import LayeredIni.Proofs.Condition.Offsets

namespace LayeredIni.Condition

open LayeredIni.Text

variable {c : Char} {more after rest : List Char} {token : Token}

/-- What ends a token wherever `after` does: it starts with a blank or with the
same character as `after`, or there is nothing of it. -/
def StopsLike (after rest : List Char) : Prop :=
  ∀ d ∈ rest.head?, isBlank d = true ∨ d ∈ after.head?

theorem stopsLike_of_blank (h : ∀ d ∈ rest.head?, isBlank d = true) (after : List Char) :
    StopsLike after rest :=
  fun d hd => .inl (h d hd)

theorem StopsLike.of_append {back : List Char} (hrest : StopsLike (after ++ back) rest)
    (hback : ∀ d ∈ back.head?, isBlank d = true) : StopsLike after rest := by
  intro d hd
  cases after with
  | nil => exact .inl ((hrest d hd).elim id (hback d))
  | cons e after => exact hrest d hd

/-- A character that continues a token and is no blank has to stand in `after` already. -/
theorem StopsLike.forall_head {continues : Char → Bool} (hrest : StopsLike after rest)
    (hblank : ∀ d, isBlank d = true → continues d = false)
    (hafter : ∀ d ∈ after.head?, continues d = false) :
    ∀ d ∈ rest.head?, continues d = false := by
  intro d hd
  rcases hrest d hd with h | h
  · exact hblank d h
  · exact hafter d h

/-- Nothing starts with a symbol only because of what is behind its first character. -/
theorem StopsLike.isPrefix {spelling : List Char} (hrest : StopsLike after rest)
    (hlength : spelling.length ≤ 2) (hspelling : ∀ d ∈ spelling, isBlank d = false)
    (h : spelling <+: c :: (more ++ rest)) : spelling <+: c :: (more ++ after) := by
  match spelling with
  | [] => exact List.nil_prefix
  | [first] =>
    obtain ⟨rfl, -⟩ := List.cons_prefix_cons.mp h
    exact ⟨_, rfl⟩
  | [first, second] =>
    obtain ⟨rfl, tail, htail⟩ := List.cons_prefix_cons.mp h
    cases more with
    | cons d more =>
      obtain ⟨rfl, -⟩ := List.cons.inj htail
      exact ⟨_, rfl⟩
    | nil =>
      obtain rfl : second :: tail = rest := htail
      rcases hrest second rfl with hblank | hsame
      · rw [hspelling second (by simp)] at hblank
        cases hblank
      · obtain ⟨behind, rfl⟩ := List.head?_eq_some_iff.mp hsame
        exact ⟨_, rfl⟩

/-- A symbol is read as the same one before everything that stops it there. -/
theorem exists_more_of_readSymbol {text : List Char}
    (h : readSymbol (c :: text) = some (token, after)) :
    ∃ more, text = more ++ after ∧
      ∀ rest, StopsLike after rest → readSymbol (c :: (more ++ rest)) = some (token, rest) := by
  have hlength : ∀ entry ∈ symbols, entry.1.length ≤ 2 := by decide
  have hblank : ∀ entry ∈ symbols, entry.1.all (fun d => !isBlank d) = true := by decide
  obtain ⟨more, rfl, -⟩ := readFrom_of_readSymbol h
  obtain ⟨⟨spelling, found⟩, hfind, heq⟩ := Option.map_eq_some_iff.mp h
  obtain ⟨rfl, hdrop⟩ := Prod.mk.inj heq
  obtain ⟨hstarts, earlier, later, hsplit, hearlier⟩ := List.find?_eq_some_iff_append.mp hfind
  obtain ⟨tail, htail⟩ := List.isPrefixOf_iff_prefix.mp hstarts
  -- What is left behind the spelling is `after`, so the spelling is all in front of it.
  obtain rfl : tail = after := by rw [← hdrop, ← htail, List.drop_left]
  obtain rfl : spelling = c :: more := List.append_cancel_right htail
  refine ⟨more, rfl, fun rest hrest => ?_⟩
  refine Option.map_eq_some_iff.mpr ⟨(c :: more, found), ?_, by simp⟩
  refine List.find?_eq_some_iff_append.mpr ⟨by simp, earlier, later, hsplit, ?_⟩
  intro entry hentry
  have hmem : entry ∈ symbols := by simp [hsplit, hentry]
  have hnot := hearlier entry hentry
  simp only [Bool.not_eq_true', ← Bool.not_eq_true, List.isPrefixOf_iff_prefix] at hnot ⊢
  exact fun hprefix =>
    hnot (hrest.isPrefix (hlength entry hmem) (by simpa using hblank entry hmem) hprefix)

/-- A token is read the same before everything that stops it there. -/
theorem exists_more_of_readToken {text : List Char} (h : readToken c text = .ok (token, after)) :
    ∃ more, text = more ++ after ∧
      ∀ rest, StopsLike after rest → readToken c (more ++ rest) = .ok (token, rest) := by
  rcases readToken_cases c text with ⟨found, last, hsymbol, hread⟩ | ⟨inner, rfl, rfl, hread⟩ |
    ⟨rfl, hread⟩ | ⟨rfl, hread⟩ | ⟨rfl, hread⟩ | ⟨hword, hread⟩ | hread <;> rw [hread] at h
  · cases h
    obtain ⟨more, rfl, hmore⟩ := exists_more_of_readSymbol hsymbol
    exact ⟨more, rfl, fun rest hrest => readToken_of_readSymbol (hmore rest hrest)⟩
  · obtain ⟨name, hname, rfl, rfl⟩ := exists_name_of_readBraced h
    refine ⟨'\x7b' :: (name ++ ['\x7d']), by simp, fun rest _ => ?_⟩
    simpa using readToken_bracedName hname rest
  · obtain ⟨name, hname, rfl, rfl, hafter⟩ := exists_name_of_readName h
    refine ⟨name, rfl, fun rest hrest => ?_⟩
    have hends := hrest.forall_head (fun _ => isNameChar_of_isBlank) hafter
    simpa using readToken_name hname hends
  · obtain ⟨value, hescaped, rfl⟩ := exists_text_of_closeQuotation h
    obtain ⟨body, rfl, hbody⟩ := exists_body_of_readEscaped hescaped
    refine ⟨body ++ ['"'], by simp, fun rest _ => ?_⟩
    rw [List.append_assoc, List.singleton_append, readToken_doubleQuote, hbody.readEscaped]
    rfl
  · obtain ⟨value, hcut, rfl⟩ := exists_text_of_closeQuotation h
    obtain ⟨mark, rfl, hmark, hbefore⟩ := cutAtFirst_eq_some_iff.mp hcut
    refine ⟨value ++ [mark], by simp, fun rest _ => ?_⟩
    rw [List.append_assoc, List.singleton_append, readToken_singleQuote,
      cutAtFirst_append_cons hbefore hmark]
    rfl
  · cases h
    refine ⟨text.takeWhile isWordChar, (List.takeWhile_append_dropWhile ..).symm, ?_⟩
    intro rest hrest
    refine readToken_word hword (fun d hd => List.mem_takeWhile_imp hd) ?_
    exact hrest.forall_head (fun _ => isWordChar_of_isBlank) (head_dropWhile isWordChar text)
  · cases h

/-- The tokens with `n` more characters before them. -/
def shift (n : Nat) (tokens : List Located) : List Located :=
  tokens.map fun located => ⟨n + located.offset, located.token⟩

@[simp]
theorem shift_nil (n : Nat) : shift n [] = [] := rfl

@[simp]
theorem shift_cons (n : Nat) (located : Located) (tokens : List Located) :
    shift n (located :: tokens) = ⟨n + located.offset, located.token⟩ :: shift n tokens := rfl

@[simp]
theorem shift_append (n : Nat) (tokens others : List Located) :
    shift n (tokens ++ others) = shift n tokens ++ shift n others :=
  List.map_append

@[simp]
theorem shift_shift (m n : Nat) (tokens : List Located) :
    shift m (shift n tokens) = shift (m + n) tokens := by
  simp [shift, Nat.add_assoc]

@[simp]
theorem shift_zero (tokens : List Located) : shift 0 tokens = tokens := by
  simp [shift]

/-- The tokens of a text, with offsets that count from its start. What a token is
read from is settled before the text behind it. -/
inductive Scans : List Char → List Located → Prop
  | nil : Scans [] []
  | blank {c : Char} {text : List Char} {tokens : List Located} :
      isBlank c = true → Scans text tokens → Scans (c :: text) (shift 1 tokens)
  | token {c : Char} {more after : List Char} {token : Token} {tokens : List Located} :
      isBlank c = false →
      (∀ rest, StopsLike after rest → readToken c (more ++ rest) = .ok (token, rest)) →
      Scans after tokens →
      Scans (c :: more ++ after) (⟨0, token⟩ :: shift (c :: more).length tokens)

variable {text back : List Char} {tokens others : List Located}

/-- The scanner counts what it took by what is left. -/
theorem length_taken (c : Char) (more after : List Char) :
    1 + (more ++ after).length - after.length = (c :: more).length := by
  rw [List.length_append, List.length_cons]
  omega

theorem Scans.scan_eq (h : Scans text tokens) (start : Nat) :
    scan start text = .ok (shift start tokens) := by
  induction h generalizing start with
  | nil => rw [scan, shift_nil]
  | blank hc _ ih => rw [scan, if_pos hc, ih, shift_shift]
  | @token c more after token tokens hc hread _ ih =>
    rw [List.cons_append, shift_cons, shift_shift]
    refine scan_of_readToken hc (hread _ fun _ => .inr) ?_
    rw [length_taken c]
    exact ih _

theorem exists_scans_of_scan {start : Nat} (h : scan start text = .ok tokens) :
    ∃ found, Scans text found ∧ tokens = shift start found := by
  fun_induction scan start text generalizing tokens with
  | case1 =>
    cases h
    exact ⟨[], .nil, rfl⟩
  | case2 start c rest hblank ih =>
    obtain ⟨found, hfound, rfl⟩ := ih h
    exact ⟨_, .blank hblank hfound, (shift_shift ..).symm⟩
  | case3 => cases h
  | case4 => cases h
  | case5 start c rest hblank token after hread _ more hscan ih =>
    cases h
    obtain ⟨found, hfound, rfl⟩ := ih hscan
    obtain ⟨taken, rfl, hstops⟩ := exists_more_of_readToken hread
    refine ⟨_, .token (Bool.eq_false_iff.mpr hblank) hstops hfound, ?_⟩
    rw [shift_cons, shift_shift, length_taken c]
    rfl

theorem scan_eq_ok_iff : scan 0 text = .ok tokens ↔ Scans text tokens := by
  constructor
  · intro h
    obtain ⟨found, hfound, rfl⟩ := exists_scans_of_scan h
    rwa [shift_zero]
  · intro h
    rw [h.scan_eq, shift_zero]

/-- Every token has characters of the text behind its offset. -/
theorem Scans.offset_lt (h : Scans text tokens) :
    ∀ located ∈ tokens, located.offset < text.length := by
  intro located hmem
  obtain ⟨offset, heq, hstands⟩ := standsAt_of_scan (scan_eq_ok_iff.mpr h) hmem
  rw [heq, Nat.zero_add]
  exact hstands.offset_lt

theorem pairwise_shift {n : Nat} (h : tokens.Pairwise fun first second =>
    first.offset < second.offset) :
    (shift n tokens).Pairwise fun first second => first.offset < second.offset :=
  List.pairwise_map.mpr (h.imp fun hlt => Nat.add_lt_add_left hlt n)

/-- No two tokens start at the same character, and they are found in order. -/
theorem Scans.increasing (h : Scans text tokens) :
    tokens.Pairwise fun first second => first.offset < second.offset := by
  induction h with
  | nil => exact List.Pairwise.nil
  | blank _ _ ih => exact pairwise_shift ih
  | token _ _ _ ih =>
    refine List.pairwise_cons.mpr ⟨fun located hmem => ?_, pairwise_shift ih⟩
    obtain ⟨unshifted, -, rfl⟩ := List.mem_map.mp hmem
    simp only [List.length_cons]
    omega

theorem nextOffset_shift (n length : Nat) (tokens : List Located) :
    nextOffset (n + length) (shift n tokens) = n + nextOffset length tokens := by
  cases tokens with
  | nil => rfl
  | cons located tokens => rfl

/-- What stands before the first token is blank, and so is a text without any. -/
theorem Scans.blank_before (h : Scans text tokens) :
    ∀ c ∈ text.take (nextOffset text.length tokens), isBlank c = true := by
  induction h with
  | nil => simp
  | @blank c text tokens hc _ ih =>
    rw [List.length_cons, Nat.add_comm, nextOffset_shift, Nat.add_comm, List.take_succ_cons]
    exact List.forall_mem_cons.mpr ⟨hc, ih⟩
  | token => simp [nextOffset]

theorem Scans.append_left {blanks : List Char} (h : Scans text tokens)
    (hblanks : ∀ c ∈ blanks, isBlank c = true) :
    Scans (blanks ++ text) (shift blanks.length tokens) := by
  induction blanks with
  | nil => simpa using h
  | cons c blanks ih =>
    obtain ⟨hc, hblanks⟩ := List.forall_mem_cons.mp hblanks
    simpa [Nat.add_comm] using Scans.blank hc (ih hblanks)

theorem Scans.of_blanks {blanks : List Char} (h : ∀ c ∈ blanks, isBlank c = true) :
    Scans blanks [] := by
  simpa using Scans.nil.append_left h

/-- Behind a blank, a text is scanned as if it stood alone. -/
theorem Scans.append (h : Scans text tokens) (hback : Scans back others)
    (hblank : ∀ c ∈ back.head?, isBlank c = true) :
    Scans (text ++ back) (tokens ++ shift text.length others) := by
  induction h with
  | nil => simpa using hback
  | blank hc _ ih => simpa [Nat.add_comm] using Scans.blank hc ih
  | token hc hread _ ih =>
    have htoken := Scans.token hc (fun rest hrest => hread rest (hrest.of_append hblank)) ih
    simpa [Nat.add_assoc, Nat.add_comm, Nat.add_left_comm] using htoken

/-- The text from a token up to the next one, or to the end if there is none. -/
def piece (text : List Char) (located : Located) (behind : List Located) : List Char :=
  text.extract located.offset (nextOffset text.length behind)

theorem piece_shift (front text : List Char) (located : Located) (behind : List Located) :
    piece (front ++ text) ⟨front.length + located.offset, located.token⟩
      (shift front.length behind) = piece text located behind := by
  rw [piece, piece, List.length_append, nextOffset_shift, List.extract_eq_take_drop,
    List.extract_eq_take_drop, List.drop_length_add_append, Nat.add_sub_add_left]

theorem exists_split_of_shift {n : Nat} {before behind : List Located} {located : Located}
    (h : shift n tokens = before ++ located :: behind) :
    ∃ front first back, tokens = front ++ first :: back ∧
      located = ⟨n + first.offset, first.token⟩ ∧ behind = shift n back := by
  obtain ⟨front, others, rfl, -, hothers⟩ := List.map_eq_append_iff.mp h
  obtain ⟨first, back, rfl, hfirst, hback⟩ := List.map_eq_cons_iff.mp hothers
  exact ⟨front, first, back, rfl, hfirst.symm, hback.symm⟩

theorem Scans.of_piece (h : Scans text tokens) {before behind : List Located} {located : Located}
    (hsplit : tokens = before ++ located :: behind) :
    Scans (piece text located behind) [⟨0, located.token⟩] := by
  induction h generalizing before located behind with
  | nil => simp at hsplit
  | @blank c text tokens _ _ ih =>
    obtain ⟨front, first, back, hfront, rfl, rfl⟩ := exists_split_of_shift hsplit
    have hpiece := piece_shift [c] text first back
    rw [List.singleton_append, List.length_singleton] at hpiece
    rw [hpiece]
    exact ih hfront
  | @token c more after token tokens hc hread hafter ih =>
    cases before with
    | cons _ before =>
      obtain ⟨-, hrest⟩ := List.cons.inj hsplit
      obtain ⟨front, first, back, hfront, rfl, rfl⟩ := exists_split_of_shift hrest
      rw [piece_shift]
      exact ih hfront
    | nil =>
      obtain ⟨rfl, rfl⟩ := List.cons.inj hsplit
      -- The piece of the first token ends with the blanks that stand before the second one.
      have hblanks := hafter.blank_before
      have hpiece : piece (c :: more ++ after) ⟨0, token⟩ (shift (c :: more).length tokens) =
          c :: more ++ after.take (nextOffset after.length tokens) := by
        rw [piece, List.length_append, nextOffset_shift, List.extract_eq_take_drop,
          List.drop_zero, Nat.sub_zero, List.take_length_add_append]
      rw [hpiece]
      refine Scans.token hc (fun rest hrest => hread rest ?_) (.of_blanks hblanks)
      apply stopsLike_of_blank
      intro d hd
      exact (hrest d hd).elim id fun hhead => hblanks d (List.mem_of_mem_head? hhead)

/-- The text is divided into blanks and one piece for each token. -/
structure Divided (text : List Char) (tokens : List Located) : Prop where
  /-- The offsets increase. -/
  increasing : tokens.Pairwise fun first second => first.offset < second.offset
  /-- Every offset is that of a character. -/
  within : ∀ located ∈ tokens, located.offset < text.length
  /-- What stands before the first token, if there is any, is blank. -/
  blank_before : ∀ c ∈ text.take (nextOffset text.length tokens), isBlank c = true
  /-- From each token to the next one, the text is scanned to this token. -/
  alone : ∀ before located behind, tokens = before ++ located :: behind →
    scan 0 (piece text located behind) = .ok [⟨0, located.token⟩]

/-- Scanning goes piece by piece. The tokens of a text divide it into blanks
and one piece for each of them, which is scanned to this token by itself. Two
texts with blanks between them are scanned to the tokens of the first one and
those of the second one, which keep their places in it. -/
theorem scan_by_pieces :
    (∀ text tokens, scan 0 text = .ok tokens → Divided text tokens) ∧
      ∀ first gap second firstTokens secondTokens, scan 0 first = .ok firstTokens →
        scan 0 second = .ok secondTokens → gap ≠ [] → (∀ c ∈ gap, isBlank c = true) →
        scan 0 (first ++ gap ++ second) =
          .ok (firstTokens ++ shift (first ++ gap).length secondTokens) := by
  constructor
  · intro text tokens hscan
    have htokens := scan_eq_ok_iff.mp hscan
    exact ⟨htokens.increasing, htokens.offset_lt, htokens.blank_before,
      fun before located behind hsplit => scan_eq_ok_iff.mpr (htokens.of_piece hsplit)⟩
  · intro first gap second firstTokens secondTokens hfirst hsecond hne hgap
    rw [scan_eq_ok_iff] at hfirst hsecond ⊢
    have hblank : ∀ c ∈ (gap ++ second).head?, isBlank c = true := by
      rw [List.head?_append_of_ne_nil _ hne]
      exact fun c hc => hgap c (List.mem_of_mem_head? hc)
    have hjoined := hfirst.append (hsecond.append_left hgap) hblank
    rwa [shift_shift, ← List.length_append, ← List.append_assoc] at hjoined

/-- A negation in front of a comparison, which would be another one if nothing
stood between the two. -/
theorem scan_by_pieces_apart :
    let gap := [' ', '\t']
    let behind : List Located := [⟨6, .and⟩, ⟨9, .not⟩]
    let tokens : List Located := ⟨0, .quotation "x y"⟩ :: behind
    scan 0 "'x y' and!".toList = .ok tokens ∧
      scan 0 "==b".toList = .ok [⟨0, .comparison .equal⟩, ⟨2, .word "b"⟩] ∧
      gap ≠ [] ∧ (∀ c ∈ gap, isBlank c = true) ∧
      scan 0 "'x y' ".toList = .ok [⟨0, .quotation "x y"⟩] ∧
      scan 0 ("'x y' and!".toList ++ gap ++ "==b".toList) =
        .ok (tokens ++ [⟨12, .comparison .equal⟩, ⟨14, .word "b"⟩]) := by
  intro gap behind tokens
  have hfirst : scan 0 "'x y' and!".toList = .ok tokens := by decide +kernel
  have hsecond : scan 0 "==b".toList = .ok [⟨0, .comparison .equal⟩, ⟨2, .word "b"⟩] := by
    decide +kernel
  have hgap : gap ≠ [] ∧ ∀ c ∈ gap, isBlank c = true :=
    ⟨List.cons_ne_nil _ _, List.all_eq_true.mp rfl⟩
  obtain ⟨hpieces, hjoin⟩ := scan_by_pieces
  have hpiece := (hpieces _ _ hfirst).alone [] ⟨0, .quotation "x y"⟩ behind rfl
  have hjoined := hjoin _ _ _ _ _ hfirst hsecond hgap.1 hgap.2
  exact ⟨hfirst, hsecond, hgap.1, hgap.2, hpiece, hjoined⟩

end LayeredIni.Condition
