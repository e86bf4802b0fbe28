import Scriptlet.Proofs.Grammar.Words
import Scriptlet.Proofs.Source.Bytes

/-!
# The cursor stays between characters

The cursor of `lexBytes` looks at single bytes, but all that it asks about them is answered alike
for all characters above ASCII. So it sees in a byte what it would see in the character, passes over
characters as a whole, and never stops inside one. Every cut that it makes is therefore one between
characters, and what it finds is what `scan` finds in the characters that follow.

* `stepAt_eq` — a step of the cursor between characters, from what stands behind it;
* `lexAt_eq` — the run from there on, by induction over the text that is left;
* `lexBytes_eq` — no cut fails, and the tokens are those of `lex`.
-/

namespace Scriptlet.Grammar

open Source (SeesAscii byteLength)

/-! ### What the cursor asks about a byte -/

/-- Blanks are single bytes. -/
theorem lt_of_isSpace {c : Char} (h : isSpace c) : c.toNat < 128 := by
  simp only [isSpace, Bool.or_eq_true, decide_eq_true_eq] at h
  rcases h with (((rfl | rfl) | rfl) | rfl) | rfl <;> decide

/-- So is what names are made of. -/
theorem lt_of_isNamePart {c : Char} (h : isNamePart c) : c.toNat < 128 := by
  simp only [isNamePart, Char.isAlphanum, Bool.or_eq_true, decide_eq_true_eq, isAlpha_iff,
    Char.isDigit_iff_toNat, Char.reduceToNat] at h
  rcases h with h | rfl
  · omega
  · decide

/-- And so are signs and operators. -/
private theorem lt_of_mark? {c : Char} {token : Token} (h : mark? c = some token) :
    c.toNat < 128 := by
  have hsign := sign?_of_mark? h
  cases token with
  | op symbol => cases symbol <;> cases hsign <;> decide
  | openParen | closeParen | semicolon | assign => cases hsign; decide
  | int | name | str | var => cases hsign

theorem seesAscii_isSpace : SeesAscii isSpace := .of_lt fun _ => lt_of_isSpace

private theorem seesAscii_isNamePart : SeesAscii isNamePart := .of_lt fun _ => lt_of_isNamePart

private theorem seesAscii_isNameStart : SeesAscii isNameStart :=
  .of_lt fun _ h => lt_of_isNamePart (isNamePart_of_isNameStart h)

private theorem seesAscii_isDigit : SeesAscii Char.isDigit :=
  .of_lt fun _ h => lt_of_isNamePart (isNamePart_of_isDigit h)

private theorem seesAscii_isQuote : SeesAscii fun c => decide (c = '"') := by
  refine .of_lt fun c h => ?_
  obtain rfl : c = '"' := of_decide_eq_true h
  decide

private theorem seesAscii_notQuote : SeesAscii fun c => decide (c ≠ '"') := by
  intro c d hc hd
  have hquote : decide (c = '"') = decide (d = '"') := seesAscii_isQuote c d hc hd
  show decide (¬ c = '"') = decide (¬ d = '"')
  rw [decide_not, decide_not, hquote]

private theorem seesAscii_mark? : SeesAscii mark? := by
  have hnone : ∀ c : Char, 128 ≤ c.toNat → mark? c = none := by
    intro c hc
    cases h : mark? c with
    | none => rfl
    | some token => exact absurd (lt_of_mark? h) (Nat.not_lt.2 hc)
  intro c d hc hd
  rw [hnone c hc, hnone d hd]

/-! ### The byte under the cursor -/

/-- The first byte of a character, taken for a character, is its lead byte. -/
private theorem exists_leadByte (c : Char) :
    ∃ b bs, String.utf8EncodeChar c = b :: bs ∧ Char.ofUInt8 b = leadByte c := by
  have hv : c.val.toNat = c.toNat := rfl
  have hmax : c.toNat ≤ 0x10ffff := by
    have hvalid := c.valid
    simp only [UInt32.isValidChar, Nat.isValidChar] at hvalid
    omega
  -- a number below 256 is the code point of some character
  have hofNat : ∀ n < 256, (Char.ofNat n).toNat = n := by
    intro n hn
    have hvalid : n.isValidChar := Or.inl (by omega)
    rw [Char.ofNat, dif_pos hvalid]
    rfl
  unfold String.utf8EncodeChar leadByte
  dsimp only
  -- one case for each number of bytes
  by_cases hone : c.toNat < 0x80
  · rw [if_pos (by omega), if_pos hone]
    refine ⟨_, _, rfl, Char.toNat_inj.1 ?_⟩
    rw [Source.toNat_ofUInt8, UInt8.toNat_ofNat']
    omega
  rw [if_neg (by omega), if_neg hone]
  by_cases htwo : c.toNat < 0x800
  · rw [if_pos (by omega), if_pos htwo]
    refine ⟨_, _, rfl, Char.toNat_inj.1 ?_⟩
    rw [Source.toNat_ofUInt8, UInt8.toNat_ofNat', hofNat _ (by omega)]
    omega
  rw [if_neg (by omega), if_neg htwo]
  by_cases hthree : c.toNat < 0x10000
  · rw [if_pos (by omega), if_pos hthree]
    refine ⟨_, _, rfl, Char.toNat_inj.1 ?_⟩
    rw [Source.toNat_ofUInt8, UInt8.toNat_ofNat', hofNat _ (by omega)]
    omega
  · rw [if_neg (by omega), if_neg hthree]
    refine ⟨_, _, rfl, Char.toNat_inj.1 ?_⟩
    rw [Source.toNat_ofUInt8, UInt8.toNat_ofNat', hofNat _ (by omega)]
    omega

/-- A test that only tells single bytes apart sees the same in the first byte of a character as in
the character. -/
private theorem apply_leadByte {α : Type} {f : Char → α} (hf : SeesAscii f) (c : Char) :
    f (leadByte c) = f c := by
  obtain ⟨b, bs, hbytes, hlead⟩ := exists_leadByte c
  rw [← hlead, hf.apply_byte (by rw [hbytes]; exact List.mem_cons_self)]

/-- **Between characters, the byte under the cursor is the lead byte of what follows.** -/
private theorem exists_byte (before rest : List Char) (c : Char) :
    ∃ hi : byteLength before < (Source.bytes (String.ofList (before ++ c :: rest))).length,
      Char.ofUInt8 (Source.bytes (String.ofList (before ++ c :: rest)))[byteLength before] =
        leadByte c := by
  obtain ⟨b, bs, hbytes, hlead⟩ := exists_leadByte c
  have hdrop := Source.drop_bytes before (c :: rest)
  rw [List.flatMap_cons, hbytes, List.cons_append] at hdrop
  have hbyte :
      (Source.bytes (String.ofList (before ++ c :: rest)))[byteLength before]? = some b := by
    rw [← Nat.add_zero (byteLength before), ← List.getElem?_drop, hdrop, List.getElem?_cons_zero]
  obtain ⟨hi, hget⟩ := List.getElem?_eq_some_iff.1 hbyte
  exact ⟨hi, by rw [hget, hlead]⟩

/-- The cursor passes over characters as a whole. -/
private theorem runEnd_eq {accepts : Char → Bool} (h : SeesAscii accepts)
    (before after : List Char) :
    runEnd accepts (Source.bytes (String.ofList (before ++ after))) (byteLength before) =
      byteLength before + byteLength (after.takeWhile accepts) := by
  rw [runEnd, Source.drop_bytes, h.takeWhile_bytes, Source.length_flatMap_utf8EncodeChar]

/-! ### A step of the cursor -/

/-- What the cursor finds at `start`, from what was found at the front of `c :: rest`. -/
def Scan.toStep (start : Nat) (c : Char) (rest : List Char) : Scan → Step
  | .token t extra => .token t (start + c.utf8Size + byteLength (rest.take extra))
  | .complaint reason bytes => .complaint reason (start + bytes)

section Step

variable {before rest : List Char} {c : Char}

/-- A token of letters that only ASCII has, from its first letter on, is cut out whole. -/
private theorem slice?_run {accepts : Char → Bool} (h : SeesAscii accepts) (hc : accepts c) :
    Source.slice? (String.ofList (before ++ c :: rest)) (byteLength before)
        (runEnd accepts (Source.bytes (String.ofList (before ++ c :: rest))) (byteLength before)) =
      some (String.ofList (c :: rest.takeWhile accepts)) := by
  have hrest : c :: rest = c :: rest.takeWhile accepts ++ rest.dropWhile accepts := by
    rw [List.cons_append, List.takeWhile_append_dropWhile]
  rw [runEnd_eq h, List.takeWhile_cons_of_pos hc]
  nth_rewrite 1 [hrest]
  exact Source.slice?_part before (c :: rest.takeWhile accepts) _

/-- The cursor stops behind the run of characters that the test accepts. -/
private theorem runEnd_cons {accepts : Char → Bool} (h : SeesAscii accepts) (hc : accepts c) :
    runEnd accepts (Source.bytes (String.ofList (before ++ c :: rest))) (byteLength before) =
      byteLength before + c.utf8Size + byteLength (rest.takeWhile accepts) := by
  rw [runEnd_eq h, List.takeWhile_cons_of_pos hc, Source.byteLength_cons, Nat.add_assoc]

private theorem take_length_takeWhile (p : Char → Bool) (cs : List Char) :
    cs.take (cs.takeWhile p).length = cs.takeWhile p :=
  List.prefix_iff_eq_take.1 (List.takeWhile_prefix p) |>.symm

/-- The bytes of digits are counted like the digits. -/
theorem byteLength_digits (cs : List Char) :
    byteLength (cs.takeWhile Char.isDigit) = (cs.takeWhile Char.isDigit).length := by
  refine Source.byteLength_eq_length ?_
  intro d hd
  exact lt_of_isNamePart (isNamePart_of_isDigit (List.mem_takeWhile_imp hd))

/-- A string runs on to the end of the text exactly if no quote closes it. -/
private theorem length_takeWhile_eq_iff {p : Char → Bool} {cs : List Char} :
    byteLength (cs.takeWhile p) = byteLength cs ↔ (cs.takeWhile p).length = cs.length := by
  have hcs : cs.takeWhile p ++ cs.dropWhile p = cs := List.takeWhile_append_dropWhile
  constructor
  · intro h
    have hbytes := congrArg byteLength hcs
    have hlength := congrArg List.length hcs
    rw [Source.byteLength_append] at hbytes
    rw [List.length_append] at hlength
    -- characters take up bytes, so there is none left
    cases hrest : cs.dropWhile p with
    | nil => rw [hrest, List.length_nil] at hlength; omega
    | cons d ds =>
      have hd := d.utf8Size_pos
      rw [hrest, Source.byteLength_cons] at hbytes
      omega
  · intro h
    rw [(List.takeWhile_prefix p).eq_of_length h]

/-- Behind an opening quote, the cursor moves on to the next quote. -/
private theorem runEnd_content :
    runEnd (· ≠ '"') (Source.bytes (String.ofList (before ++ '"' :: rest)))
        (byteLength before + 1) =
      byteLength before + 1 + byteLength (rest.takeWhile (· ≠ '"')) := by
  have hend := runEnd_eq seesAscii_notQuote (before ++ ['"']) rest
  rwa [List.append_assoc, List.singleton_append, Source.byteLength_append] at hend

private theorem length_bytes_quote :
    (Source.bytes (String.ofList (before ++ '"' :: rest))).length =
      byteLength before + 1 + byteLength rest := by
  rw [Source.length_bytes, ← Source.byteLength_eq, Source.byteLength_append, Nat.add_assoc]
  rfl

/-- What stands up to the next quote is cut out whole. -/
private theorem slice?_content :
    Source.slice? (String.ofList (before ++ '"' :: rest)) (byteLength before + 1)
        (byteLength before + 1 + byteLength (rest.takeWhile (· ≠ '"'))) =
      some (String.ofList (rest.takeWhile (· ≠ '"'))) := by
  have hslice := Source.slice?_part (before ++ ['"']) (rest.takeWhile (· ≠ '"'))
    (rest.dropWhile (· ≠ '"'))
  rwa [List.takeWhile_append_dropWhile, List.append_assoc, List.singleton_append,
    Source.byteLength_append] at hslice

/-- At a quote, the cursor finds a string, or that there is none. -/
private theorem stepAt_quote (before rest : List Char) :
    stepAt (String.ofList (before ++ '"' :: rest)) (byteLength before) '"' =
      some ((scan '"' rest).toStep (byteLength before) '"' rest) := by
  unfold stepAt scan
  dsimp only
  -- no other token begins with a quote
  have hdigit : ¬ '"'.isDigit := by decide
  have hname : ¬ isNameStart '"' := by decide
  rw [if_neg (by decide), if_neg hdigit, if_neg hdigit, if_neg hname, if_neg hname, if_pos rfl,
    if_pos rfl, runEnd_content, length_bytes_quote]
  by_cases hopen : (rest.takeWhile (· ≠ '"')).length = rest.length
  · have hall := length_takeWhile_eq_iff.2 hopen
    rw [if_pos hopen, if_pos (by rw [hall]), hall, Scan.toStep, Nat.add_assoc, Nat.add_comm 1]
  · have hbytes : ¬ byteLength before + 1 + byteLength (rest.takeWhile (· ≠ '"')) =
        byteLength before + 1 + byteLength rest := by
      rw [Nat.add_left_cancel_iff]
      exact fun h => hopen (length_takeWhile_eq_iff.1 h)
    rw [if_neg hopen, if_neg hbytes, slice?_content, Option.map_some, Scan.toStep]
    -- the closing quote belongs to the token
    obtain ⟨after, hrest⟩ := exists_closing_quote hopen
    have hprefix : rest.takeWhile (· ≠ '"') ++ ['"'] <+: rest := by
      refine ⟨after, ?_⟩
      rw [List.append_assoc, List.singleton_append]
      exact hrest.symm
    have htake := List.prefix_iff_eq_take.1 hprefix
    rw [List.length_append, List.length_singleton] at htake
    rw [← htake, Source.byteLength_append, Nat.add_assoc]
    rfl

/-- **A step of the cursor between characters** finds what stands at the front of the text. -/
theorem stepAt_eq (before rest : List Char) (c : Char) :
    stepAt (String.ofList (before ++ c :: rest)) (byteLength before) (leadByte c) =
      some (if isSpace c then .blank else (scan c rest).toStep (byteLength before) c rest) := by
  by_cases hquote : c = '"'
  · subst hquote
    rw [show leadByte '"' = '"' by decide, stepAt_quote, if_neg (by decide)]
  -- a byte that begins a longer character is no quotation mark either
  have hlead : ¬ leadByte c = '"' := by
    have hsame := apply_leadByte seesAscii_isQuote c
    rwa [decide_eq_decide, iff_false_right hquote] at hsame
  unfold stepAt scan
  dsimp only
  rw [apply_leadByte seesAscii_isSpace, apply_leadByte seesAscii_isDigit,
    apply_leadByte seesAscii_isNameStart, apply_leadByte seesAscii_mark?, if_neg hquote,
    if_neg hlead]
  by_cases hspace : isSpace c
  · rw [if_pos hspace, if_pos hspace]
  rw [if_neg hspace, if_neg hspace]
  by_cases hdigit : c.isDigit
  · -- digits are characters of one byte, which is why the two counts agree
    have hsize : c.utf8Size = 1 :=
      Source.utf8Size_of_lt (lt_of_isNamePart (isNamePart_of_isDigit hdigit))
    rw [if_pos hdigit, if_pos hdigit, slice?_run seesAscii_isDigit hdigit, Option.map_some,
      String.toList_ofList, runEnd_cons seesAscii_isDigit hdigit]
    cases Number.fit? (digitsValue (c :: rest.takeWhile Char.isDigit)) with
    | some n => simp only [Scan.toStep, take_length_takeWhile]
    | none => simp only [Scan.toStep, byteLength_digits, hsize, Nat.add_assoc, Nat.add_comm 1]
  rw [if_neg hdigit, if_neg hdigit]
  by_cases hname : isNameStart c
  -- a name goes on with more characters than it may begin with
  · have hpart := isNamePart_of_isNameStart hname
    rw [if_pos hname, if_pos hname, slice?_run seesAscii_isNamePart hpart, Option.map_some,
      runEnd_cons seesAscii_isNamePart hpart, Scan.toStep, take_length_takeWhile]
  rw [if_neg hname, if_neg hname]
  cases hmark : mark? c with
  | some token => rw [Scan.toStep, Source.utf8Size_of_lt (lt_of_mark? hmark)]; rfl
  | none => rfl

end Step

/-! ### The run of the cursor -/

/-- **The run of the cursor from a place between characters** is that over the characters. -/
theorem lexAt_eq (before cs : List Char) :
    lexAt (String.ofList (before ++ cs)) (byteLength before) =
      some (lexFrom (byteLength before) cs) := by
  generalize hstart : byteLength before = start
  -- `before` is what the cursor has passed; it grows as the text behind it shrinks
  fun_induction lexFrom start cs generalizing before with
  | case1 start =>
    subst hstart
    have hend : (Source.bytes (String.ofList (before ++ []))).length ≤ byteLength before := by
      rw [List.append_nil, Source.length_bytes, Source.byteLength_eq]
    rw [lexAt_of_le hend]
  | case2 start c rest blank ih =>
    subst hstart
    obtain ⟨hi, hbyte⟩ := exists_byte before rest c
    -- a blank moves the cursor by one byte
    have hmoved : byteLength (before ++ [c]) = byteLength before + 1 := by
      rw [Source.byteLength_append, Source.byteLength_cons,
        Source.utf8Size_of_lt (lt_of_isSpace blank), Source.byteLength_nil]
    have hlater := ih (before ++ [c]) hmoved
    rw [List.append_assoc, List.singleton_append] at hlater
    rw [lexAt_of_lt hi, hbyte, stepAt_eq, if_pos blank, Option.bind_some]
    exact hlater
  | case3 start c rest blank token extra hscan stop ih =>
    subst hstart
    obtain ⟨hi, hbyte⟩ := exists_byte before rest c
    -- a token moves it behind the last of its characters
    have hmoved : byteLength (before ++ (c :: rest.take extra)) = stop := by
      rw [Source.byteLength_append, Source.byteLength_cons, ← Nat.add_assoc]
    have hlater := ih (before ++ (c :: rest.take extra)) hmoved
    rw [List.append_assoc, List.cons_append, List.take_append_drop] at hlater
    rw [lexAt_of_lt hi, hbyte, stepAt_eq, if_neg blank, hscan, Option.bind_some]
    show Option.map _ (lexAt _ stop) = _
    rw [hlater]
    rfl
  | case4 start c rest blank complaint bytes hscan =>
    subst hstart
    obtain ⟨hi, hbyte⟩ := exists_byte before rest c
    rw [lexAt_of_lt hi, hbyte, stepAt_eq, if_neg blank, hscan, Option.bind_some, Scan.toStep]

/-- **No cut falls inside a character, and the tokens are those of the characters.** -/
theorem lexBytes_eq (source : String) : lexBytes source = some (lex source) := by
  have hrun := lexAt_eq [] source.toList
  rwa [List.nil_append, String.ofList_toList] at hrun

end Scriptlet.Grammar
