import Scriptlet.Grammar.Lexing

/-!
# From bytes to tokens

The tokens of a text, read by a cursor that moves over the bytes of its UTF-8 form. Every byte is
looked at as if it was a character by itself, and the text of a token is cut out of the source at
two byte offsets. Such a cut may fall inside a character, and then there is no text; what the cursor
does is undefined from there on, which is the outcome `none`.

* `runEnd` — where the cursor stops while it moves over bytes of one sort;
* `stepAt` — what it finds at an offset;
* `lexBytes` — all tokens of a text.
-/

namespace Scriptlet

/-- The bytes of a text in UTF-8. -/
def Source.bytes (text : String) : List UInt8 := text.toByteArray.data.toList

namespace Grammar

/-- The first offset from `i` on where the byte, taken for a character, is not accepted. -/
def runEnd (accepts : Char → Bool) (bytes : List UInt8) (i : Nat) : Nat :=
  i + ((bytes.drop i).takeWhile fun b => accepts (Char.ofUInt8 b)).length

/-- What the cursor finds: a blank, a token up to an offset, or a complaint about the bytes up to
an offset. -/
inductive Step where
  | blank
  | token (token : Token) (stop : Nat)
  | complaint (complaint : Complaint) (stop : Nat)

/-- What the cursor finds at byte `i`, which is `c` if taken for a character. -/
def stepAt (source : String) (i : Nat) (c : Char) : Option Step :=
  let bytes := Source.bytes source
  if isSpace c then some .blank
  else if c.isDigit then
    let stop := runEnd Char.isDigit bytes i
    (Source.slice? source i stop).map fun digits =>
      match Number.fit? (digitsValue digits.toList) with
      | some n => .token (.int n) stop
      | none => .complaint .integerTooLarge stop
  else if isNameStart c then
    let stop := runEnd isNamePart bytes i
    (Source.slice? source i stop).map fun word =>
      .token (if word = "var" then .var else .name word) stop
  else if c = '"' then
    -- the quotes are no part of the text of a string
    let stop := runEnd (· ≠ '"') bytes (i + 1)
    if stop = bytes.length then some (.complaint .unterminatedString stop)
    else (Source.slice? source (i + 1) stop).map fun content => .token (.str content) (stop + 1)
  else
    match mark? c with
    | some token => some (.token token (i + 1))
    | none => some (.complaint (.unexpectedCharacter c) (i + 1))

section Progress

variable {source : String} {bytes : List UInt8} {i stop : Nat}

/-- A run never ends before it starts. -/
private theorem le_runEnd (accepts : Char → Bool) (bytes : List UInt8) (i : Nat) :
    i ≤ runEnd accepts bytes i :=
  Nat.le_add_right ..

/-- The cursor moves over a byte that it accepts. -/
private theorem lt_runEnd {accepts : Char → Bool} (hi : i < bytes.length)
    (h : accepts (Char.ofUInt8 bytes[i])) : i < runEnd accepts bytes i := by
  unfold runEnd
  rw [List.drop_eq_getElem_cons hi, List.takeWhile_cons_of_pos (by exact h), List.length_cons]
  exact Nat.lt_add_of_pos_right (Nat.succ_pos _)

/-- **The cursor moves on with every token.** -/
private theorem lt_of_stepAt {token : Token} (hi : i < (Source.bytes source).length)
    (h : stepAt source i (Char.ofUInt8 (Source.bytes source)[i]) = some (.token token stop)) :
    i < stop := by
  unfold stepAt at h
  dsimp only at h
  split at h
  · cases h
  split at h
  · -- a number ends behind its first digit at the earliest
    next hdigit =>
    obtain ⟨digits, -, hstep⟩ := Option.map_eq_some_iff.1 h
    split at hstep
    · cases hstep
      exact lt_runEnd hi hdigit
    · cases hstep
  split at h
  · -- and so does a name
    next hname =>
    obtain ⟨word, -, hstep⟩ := Option.map_eq_some_iff.1 h
    cases hstep
    exact lt_runEnd hi (isNamePart_of_isNameStart hname)
  split at h
  · -- a string ends behind its closing quote
    split at h
    · cases h
    · obtain ⟨content, -, hstep⟩ := Option.map_eq_some_iff.1 h
      cases hstep
      have hle := le_runEnd (· ≠ '"') (Source.bytes source) (i + 1)
      omega
  split at h
  · cases h
    exact Nat.lt_succ_self i
  · cases h

end Progress

/-- The tokens from byte `i` of the source on. -/
def lexAt (source : String) (i : Nat) : Option (Except SyntaxError (List Lexeme)) :=
  if hi : i < (Source.bytes source).length then
    match hstep : stepAt source i (Char.ofUInt8 (Source.bytes source)[i]) with
    | none => none
    | some .blank => lexAt source (i + 1)
    | some (.token token stop) =>
      (lexAt source stop).map (Except.map (⟨token, ⟨i.toUInt32, stop.toUInt32⟩⟩ :: ·))
    | some (.complaint complaint stop) =>
      some (.error ⟨complaint, (Span.ofRange i stop).toOption⟩)
  else some (.ok [])
termination_by (Source.bytes source).length - i
decreasing_by
  · exact Nat.sub_lt_sub_left hi (Nat.lt_succ_self i)
  · exact Nat.sub_lt_sub_left hi (lt_of_stepAt hi hstep)

/-- The run of the cursor from what it finds first. -/
theorem lexAt_of_lt {source : String} {i : Nat} (hi : i < (Source.bytes source).length) :
    lexAt source i = (stepAt source i (Char.ofUInt8 (Source.bytes source)[i])).bind fun
      | .blank => lexAt source (i + 1)
      | .token token stop =>
        (lexAt source stop).map (Except.map (⟨token, ⟨i.toUInt32, stop.toUInt32⟩⟩ :: ·))
      | .complaint complaint stop =>
        some (.error ⟨complaint, (Span.ofRange i stop).toOption⟩) := by
  rw [lexAt, dif_pos hi]
  split <;> next hstep => rw [hstep]; rfl

/-- At the end of the text there are no more tokens. -/
theorem lexAt_of_le {source : String} {i : Nat} (hi : (Source.bytes source).length ≤ i) :
    lexAt source i = some (.ok []) := by
  rw [lexAt, dif_neg (Nat.not_lt.2 hi)]

/-- The tokens of a source text, read byte by byte. -/
def lexBytes (source : String) : Option (Except SyntaxError (List Lexeme)) := lexAt source 0

end Grammar

end Scriptlet
