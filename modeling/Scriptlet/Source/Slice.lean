/-!
# Slicing a text by byte offsets

Offsets into a source text count bytes of its UTF-8 form, while the text itself is a sequence of
characters. An offset is usable only where a character begins (or at the very end), so slicing can
fail in two ways: an offset lies inside a character, or beyond the text.

* `byteLength_eq` — the bytes of a list of characters, counted one character at a time;
* `slice?_eq_some_iff` — a slice is the middle part of a three-way cut at the two offsets.
-/

namespace Scriptlet.Source

/-- The number of bytes that `cs` takes in UTF-8. -/
def byteLength : List Char → Nat
  | [] => 0
  | c :: cs => c.utf8Size + byteLength cs

@[simp]
theorem byteLength_nil : byteLength [] = 0 := rfl

@[simp]
theorem byteLength_cons (c : Char) (cs : List Char) :
    byteLength (c :: cs) = c.utf8Size + byteLength cs := rfl

@[simp]
theorem byteLength_append (as bs : List Char) :
    byteLength (as ++ bs) = byteLength as + byteLength bs := by
  induction as with
  | nil => rw [List.nil_append, byteLength_nil, Nat.zero_add]
  | cons c cs ih => rw [List.cons_append, byteLength_cons, byteLength_cons, ih, Nat.add_assoc]

/-- The same number for a text. -/
theorem byteLength_eq (cs : List Char) : byteLength cs = (String.ofList cs).utf8ByteSize := by
  induction cs with
  | nil => rfl
  | cons c cs ih =>
    rw [byteLength_cons, ih, String.ofList_cons, String.utf8ByteSize_append,
      String.utf8ByteSize_singleton]

/-- The part of `text` from byte `start` up to byte `stop`, if both are boundaries in order. -/
def slice? (text : String) (start stop : Nat) : Option String :=
  if h : String.Pos.Raw.IsValid text ⟨start⟩ ∧ String.Pos.Raw.IsValid text ⟨stop⟩ then
    if start ≤ stop then some (text.extract ⟨⟨start⟩, h.1⟩ ⟨⟨stop⟩, h.2⟩) else none
  else none

/-- The bytes up to the end of the first of two texts are those of that text. -/
private theorem isValid_utf8ByteSize (before after : String) :
    String.Pos.Raw.IsValid (before ++ after) ⟨before.utf8ByteSize⟩ :=
  String.Pos.Raw.isValid_iff_exists_append.2 ⟨before, after, rfl, rfl⟩

/-- **Slices are middle parts.** -/
theorem slice?_eq_some_iff {text part : String} {start stop : Nat} :
    slice? text start stop = some part ↔
      ∃ before after, text = before ++ part ++ after ∧
        before.utf8ByteSize = start ∧ start + part.utf8ByteSize = stop := by
  constructor
  · intro h
    rw [slice?] at h
    split at h
    · next hvalid =>
      split at h
      · next hle =>
        obtain ⟨before, rest, htext, hstart⟩ := String.Pos.Raw.isValid_iff_exists_append.1 hvalid.1
        obtain ⟨upto, after, htext', hstop⟩ := String.Pos.Raw.isValid_iff_exists_append.1 hvalid.2
        have hstart : start = before.utf8ByteSize := congrArg String.Pos.Raw.byteIdx hstart
        have hstop : stop = upto.utf8ByteSize := congrArg String.Pos.Raw.byteIdx hstop
        have hpart := congrArg String.toByteArray (Option.some.inj h)
        rw [String.toByteArray_extract] at hpart
        -- the text up to `stop` is the text up to `start` followed by the slice
        have hupto : upto = before ++ part := by
          apply String.toByteArray_inj.1
          rw [String.toByteArray_append, ← hpart]
          have h₁ : before.toByteArray = text.toByteArray.extract 0 start := by
            rw [htext, String.toByteArray_append,
              ByteArray.extract_append_eq_left (by rw [hstart, String.size_toByteArray])]
          have h₂ : upto.toByteArray = text.toByteArray.extract 0 stop := by
            rw [htext', String.toByteArray_append,
              ByteArray.extract_append_eq_left (by rw [hstop, String.size_toByteArray])]
          rw [h₁, h₂]
          exact ByteArray.extract_eq_extract_append_extract _ (Nat.zero_le _) hle
        refine ⟨before, after, by rw [htext', hupto], hstart.symm, ?_⟩
        rw [hstop, hupto, String.utf8ByteSize_append, hstart]
      · cases h
    · cases h
  -- a part of a text begins and ends between characters
  · rintro ⟨before, after, rfl, rfl, rfl⟩
    have hstart : String.Pos.Raw.IsValid (before ++ part ++ after) ⟨before.utf8ByteSize⟩ := by
      rw [String.append_assoc]
      exact isValid_utf8ByteSize ..
    have hstop : String.Pos.Raw.IsValid (before ++ part ++ after)
        ⟨before.utf8ByteSize + part.utf8ByteSize⟩ := by
      rw [← String.utf8ByteSize_append]
      exact isValid_utf8ByteSize ..
    rw [slice?, dif_pos ⟨hstart, hstop⟩, if_pos (Nat.le_add_right ..)]
    refine congrArg some (String.toByteArray_inj.1 ?_)
    rw [String.toByteArray_extract, String.toByteArray_append, String.toByteArray_append,
      ByteArray.append_assoc]
    calc (before.toByteArray ++ (part.toByteArray ++ after.toByteArray)).extract
          (before.toByteArray.size + 0) (before.toByteArray.size + part.toByteArray.size)
        = (part.toByteArray ++ after.toByteArray).extract 0 part.toByteArray.size :=
          ByteArray.extract_append_size_add
      _ = part.toByteArray := ByteArray.extract_append_eq_left rfl

/-- A part of a text is cut out at the offsets around it. -/
theorem slice?_part (before part after : List Char) :
    slice? (String.ofList (before ++ (part ++ after))) (byteLength before)
      (byteLength before + byteLength part) = some (String.ofList part) := by
  refine slice?_eq_some_iff.2 ⟨String.ofList before, String.ofList after, ?_, ?_, ?_⟩
  · rw [String.ofList_append, String.ofList_append, String.append_assoc]
  · rw [byteLength_eq]
  · rw [← byteLength_eq]

end Scriptlet.Source
