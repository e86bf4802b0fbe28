import Mathlib.Data.List.TakeWhile
import Scriptlet.Grammar.Cursor

/-!
# The bytes of a text

A character of ASCII is one byte of the same value, and all bytes of any other character lie above
ASCII. So a function on characters that treats all characters above ASCII alike may be applied to
the bytes of a text instead: it gives the same for every byte of a character as for the character
itself. This is what allows a cursor to move over bytes and still stop between characters only.

* `bytes_ofList`, `drop_bytes` — the bytes of a text, and those behind a part of it;
* `SeesAscii` — a function that treats all characters above ASCII alike;
* `SeesAscii.apply_byte` — it sees a character in each of its bytes;
* `SeesAscii.takeWhile_bytes` — taking bytes while it holds is taking characters while it holds.
-/

namespace Scriptlet.Source

/-! ### Offsets -/

/-- The bytes of a text are those of its characters in turn. -/
theorem bytes_ofList (cs : List Char) :
    bytes (String.ofList cs) = cs.flatMap String.utf8EncodeChar := by
  rw [bytes, String.toByteArray_ofList, List.utf8Encode, List.toList_data_toByteArray]

theorem length_flatMap_utf8EncodeChar (cs : List Char) :
    (cs.flatMap String.utf8EncodeChar).length = byteLength cs := by
  induction cs with
  | nil => rfl
  | cons c cs ih =>
    rw [List.flatMap_cons, List.length_append, String.length_utf8EncodeChar, ih, byteLength_cons]

/-- A text has as many bytes as its size says. -/
theorem length_bytes (text : String) : (bytes text).length = text.utf8ByteSize := by
  rw [← String.ofList_toList (s := text), bytes_ofList, length_flatMap_utf8EncodeChar,
    byteLength_eq]

/-- The bytes behind a part of a text are those of the rest. -/
theorem drop_bytes (before after : List Char) :
    (bytes (String.ofList (before ++ after))).drop (byteLength before) =
      after.flatMap String.utf8EncodeChar := by
  rw [bytes_ofList, List.flatMap_append, ← length_flatMap_utf8EncodeChar before, List.drop_left]

/-! ### Bytes of characters -/

section Bytes

variable {c : Char} {b : UInt8}

theorem toNat_ofUInt8 (b : UInt8) : (Char.ofUInt8 b).toNat = b.toNat := rfl

theorem utf8Size_of_lt (h : c.toNat < 128) : c.utf8Size = 1 := by
  rw [Char.utf8Size_eq_one_iff, UInt32.le_iff_toNat_le]
  exact Nat.le_of_lt_succ h

/-- A character of ASCII is its own byte. -/
private theorem ofUInt8_of_mem (h : c.toNat < 128) (hb : b ∈ String.utf8EncodeChar c) :
    Char.ofUInt8 b = c := by
  rw [String.utf8EncodeChar_eq_singleton (utf8Size_of_lt h), List.mem_singleton] at hb
  subst hb
  apply Char.toNat_inj.1
  show c.toNat % 256 = c.toNat
  exact Nat.mod_eq_of_lt (by omega)

/-- The bytes of other characters lie above ASCII, too. -/
private theorem le_of_mem (h : 128 ≤ c.toNat) (hb : b ∈ String.utf8EncodeChar c) :
    128 ≤ (Char.ofUInt8 b).toNat := by
  rw [toNat_ofUInt8]
  have hv : c.val.toNat = c.toNat := rfl
  unfold String.utf8EncodeChar at hb
  dsimp only at hb
  -- every byte has a bit of its own for this
  split_ifs at hb with hone htwo hthree
  · omega
  all_goals
    simp only [List.mem_cons, List.not_mem_nil, or_false] at hb
    rcases hb with rfl | rfl | rfl | rfl <;> simp only [UInt8.toNat_ofNat'] <;> omega

end Bytes

/-! ### Functions that see ASCII only -/

/-- The function treats all characters above ASCII alike. -/
def SeesAscii {α : Type} (f : Char → α) : Prop :=
  ∀ c d : Char, 128 ≤ c.toNat → 128 ≤ d.toNat → f c = f d

/-- A test that only characters of ASCII pass. -/
theorem SeesAscii.of_lt {p : Char → Bool} (h : ∀ c, p c → c.toNat < 128) : SeesAscii p := by
  have hfalse : ∀ c : Char, 128 ≤ c.toNat → p c = false := by
    intro c hc
    rw [Bool.eq_false_iff]
    intro hp
    exact absurd (h c hp) (Nat.not_lt.2 hc)
  intro c d hc hd
  rw [hfalse c hc, hfalse d hd]

/-- **A byte shows what its character is.** -/
theorem SeesAscii.apply_byte {α : Type} {f : Char → α} (hf : SeesAscii f) {c : Char} {b : UInt8}
    (hb : b ∈ String.utf8EncodeChar c) : f (Char.ofUInt8 b) = f c := by
  by_cases hc : c.toNat < 128
  · rw [ofUInt8_of_mem hc hb]
  · have hle : 128 ≤ c.toNat := Nat.le_of_not_lt hc
    exact hf _ _ (le_of_mem hle hb) hle

/-- **Bytes are taken character by character.** -/
theorem SeesAscii.takeWhile_bytes {p : Char → Bool} (hp : SeesAscii p) (cs : List Char) :
    (cs.flatMap String.utf8EncodeChar).takeWhile (fun b => p (Char.ofUInt8 b)) =
      (cs.takeWhile p).flatMap String.utf8EncodeChar := by
  induction cs with
  | nil => rfl
  | cons c cs ih =>
    rw [List.flatMap_cons]
    by_cases hc : p c
    · -- all bytes of an accepted character are accepted
      have hall : ∀ b ∈ String.utf8EncodeChar c, p (Char.ofUInt8 b) := by
        intro b hb
        rw [hp.apply_byte hb]
        exact hc
      rw [List.takeWhile_append_of_pos hall, ih, List.takeWhile_cons_of_pos hc,
        List.flatMap_cons]
    · -- and the first byte of any other is not
      obtain ⟨b, bs, hbytes⟩ := List.exists_cons_of_ne_nil (@String.utf8EncodeChar_ne_nil c)
      have hb : ¬ p (Char.ofUInt8 b) := by
        rw [hp.apply_byte (c := c) (by rw [hbytes]; exact List.mem_cons_self)]
        exact hc
      rw [hbytes, List.cons_append, List.takeWhile_cons_of_neg (by exact hb),
        List.takeWhile_cons_of_neg hc, List.flatMap_nil]

/-- Characters of ASCII are counted once each. -/
theorem byteLength_eq_length {cs : List Char} (h : ∀ c ∈ cs, c.toNat < 128) :
    byteLength cs = cs.length := by
  induction cs with
  | nil => rfl
  | cons c cs ih =>
    rw [List.forall_mem_cons] at h
    rw [byteLength_cons, utf8Size_of_lt h.1, ih h.2, List.length_cons, Nat.add_comm]

end Scriptlet.Source
