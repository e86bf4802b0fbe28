import Scriptlet.Proofs.Grammar.Cursor
import Scriptlet.Proofs.Grammar.SourceMap

/-!
# Nothing of a text is lost

A text that has tokens consists of them and of blanks: each byte belongs to a token or is a blank,
and the piece of text under a token is that token also when it stands alone. A text that has none is
refused at some place, and up to this place it is a text that has tokens.

Both follow the run over the text. What has been passed is laid out from words at every point of it
(`Laid`), which is what makes the part in front of a complaint a text of its own: a token that ends
before what follows ends before any beginning of it, too (`Token.EndsBefore.left`).

* `Accounts` — tokens that account for every byte of a source;
* `isSpace_of_uncovered` — the bytes between the tokens are blanks;
* `Locates` — an error about a piece of the source that stands behind a text with tokens;
* `exists_laid_of_lexFrom_error` — what stands before a complaint is laid out from words;
* `lex_lossless` — tokens account for the source, and errors locate the trouble.
-/

namespace Scriptlet.Grammar

open Source (byteLength)

/-- The byte at `i` belongs to the piece of text of the token. -/
def Lexeme.Covers (l : Lexeme) (i : Nat) : Prop := l.span.start.toNat ≤ i ∧ i < l.span.stop.toNat

/-- **The tokens account for the source.** They stand one after the other, each over a piece of text
that is this very token if it stands alone, and there are only blanks between them. -/
structure Accounts (source : String) (ls : List Lexeme) : Prop where
  proper : ∀ l ∈ ls, l.span.start < l.span.stop
  increasing : ls.Pairwise fun a b => a.span.start < b.span.start
  apart : ls.Pairwise fun a b => a.span.stop ≤ b.span.start
  alone : ∀ l ∈ ls, ∃ part, l.span.slice? source = some part ∧
    lex part = .ok [⟨l.token, ⟨0, part.utf8ByteSize.toUInt32⟩⟩]
  blank : ∀ i b, (Source.bytes source)[i]? = some b → (∀ l ∈ ls, ¬ l.Covers i) →
    isSpace (Char.ofUInt8 b)

/-- **The error locates the trouble**: a nonempty range of bytes that begins between characters,
behind a text that has tokens. -/
structure Locates (source : String) (span : Span) (before : String) : Prop where
  proper : span.start < span.stop
  le_size : span.stop.toNat ≤ source.utf8ByteSize
  slice : Source.slice? source 0 span.start.toNat = some before
  lexes : ∃ ls, lex before = .ok ls

/-! ### Tokens -/

/-- A word that stands alone is one token. -/
private theorem Word.lex_letters (w : Word) :
    lex (String.ofList w.letters) =
      .ok [⟨w.token, ⟨0, (String.ofList w.letters).utf8ByteSize.toUInt32⟩⟩] := by
  have hword := lexFrom_word w.token.endsBefore_nil 0
  rw [List.append_nil, lexFrom_nil, Nat.zero_add] at hword
  rw [lex, String.toList_ofList, hword, Source.byteLength_eq]
  rfl

/-- **The bytes between the tokens are blanks.** -/
theorem isSpace_of_uncovered {start : Nat} {cs : List Char} {ls : List Lexeme}
    (h : lexFrom start cs = .ok ls) (hsize : start + byteLength cs < UInt32.size) {i : Nat}
    {b : UInt8} (hb : (cs.flatMap String.utf8EncodeChar)[i]? = some b)
    (hfree : ∀ l ∈ ls, ¬ l.Covers (start + i)) : isSpace (Char.ofUInt8 b) := by
  fun_induction lexFrom start cs generalizing ls i with
  | case1 => cases hb
  | case2 start c rest blank ih =>
    have hc := Source.utf8Size_of_lt (lt_of_isSpace blank)
    have hlength : (String.utf8EncodeChar c).length = 1 := by
      rw [String.length_utf8EncodeChar, hc]
    rw [Source.byteLength_cons, hc] at hsize
    rw [List.flatMap_cons] at hb
    by_cases hi : i < 1
    · -- the byte of the blank itself
      rw [List.getElem?_append_left (by omega)] at hb
      rw [seesAscii_isSpace.apply_byte (List.mem_of_getElem? hb)]
      exact blank
    · rw [List.getElem?_append_right (by omega), hlength] at hb
      refine ih h (by omega) hb ?_
      intro l hl
      rw [show start + 1 + (i - 1) = start + i by omega]
      exact hfree l hl
  | case3 start c rest _ token extra hscan stop =>
    rename_i ih
    obtain ⟨more, hmore, hls⟩ := bind_eq_ok.1 h
    cases hls
    obtain ⟨hhead, htail⟩ := List.forall_mem_cons.1 hfree
    -- the text is cut behind the token
    have hcut : c :: rest = c :: rest.take extra ++ rest.drop extra := by
      rw [List.cons_append, List.take_append_drop]
    have hwidth : byteLength (c :: rest.take extra) = stop - start := by
      rw [Source.byteLength_cons]
      omega
    have hle : start ≤ stop := by omega
    rw [hcut, Source.byteLength_append, hwidth] at hsize
    have hstart : start.toUInt32.toNat = start := UInt32.toNat_ofNat_of_lt' (by omega)
    have hstop : stop.toUInt32.toNat = stop := UInt32.toNat_ofNat_of_lt' (by omega)
    -- a byte of the token is covered, so the byte lies behind
    have hi : stop - start ≤ i := by
      by_contra hlt
      refine hhead ⟨?_, ?_⟩
      · rw [hstart]
        exact Nat.le_add_right ..
      · rw [hstop]
        omega
    have hlength := Source.length_flatMap_utf8EncodeChar (c :: rest.take extra)
    rw [hcut, List.flatMap_append, List.getElem?_append_right (by omega), hlength, hwidth] at hb
    refine ih hmore (by omega) hb ?_
    intro l hl
    rw [show stop + (i - (stop - start)) = start + i by omega]
    exact htail l hl
  | case4 => cases h

/-- **The tokens account for the whole source**, and each of its pieces reads by itself. -/
private theorem accounts_of_lex {source : String} {ls : List Lexeme} (h : lex source = .ok ls)
    (hsize : source.utf8ByteSize < UInt32.size) : Accounts source ls := by
  have hplaced := placed_of_lex h hsize
  have hbytes : 0 + byteLength source.toList < UInt32.size := by
    rwa [Nat.zero_add, Source.byteLength_eq, String.ofList_toList]
  refine ⟨hplaced.proper, ?_, hplaced.apart, ?_, ?_⟩
  · -- each begins before it ends, and so before the next one begins
    refine hplaced.apart.imp_of_mem ?_
    intro a b ha _ hab
    exact UInt32.lt_of_lt_of_le (hplaced.proper a ha) hab
  · intro l hl
    obtain ⟨w, hw⟩ := hplaced.stands l hl
    refine ⟨_, hw.slice, ?_⟩
    rw [hw.token]
    exact w.lex_letters
  · intro i b hb hfree
    rw [← String.ofList_toList (s := source), Source.bytes_ofList] at hb
    refine isSpace_of_uncovered h hbytes hb ?_
    rw [Nat.zero_add]
    exact hfree

/-! ### Complaints -/

/-- A complaint is about bytes that are there. -/
private theorem bytes_of_complaint {c : Char} {rest : List Char} {complaint : Complaint}
    {bytes : Nat} (h : scan c rest = .complaint complaint bytes) :
    0 < bytes ∧ bytes ≤ byteLength (c :: rest) := by
  have hc := c.utf8Size_pos
  rw [Source.byteLength_cons]
  -- a number that is too large, an unclosed string, or a single character
  unfold scan at h
  dsimp only at h
  split at h
  · -- digits are single bytes, and part of the text
    split at h
    · cases h
    · cases h
      have hrest := congrArg byteLength
        (List.takeWhile_append_dropWhile (p := Char.isDigit) (l := rest))
      rw [Source.byteLength_append, byteLength_digits] at hrest
      omega
  split at h
  · cases h
  split at h
  · split at h
    · cases h
      omega
    · cases h
  split at h
  · cases h
  · cases h
    omega

/-- A token that ends before a text ends before every beginning of it. -/
theorem Token.EndsBefore.left {token : Token} {as bs : List Char}
    (h : token.EndsBefore (as ++ bs)) : token.EndsBefore as := by
  cases as with
  | nil => exact token.endsBefore_nil
  | cons a as => exact h

/-- **What stands before a complaint is laid out from words.** -/
theorem exists_laid_of_lexFrom_error {start : Nat} {cs : List Char} {e : SyntaxError}
    (h : lexFrom start cs = .error e) :
    ∃ before after ws bytes, cs = before ++ after ∧ Laid before ws ∧
      e.span = (Span.ofRange (start + byteLength before)
        (start + byteLength before + bytes)).toOption ∧
      0 < bytes ∧ bytes ≤ byteLength after := by
  -- along the tokens that are read before the complaint
  fun_induction lexFrom start cs with
  | case1 => cases h
  | case2 start c rest blank ih =>
    obtain ⟨before, after, ws, bytes, rfl, hlaid, hspan, hbytes⟩ := ih h
    refine ⟨c :: before, after, ws, bytes, rfl, .space blank hlaid, ?_, hbytes⟩
    rw [Source.byteLength_cons, Source.utf8Size_of_lt (lt_of_isSpace blank), ← Nat.add_assoc]
    exact hspan
  | case3 start c rest _ token extra hscan stop ih =>
    obtain ⟨more, later, rfl, rfl, hspells, hends⟩ := scan_eq_token_iff.1 hscan
    have hstop : stop = start + byteLength (c :: more) := by
      show start + c.utf8Size + byteLength ((more ++ later).take more.length) = _
      rw [List.take_left, Source.byteLength_cons, Nat.add_assoc]
    rw [List.drop_left] at h ih
    cases hlater : lexFrom stop later with
    | ok ls => rw [hlater] at h; cases h
    | error e' =>
      rw [hlater] at h
      cases h
      obtain ⟨before, after, ws, bytes, rfl, hlaid, hspan, hbytes⟩ := ih hlater
      -- the word in front stays a word without what is refused behind
      refine ⟨c :: more ++ before, after, ⟨token, c :: more, hspells⟩ :: ws, bytes, ?_,
        .word ⟨token, c :: more, hspells⟩ hends.left hlaid, ?_, hbytes⟩
      · rw [List.append_assoc, List.cons_append]
      · rw [Source.byteLength_append, ← Nat.add_assoc, ← hstop]
        exact hspan
  | case4 start c rest _ complaint bytes hscan =>
    cases h
    exact ⟨[], c :: rest, [], bytes, rfl, .nil, rfl, bytes_of_complaint hscan⟩

/-- **A complaint locates what is wrong**: the text before it can be read. -/
private theorem locates_of_lex {source : String} {e : SyntaxError} (h : lex source = .error e)
    (hsize : source.utf8ByteSize < UInt32.size) :
    ∃ span before, e.span = some span ∧ Locates source span before := by
  obtain ⟨before, after, ws, bytes, hsource, hlaid, hspan, hpos, hle⟩ :=
    exists_laid_of_lexFrom_error h
  obtain rfl : source = String.ofList (before ++ after) := by
    rw [← hsource, String.ofList_toList]
  rw [← Source.byteLength_eq, Source.byteLength_append] at hsize
  -- all offsets fit into 32 bits
  have hstart : (byteLength before).toUInt32.toNat = byteLength before :=
    UInt32.toNat_ofNat_of_lt' (by omega)
  have hstop : (byteLength before + bytes).toUInt32.toNat = byteLength before + bytes :=
    UInt32.toNat_ofNat_of_lt' (by omega)
  have hrange : Span.ofRange (byteLength before) (byteLength before + bytes) =
      .ok ⟨(byteLength before).toUInt32, (byteLength before + bytes).toUInt32⟩ := by
    rw [Span.ofRange, if_neg (by omega), if_neg (by omega), if_neg (by omega)]
  rw [Nat.zero_add, hrange] at hspan
  -- the span is not empty, ends in the text, starts behind what could be read, and that reads alone
  refine ⟨_, String.ofList before, hspan, ?_, ?_, ?_, ?_⟩
  · rw [UInt32.lt_iff_toNat_lt, hstart, hstop]
    omega
  · rw [hstop, ← Source.byteLength_eq, Source.byteLength_append]
    omega
  · have hslice := Source.slice?_part [] before after
    rw [List.nil_append, Source.byteLength_nil, Nat.zero_add] at hslice
    rw [hstart]
    exact hslice
  · have hbefore : (String.ofList before).utf8ByteSize < UInt32.size := by
      rw [← Source.byteLength_eq]
      omega
    rw [← String.toList_ofList (l := before)] at hlaid
    obtain ⟨ls, hls, -⟩ := hlaid.lex hbefore
    exact ⟨ls, hls⟩

/-! ### Every text -/

/-- **Reading tokens is safe and loses nothing.** The cursor cuts between characters only, and finds
the tokens of the text; they account for all its bytes. If there are none, the error locates a
place behind a text that has tokens. -/
theorem lex_lossless {source : String} (hsize : source.utf8ByteSize < UInt32.size) :
    lexBytes source = some (lex source) ∧
      (∀ ls, lex source = .ok ls → Accounts source ls) ∧
      ∀ e, lex source = .error e →
        ∃ span before, e.span = some span ∧ Locates source span before := by
  refine ⟨lexBytes_eq source, ?_, ?_⟩
  · intro ls h
    exact accounts_of_lex h hsize
  · intro e h
    exact locates_of_lex h hsize

/-- A letter of two bytes is passed over inside a string, and refused by its first byte
elsewhere. -/
theorem lex_lossless_umlaut :
    "x = \"ä\";".utf8ByteSize < UInt32.size ∧ "x = ä;".utf8ByteSize < UInt32.size ∧
      (∃ ls, lexBytes "x = \"ä\";" = some (.ok ls) ∧ Accounts "x = \"ä\";" ls) ∧
      ∃ e, lexBytes "x = ä;" = some (.error e) ∧ e.span = some ⟨4, 5⟩ ∧
        ∃ before, Locates "x = ä;" ⟨4, 5⟩ before := by
  have hquoted : "x = \"ä\";".utf8ByteSize < UInt32.size := by decide
  have hbare : "x = ä;".utf8ByteSize < UInt32.size := by decide
  have hok : lex "x = \"ä\";" = .ok
      [⟨.name "x", ⟨0, 1⟩⟩, ⟨.assign, ⟨2, 3⟩⟩, ⟨.str "ä", ⟨4, 8⟩⟩, ⟨.semicolon, ⟨8, 9⟩⟩] := by
    decide +kernel
  have herror : lex "x = ä;" = .error ⟨.unexpectedCharacter 'Ã', some ⟨4, 5⟩⟩ := by
    decide +kernel
  obtain ⟨hbytes, haccounts, -⟩ := lex_lossless hquoted
  obtain ⟨hbytes', -, hlocates⟩ := lex_lossless hbare
  refine ⟨hquoted, hbare, ⟨_, by rw [hbytes, hok], haccounts _ hok⟩, ?_⟩
  obtain ⟨span, before, hspan, hplace⟩ := hlocates _ herror
  cases hspan
  exact ⟨_, by rw [hbytes', herror], rfl, before, hplace⟩

end Scriptlet.Grammar
