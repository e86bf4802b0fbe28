import Mathlib.Tactic.SplitIfs
import Scriptlet.Text.Quoted

/-!
# Reading quoted text back

A quoted text can be followed by anything and still be read back, because its end can be found from
the left. Behind the opening quote, a backslash takes the character after it along, and the first
quote that is not taken along closes the text. What is written for a character is either the
character itself, and then it is neither a quote nor a backslash, or such a pair. So the scan passes
over whole characters, never stops inside one, and stops at the quote that was written last.

* `closing?` — the scan for the closing quote;
* `unescape` — the content with its escapes undone;
* `closing?_escape` — the scan stops where the content ends, whatever follows;
* `unescape_escape` — the escapes can be undone;
* `quote_selfDelimiting` — the two together, for quoted texts with anything behind them.
-/

namespace Scriptlet.Text

/-! ### Undoing escapes -/

/-- The character that stands behind a backslash for itself or for a line character. -/
def unescapeChar (c : Char) : Char :=
  if c = 'n' then '\n' else if c = 'r' then '\r' else if c = 't' then '\t' else c

/-- A character is written as itself, or as a pair from which it can be told. -/
private theorem escapeChar_cases (c : Char) :
    (escapeChar c = [c] ∧ c ≠ '"' ∧ c ≠ '\\') ∨
      ∃ d, escapeChar c = ['\\', d] ∧ unescapeChar d = c := by
  unfold escapeChar
  split_ifs with hquote hslash hnewline hreturn htab
  · exact .inr ⟨_, rfl, hquote.symm⟩
  · exact .inr ⟨_, rfl, hslash.symm⟩
  · exact .inr ⟨_, rfl, hnewline.symm⟩
  · exact .inr ⟨_, rfl, hreturn.symm⟩
  · exact .inr ⟨_, rfl, htab.symm⟩
  · exact .inl ⟨rfl, hquote, hslash⟩

theorem escape_cons (c : Char) (cs : List Char) : escape (c :: cs) = escapeChar c ++ escape cs :=
  List.flatMap_cons

/-- The content of a quoted text with its escapes undone. -/
def unescape : List Char → List Char
  | '\\' :: c :: cs => unescapeChar c :: unescape cs
  | c :: cs => c :: unescape cs
  | [] => []

/-- A pair is undone to one character. -/
private theorem unescape_pair (c : Char) (cs : List Char) :
    unescape ('\\' :: c :: cs) = unescapeChar c :: unescape cs := by
  rw [unescape]

/-- Any other character stays as it is. -/
private theorem unescape_plain {c : Char} (h : c ≠ '\\') (cs : List Char) :
    unescape (c :: cs) = c :: unescape cs := by
  rw [unescape.eq_2]
  intro d ds hc
  exact absurd hc h

/-- **Escapes can be undone.** -/
theorem unescape_escape (cs : List Char) : unescape (escape cs) = cs := by
  induction cs with
  | nil => rfl
  | cons c cs ih =>
    rw [escape_cons]
    -- a character is written plainly or as a pair, and either is undone to it
    rcases escapeChar_cases c with ⟨hplain, -, hslash⟩ | ⟨d, hpair, hd⟩
    · rw [hplain, List.singleton_append, unescape_plain hslash, ih]
    · rw [hpair]
      calc unescape ('\\' :: d :: escape cs)
          = unescapeChar d :: unescape (escape cs) := unescape_pair d _
        _ = c :: cs := by rw [hd, ih]

/-! ### Finding the closing quote -/

/-- The content up to the closing quote, and what stands behind it. A backslash and the character
after it are passed over together, and the first quote outside such pairs is the closing one. -/
def closing? : List Char → Option (List Char × List Char)
  | [] => none
  | '"' :: rest => some ([], rest)
  | '\\' :: c :: cs => (closing? cs).map fun (content, rest) => ('\\' :: c :: content, rest)
  | c :: cs => (closing? cs).map fun (content, rest) => (c :: content, rest)

/-- The scan passes over a pair as a whole. -/
private theorem closing?_pair (c : Char) (cs : List Char) :
    closing? ('\\' :: c :: cs) =
      (closing? cs).map fun (content, rest) => ('\\' :: c :: content, rest) := by
  rw [closing?]

/-- It passes over any other character that is no quote. -/
private theorem closing?_plain {c : Char} (hquote : c ≠ '"') (hslash : c ≠ '\\') (cs : List Char) :
    closing? (c :: cs) = (closing? cs).map fun (content, rest) => (c :: content, rest) := by
  rw [closing?.eq_4]
  · exact hquote
  · intro d ds hc
    exact absurd hc hslash

/-- **The closing quote is found**, whatever the content is and whatever follows. -/
theorem closing?_escape (cs rest : List Char) :
    closing? (escape cs ++ '"' :: rest) = some (escape cs, rest) := by
  induction cs with
  | nil => rfl
  | cons c cs ih =>
    rw [escape_cons, List.append_assoc]
    -- what is written for the first character is passed over as a whole
    rcases escapeChar_cases c with ⟨hplain, hquote, hslash⟩ | ⟨d, hpair, -⟩
    · rw [hplain, List.singleton_append, closing?_plain hquote hslash, ih]
      rfl
    · rw [hpair, List.cons_append, List.singleton_append, closing?_pair, ih]
      rfl

/-- **A quoted text ends at its quote.** -/
theorem escape_inj {cs ds rest rest' : List Char}
    (h : escape cs ++ '"' :: rest = escape ds ++ '"' :: rest') : cs = ds ∧ rest = rest' := by
  have hscan : some (escape cs, rest) = some (escape ds, rest') := by
    rw [← closing?_escape cs rest, ← closing?_escape ds rest', h]
  obtain ⟨hcontent, hrest⟩ := Prod.mk.inj (Option.some.inj hscan)
  refine ⟨?_, hrest⟩
  calc cs = unescape (escape cs) := (unescape_escape cs).symm
    _ = unescape (escape ds) := by rw [hcontent]
    _ = ds := unescape_escape ds

/-! ### Quoted texts -/

/-- A quoted text is its content between quotes. -/
private theorem toList_quote_append (s x : String) :
    (quote s ++ x).toList = '"' :: (escape s.toList ++ '"' :: x.toList) := by
  simp [quote]

/-- **Quoted texts are self-delimiting and can be decoded.** Behind the opening quote, the first
quote that is not escaped is the one that closes the text, and undoing the escapes before it gives
the text back. So two quoted texts with anything behind them are the same only if the texts are, and
what stands behind them. -/
theorem quote_selfDelimiting (s x : String) :
    (∃ content, (quote s ++ x).toList = '"' :: (content ++ '"' :: x.toList) ∧
      closing? (content ++ '"' :: x.toList) = some (content, x.toList) ∧
      unescape content = s.toList) ∧
    ∀ t y : String, quote s ++ x = quote t ++ y ↔ s = t ∧ x = y := by
  constructor
  · exact ⟨escape s.toList, toList_quote_append s x, closing?_escape _ _, unescape_escape _⟩
  · intro t y
    constructor
    · intro h
      -- both texts are scanned from behind the opening quote
      have hletters := congrArg String.toList h
      rw [toList_quote_append, toList_quote_append] at hletters
      obtain ⟨htext, hrest⟩ := escape_inj (List.cons.inj hletters).2
      exact ⟨String.toList_inj.1 htext, String.toList_inj.1 hrest⟩
    · rintro ⟨rfl, rfl⟩
      rfl

/-- A backslash before the closing quote is one of a pair, and does not take the quote along. -/
example : quote "a\\" = "\"a\\\\\"" ∧
    closing? "a\\\\\" + \"b\"".toList = some ("a\\\\".toList, " + \"b\"".toList) := by
  decide

end Scriptlet.Text
