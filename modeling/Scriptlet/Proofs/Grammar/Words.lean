import Mathlib.Data.List.Forall2
import Mathlib.Data.List.TakeWhile
import Scriptlet.Grammar.Lexing

/-!
# Words and their places in a text

A word is a token with the letters that spell it. A token ends where the next character cannot
prolong it, so a text is laid out from words if each of them ends before what follows, with blanks
anywhere in between. Splitting a text into tokens undoes exactly this: a text has tokens if and only
if it is laid out from words, and then the tokens are those of the words, each with a span that
slices its letters out of the text.

* `Spells` — which letters spell a token;
* `scan_eq_token_iff` — one token is read off the front exactly if its letters stand there and end;
* `Laid` — a text laid out from words;
* `Laid.lexFrom`, `laid_of_lexFrom` — the tokens of a text are the words it is laid out from.
-/

namespace Scriptlet.Grammar

/-! ### Spelling -/

/-- Which letters spell a token. -/
inductive Spells : Token → List Char → Prop where
  | int {c : Char} {digits : List Char} {n : Int64} (first : c.isDigit)
      (more : ∀ d ∈ digits, d.isDigit) (value : Number.fit? (digitsValue (c :: digits)) = some n) :
      Spells (.int n) (c :: digits)
  | name {c : Char} {letters : List Char} (first : isNameStart c)
      (more : ∀ d ∈ letters, isNamePart d) (free : String.ofList (c :: letters) ≠ "var") :
      Spells (.name (String.ofList (c :: letters))) (c :: letters)
  | var : Spells .var ['v', 'a', 'r']
  | str {content : List Char} (inside : ∀ d ∈ content, d ≠ '"') :
      Spells (.str (String.ofList content)) ('"' :: (content ++ ['"']))
  | mark {c : Char} {token : Token} (sign : mark? c = some token) : Spells token [c]

/-- Whether the token would take in `c` if it stood directly behind it. -/
def Token.prolongs : Token → Char → Bool
  | int _, c => c.isDigit
  | name _, c | var, c => isNamePart c
  | _, _ => false

/-- The token ends in front of `rest`. -/
def Token.EndsBefore (token : Token) (rest : List Char) : Prop :=
  ∀ c ∈ rest.head?, token.prolongs c = false

/-- Every token may end the text. -/
@[simp]
theorem Token.endsBefore_nil (token : Token) : token.EndsBefore [] := by
  intro c hc
  cases hc

/-- A token ends before a character that does not prolong it. -/
@[simp]
theorem Token.endsBefore_cons {token : Token} {c : Char} {cs : List Char} :
    token.EndsBefore (c :: cs) ↔ token.prolongs c = false := by
  simp [EndsBefore]

/-- Digits may go on with a name. -/
theorem isNamePart_of_isDigit {c : Char} (h : c.isDigit) : isNamePart c := by
  simp [isNamePart, Char.isAlphanum, h]

/-- Letters as code points. -/
theorem isAlpha_iff {c : Char} :
    c.isAlpha ↔ 65 ≤ c.toNat ∧ c.toNat ≤ 90 ∨ 97 ≤ c.toNat ∧ c.toNat ≤ 122 := by
  change (decide (c.val ≥ 65 ∧ c.val ≤ 90) ||
    decide (c.val ≥ 97) && decide (c.val ≤ 122)) = true ↔ _
  simp only [Bool.or_eq_true, Bool.and_eq_true, decide_eq_true_eq, ge_iff_le,
    UInt32.le_iff_toNat_le]
  rfl

/-- No digit begins a name. -/
theorem not_isDigit_of_isNameStart {c : Char} (h : isNameStart c) : c.isDigit = false := by
  simp only [isNameStart, Bool.or_eq_true, decide_eq_true_eq, isAlpha_iff] at h
  simp only [Bool.eq_false_iff, ne_eq, Char.isDigit_iff_toNat, Char.reduceToNat]
  -- letters of either case lie above the digits
  rcases h with h | rfl
  · omega
  · decide

/-- A character that continues no name continues no token. -/
theorem Token.prolongs_of_not_isNamePart (token : Token) {c : Char} (h : isNamePart c = false) :
    token.prolongs c = false := by
  cases token with
  | int n => exact Bool.eq_false_iff.2 fun hd => by simp [isNamePart_of_isDigit hd] at h
  | name text => exact h
  | var => exact h
  | _ => rfl

/-- The character of a token that is a sign by itself. -/
def Token.sign? : Token → Option Char
  | op symbol => some symbol.char
  | openParen => some '('
  | closeParen => some ')'
  | semicolon => some ';'
  | assign => some '='
  | int _ | name _ | str _ | var => none

/-- A sign is written as the character that it was read from. -/
theorem sign?_of_mark? {c : Char} {token : Token} (h : mark? c = some token) :
    token.sign? = some c := by
  unfold mark? at h
  -- one case for each sign
  (repeat' split at h) <;> cases h <;> (subst_vars; rfl)

/-- No sign begins a token of another sort, and none is a blank. -/
private theorem class_of_sign? {c : Char} {token : Token} (h : token.sign? = some c) :
    c.isDigit = false ∧ isNameStart c = false ∧ c ≠ '"' ∧ Source.isBlank c = false := by
  cases token with
  | op symbol => cases symbol <;> cases h <;> decide
  | openParen => cases h; decide
  | closeParen => cases h; decide
  | semicolon => cases h; decide
  | assign => cases h; decide
  | _ => cases h

/-- Nothing prolongs a sign. -/
private theorem Token.prolongs_of_sign? {c : Char} {token : Token} (h : token.sign? = some c)
    (d : Char) : token.prolongs d = false := by
  cases token with
  | int n => cases h
  | name text => cases h
  | var => cases h
  | _ => rfl

/-! ### Reading one token -/

/-- Taking characters while `p` holds stops where it fails. -/
theorem takeWhile_append_of_head? {p : Char → Bool} {more after : List Char}
    (hmore : ∀ d ∈ more, p d) (hafter : ∀ d ∈ after.head?, p d = false) :
    (more ++ after).takeWhile p = more := by
  rw [List.takeWhile_append_of_pos hmore]
  cases after with
  | nil => rw [List.takeWhile_nil, List.append_nil]
  | cons d after =>
    have hd : ¬ p d := by simp [hafter d rfl]
    rw [List.takeWhile_cons_of_neg hd, List.append_nil]

/-- What is dropped ends before a character that does not belong to it. -/
private theorem head?_dropWhile_eq_false {p : Char → Bool} {cs : List Char} :
    ∀ d ∈ (cs.dropWhile p).head?, p d = false := by
  intro d hd
  have h := List.head?_dropWhile_not p cs
  rw [Option.mem_def.1 hd] at h
  simpa using h

/-- What stops the content of a string, short of the end, is a quote. -/
theorem exists_closing_quote {rest : List Char}
    (h : (rest.takeWhile (· ≠ '"')).length ≠ rest.length) :
    ∃ after, rest = rest.takeWhile (· ≠ '"') ++ '"' :: after := by
  have hrest : rest.takeWhile (· ≠ '"') ++ rest.dropWhile (· ≠ '"') = rest :=
    List.takeWhile_append_dropWhile
  cases hdrop : rest.dropWhile (· ≠ '"') with
  | nil =>
    rw [hdrop, List.append_nil] at hrest
    exact absurd (congrArg List.length hrest) h
  | cons d after =>
    have hd : d = '"' := by
      have hhead := head?_dropWhile_eq_false d (by rw [hdrop]; rfl)
      simpa using hhead
    subst hd
    exact ⟨after, by rw [← hdrop, hrest]⟩

/-- **Spelled tokens are read.** -/
private theorem scan_of_spells {token : Token} {c : Char} {more after : List Char}
    (h : Spells token (c :: more)) (hafter : token.EndsBefore after) :
    scan c (more ++ after) = .token token more.length := by
  generalize hletters : c :: more = letters at h
  cases h with
  | int first hmore value =>
    obtain ⟨rfl, rfl⟩ := List.cons.inj hletters
    simp only [scan, first, if_true, takeWhile_append_of_head? hmore hafter, value]
  | name first hmore free =>
    obtain ⟨rfl, rfl⟩ := List.cons.inj hletters
    simp only [scan, not_isDigit_of_isNameStart first, first, Bool.false_eq_true, if_false,
      if_true, takeWhile_append_of_head? hmore hafter, free]
  | var =>
    obtain ⟨rfl, rfl⟩ := List.cons.inj hletters
    -- read as a name first, and then known as the keyword
    have hword : (['a', 'r'] ++ after).takeWhile isNamePart = ['a', 'r'] :=
      takeWhile_append_of_head? (List.all_eq_true.1 rfl) hafter
    have hstart : isNameStart 'v' := rfl
    rw [scan, if_neg (by decide), if_pos hstart, hword]
    rfl
  | str inside =>
    obtain ⟨rfl, rfl⟩ := List.cons.inj hletters
    rename_i content
    -- the content runs up to the closing quote, which is not the end of what there is
    have hcontent : (content ++ ['"'] ++ after).takeWhile (· ≠ '"') = content := by
      rw [List.append_assoc]
      exact takeWhile_append_of_head? (by simpa using inside) (by simp)
    rw [scan, if_neg (by decide), if_neg (by decide), if_pos rfl, hcontent, if_neg (by simp)]
    simp
  | mark sign =>
    obtain ⟨rfl, rfl⟩ := List.cons.inj hletters
    obtain ⟨hdigit, hname, hquote, -⟩ := class_of_sign? (sign?_of_mark? sign)
    simp only [scan, hdigit, hname, hquote, Bool.false_eq_true, if_false, sign, List.length_nil]

/-- **What is read is spelled.** -/
private theorem spells_of_scan {token : Token} {c : Char} {rest : List Char} {extra : Nat}
    (h : scan c rest = .token token extra) :
    ∃ more after, rest = more ++ after ∧ more.length = extra ∧ Spells token (c :: more) ∧
      token.EndsBefore after := by
  unfold scan at h
  by_cases hdigit : c.isDigit
  · -- a number: the digits, as long as they last
    rw [if_pos hdigit] at h
    dsimp only at h
    split at h
    · next n hvalue =>
      cases h
      exact ⟨_, _, List.takeWhile_append_dropWhile.symm, rfl,
        .int hdigit (fun d hd => List.mem_takeWhile_imp hd) hvalue, head?_dropWhile_eq_false⟩
    · cases h
  rw [if_neg hdigit] at h
  by_cases hstart : isNameStart c
  · -- a name, unless its letters are those of the keyword
    rw [if_pos hstart] at h
    cases h
    refine ⟨_, _, List.takeWhile_append_dropWhile.symm, rfl, ?_, ?_⟩
    · split
      · next hvar =>
        have hletters : c :: rest.takeWhile isNamePart = ['v', 'a', 'r'] :=
          String.ofList_injective hvar
        rw [hletters]
        exact .var
      · next hfree => exact .name hstart (fun d hd => List.mem_takeWhile_imp hd) hfree
    · split <;> exact head?_dropWhile_eq_false
  rw [if_neg hstart] at h
  by_cases hquote : c = '"'
  · -- a string, which takes the closing quote as well
    rw [if_pos hquote] at h
    dsimp only at h
    split at h
    · cases h
    · next hlength =>
      cases h
      subst hquote
      obtain ⟨after, hrest⟩ := exists_closing_quote hlength
      refine ⟨rest.takeWhile (· ≠ '"') ++ ['"'], after, ?_, List.length_append, ?_, ?_⟩
      · rw [List.append_assoc, List.singleton_append]
        exact hrest
      · exact .str fun d hd => by simpa using List.mem_takeWhile_imp hd
      · exact fun _ _ => rfl
  -- a sign, which nothing prolongs
  rw [if_neg hquote] at h
  split at h
  · next hmark =>
    cases h
    exact ⟨[], rest, rfl, rfl, .mark hmark,
      fun d _ => Token.prolongs_of_sign? (sign?_of_mark? hmark) d⟩
  · cases h

/-- **One token is read exactly if its letters stand in front and end there.** -/
theorem scan_eq_token_iff {token : Token} {c : Char} {rest : List Char} {extra : Nat} :
    scan c rest = .token token extra ↔
      ∃ more after, rest = more ++ after ∧ more.length = extra ∧ Spells token (c :: more) ∧
        token.EndsBefore after := by
  constructor
  · exact spells_of_scan
  · rintro ⟨more, after, rfl, rfl, hspells, hends⟩
    exact scan_of_spells hspells hends

/-! ### Words -/

/-- A token with letters that spell it. -/
structure Word where
  token : Token
  letters : List Char
  spells : Spells token letters

private theorem not_isBlank_of_isNamePart {c : Char} (h : isNamePart c) :
    Source.isBlank c = false := by
  simp only [isNamePart, Char.isAlphanum, Bool.or_eq_true, decide_eq_true_eq, isAlpha_iff,
    Char.isDigit_iff_toNat, Char.reduceToNat] at h
  -- letters and digits lie above the ASCII blanks and below all others
  rcases h with h | rfl
  · simp only [Source.isBlank, Bool.or_eq_false_iff, Bool.and_eq_false_iff, beq_eq_false_iff_ne,
      decide_eq_false_iff_not]
    omega
  · decide

private theorem isBlank_of_isSpace {c : Char} (h : isSpace c) : Source.isBlank c := by
  simp only [isSpace, Bool.or_eq_true, decide_eq_true_eq] at h
  rcases h with (((rfl | rfl) | rfl) | rfl) | rfl <;> decide

/-- A word begins with a letter that is no blank. -/
theorem Spells.exists_first {token : Token} {letters : List Char} (h : Spells token letters) :
    ∃ c more, letters = c :: more ∧ Source.isBlank c = false := by
  cases h with
  | int first _ _ => exact ⟨_, _, rfl, not_isBlank_of_isNamePart (isNamePart_of_isDigit first)⟩
  | name first _ _ =>
    exact ⟨_, _, rfl, not_isBlank_of_isNamePart (isNamePart_of_isNameStart first)⟩
  | var => exact ⟨_, _, rfl, by decide⟩
  | str _ => exact ⟨_, _, rfl, by decide⟩
  | mark sign => exact ⟨_, _, rfl, (class_of_sign? (sign?_of_mark? sign)).2.2.2⟩

/-- A word ends with a letter that is no blank. -/
private theorem Spells.exists_last {token : Token} {letters : List Char}
    (h : Spells token letters) : ∃ start d, letters = start ++ [d] ∧ Source.isBlank d = false := by
  -- letters that are all parts of names, such as those of numbers
  have hparts : ∀ {c : Char} {more : List Char}, isNamePart c → (∀ d ∈ more, isNamePart d) →
      ∃ start d, c :: more = start ++ [d] ∧ Source.isBlank d = false := by
    intro c more hc hmore
    have hlast : isNamePart ((c :: more).getLast (List.cons_ne_nil c more)) := by
      rcases List.mem_cons.1 (List.getLast_mem (List.cons_ne_nil c more)) with heq | hmem
      · rw [heq]
        exact hc
      · exact hmore _ hmem
    exact ⟨_, _, (List.dropLast_append_getLast _).symm, not_isBlank_of_isNamePart hlast⟩
  cases h with
  | int first more _ =>
    exact hparts (isNamePart_of_isDigit first) fun d hd => isNamePart_of_isDigit (more d hd)
  | name first more _ => exact hparts (isNamePart_of_isNameStart first) more
  | var => exact ⟨['v', 'a'], 'r', rfl, by decide⟩
  | str _ => exact ⟨'"' :: _, '"', rfl, by decide⟩
  | mark sign => exact ⟨[], _, rfl, (class_of_sign? (sign?_of_mark? sign)).2.2.2⟩

/-- **A word has no blanks to trim.** -/
theorem Word.trim_letters (w : Word) :
    Source.trim (String.ofList w.letters) = String.ofList w.letters := by
  obtain ⟨c, more, hfirst, hc⟩ := w.spells.exists_first
  obtain ⟨start, d, hlast, hd⟩ := w.spells.exists_last
  have hfront : w.letters.dropWhile Source.isBlank = w.letters := by
    rw [hfirst, List.dropWhile_cons_of_neg (by simp [hc])]
  have hback : w.letters.reverse.dropWhile Source.isBlank = w.letters.reverse := by
    rw [hlast, List.reverse_append, List.reverse_singleton, List.singleton_append,
      List.dropWhile_cons_of_neg (by simp [hd])]
  rw [Source.trim, String.toList_ofList, hfront, hback, List.reverse_reverse]

/-! ### Texts laid out from words -/

/-- The text consists of the words in order, each of them ending where it ends, and of blanks. -/
inductive Laid : List Char → List Word → Prop where
  | nil : Laid [] []
  | space {c : Char} {cs : List Char} {ws : List Word} (blank : isSpace c) (rest : Laid cs ws) :
      Laid (c :: cs) ws
  | word {cs : List Char} {ws : List Word} (w : Word) (ends : w.token.EndsBefore cs)
      (rest : Laid cs ws) : Laid (w.letters ++ cs) (w :: ws)

/-- **Layouts can be put together** where no name can run on from one into the other. -/
theorem Laid.append {as bs : List Char} {vs ws : List Word} (ha : Laid as vs) (hb : Laid bs ws)
    (hjoint : ∀ c ∈ bs.head?, isNamePart c = false) : Laid (as ++ bs) (vs ++ ws) := by
  induction ha with
  | nil => exact hb
  | space blank _ ih => exact .space blank ih
  | @word cs vs w ends _ ih =>
    rw [List.append_assoc]
    refine .word w ?_ ih
    -- only the last word meets the second layout; the others end as before
    cases cs with
    | nil => exact fun c hc => w.token.prolongs_of_not_isNamePart (hjoint c hc)
    | cons c cs => exact ends

/-- The lexeme stands for the word: it has its token, and its span slices its letters. -/
structure Lexeme.Stands (source : String) (l : Lexeme) (w : Word) : Prop where
  token : l.token = w.token
  slice : l.span.slice? source = some (String.ofList w.letters)

/-- The lexemes stand for the words, one for one. -/
abbrev StandFor (source : String) : List Lexeme → List Word → Prop :=
  List.Forall₂ (Lexeme.Stands source)

/-- The first word stands for the first token. -/
theorem StandFor.exists_cons {source : String} {ls : List Lexeme} {w : Word} {ws : List Word}
    (h : StandFor source ls (w :: ws)) :
    ∃ span rest, ls = ⟨w.token, span⟩ :: rest ∧
      span.slice? source = some (String.ofList w.letters) ∧ StandFor source rest ws := by
  obtain ⟨⟨_, span⟩, rest, ⟨rfl, hslice⟩, hrest, rfl⟩ := List.forall₂_cons_right_iff.1 h
  exact ⟨span, rest, rfl, hslice, hrest⟩

/-- Words in two parts stand for tokens in two parts. -/
theorem StandFor.exists_append {source : String} {ls : List Lexeme} {vs ws : List Word}
    (h : StandFor source ls (vs ++ ws)) :
    ∃ front back, ls = front ++ back ∧ StandFor source front vs ∧ StandFor source back ws :=
  ⟨_, _, (List.take_append_drop vs.length ls).symm, List.forall₂_take_append _ _ _ h,
    List.forall₂_drop_append _ _ _ h⟩

/-- Every token was read from a word. -/
theorem StandFor.exists_word {source : String} {ls : List Lexeme} {ws : List Word}
    (h : StandFor source ls ws) : ∀ l ∈ ls, ∃ w, l.Stands source w := by
  induction h with
  | nil => exact fun _ hl => nomatch hl
  | cons first _ ih => exact List.forall_mem_cons.2 ⟨⟨_, first⟩, ih⟩

/-- There are no tokens in no text. -/
theorem lexFrom_nil (start : Nat) : lexFrom start [] = .ok [] := by
  rw [lexFrom]

/-- Blanks are skipped. -/
theorem lexFrom_space {c : Char} (h : isSpace c) (start : Nat) (cs : List Char) :
    lexFrom start (c :: cs) = lexFrom (start + 1) cs := by
  rw [lexFrom, if_pos h]

/-- A word at the front becomes a lexeme of its own. -/
theorem lexFrom_word {w : Word} {cs : List Char} (ends : w.token.EndsBefore cs) (start : Nat) :
    lexFrom start (w.letters ++ cs) =
      (lexFrom (start + Source.byteLength w.letters) cs).map
        (⟨w.token, start.toUInt32, (start + Source.byteLength w.letters).toUInt32⟩ :: ·) := by
  obtain ⟨token, letters, spells⟩ := w
  obtain ⟨c, more, rfl, hc⟩ := spells.exists_first
  -- the first letter is not skipped, and so the word is read from it on
  have hspace : ¬ isSpace c := fun h => by simp [isBlank_of_isSpace h] at hc
  rw [List.cons_append, lexFrom, if_neg hspace,
    scan_eq_token_iff.2 ⟨more, cs, rfl, rfl, spells, ends⟩]
  dsimp only
  rw [List.take_left, List.drop_left, Source.byteLength_cons, Nat.add_assoc]
  rfl

/-- The span of a piece of text slices that piece, as long as offsets fit into 32 bits. -/
private theorem slice?_of_append {before part after : List Char}
    (hsize : Source.byteLength (before ++ (part ++ after)) < UInt32.size) :
    (Span.mk (Source.byteLength before).toUInt32
        (Source.byteLength before + Source.byteLength part).toUInt32).slice?
      (String.ofList (before ++ (part ++ after))) = some (String.ofList part) := by
  simp only [Source.byteLength_append] at hsize
  have htoNat : ∀ n < UInt32.size, n.toUInt32.toNat = n := fun n hn =>
    UInt32.toNat_ofNat_of_lt' hn
  rw [Span.slice?, htoNat _ (by omega), htoNat _ (by omega), Source.slice?_part]

/-- **Words become lexemes.** -/
theorem Laid.lexFrom {cs : List Char} {ws : List Word} (h : Laid cs ws) (before : List Char)
    (hsize : Source.byteLength (before ++ cs) < UInt32.size) :
    ∃ lexemes, Grammar.lexFrom (Source.byteLength before) cs = .ok lexemes ∧
      StandFor (String.ofList (before ++ cs)) lexemes ws := by
  -- `before` is what has been read already; it grows as the text shrinks
  induction h generalizing before with
  | nil => exact ⟨[], lexFrom_nil _, .nil⟩
  | @space c cs ws blank _ ih =>
    -- blanks are single bytes, which is what the offset moves on by
    have hc : c.utf8Size = 1 := by
      simp only [isSpace, Bool.or_eq_true, decide_eq_true_eq] at blank
      rcases blank with (((rfl | rfl) | rfl) | rfl) | rfl <;> rfl
    have happend : before ++ c :: cs = before ++ [c] ++ cs := by simp
    rw [happend] at hsize ⊢
    rw [lexFrom_space blank]
    have hlength : Source.byteLength (before ++ [c]) = Source.byteLength before + 1 := by
      rw [Source.byteLength_append, Source.byteLength_cons, hc, Source.byteLength_nil]
    rw [← hlength]
    exact ih (before ++ [c]) hsize
  | @word cs ws w ends _ ih =>
    -- the offsets of the word cut its letters out of the text again
    have hslice := slice?_of_append hsize
    rw [← List.append_assoc] at hsize
    obtain ⟨lexemes, hlexemes, hstands⟩ := ih (before ++ w.letters) hsize
    rw [Source.byteLength_append] at hlexemes
    rw [List.append_assoc] at hstands
    rw [lexFrom_word ends, hlexemes]
    exact ⟨_, rfl, .cons ⟨rfl, hslice⟩ hstands⟩

/-- **Lexemes come from words.** -/
theorem laid_of_lexFrom {start : Nat} {cs : List Char} {lexemes : List Lexeme}
    (h : lexFrom start cs = .ok lexemes) : ∃ ws, Laid cs ws := by
  fun_induction lexFrom start cs generalizing lexemes with
  | case1 => exact ⟨[], .nil⟩
  | case2 start c rest blank ih =>
    obtain ⟨ws, hws⟩ := ih h
    exact ⟨ws, .space blank hws⟩
  | case3 start c rest _ token extra hscan stop =>
    rename_i ih
    -- the scan has found a word and where it ends
    obtain ⟨more, after, rfl, rfl, hspells, hends⟩ := scan_eq_token_iff.1 hscan
    rw [List.drop_left] at h ih
    cases hafter : lexFrom stop after with
    | error e => rw [hafter] at h; cases h
    | ok lexemes =>
      obtain ⟨ws, hws⟩ := ih hafter
      exact ⟨⟨token, c :: more, hspells⟩ :: ws, .word ⟨token, c :: more, hspells⟩ hends hws⟩
  | case4 => cases h

/-- **The tokens of a text are the words it is laid out from.** -/
theorem Laid.lex {text : String} {ws : List Word} (h : Laid text.toList ws)
    (hsize : text.utf8ByteSize < UInt32.size) :
    ∃ lexemes, Grammar.lex text = .ok lexemes ∧ StandFor text lexemes ws := by
  have hlex := h.lexFrom [] (by rwa [List.nil_append, Source.byteLength_eq, String.ofList_toList])
  rwa [List.nil_append, String.ofList_toList] at hlex

/-- **Every token of a text stands for a word.** -/
theorem stands_of_lex {source : String} {lexemes : List Lexeme} (h : lex source = .ok lexemes)
    (hsize : source.utf8ByteSize < UInt32.size) : ∀ l ∈ lexemes, ∃ w, l.Stands source w := by
  obtain ⟨ws, hws⟩ := laid_of_lexFrom h
  obtain ⟨lexemes', hlex, hstand⟩ := hws.lex hsize
  -- a text has one list of tokens only
  cases h.symm.trans hlex
  exact hstand.exists_word

end Scriptlet.Grammar
