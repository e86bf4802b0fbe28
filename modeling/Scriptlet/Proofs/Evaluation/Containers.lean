import Mathlib.Algebra.Order.Ring.Int
import Scriptlet.Proofs.Evaluation.Elements

/-!
# Containers and their elements

A string and an array are both sequences: the elements of an array are its items, those of a string
its code points, each as a string of its own. Size and indexing count the same sequence, so that an
index names an element exactly if it lies between zero and the size, and walking over all indices
gives the whole container back.

* `Value.elements?` — the sequence that a container stands for;
* `Value.element_eq_ok_iff`, `Value.element_eq_error_iff`, `Value.size_eq` — indexing and size in
  terms of that sequence, the only place where the two sorts of container are told apart;
* `Value.listed_eq`, `Value.rejoined_eq` — what a walk over all indices collects;
* `Value.size_element_agree` — the agreement for strings, for arrays and for joined strings.

A size is a 64-bit integer, so a container with more elements than that would be reported with the
greatest one; the statements about sizes say where this matters.
-/

namespace Scriptlet.Value

/-! ### The sequence of elements -/

/-- The code points of a string in order, each as a string of its own. -/
def codePoints (s : String) : List Value := s.toList.map fun c => str c.toString

/-- A string has as many elements as characters. -/
@[simp]
theorem length_codePoints (s : String) : (codePoints s).length = s.length := by
  rw [codePoints, List.length_map, String.length_toList]

/-- The elements of a container in order. -/
def elements? : Value → Option (List Value)
  | str s => some (codePoints s)
  | array items => some items
  | _ => none

section Elements

variable {v r : Value} {vs : List Value} {i : Int64}

/-- Indexing finds a position and takes the element there. -/
theorem element_eq (h : v.elements? = some vs) :
    v.element (int i) = (position i vs.length).map (vs.getD · null) := by
  cases v with
  | str s =>
    obtain rfl := Option.some.inj h
    simp only [element, codePoints, List.length_map, List.getD_eq_getElem?_getD, List.getElem?_map]
    cases position i s.toList.length <;> rfl
  | array items =>
    obtain rfl := Option.some.inj h
    rw [element]
    cases position i items.length <;> rfl
  | _ => cases h

/-- **Indexing succeeds exactly at the positions of elements**, with the element there. -/
theorem element_eq_ok_iff (h : v.elements? = some vs) :
    v.element (int i) = .ok r ↔ ∃ p : Nat, i.toInt = p ∧ vs[p]? = some r := by
  rw [element_eq h]
  cases hposition : position i vs.length with
  | error fault =>
    -- outside the container there is no element in the list either
    obtain ⟨hout, -⟩ := position_eq_error_iff.1 hposition
    constructor
    · intro hok
      cases hok
    · rintro ⟨p, hp, hr⟩
      obtain ⟨hlt, -⟩ := List.getElem?_eq_some_iff.1 hr
      omega
  | ok p =>
    -- inside, the position is the index itself
    obtain ⟨hp, hlt⟩ := position_eq_ok_iff.1 hposition
    show Except.ok (vs.getD p null) = _ ↔ _
    rw [List.getD_eq_getElem?_getD, List.getElem?_eq_getElem hlt, Option.getD_some,
      Except.ok.injEq]
    constructor
    · rintro rfl
      exact ⟨p, hp, List.getElem?_eq_getElem hlt⟩
    · rintro ⟨q, hq, hr⟩
      obtain rfl : p = q := by omega
      rw [List.getElem?_eq_getElem hlt] at hr
      exact Option.some.inj hr

/-- **Indexing fails exactly outside**, and says which index was too much for how many elements. -/
theorem element_eq_error_iff (h : v.elements? = some vs) {fault : Fault} :
    v.element (int i) = .error fault ↔
      (i.toInt < 0 ∨ vs.length ≤ i.toInt) ∧ fault = .outOfBounds i vs.length := by
  rw [element_eq h, ← position_eq_error_iff]
  cases position i vs.length with
  | error other => simp [Except.map]
  | ok p => simp [Except.map]

/-- The size of a container is the number of its elements. -/
theorem size_eq (h : v.elements? = some vs) : v.size = .ok (ofLength vs.length) := by
  cases v with
  | str s =>
    obtain rfl := Option.some.inj h
    rw [length_codePoints, size, String.length_toList]
  | array items =>
    obtain rfl := Option.some.inj h
    rfl
  | _ => cases h

end Elements

/-! ### Sizes -/

/-- The size of a container is the number of its elements, as far as there are integers. -/
private theorem exists_ofLength (n : Nat) :
    ∃ k : Int64, ofLength n = int k ∧ k.toInt = min (n : Int) (2 ^ 63 - 1) := by
  have hmax : Int64.maxValue.toInt = 2 ^ 63 - 1 := rfl
  have hmin : Int64.minValue.toInt = -2 ^ 63 := rfl
  unfold ofLength
  cases hfit : Number.fit? n with
  | some k =>
    have hk : k.toInt = n := Number.fit?_eq_some_iff.1 hfit
    have hle : k.toInt ≤ Int64.maxValue.toInt := k.toInt_le
    exact ⟨k, rfl, by omega⟩
  | none =>
    refine ⟨Int64.maxValue, rfl, ?_⟩
    -- a length that does not fit is too great, for it is not negative
    have hnot : ¬ (Int64.minValue.toInt ≤ (n : Int) ∧ (n : Int) ≤ Int64.maxValue.toInt) := by
      intro hfits
      rw [Number.fit?, if_pos hfits] at hfit
      cases hfit
    omega

/-- **A container of `n` elements**, as far as size and indexing can tell. -/
structure IsCounted (v : Value) (n : Nat) : Prop where
  /-- The size is the number of elements. -/
  size : ∃ k : Int64, v.size = .ok (int k) ∧ k.toInt = n
  /-- An index gives something exactly if it is an index of an element. -/
  inside : ∀ i : Int64, (∃ r, v.element (int i) = .ok r) ↔ 0 ≤ i.toInt ∧ i.toInt < n
  /-- Any other index is reported with the number of elements. -/
  outside : ∀ i : Int64, ¬ (0 ≤ i.toInt ∧ i.toInt < n) →
    v.element (int i) = .error (.outOfBounds i n)

/-- A container with fewer elements than there are positive integers is counted right. -/
private theorem isCounted_of_elements? {v : Value} {vs : List Value} (h : v.elements? = some vs)
    (hlt : vs.length < 2 ^ 63) : v.IsCounted vs.length where
  size := by
    obtain ⟨k, hk, hmin⟩ := exists_ofLength vs.length
    exact ⟨k, by rw [size_eq h, hk], by omega⟩
  inside i := by
    constructor
    · rintro ⟨r, hr⟩
      obtain ⟨p, hp, hitem⟩ := (element_eq_ok_iff h).1 hr
      obtain ⟨hp', -⟩ := List.getElem?_eq_some_iff.1 hitem
      omega
    · rintro ⟨hge, hi⟩
      have hp : i.toInt.toNat < vs.length := by omega
      exact ⟨vs[i.toInt.toNat], (element_eq_ok_iff h).2
        ⟨i.toInt.toNat, by omega, List.getElem?_eq_getElem hp⟩⟩
  outside i hi := (element_eq_error_iff h).2 ⟨by omega, rfl⟩

/-! ### Walking over all indices -/

/-- A position as an index. -/
def ofPosition (p : Nat) : Value := int (Int64.ofNat p)

/-- The elements at the first `n` indices. -/
def listed (v : Value) (n : Nat) : Except Fault (List Value) :=
  (List.range n).mapM fun p => v.element (ofPosition p)

/-- The elements at the first `n` indices, joined by `+` to the empty string one after the other. -/
def rejoined (v : Value) (n : Nat) : Except Fault Value :=
  (List.range n).foldlM (fun joined p => do
    let r ← v.element (ofPosition p)
    BinaryOp.add.apply joined r) (str "")

/-- At a position there is the element that stands there. -/
private theorem element_ofPosition {v r : Value} {vs : List Value} (h : v.elements? = some vs)
    (hlt : vs.length < 2 ^ 63) {p : Nat} (hr : vs[p]? = some r) :
    v.element (ofPosition p) = .ok r := by
  obtain ⟨hp, -⟩ := List.getElem?_eq_some_iff.1 hr
  exact (element_eq_ok_iff h).2 ⟨p, Int64.toInt_ofNat_of_lt (by omega), hr⟩

/-- **A walk over all indices lists the elements.** -/
theorem listed_eq {v : Value} {vs : List Value} (h : v.elements? = some vs)
    (hlt : vs.length < 2 ^ 63) : v.listed vs.length = .ok vs := by
  -- after `n` rounds the first `n` elements are there
  suffices hn : ∀ n ≤ vs.length, v.listed n = .ok (vs.take n) by
    rw [hn vs.length (Nat.le_refl _), List.take_length]
  intro n
  induction n with
  | zero => exact fun _ => rfl
  | succ n ih =>
    intro hn
    have hitem : vs[n]? = some vs[n] := List.getElem?_eq_getElem hn
    have hstep := element_ofPosition h hlt hitem
    have hprev : (List.range n).mapM (fun p => v.element (ofPosition p)) = .ok (vs.take n) :=
      ih (by omega)
    unfold listed
    rw [List.range_succ, List.mapM_append, hprev, List.mapM_cons, hstep]
    show Except.ok (vs.take n ++ [vs[n]]) = _
    rw [List.take_append_getElem]

/-- **A walk over all indices of a string puts it together again.** -/
theorem rejoined_eq {s : String} (hlt : s.length < 2 ^ 63) :
    (str s).rejoined s.length = .ok (str s) := by
  -- after `n` rounds the first `n` code points are there
  suffices hn : ∀ n ≤ s.length, (str s).rejoined n = .ok (str (String.ofList (s.toList.take n))) by
    rw [hn s.length (Nat.le_refl _), ← String.length_toList, List.take_length,
      String.ofList_toList]
  intro n
  induction n with
  | zero => exact fun _ => rfl
  | succ n ih =>
    intro hn
    have hc : n < s.toList.length := by rwa [String.length_toList]
    have hstep : (str s).element (ofPosition n) = .ok (str s.toList[n].toString) := by
      refine element_ofPosition rfl (by rwa [length_codePoints]) ?_
      rw [codePoints, List.getElem?_map, List.getElem?_eq_getElem hc, Option.map_some]
    -- the last round appends one code point to what the rounds before have collected
    unfold rejoined at ih ⊢
    rw [List.range_succ, List.foldlM_append, ih (by omega)]
    show ((str s).element (ofPosition n) >>= fun r => BinaryOp.add.apply _ r) >>= pure = _
    rw [hstep]
    show Except.ok (str (String.ofList (s.toList.take n) ++ s.toList[n].toString)) = _
    rw [← List.take_append_getElem hc, String.ofList_append]
    rfl

/-! ### Joined strings -/

section Joined

variable {s t : String} {i : Int64} {r : Value}

private theorem codePoints_append (s t : String) :
    codePoints (s ++ t) = codePoints s ++ codePoints t := by
  rw [codePoints, String.toList_append, List.map_append]
  rfl

/-- Sizes of strings add up, as far as there are integers. -/
private theorem exists_size_append (s t : String) :
    ∃ m n k : Int64, (str s).size = .ok (int m) ∧ (str t).size = .ok (int n) ∧
      (str (s ++ t)).size = .ok (int k) ∧ k.toInt = min (m.toInt + n.toInt) (2 ^ 63 - 1) ∧
      (s.length + t.length < 2 ^ 63 → k.toInt = m.toInt + n.toInt) := by
  obtain ⟨m, hm, hm'⟩ := exists_ofLength (codePoints s).length
  obtain ⟨n, hn, hn'⟩ := exists_ofLength (codePoints t).length
  obtain ⟨k, hk, hk'⟩ := exists_ofLength (codePoints (s ++ t)).length
  rw [length_codePoints] at hm' hn' hk'
  rw [String.length_append] at hk'
  refine ⟨m, n, k, ?_, ?_, ?_, by omega, by omega⟩
  · rw [size_eq rfl, hm]
  · rw [size_eq rfl, hn]
  · rw [size_eq rfl, hk]

/-- Below the size of the first part, indexing a joined string is indexing that part. -/
private theorem element_append_left (h : i.toInt < s.length) :
    (str (s ++ t)).element (int i) = .ok r ↔ (str s).element (int i) = .ok r := by
  rw [element_eq_ok_iff rfl, element_eq_ok_iff rfl]
  refine exists_congr fun p => and_congr_right fun hp => ?_
  have hlt : p < (codePoints s).length := by
    rw [length_codePoints]
    omega
  rw [codePoints_append, List.getElem?_append_left hlt]

/-- From the size of the first part on, it is indexing the second part, counted from there. -/
private theorem element_append_right (h : s.length ≤ i.toInt) :
    (str (s ++ t)).element (int i) = .ok r ↔
      (str t).element (int (Int64.ofInt (i.toInt - s.length))) = .ok r := by
  have hmax : i.toInt ≤ Int64.maxValue.toInt := i.toInt_le
  -- the index into the second string does not leave the range of integers
  have hsub : (Int64.ofInt (i.toInt - s.length)).toInt = i.toInt - s.length := by
    have hmax' : Int64.maxValue.toInt = 2 ^ 63 - 1 := rfl
    have hmin' : Int64.minValue.toInt = -2 ^ 63 := rfl
    exact Int64.toInt_ofInt_of_le (by omega) (by omega)
  rw [element_eq_ok_iff rfl, element_eq_ok_iff rfl, hsub]
  constructor
  · rintro ⟨p, hp, hr⟩
    have hle : (codePoints s).length ≤ p := by
      rw [length_codePoints]
      omega
    rw [codePoints_append, List.getElem?_append_right hle, length_codePoints] at hr
    exact ⟨p - s.length, by omega, hr⟩
  · rintro ⟨q, hq, hr⟩
    refine ⟨s.length + q, by omega, ?_⟩
    rw [codePoints_append, List.getElem?_append_right (by simp), length_codePoints,
      Nat.add_sub_cancel_left, hr]

end Joined

/-! ### Size and indexing agree -/

/-- **Size and indexing agree on every container.** The size of a string or an array is the number
of its code points or items, and an index gives something exactly if it is not negative and below
the size; any other is reported with the size. What a string gives is always a single code point,
and joining all of them gives the string back; an array gives its items in order. Joining strings
adds their sizes, and the joined string has the elements of the first, and behind them those of the
second. -/
theorem size_element_agree :
    (∀ s : String, s.length < 2 ^ 63 →
      (str s).IsCounted s.length ∧
      (∀ i r, (str s).element (int i) = .ok r → ∃ c : Char, r = str (String.singleton c)) ∧
      (str s).rejoined s.length = .ok (str s)) ∧
    (∀ items : List Value, items.length < 2 ^ 63 →
      (array items).IsCounted items.length ∧ (array items).listed items.length = .ok items) ∧
    ∀ s t : String, BinaryOp.add.apply (str s) (str t) = .ok (str (s ++ t)) ∧
      (∃ m n k : Int64, (str s).size = .ok (int m) ∧ (str t).size = .ok (int n) ∧
        (str (s ++ t)).size = .ok (int k) ∧ k.toInt = min (m.toInt + n.toInt) (2 ^ 63 - 1) ∧
        (s.length + t.length < 2 ^ 63 → k.toInt = m.toInt + n.toInt)) ∧
      ∀ (i : Int64) (r : Value),
        (i.toInt < s.length →
          ((str (s ++ t)).element (int i) = .ok r ↔ (str s).element (int i) = .ok r)) ∧
        (s.length ≤ i.toInt →
          ((str (s ++ t)).element (int i) = .ok r ↔
            (str t).element (int (Int64.ofInt (i.toInt - s.length))) = .ok r)) := by
  refine ⟨?_, ?_, ?_⟩
  · intro s hs
    have hcounted := isCounted_of_elements? (v := str s) rfl (by rwa [length_codePoints])
    rw [length_codePoints] at hcounted
    refine ⟨hcounted, ?_, rejoined_eq hs⟩
    intro i r hr
    -- the element is one of the code points, so that there is no other case
    obtain ⟨p, -, hitem⟩ := (element_eq_ok_iff rfl).1 hr
    obtain ⟨c, -, rfl⟩ := List.mem_map.1 (List.mem_of_getElem? hitem)
    exact ⟨c, rfl⟩
  · intro items hitems
    exact ⟨isCounted_of_elements? rfl hitems, listed_eq rfl hitems⟩
  · intro s t
    exact ⟨rfl, exists_size_append s t,
      fun i r => ⟨element_append_left, element_append_right⟩⟩

/-- Two code points of two and four bytes: the size is two, and so the index two is outside. -/
theorem size_element_agree_wide :
    "é😀".length < 2 ^ 63 ∧ "é😀".utf8ByteSize = 6 ∧
      (str "é😀").element (int 2) = .error (.outOfBounds 2 2) ∧
      (str "é😀").rejoined 2 = .ok (str "é😀") ∧
      (str "aé😀").element (int 2) = .ok (str "😀") := by
  have hlt : "é😀".length < 2 ^ 63 := by decide
  obtain ⟨hcounted, -, hrejoined⟩ := size_element_agree.1 "é😀" hlt
  refine ⟨hlt, by decide, hcounted.outside 2 (by decide), hrejoined, ?_⟩
  -- the index is past the first part, and one in the second
  obtain ⟨-, -, hindex⟩ := size_element_agree.2.2 "a" "é😀"
  exact ((hindex 2 (str "😀")).2 (by decide)).2 rfl

end Scriptlet.Value
