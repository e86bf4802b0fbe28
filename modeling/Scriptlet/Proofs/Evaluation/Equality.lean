import Scriptlet.Evaluation.Operation
import Scriptlet.Proofs.Number.Rounding

/-!
# Equality of values

Two values are equal by what they are made of. The relation `Matches` says how; it has a strict form
for the identity of values and a form that also lets numbers of different types be equal, which is
the equality of scripts. What holds for equality is proved by induction over the relation.

Equality is symmetric, but it is transitive only up to rounding. An integer is rounded when it is
compared with a floating-point number, so two integers next to each other can both be equal to the
same number without being equal. That is the only way in which transitivity fails.

* `Value.elementInduction`, `Value.Within` — values inside values;
* `Value.Matches` — how values are equal, with `identical_iff` and `looselyEqual_iff`;
* `Value.looselyEqual_comm`, `Value.matches_iff_eq` — symmetry, and values without floats;
* `Value.RoundsTogether` — two integers are made equal by a number between them;
* `BinaryOp.apply_eq_trans` — when equality is transitive.
-/

namespace Scriptlet

namespace Value

/-! ### Values inside values -/

/-- **Induction over values**: a property of a value from the same property of its elements. -/
@[elab_as_elim]
theorem elementInduction {motive : Value → Prop}
    (value : ∀ v, (∀ items, v = array items → ∀ u ∈ items, motive u) → motive v) (v : Value) :
    motive v := by
  -- the second motive is about the lists of elements, through which values are nested
  refine @Value.rec motive (fun vs => ∀ v ∈ vs, motive v) (value _ nofun) (value _ nofun)
    (fun _ => value _ nofun) (fun _ => value _ nofun) (fun _ => value _ nofun)
    (fun _ => value _ nofun) ?_ ?_ ?_ v
  · intro items ih
    refine value _ ?_
    rintro _ ⟨⟩
    exact ih
  · intro v hv
    cases hv
  · intro head tail hhead htail v hv
    rcases List.mem_cons.1 hv with rfl | hv
    · exact hhead
    · exact htail v hv

/-- **One value occurs in another**: it is that value, or occurs in an element of it. -/
inductive Within (v : Value) : Value → Prop where
  | self : Within v v
  | item {u : Value} {items : List Value} (mem : u ∈ items) (inner : Within v u) :
      Within v (array items)

/-- No floating-point number occurs in the value. -/
def IsFloatFree (v : Value) : Prop := ∀ x, ¬ (float x).Within v

/-- No NaN occurs in the value. -/
def IsNaNFree (v : Value) : Prop := ∀ x, (float x).Within v → x.isNaN = false

private theorem IsFloatFree.of_mem {items : List Value} (h : (array items).IsFloatFree) {v : Value}
    (hv : v ∈ items) : v.IsFloatFree :=
  fun x hx => h x (.item hv hx)

/-! ### How values are equal -/

/-- The value has neither elements nor digits that could be lost. -/
def isAtom : Value → Bool
  | void | null | bool _ | int _ | str _ => true
  | float _ | array _ => false

/-- **How two values are equal.** Only if types may be mixed is an integer equal to the number that
it is rounded to. -/
inductive Matches (mixed : Prop) : Value → Value → Prop where
  | atom {v : Value} (atom : v.isAtom = true) : Matches mixed v v
  | floats {x y : Float} (eq : x == y) : Matches mixed (float x) (float y)
  | rounded {n : Int64} {x : Float} (may : mixed) (eq : Number.ofInteger n == x) :
      Matches mixed (int n) (float x)
  | rounds {n : Int64} {x : Float} (may : mixed) (eq : Number.ofInteger n == x) :
      Matches mixed (float x) (int n)
  | arrays {vs ws : List Value} (length : vs.length = ws.length)
      (items : ∀ (i : Nat) (v w : Value), vs[i]? = some v → ws[i]? = some w → Matches mixed v w) :
      Matches mixed (array vs) (array ws)

/-- If integers may be compared with floating-point numbers, more values match. -/
theorem Matches.mono {p q : Prop} (hpq : p → q) {v w : Value} (h : v.Matches p w) :
    v.Matches q w := by
  induction h with
  | atom hatom => exact .atom hatom
  | floats heq => exact .floats heq
  | rounded may heq => exact .rounded (hpq may) heq
  | rounds may heq => exact .rounds (hpq may) heq
  | arrays hlength _ ih => exact .arrays hlength ih

/-- Lists are equivalent if they are as long as each other and their items are, place by place. -/
private theorem isEqv_iff {r : Value → Value → Bool} {vs ws : List Value} :
    vs.isEqv ws r ↔ vs.length = ws.length ∧
      ∀ (i : Nat) (v w : Value), vs[i]? = some v → ws[i]? = some w → r v w := by
  induction vs generalizing ws with
  | nil => cases ws <;> simp
  | cons v vs ih =>
    cases ws with
    | nil => simp
    | cons w ws =>
      rw [List.isEqv_cons_cons, Bool.and_eq_true, ih, List.length_cons, List.length_cons,
        Nat.add_right_cancel_iff]
      constructor
      · rintro ⟨hhead, hlength, htail⟩
        refine ⟨hlength, fun i => ?_⟩
        cases i with
        | zero =>
          rintro _ _ ⟨⟩ ⟨⟩
          exact hhead
        | succ i => exact htail i
      · rintro ⟨hlength, hitems⟩
        exact ⟨hitems 0 v w rfl rfl, hlength, fun i => hitems (i + 1)⟩

private theorem identicalAll_eq (vs ws : List Value) :
    identicalAll vs ws = vs.isEqv ws identical := by
  induction vs generalizing ws with
  | nil => cases ws <;> rfl
  | cons v vs ih => cases ws <;> simp [identicalAll, List.isEqv_cons_cons, ih]

private theorem looselyEqualAll_eq (vs ws : List Value) :
    looselyEqualAll vs ws = vs.isEqv ws looselyEqual := by
  induction vs generalizing ws with
  | nil => cases ws <;> rfl
  | cons v vs ih => cases ws <;> simp [looselyEqualAll, List.isEqv_cons_cons, ih]

private theorem identical_self_of_isAtom {v : Value} (h : v.isAtom = true) : v.identical v := by
  cases v with
  | void | null => rfl
  | bool b | int n | str s => exact beq_self_eq_true _
  | float | array => cases h

private theorem looselyEqual_self_of_isAtom {v : Value} (h : v.isAtom = true) :
    v.looselyEqual v = v.identical v := by
  cases v with
  | void | null | bool | int | str => rfl
  | float | array => cases h

/-- **Identical values** match without mixing types. -/
theorem identical_iff {v w : Value} : v.identical w ↔ v.Matches False w := by
  constructor
  · induction v using elementInduction generalizing w with
    | value v ih =>
      intro h
      -- one case for each pair of types that can be identical
      unfold identical at h
      split at h
      · exact .atom rfl
      · exact .atom rfl
      · rw [beq_iff_eq.1 h]
        exact .atom rfl
      · rw [beq_iff_eq.1 h]
        exact .atom rfl
      · exact .floats h
      · rw [beq_iff_eq.1 h]
        exact .atom rfl
      · rw [identicalAll_eq, isEqv_iff] at h
        exact .arrays h.1 fun i v w hv hw =>
          ih _ rfl v (List.mem_of_getElem? hv) (h.2 i v w hv hw)
      · cases h
  · intro h
    -- conversely, along the way in which the values match
    induction h with
    | atom hatom => exact identical_self_of_isAtom hatom
    | floats heq => exact heq
    | rounded may | rounds may => exact may.elim
    | arrays hlength _ ih =>
      rw [identical, identicalAll_eq, isEqv_iff]
      exact ⟨hlength, ih⟩

/-- **Equal values** match, and may mix types. -/
theorem looselyEqual_iff {v w : Value} : v.looselyEqual w ↔ v.Matches True w := by
  constructor
  · induction v using elementInduction generalizing w with
    | value v ih =>
      intro h
      -- mixed numbers and arrays differ from `identical`, all other pairs are left to it
      unfold looselyEqual at h
      split at h
      · exact .rounded trivial h
      · exact .rounds trivial h
      · rw [looselyEqualAll_eq, isEqv_iff] at h
        exact .arrays h.1 fun i v w hv hw =>
          ih _ rfl v (List.mem_of_getElem? hv) (h.2 i v w hv hw)
      · exact (identical_iff.1 h).mono False.elim
  · intro h
    induction h with
    | atom hatom =>
      rw [looselyEqual_self_of_isAtom hatom]
      exact identical_self_of_isAtom hatom
    | floats heq | rounded _ heq | rounds _ heq => exact heq
    | arrays hlength _ ih =>
      rw [looselyEqual, looselyEqualAll_eq, isEqv_iff]
      exact ⟨hlength, ih⟩

/-- What is identical is also equal to the operators. -/
theorem looselyEqual_of_identical {v w : Value} (h : v.identical w) : v.looselyEqual w :=
  looselyEqual_iff.2 ((identical_iff.1 h).mono False.elim)

/-! ### Symmetry and identity -/

/-- Which values match does not depend on their order. -/
theorem Matches.symm {mixed : Prop} {v w : Value} (h : v.Matches mixed w) : w.Matches mixed v := by
  induction h with
  | atom hatom => exact .atom hatom
  | floats heq => exact .floats (BEq.symm heq)
  | rounded may heq => exact .rounds may heq
  | rounds may heq => exact .rounded may heq
  | arrays hlength _ ih => exact .arrays hlength.symm fun i w v hw hv => ih i v w hv hw

/-- **Equality is symmetric.** -/
theorem looselyEqual_comm (v w : Value) : v.looselyEqual w = w.looselyEqual v := by
  rw [Bool.eq_iff_iff, looselyEqual_iff, looselyEqual_iff]
  exact ⟨.symm, .symm⟩

/-- Without floating-point numbers, values match only if they are the same. -/
theorem Matches.eq {mixed : Prop} {v w : Value} (h : v.Matches mixed w) (hv : v.IsFloatFree)
    (hw : w.IsFloatFree) : v = w := by
  induction h with
  | atom => rfl
  | @floats x => exact absurd .self (hv x)
  | @rounded _ x => exact absurd .self (hw x)
  | @rounds _ x => exact absurd .self (hv x)
  | arrays hlength _ ih =>
    refine congrArg array (List.ext_getElem hlength fun i hi hi' => ?_)
    exact ih i _ _ (List.getElem?_eq_getElem hi) (List.getElem?_eq_getElem hi')
      (hv.of_mem (List.getElem_mem hi)) (hw.of_mem (List.getElem_mem hi'))

private theorem IsFloatFree.matches_self {v : Value} (h : v.IsFloatFree) (mixed : Prop) :
    v.Matches mixed v := by
  induction v using elementInduction with
  | value v ih =>
    cases v with
    | void | null | bool | int | str => exact .atom rfl
    | float x => exact absurd .self (h x)
    | array items =>
      refine .arrays rfl fun i v w hv hw => ?_
      cases hv.symm.trans hw
      have hmem := List.mem_of_getElem? hv
      exact ih items rfl v hmem (h.of_mem hmem)

/-- **Without floating-point numbers**, values match exactly if they are the same. -/
theorem matches_iff_eq {mixed : Prop} {v w : Value} (hv : v.IsFloatFree) (hw : w.IsFloatFree) :
    v.Matches mixed w ↔ v = w := by
  constructor
  · intro h
    exact h.eq hv hw
  · rintro rfl
    exact hv.matches_self mixed

/-! ### Transitivity -/

/-- **Two integers are rounded to the same number**: where `b` has a floating-point number, `a` and
`c` have different integers, both of which become that number. The place is the same in all three,
at any depth inside arrays. -/
inductive RoundsTogether : Value → Value → Value → Prop where
  | here {m n : Int64} {x : Float} (ne : m ≠ n) (left : Number.ofInteger m == x)
      (right : Number.ofInteger n == x) : RoundsTogether (int m) (float x) (int n)
  | item {as bs cs : List Value} {a b c : Value} (i : Nat) (left : as[i]? = some a)
      (mid : bs[i]? = some b) (right : cs[i]? = some c) (inner : RoundsTogether a b c) :
      RoundsTogether (array as) (array bs) (array cs)

/-- Where two integers meet at one floating-point number, the three are found inside the values. -/
private theorem RoundsTogether.exists_within {a b c : Value} (h : RoundsTogether a b c) :
    ∃ m n x, (int m).Within a ∧ (float x).Within b ∧ (int n).Within c ∧ m ≠ n ∧
      Number.ofInteger m == x ∧ Number.ofInteger n == x := by
  induction h with
  | @here m n x hne hleft hright => exact ⟨m, n, x, .self, .self, .self, hne, hleft, hright⟩
  | item i ha hb hc _ ih =>
    obtain ⟨m, n, x, hm, hx, hn, hrest⟩ := ih
    exact ⟨m, n, x, .item (List.mem_of_getElem? ha) hm, .item (List.mem_of_getElem? hb) hx,
      .item (List.mem_of_getElem? hc) hn, hrest⟩

/-- **Transitivity fails exactly where integers are rounded together.** The induction is over the
first equality; the second has to go on from the value in the middle. -/
theorem Matches.trans_iff {a b c : Value} (hab : a.Matches True b) (hbc : b.Matches True c) :
    a.Matches True c ↔ ¬ RoundsTogether a b c := by
  -- along the way in which the first two match; the second and the third are as the types allow
  induction hab generalizing c with
  | atom hatom =>
    refine iff_of_true hbc ?_
    rintro ⟨⟩
    cases hatom
  | floats hxy =>
    cases hbc with
    | atom hatom => cases hatom
    | floats hyz => exact iff_of_true (.floats (BEq.trans hxy hyz)) nofun
    | rounds _ hn => exact iff_of_true (.rounds trivial (BEq.trans hn (BEq.symm hxy))) nofun
  | @rounded m x _ hm =>
    cases hbc with
    | atom hatom => cases hatom
    | floats hxy => exact iff_of_true (.rounded trivial (BEq.trans hm hxy)) nofun
    | @rounds n _ _ hn =>
      -- the one case in which the middle value has fewer digits than both others
      constructor
      · rintro ⟨⟩ ⟨hne⟩
        exact hne rfl
      · intro hnone
        by_cases hmn : m = n
        · subst hmn
          exact .atom rfl
        · exact absurd (.here hmn hm hn) hnone
  | rounds _ hx =>
    cases hbc with
    | atom => exact iff_of_true (.rounds trivial hx) nofun
    | rounded _ hy => exact iff_of_true (.floats (BEq.trans (BEq.symm hx) hy)) nofun
  | @arrays as bs hlength _ ih =>
    cases hbc with
    | atom hatom => cases hatom
    | @arrays _ cs hlength' hitems =>
      constructor
      -- a place inside the arrays is one inside the elements there, so that these decide
      · rintro (⟨hatom⟩ | _ | _ | _ | ⟨-, hac⟩) (_ | ⟨i, ha, hb, hc, inner⟩)
        · cases hatom
        · exact (ih i _ _ ha hb (hitems i _ _ hb hc)).1 (hac i _ _ ha hc) inner
      · intro hnone
        refine .arrays (hlength.trans hlength') fun i a c ha hc => ?_
        obtain ⟨hi, -⟩ := List.getElem?_eq_some_iff.1 ha
        have hb := List.getElem?_eq_getElem (hlength ▸ hi : i < bs.length)
        exact (ih i a _ ha hb (hitems i _ c hb hc)).2 fun h => hnone (.item i ha hb hc h)

end Value

namespace BinaryOp

private theorem apply_eq_iff {v w : Value} :
    eq.apply v w = .ok (.bool true) ↔ v.Matches True w := by
  rw [apply, Except.ok.injEq, Value.bool.injEq, Value.looselyEqual_iff]

/-- **Equality is transitive up to rounding.** If `a` equals `b` and `b` equals `c`, then `a` equals
`c`, unless somewhere two different integers of `a` and `c` are rounded to the same floating-point
number of `b`; then it does not. This cannot be if `b` is without floating-point numbers, nor if all
integers of `a` and `c` have at most 53 significant bits. -/
theorem apply_eq_trans {a b c : Value} (hab : eq.apply a b = .ok (.bool true))
    (hbc : eq.apply b c = .ok (.bool true)) :
    (¬ Value.RoundsTogether a b c → eq.apply a c = .ok (.bool true)) ∧
    (Value.RoundsTogether a b c → eq.apply a c = .ok (.bool false)) ∧
    (b.IsFloatFree → eq.apply a c = .ok (.bool true)) ∧
    ((∀ n, (Value.int n).Within a → Number.IsExact n) →
      (∀ n, (Value.int n).Within c → Number.IsExact n) →
      eq.apply a c = .ok (.bool true)) := by
  have htrans := Value.Matches.trans_iff (apply_eq_iff.1 hab) (apply_eq_iff.1 hbc)
  rw [← apply_eq_iff] at htrans
  refine ⟨htrans.2, fun htogether => ?_, fun hfree => htrans.2 ?_, fun ha hc => htrans.2 ?_⟩
  · have hne : a.looselyEqual c ≠ true := by
      rw [Ne, Value.looselyEqual_iff, ← apply_eq_iff, htrans]
      exact not_not_intro htogether
    rw [apply, Bool.eq_false_iff.2 hne]
  · intro htogether
    obtain ⟨_, _, x, -, hx, -⟩ := htogether.exists_within
    exact hfree x hx
  · intro htogether
    obtain ⟨m, n, x, hm, -, hn, hne, hleft, hright⟩ := htogether.exists_within
    exact hne (Number.ofInteger_inj (ha m hm) (hc n hn) (BEq.trans hleft (BEq.symm hright)))

/-- One more than 2⁵³ is rounded to 2⁵³, so that both are equal to that double, but not to each
other; two integers up to 2⁵³ that are equal to one double are the same. -/
theorem apply_eq_trans_arrays :
    eq.apply (.array [.int 9007199254740993]) (.array [.int 9007199254740992]) =
      .ok (.bool false) ∧
    eq.apply (.array [.int 9007199254740992]) (.array [.int 9007199254740992]) =
      .ok (.bool true) := by
  have htogether : Value.RoundsTogether (.array [.int 9007199254740993])
      (.array [.float 9007199254740992]) (.array [.int 9007199254740992]) :=
    .item 0 rfl rfl rfl (.here (by decide) (by decide) (by decide))
  have hexact (n : Int64) (hn : (Value.int n).Within (.array [.int 9007199254740992])) :
      Number.IsExact n := by
    rcases hn with _ | ⟨hmem, hn⟩
    rw [List.mem_singleton.1 hmem] at hn
    cases hn
    exact Number.isExact_of_le (by decide)
  exact ⟨(apply_eq_trans (b := .array [.float 9007199254740992]) rfl rfl).2.1 htogether,
    (apply_eq_trans (b := .array [.float 9007199254740992]) rfl rfl).2.2.2 hexact hexact⟩

/-- Equality is not transitive on all values without NaNs. -/
theorem apply_eq_not_trans :
    ¬ ∀ a b c : Value, a.IsNaNFree → b.IsNaNFree → c.IsNaNFree →
      eq.apply a b = .ok (.bool true) → eq.apply b c = .ok (.bool true) →
      eq.apply a c = .ok (.bool true) := by
  intro htrans
  have hint (n : Int64) : (Value.int n).IsNaNFree := nofun
  have hfloat (x : Float) (hx : x.isNaN = false) : (Value.float x).IsNaNFree := by
    rintro _ ⟨⟩
    exact hx
  have hab : eq.apply (.int 9007199254740993) (.float 9007199254740992) = .ok (.bool true) := rfl
  have hbc : eq.apply (.float 9007199254740992) (.int 9007199254740992) = .ok (.bool true) := rfl
  cases htrans _ _ _ (hint _) (hfloat _ rfl) (hint _) hab hbc

end BinaryOp

end Scriptlet
