import Scriptlet.Proofs.Evaluation.Loops

/-!
# Runs that fail

When a run fails, and what it leaves: for each operation on runs, the failures it has and the frame
it has them over, as an equivalence. Proofs about failures go from the outcome of a node to those of
its parts by these, and back.

* `Failure.placed` — the failure as a node passes it on;
* `Run.bind_eq_failed_iff` — a sequence fails in one of its two parts;
* `boundedLoop_eq_failed_iff` — a loop fails in its condition, in its body, or for its limit.
-/

namespace Scriptlet

variable {γ : Type} {α β : Type}

/-! ### Operations -/

/-- The failure with a place added, if the policy asks for places. -/
def Failure.placed (policy : Policy) (span : Option Span) (failure : Failure) : Failure :=
  if policy.located then failure.locate span else failure

/-- A place does not change the cause. -/
theorem Failure.fault_placed (failure : Failure) (policy : Policy) (span : Option Span) :
    (failure.placed policy span).fault = failure.fault := by
  rw [placed]
  split
  · exact failure.fault_locate span
  · rfl

namespace Run

variable {failure : Failure} {frame final : Frame γ}

/-- **A sequence fails** in its first part, or in the second after the first has returned. -/
theorem bind_eq_failed_iff {first : Run γ α} {next : α → Run γ β} :
    (first >>= next) frame = .failed failure final ↔
      first frame = .failed failure final ∨
        ∃ value mid, first frame = .returned value mid ∧
          next value mid = .failed failure final := by
  rw [bind_apply]
  cases first frame with
  | returned value mid =>
    constructor
    · intro h
      exact .inr ⟨value, mid, rfl, h⟩
    · rintro (h | ⟨_, _, ⟨⟩, h⟩)
      · cases h
      · exact h
  | failed | unfinished => simp

/-- A run with a place fails where the run does, and the place is added. -/
theorem locatedAt_eq_failed_iff {policy : Policy} {span : Option Span} {run : Run γ α} :
    run.locatedAt policy span frame = .failed failure final ↔
      ∃ inner, run frame = .failed inner final ∧ failure = inner.placed policy span := by
  rw [locatedAt]
  cases run frame with
  | failed inner mid =>
    simp only [Outcome.failed.injEq, Failure.placed]
    constructor
    · rintro ⟨rfl, rfl⟩
      exact ⟨inner, ⟨rfl, rfl⟩, rfl⟩
    · rintro ⟨_, ⟨rfl, rfl⟩, rfl⟩
      exact ⟨rfl, rfl⟩
  | returned | unfinished => simp

/-- The result of an operation fails without touching the frame. -/
theorem ofExcept_eq_failed_iff {result : Except Fault α} :
    (ofExcept result : Run γ α) frame = .failed failure final ↔
      ∃ fault, result = .error fault ∧ failure = .of fault ∧ final = frame := by
  cases result with
  | ok value => simp [ofExcept]
  | error fault =>
    simp only [ofExcept, raise, Outcome.failed.injEq, Except.error.injEq]
    constructor
    · rintro ⟨rfl, rfl⟩
      exact ⟨fault, rfl, rfl, rfl⟩
    · rintro ⟨_, rfl, rfl, rfl⟩
      exact ⟨rfl, rfl⟩

/-- **An operation fails** with its operand, or because of the value of the operand. -/
theorem bind_ofExcept_eq_failed_iff {first : Run γ α} {result : α → Except Fault β} :
    (first >>= fun value => ofExcept (result value)) frame = .failed failure final ↔
      first frame = .failed failure final ∨
        ∃ value fault, first frame = .returned value final ∧ result value = .error fault ∧
          failure = .of fault := by
  rw [bind_eq_failed_iff]
  refine or_congr_right ?_
  constructor
  · rintro ⟨value, mid, hreturned, hfail⟩
    obtain ⟨fault, herror, rfl, rfl⟩ := ofExcept_eq_failed_iff.1 hfail
    exact ⟨value, fault, hreturned, herror, rfl⟩
  · rintro ⟨value, fault, hreturned, herror, rfl⟩
    exact ⟨value, final, hreturned, ofExcept_eq_failed_iff.2 ⟨fault, herror, rfl, rfl⟩⟩

theorem ofExcept_eq_returned_iff {result : Except Fault α} {value : α} :
    (ofExcept result : Run γ α) frame = .returned value final ↔
      result = .ok value ∧ final = frame := by
  cases result with
  | ok value => simp [ofExcept, eq_comm]
  | error fault => simp [ofExcept, raise]

/-- Writing a register fails exactly if there is no such register. -/
theorem store_eq_failed_iff {register : Nat} {value : Value} :
    (store register value : Run γ Unit) frame = .failed failure final ↔
      frame.registers.length ≤ register ∧ failure = .of (.unknownRegister register) ∧
        final = frame := by
  rcases store_cases register value frame with ⟨registers, hstore, hrun⟩ | ⟨hle, hrun⟩
  · have hlt := Registers.lt_of_store? hstore
    rw [hrun]
    simp [Nat.not_le.2 hlt]
  · rw [hrun]
    simp [hle, eq_comm]

end Run

/-- Reading a variable fails exactly if it is undefined and the policy is strict. -/
theorem resolve_eq_failed_iff [Context γ] {policy : Policy} {name : String} {register : Option Nat}
    {failure : Failure} {frame final : Frame γ} :
    resolve policy name register frame = .failed failure final ↔
      frame.read? name register = none ∧ policy.strict ∧
        failure = .of (.undefinedVariable (lookupName frame.registers name register)) ∧
        final = frame := by
  rw [resolve_apply]
  cases frame.read? name register with
  | some value => simp
  | none => cases policy.strict <;> simp [eq_comm]

/-- Reading a variable leaves the frame as it is. -/
theorem frame_of_resolve [Context γ] {policy : Policy} {name : String} {register : Option Nat}
    {value : Value} {frame final : Frame γ}
    (h : resolve policy name register frame = .returned value final) : final = frame := by
  rw [resolve_apply] at h
  cases hread : frame.read? name register with
  | some current =>
    rw [hread] at h
    cases h
    rfl
  | none =>
    rw [hread] at h
    -- an undefined variable reads as `null`, if reading it does not fail
    cases hstrict : policy.strict with
    | true => simp [hstrict] at h
    | false =>
      simp only [hstrict, Bool.false_eq_true, if_false] at h
      cases h
      rfl

/-! ### Loops -/

/-- **A loop fails** where its condition or its body does, or where it runs out of rounds. -/
private theorem Loop.iterate_eq_failed_iff (loop : Loop γ) {exhausted : Run γ Value}
    {bound rounds : Nat} {s : Loop.State γ} (hrounds : s.iterations + rounds = bound)
    {failure : Failure} {final : Frame γ} :
    Run.iterate loop.condition loop.body exhausted rounds s.last s.frame = .failed failure final ↔
      ∃ t, loop.Reaches (some bound) s t ∧
        (loop.condition t.frame = .failed failure final ∨
          ∃ value mid, loop.condition t.frame = .returned value mid ∧ value.isTruthy ∧
            (t.iterations < bound ∧ loop.body mid = .failed failure final ∨
              t.iterations = bound ∧ exhausted mid = .failed failure final)) := by
  induction rounds generalizing s with
  | zero =>
    rw [Run.iterate_zero, Run.bind_eq_failed_iff]
    constructor
    · rintro (hfail | ⟨value, mid, hcondition, hfail⟩)
      · exact ⟨s, .refl, .inl hfail⟩
      · cases htruthy : value.isTruthy with
        | false => simp [htruthy] at hfail
        | true =>
          rw [if_pos htruthy] at hfail
          exact ⟨s, .refl, .inr ⟨value, mid, hcondition, htruthy, .inr ⟨hrounds, hfail⟩⟩⟩
    · rintro ⟨t, hreaches, hfail⟩
      -- no round is left, so that the loop is where it was
      have hst : s = t := by
        rcases hreaches.cases_head with heq | ⟨u, hturn, -⟩
        · exact heq
        · obtain ⟨_, _, _, _, hlimit, _⟩ := turn_eq_again_iff.1 hturn
          simp only [Option.any_some, decide_eq_false_iff_not] at hlimit
          omega
      subst hst
      refine hfail.imp_right ?_
      rintro ⟨value, mid, hcondition, htruthy, ⟨hlt, -⟩ | ⟨-, hfail⟩⟩
      · omega
      · exact ⟨value, mid, hcondition, by rwa [if_pos htruthy]⟩
  | succ rounds ih =>
    -- a round is left, which is either where the loop fails or its first turn
    rw [Run.iterate_succ, Run.bind_eq_failed_iff]
    have hlt : s.iterations < bound := by omega
    constructor
    · rintro (hfail | ⟨value, mid, hcondition, hfail⟩)
      · exact ⟨s, .refl, .inl hfail⟩
      · cases htruthy : value.isTruthy with
        | false => simp [htruthy] at hfail
        | true =>
          rw [if_pos htruthy, Run.bind_eq_failed_iff] at hfail
          rcases hfail with hfail | ⟨last, after, hbody, hfail⟩
          · exact ⟨s, .refl, .inr ⟨value, mid, hcondition, htruthy, .inl ⟨hlt, hfail⟩⟩⟩
          · -- the body has returned, and the rest of the loop fails
            have hturn : loop.turn (some bound) s = .again ⟨s.iterations + 1, last, after⟩ :=
              turn_eq_again_iff.2 ⟨value, mid, hcondition, htruthy, by simpa using hlt, hbody, rfl⟩
            obtain ⟨t, hreaches, hfail⟩ :=
              (ih (s := ⟨s.iterations + 1, last, after⟩) (by dsimp only; omega)).1 hfail
            exact ⟨t, .head hturn hreaches, hfail⟩
    · rintro ⟨t, hreaches, hfail⟩
      rcases hreaches.cases_head with rfl | ⟨u, hturn, hreaches⟩
      · refine hfail.imp_right ?_
        rintro ⟨value, mid, hcondition, htruthy, ⟨-, hfail⟩ | ⟨heq, -⟩⟩
        · refine ⟨value, mid, hcondition, ?_⟩
          rw [if_pos htruthy, Run.bind_eq_failed_iff]
          exact .inl hfail
        · omega
      -- the first turn has been taken, so that the rest fails
      · obtain ⟨value, mid, hcondition, htruthy, -, hbody, hcount⟩ := turn_eq_again_iff.1 hturn
        refine .inr ⟨value, mid, hcondition, ?_⟩
        rw [if_pos htruthy, Run.bind_eq_failed_iff]
        exact .inr ⟨u.last, u.frame, hbody, (ih (by omega)).2 ⟨t, hreaches, hfail⟩⟩

/-- **How a loop fails**: in a state that its turns lead to, its condition fails, or its body, or
the condition holds when the limit of the policy is used up. -/
theorem boundedLoop_eq_failed_iff {policy : Policy} {rounds : Nat} {condition body : Run γ Value}
    {failure : Failure} {frame final : Frame γ} :
    boundedLoop policy rounds condition body frame = .failed failure final ↔
      ∃ s, Loop.Reaches ⟨condition, body⟩ (some (policy.roundLimit.getD rounds))
          (Loop.start frame) s ∧
        (condition s.frame = .failed failure final ∨
          ∃ value mid, condition s.frame = .returned value mid ∧ value.isTruthy ∧
            (s.iterations < policy.roundLimit.getD rounds ∧ body mid = .failed failure final ∨
              ∃ limit, policy.roundLimit = some limit ∧ s.iterations = limit ∧
                failure = .of (.tooManyRounds limit) ∧ final = mid)) := by
  unfold boundedLoop
  cases policy.roundLimit with
  | none =>
    refine (Loop.iterate_eq_failed_iff ⟨condition, body⟩ (s := Loop.start frame)
      (Nat.zero_add rounds)).trans ?_
    -- giving up is no failure
    simp [Run.giveUp]
  | some limit =>
    refine (Loop.iterate_eq_failed_iff ⟨condition, body⟩ (s := Loop.start frame)
      (Nat.zero_add limit)).trans ?_
    -- what the loop raises at its limit is the only failure of its own
    have hrefused (k : Nat) (mid : Frame γ) :
        k = limit ∧ (.raise (.tooManyRounds limit) : Run γ Value) mid = .failed failure final ↔
          ∃ bound, some limit = some bound ∧ k = bound ∧ failure = .of (.tooManyRounds bound) ∧
            final = mid := by
      constructor
      · rintro ⟨hcount, hfail⟩
        cases hfail
        exact ⟨limit, rfl, hcount, rfl, rfl⟩
      · rintro ⟨_, ⟨⟩, hcount, rfl, rfl⟩
        exact ⟨hcount, rfl⟩
    simp only [hrefused, Option.getD_some]

end Scriptlet
