import Mathlib.Logic.Relation
import Scriptlet.Proofs.Evaluation.Contracts

/-!
# Loops and their limit

A loop is run by counting: the condition is checked, the count is compared with the limit, and only
then is the count raised and the body run. This module keeps that count in the open. A loop stands
in a `Loop.State`, and a turn of it leads to the next state or ends the loop, for one of three
causes. `boundedLoop`, which counts the rounds that are left instead of those that were taken, ends
as the turns do.

* `Loop.turn` — one turn; `Loop.Reaches` — the states that turns lead through;
* `Loop.Stops` — the loop ends for a cause, after a number of runs of its body, in an outcome;
* `Loop.reaches_some_iff` — a limit cuts the turns short and changes nothing before;
* `Loop.Bounded` — what a limit means for one activation of a loop;
* `Node.interpret_limited` — every run ends under a limit, and the limit is exact.

Nothing else can keep a run from ending, so that without a limit all trees without loops end too.
-/

namespace Scriptlet

variable {γ : Type}

/-- A condition, and a body that is run as long as the condition holds. -/
structure Loop (γ : Type) where
  condition : Run γ Value
  body : Run γ Value

namespace Loop

/-! ### Turns -/

/-- Where a loop stands when it is about to check its condition. -/
structure State (γ : Type) where
  /-- How often the body has been run. -/
  iterations : Nat
  /-- The value of the last run of the body. -/
  last : Value
  frame : Frame γ

/-- The state before the first check. -/
def start (frame : Frame γ) : State γ := ⟨0, .void, frame⟩

/-- Why a loop ends. -/
inductive Cause where
  /-- The condition does not hold. -/
  | finished
  /-- The condition holds, but the limit is reached. -/
  | refused
  /-- The condition or the body did not return. -/
  | interrupted
deriving DecidableEq

/-- What a turn of a loop comes to: the next state, or the end with its cause, the number of times
that the body was run, and the outcome. -/
inductive Turn (γ : Type) where
  | again (next : State γ)
  | stop (cause : Cause) (iterations : Nat) (outcome : Outcome γ Value)

/-- One turn. The condition is checked first and the limit second; the body counts from when it is
begun. -/
def turn (loop : Loop γ) (limit : Option Nat) (s : State γ) : Turn γ :=
  match loop.condition s.frame with
  | .returned value frame =>
    if value.isTruthy then
      if limit.any (· ≤ s.iterations) then
        .stop .refused s.iterations (.failed (.of (.tooManyRounds s.iterations)) frame)
      else
        match loop.body frame with
        | .returned value frame => .again ⟨s.iterations + 1, value, frame⟩
        | other => .stop .interrupted (s.iterations + 1) other
    else .stop .finished s.iterations (.returned s.last frame)
  | other => .stop .interrupted s.iterations other

/-- Turns lead from one state to the other. -/
def Reaches (loop : Loop γ) (limit : Option Nat) : State γ → State γ → Prop :=
  Relation.ReflTransGen fun s t => loop.turn limit s = .again t

/-- Started from `frame`, the loop ends for the cause, after that many runs of its body. -/
def Stops (loop : Loop γ) (limit : Option Nat) (frame : Frame γ) (cause : Cause) (iterations : Nat)
    (outcome : Outcome γ Value) : Prop :=
  ∃ s, loop.Reaches limit (start frame) s ∧ loop.turn limit s = .stop cause iterations outcome

variable {loop : Loop γ} {limit : Option Nat} {s t : State γ} {frame : Frame γ}

/-- **What a turn does that is not the last one.** -/
theorem turn_eq_again_iff :
    loop.turn limit s = .again t ↔
      ∃ value frame, loop.condition s.frame = .returned value frame ∧ value.isTruthy ∧
        limit.any (· ≤ s.iterations) = false ∧ loop.body frame = .returned t.last t.frame ∧
        t.iterations = s.iterations + 1 := by
  constructor
  · intro h
    -- of all ways through a turn, only one leads to another turn
    unfold turn at h
    split at h
    · next value frame hcondition =>
      split at h
      · next htruthy =>
        split at h
        · cases h
        · next hlimit =>
          split at h
          · next hbody =>
            cases h
            exact ⟨value, frame, hcondition, htruthy, by simpa using hlimit, hbody, rfl⟩
          · cases h
      · cases h
    · cases h
  · rintro ⟨value, frame, hcondition, htruthy, hlimit, hbody, hcount⟩
    obtain ⟨iterations, last, final⟩ := t
    dsimp only at hbody hcount
    simp only [turn, hcondition, htruthy, hlimit, hbody, hcount, if_true, if_false,
      Bool.false_eq_true]

/-- Where the condition holds and the limit is reached, the loop is refused. -/
private theorem turn_of_limit {value : Value} {k : Nat} (hcount : s.iterations = k)
    (hcondition : loop.condition s.frame = .returned value frame) (htruthy : value.isTruthy) :
    loop.turn (some k) s = .stop .refused k (.failed (.of (.tooManyRounds k)) frame) := by
  simp only [turn, hcondition, htruthy, hcount, if_true, Option.any_some, Nat.le_refl, decide_true]

/-- Where the condition does not hold, the loop is finished, whatever the limit. -/
private theorem turn_of_not_isTruthy {value : Value}
    (hcondition : loop.condition s.frame = .returned value frame)
    (hfalsy : value.isTruthy = false) :
    loop.turn limit s = .stop .finished s.iterations (.returned s.last frame) := by
  simp only [turn, hcondition, hfalsy, if_false, Bool.false_eq_true]

/-- **What a refusal comes from.** -/
private theorem of_turn_eq_refused {k : Nat} {outcome : Outcome γ Value}
    (h : loop.turn limit s = .stop .refused k outcome) :
    ∃ value frame, loop.condition s.frame = .returned value frame ∧ value.isTruthy ∧
      limit.any (· ≤ s.iterations) ∧ k = s.iterations := by
  -- only a limit that is used up refuses a turn
  unfold turn at h
  split at h
  · next value frame hcondition =>
    split at h
    · next htruthy =>
      split at h
      · next hlimit =>
        cases h
        exact ⟨value, frame, hcondition, htruthy, hlimit, rfl⟩
      · split at h
        · cases h
        · cases h
    · cases h
  · cases h

/-- A turn that ends the loop begins at most one run of the body, and none at the limit. -/
private theorem le_of_turn_eq_stop {cause : Cause} {k bound : Nat} {outcome : Outcome γ Value}
    (hle : s.iterations ≤ bound) (h : loop.turn (some bound) s = .stop cause k outcome) :
    k ≤ bound := by
  -- a turn that stops has been counted only if its body was run, below the limit
  unfold turn at h
  split at h
  · split at h
    · split at h
      · cases h
        exact hle
      · next hlimit =>
        split at h
        · cases h
        · cases h
          simp only [Option.any_some, decide_eq_true_eq, Nat.not_le] at hlimit
          exact hlimit
    · cases h
      exact hle
  · cases h
    exact hle

/-! ### Sequences of turns -/

/-- A state has at most one next state. -/
private theorem rightUnique_turn (loop : Loop γ) (limit : Option Nat) :
    Relator.RightUnique fun s t => loop.turn limit s = .again t := by
  intro s t u ht hu
  exact Turn.again.inj (ht.symm.trans hu)

/-- **A loop ends in one way only.** -/
theorem Stops.unique {cause cause' : Cause} {k k' : Nat} {outcome outcome' : Outcome γ Value}
    (h : loop.Stops limit frame cause k outcome) (h' : loop.Stops limit frame cause' k' outcome') :
    cause = cause' ∧ k = k' ∧ outcome = outcome' := by
  obtain ⟨s, hs, hstop⟩ := h
  obtain ⟨t, ht, hstop'⟩ := h'
  -- of two states on the way one comes first, and from there no turn leads on
  have hsame : s = t := by
    rcases hs.total_of_right_unique (rightUnique_turn loop limit) ht with hst | hts
    · rcases hst.cases_head with heq | ⟨u, hagain, -⟩
      · exact heq
      · cases hstop.symm.trans hagain
    · rcases hts.cases_head with heq | ⟨u, hagain, -⟩
      · exact heq.symm
      · cases hstop'.symm.trans hagain
  subst hsame
  cases hstop.symm.trans hstop'
  exact ⟨rfl, rfl, rfl⟩

/-- **The count never exceeds the limit.** -/
private theorem Reaches.iterations_le {bound : Nat} (h : loop.Reaches (some bound) s t)
    (hle : s.iterations ≤ bound) : t.iterations ≤ bound := by
  induction h with
  | refl => exact hle
  | tail _ hturn _ =>
    obtain ⟨_, _, _, _, hlimit, _, hcount⟩ := turn_eq_again_iff.1 hturn
    simp only [Option.any_some, decide_eq_false_iff_not, Nat.not_le] at hlimit
    rw [hcount]
    exact hlimit

/-- **A limit only cuts the turns short**: under it a loop goes through the states that it goes
through without one, as long as the count allows. -/
theorem reaches_some_iff {bound : Nat} (hle : s.iterations ≤ bound) :
    loop.Reaches (some bound) s t ↔ loop.Reaches none s t ∧ t.iterations ≤ bound := by
  constructor
  · intro h
    refine ⟨?_, h.iterations_le hle⟩
    refine Relation.ReflTransGen.mono (fun u v hturn => ?_) _ _ h
    obtain ⟨value, f, hcondition, htruthy, -, hbody, hcount⟩ := turn_eq_again_iff.1 hturn
    exact turn_eq_again_iff.2 ⟨value, f, hcondition, htruthy, rfl, hbody, hcount⟩
  · rintro ⟨h, hbound⟩
    induction h with
    | refl => exact .refl
    | @tail u v _ hturn ih =>
      obtain ⟨value, f, hcondition, htruthy, -, hbody, hcount⟩ := turn_eq_again_iff.1 hturn
      -- the count has been smaller before
      have hlt : u.iterations < bound := by omega
      refine (ih (Nat.le_of_lt hlt)).tail ?_
      refine turn_eq_again_iff.2 ⟨value, f, hcondition, htruthy, ?_, hbody, hcount⟩
      simp only [Option.any_some, decide_eq_false_iff_not, Nat.not_le]
      exact hlt

/-! ### The loop of evaluation -/

/-- **Counting down follows counting up**, one turn at a time. -/
theorem iterate_eq (loop : Loop γ) {bound rounds : Nat} (hrounds : s.iterations + rounds = bound) :
    Run.iterate loop.condition loop.body (.raise (.tooManyRounds bound)) rounds s.last s.frame =
      match loop.turn (some bound) s with
      | .again t =>
        Run.iterate loop.condition loop.body (.raise (.tooManyRounds bound)) (rounds - 1) t.last
          t.frame
      | .stop _ _ outcome => outcome := by
  rw [Run.iterate.eq_def, turn]
  cases loop.condition s.frame with
  | returned value frame =>
    dsimp only
    cases value.isTruthy with
    | false => rfl
    | true =>
      cases rounds with
      | zero =>
        -- no round is left, and the count has come up to the limit
        obtain rfl : s.iterations = bound := hrounds
        simp only [if_true, Option.any_some, Nat.le_refl, decide_true]
        rfl
      | succ rounds =>
        have hlt : (some bound).any (· ≤ s.iterations) = false := by
          simp only [Option.any_some, decide_eq_false_iff_not]
          omega
        simp only [hlt, if_true, if_false, Bool.false_eq_true]
        cases loop.body frame <;> rfl
  | failed failure frame => rfl
  | unfinished => rfl

/-- **Turns lead to the outcome of the loop** with as many rounds as are left. -/
private theorem exists_stop_iterate (loop : Loop γ) {bound rounds : Nat} {s : State γ}
    (hrounds : s.iterations + rounds = bound) :
    ∃ t cause k, loop.Reaches (some bound) s t ∧ loop.turn (some bound) t = .stop cause k
      (Run.iterate loop.condition loop.body (.raise (.tooManyRounds bound)) rounds s.last
        s.frame) := by
  induction rounds generalizing s with
  | zero =>
    rw [loop.iterate_eq hrounds]
    cases hturn : loop.turn (some bound) s with
    | stop cause k outcome => exact ⟨s, cause, k, .refl, hturn⟩
    | again t =>
      -- there is no turn after the limit
      have hle := Reaches.iterations_le (.single hturn) (Nat.le_of_eq hrounds)
      obtain ⟨_, _, _, _, _, _, hcount⟩ := turn_eq_again_iff.1 hturn
      omega
  | succ rounds ih =>
    rw [loop.iterate_eq hrounds]
    cases hturn : loop.turn (some bound) s with
    | stop cause k outcome => exact ⟨s, cause, k, .refl, hturn⟩
    | again t =>
      obtain ⟨_, _, _, _, _, _, hcount⟩ := turn_eq_again_iff.1 hturn
      obtain ⟨u, cause, k, hreaches, hstop⟩ := ih (s := t) (by omega)
      exact ⟨u, cause, k, .head hturn hreaches, hstop⟩

/-- Under a limit of the policy a loop stops after at most that many rounds. -/
private theorem exists_stops_boundedLoop (loop : Loop γ) {policy : Policy} {bound : Nat}
    (hlimit : policy.roundLimit = some bound) (rounds : Nat) (frame : Frame γ) :
    ∃ cause k, loop.Stops (some bound) frame cause k
      (boundedLoop policy rounds loop.condition loop.body frame) := by
  obtain ⟨t, cause, k, hreaches, hstop⟩ :=
    loop.exists_stop_iterate (s := start frame) (Nat.zero_add bound)
  refine ⟨cause, k, t, hreaches, ?_⟩
  simp only [boundedLoop, hlimit]
  exact hstop

/-! ### What a limit means -/

/-- Without a limit, the condition is checked after `k` rounds, none of which has failed, and holds;
`final` is the frame that the check leaves. -/
def Holds (loop : Loop γ) (frame : Frame γ) (k : Nat) (final : Frame γ) : Prop :=
  ∃ s value, loop.Reaches none (start frame) s ∧ s.iterations = k ∧
    loop.condition s.frame = .returned value final ∧ value.isTruthy

/-- Without a limit, the loop takes `k` rounds and no more, of which the last one gives `last`. -/
def Finishes (loop : Loop γ) (frame : Frame γ) (k : Nat) (last : Value) (final : Frame γ) : Prop :=
  ∃ s value, loop.Reaches none (start frame) s ∧ s.iterations = k ∧ s.last = last ∧
    loop.condition s.frame = .returned value final ∧ value.isTruthy = false

/-- **An activation of a loop under a limit**, with its outcome. -/
structure Bounded (loop : Loop γ) (limit : Nat) (frame : Frame γ) (outcome : Outcome γ Value) :
    Prop where
  /-- The count of the loop is at most the limit at all times. -/
  counter : ∀ s, loop.Reaches (some limit) (start frame) s → s.iterations ≤ limit
  /-- The loop ends in the outcome, and its body has been run at most as often as the limit says. -/
  stops : ∃ cause, ∃ k ≤ limit, loop.Stops (some limit) frame cause k outcome
  /-- The loop is refused exactly if its condition holds once more than the limit says. -/
  refused_iff : loop.Stops (some limit) frame .refused limit outcome ↔
    ∃ final, loop.Holds frame limit final
  /-- The outcome of a refusal. -/
  refused : ∀ final, loop.Holds frame limit final →
    outcome = .failed (.of (.tooManyRounds limit)) final
  /-- A loop that takes as many rounds as the limit says, or fewer, takes them all. -/
  finished : ∀ k last final, loop.Finishes frame k last final → k ≤ limit →
    outcome = .returned last final

/-- A loop whose condition still holds when the limit is used up is refused. -/
private theorem Holds.stops {k : Nat} {final : Frame γ} (h : loop.Holds frame k final) :
    loop.Stops (some k) frame .refused k (.failed (.of (.tooManyRounds k)) final) := by
  obtain ⟨s, value, hreaches, hcount, hcondition, htruthy⟩ := h
  have hlimited : loop.Reaches (some k) (start frame) s :=
    (reaches_some_iff (Nat.zero_le k)).2 ⟨hreaches, Nat.le_of_eq hcount⟩
  exact ⟨s, hlimited, turn_of_limit hcount hcondition htruthy⟩

/-- A loop that finishes within the limit stops with its last value. -/
private theorem Finishes.stops {k bound : Nat} {last : Value} {final : Frame γ}
    (h : loop.Finishes frame k last final) (hle : k ≤ bound) :
    loop.Stops (some bound) frame .finished k (.returned last final) := by
  obtain ⟨s, value, hreaches, rfl, rfl, hcondition, hfalsy⟩ := h
  have hlimited : loop.Reaches (some bound) (start frame) s :=
    (reaches_some_iff (Nat.zero_le bound)).2 ⟨hreaches, hle⟩
  exact ⟨s, hlimited, turn_of_not_isTruthy hcondition hfalsy⟩

/-- A refusal comes from a condition that holds at the limit. -/
theorem Stops.exists_holds {k bound : Nat} {outcome : Outcome γ Value}
    (h : loop.Stops (some bound) frame .refused k outcome) :
    ∃ final, loop.Holds frame bound final := by
  obtain ⟨s, hreaches, hstop⟩ := h
  obtain ⟨value, final, hcondition, htruthy, hlimit, -⟩ := of_turn_eq_refused hstop
  obtain ⟨hfree, hle⟩ := (reaches_some_iff (Nat.zero_le bound)).1 hreaches
  simp only [Option.any_some, decide_eq_true_eq] at hlimit
  exact ⟨final, s, value, hfree, Nat.le_antisymm hle hlimit, hcondition, htruthy⟩

/-- **The loop of evaluation is bounded by its limit.** -/
private theorem bounded_boundedLoop (loop : Loop γ) {policy : Policy} {bound : Nat}
    (hlimit : policy.roundLimit = some bound) (rounds : Nat) (frame : Frame γ) :
    loop.Bounded bound frame (boundedLoop policy rounds loop.condition loop.body frame) := by
  obtain ⟨cause, k, hstops⟩ := loop.exists_stops_boundedLoop hlimit rounds frame
  refine ⟨fun s hs => hs.iterations_le (Nat.zero_le bound), ?_, ⟨Stops.exists_holds, ?_⟩, ?_, ?_⟩
  · obtain ⟨s, hreaches, hstop⟩ := hstops
    refine ⟨cause, k, ?_, s, hreaches, hstop⟩
    exact le_of_turn_eq_stop (hreaches.iterations_le (Nat.zero_le bound)) hstop
  · rintro ⟨final, hholds⟩
    obtain ⟨-, -, heq⟩ := hstops.unique hholds.stops
    rw [heq]
    exact hholds.stops
  · intro final hholds
    exact (hstops.unique hholds.stops).2.2
  · intro j last final hfinishes hle
    exact (hstops.unique (hfinishes.stops hle)).2.2

end Loop

/-! ### Trees -/

namespace Node

variable [Context γ] {policy : Policy} {n : Node}

/-- The contract that only asks a run to end. -/
def endsContract (γ : Type) : Contract γ := ⟨fun _ => True, fun _ => True, False⟩

omit [Context γ] in
private theorem keeps_endsContract_store (register : Nat) (value : Value) :
    (Run.store register value : Run γ Unit).Keeps (endsContract γ) :=
  Run.keeps_store (fun _ _ _ _ => trivial) fun _ _ _ => trivial

/-- **Only a loop without a limit can be left unfinished.** -/
private theorem covers_endsContract
    (h : (∃ limit, policy.roundLimit = some limit) ∨ ∀ m ∈ n.preorder, m.kind ≠ .loop) :
    (endsContract γ).Covers policy n.preorder where
  depth _ _ := trivial
  undefined _ _ := trivial
  rounds _ _ _ _ _ := trivial
  giveUp m hm hkind hnone := by
    -- nothing but a loop without a limit may give up
    rcases h with ⟨limit, hlimit⟩ | hloop
    · cases hlimit.symm.trans hnone
    · exact hloop m hm hkind
  operation _ _ _ _ := trivial
  malformed _ _ _ := trivial
  notAssignable _ _ _ := trivial
  assign _ _ _ name register _ value := by
    cases register with
    | some register => exact keeps_endsContract_store register value
    | none => exact fun _ _ => trivial
  store _ _ _ register _ _ _ value := keeps_endsContract_store register value

/-- The rounds that a run may take do not matter, if none of its loops runs out of them. -/
private theorem exists_outcome
    (h : (∃ limit, policy.roundLimit = some limit) ∨ ∀ m ∈ n.preorder, m.kind ≠ .loop)
    (frame : Frame γ) :
    ∃ outcome, outcome ≠ .unfinished ∧ ∀ rounds, n.interpret policy rounds frame = outcome := by
  have hends : n.interpret policy 0 frame ≠ .unfinished :=
    ((covers_endsContract h).interpret 0 frame trivial).ne_unfinished id
  exact ⟨_, hends, fun rounds => n.interpret_mono policy frame (Nat.zero_le rounds) hends⟩

/-- **Under a limit every run ends, and the limit is exact.** A tree ends under every policy that
limits the rounds of loops and, if it contains no loop, under every other policy too. An activation
of a loop under a limit, at whatever depth and over whatever frame, runs its body at most as often
as the limit says; it is refused exactly if its condition holds once more after that, and takes all
its rounds if it needs no more. -/
theorem interpret_limited (policy : Policy) :
    (∀ (n : Node) (frame : Frame γ),
      (∃ limit, policy.roundLimit = some limit) ∨ (∀ m ∈ n.preorder, m.kind ≠ .loop) →
        ∃ outcome, outcome ≠ .unfinished ∧ ∀ rounds, n.interpret policy rounds frame = outcome) ∧
    ∀ limit, policy.roundLimit = some limit →
      ∀ (condition body : Node) (span : Option Span) (rounds depth : Nat) (frame : Frame γ),
        (∀ deepest, policy.depthLimit = some deepest → depth < deepest) →
        ∃ outcome, outcome ≠ .unfinished ∧
          eval policy rounds depth ⟨.loop, [condition, body], span⟩ frame =
            Run.locatedAt policy span (fun _ => outcome) frame ∧
          Loop.Bounded ⟨condition.eval policy rounds (depth + 1),
            body.eval policy rounds (depth + 1)⟩ limit frame outcome := by
  refine ⟨fun n frame h => exists_outcome h frame, ?_⟩
  intro limit hlimit condition body span rounds depth frame hdepth
  let n : Node := ⟨.loop, [condition, body], span⟩
  let loop : Loop γ :=
    ⟨condition.eval policy rounds (depth + 1), body.eval policy rounds (depth + 1)⟩
  let outcome := boundedLoop policy rounds loop.condition loop.body frame
  have heval : n.eval policy rounds depth frame =
      Run.locatedAt policy span (fun _ => outcome) frame := by
    rw [eval_mk, checkDepth_of_lt hdepth]
    rfl
  refine ⟨outcome, ?_, heval, loop.bounded_boundedLoop hlimit rounds frame⟩
  -- a place does not make a finished run of an unfinished one
  intro hunfinished
  have hcovers : (endsContract γ).Covers policy n.preorder :=
    covers_endsContract (.inl ⟨limit, hlimit⟩)
  apply (hcovers.eval rounds depth frame trivial).ne_unfinished id
  rw [heval, hunfinished]
  rfl

/-- The free variable that `drain` counts with. -/
def countdown : Node := ⟨.identifier "x" none, [], none⟩

/-- Takes one off the variable. -/
def decrement : Node :=
  ⟨.assign, [countdown, ⟨.binary .sub, [countdown, ⟨.literal (.int 1), [], none⟩], none⟩], none⟩

/-- Counts a variable down to zero, in as many rounds. -/
def drain : Node := ⟨.loop, [countdown, decrement], some ⟨0, 18⟩⟩

/-- Two rounds are taken under a limit of two. Under a limit of one the loop is refused when its
condition holds for the second time, after one round. -/
theorem interpret_limited_drain :
    drain.interpret { roundLimit := some 2 } 0 ⟨.empty, Variables.ofList [("x", .int 2)]⟩ =
        .returned (.int 0) ⟨.empty, Variables.ofList [("x", .int 0)]⟩ ∧
      drain.interpret { roundLimit := some 1 } 0 ⟨.empty, Variables.ofList [("x", .int 2)]⟩ =
        .failed ⟨.tooManyRounds 1, some ⟨0, 18⟩⟩ ⟨.empty, Variables.ofList [("x", .int 1)]⟩ := by
  constructor
  · obtain ⟨outcome, -, heval, hbounded⟩ :=
      (interpret_limited { roundLimit := some 2 }).2 2 rfl countdown decrement (some ⟨0, 18⟩) 0 0
        ⟨.empty, Variables.ofList [("x", .int 2)]⟩ nofun
    have houtcome := hbounded.finished 2 (.int 0) ⟨.empty, Variables.ofList [("x", .int 0)]⟩
      ⟨⟨2, .int 0, .empty, Variables.ofList [("x", .int 0)]⟩, .int 0, .tail (.single rfl) rfl, rfl,
        rfl, rfl, rfl⟩ (Nat.le_refl 2)
    rw [houtcome] at heval
    exact heval
  · obtain ⟨outcome, -, heval, hbounded⟩ :=
      (interpret_limited { roundLimit := some 1 }).2 1 rfl countdown decrement (some ⟨0, 18⟩) 0 0
        ⟨.empty, Variables.ofList [("x", .int 2)]⟩ nofun
    have houtcome := hbounded.refused ⟨.empty, Variables.ofList [("x", .int 1)]⟩
      ⟨⟨1, .int 1, .empty, Variables.ofList [("x", .int 1)]⟩, .int 1, .single rfl, rfl, rfl, rfl⟩
    rw [houtcome] at heval
    exact heval

end Node

end Scriptlet
