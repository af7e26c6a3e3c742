import AstraConnect.Core.StreamHolder

set_option autoImplicit false

/-! # The backoff schedule (`utils/net/exponentialBackOff.hpp`)

`exponentialBackOff` retries `attempt()` after growing waits. The answers of `keepGoing()` and the
outcomes of `attempt()` are given as sequences; the call is the list of what it did, and how it
ended. Every product of the schedule is checked: one that does not fit `int64_t` ends the call with
`overflow`. `std::pow` is the integer power.

A policy whose ceiling fits is followed as documented exactly when the deadline of every wait that
an attempt follows fits the steady clock (`backoff_schedule`). No signal is raised in these calls;
`Core/BackoffShutdown.lean` is about the calls in which one is.
-/

namespace AstraConnect.Core

/-! ## The wait

`BackoffInterrupt::waitFor` hands its interval to `wait_for`, which adds it, in nanoseconds, to what
the steady clock reads. The product and the sum are 64-bit counts. `sleep_for` splits the interval
into seconds and nanoseconds instead and has no deadline to compute. -/

/-- What the steady clock reads, in nanoseconds, when each of a call's waits begins. -/
structure SteadyClock where
  now : Nat → Int
  nonneg : ∀ i, 0 ≤ now i
  fits : ∀ i, now i < 2 ^ 63

/-- How long `waitFor(ms)` waits, in nanoseconds. A deadline that has passed is a timeout at
once. -/
def waitFor (now ms : Int) : Int :=
  let deadline := Int.bmod (now + Int.bmod (ms * 1000000) (2 ^ 64)) (2 ^ 64)
  max 0 (deadline - now)

/-- How long the wait with number `i` takes, in nanoseconds: `wakeup->waitFor(backoff)`, or
`sleep_for(backoff)` when no interrupt is passed. -/
def waitTime (wakeup : Option SteadyClock) (i : Nat) (backoff : Int) : Int :=
  match wakeup with
  | none => backoff * 1000000
  | some clock => waitFor (clock.now i) backoff

/-- The deadline of the wait with number `i` is a 64-bit count of nanoseconds. -/
def DeadlineFits (wakeup : Option SteadyClock) (i : Nat) (backoff : Int) : Prop :=
  match wakeup with
  | none => True
  | some clock => clock.now i + backoff * 1000000 < 2 ^ 63

/-- **A wait lasts its interval exactly when its deadline fits.** -/
theorem waitTime_eq_iff (wakeup : Option SteadyClock) (i : Nat) {backoff : Int}
    (hpos : 0 < backoff) :
    waitTime wakeup i backoff = backoff * 1000000 ↔ DeadlineFits wakeup i backoff := by
  cases wakeup with
  | none => exact iff_of_true rfl trivial
  | some clock =>
      have hnow := clock.nonneg i
      simp only [waitTime, waitFor, DeadlineFits, Int.add_bmod_bmod]
      constructor
      · intro h
        have hlt := Int.bmod_lt (x := clock.now i + backoff * 1000000) (m := 2 ^ 64) (by decide)
        omega
      · intro h
        rw [Int.bmod_eq_of_le (by omega) (by omega)]
        omega

/-! ## The loop -/

/-- What `exponentialBackOff` does. -/
inductive BackoffEvent where
  /-- `keepGoing()` was asked -/
  | keepGoing (answer : Bool)
  /-- the thread waited for so many nanoseconds -/
  | wait (ns : Int)
  | attempt (status : ConnectionStatus)
  deriving DecidableEq, Repr

/-- How a call ends. -/
inductive BackoffEnd where
  | returned (status : ConnectionStatus)
  | overflow
  deriving DecidableEq, Repr

structure BackoffRun where
  events : List BackoffEvent
  outcome : BackoffEnd
  deriving DecidableEq, Repr

/-- The result of a product, if it fits `int64_t`. -/
def fitInt64 (n : Int) : Option Int := if -2 ^ 63 ≤ n ∧ n < 2 ^ 63 then some n else none

/-- `maxDelay()` -/
def BackoffPolicy.checkedMaxDelay (p : BackoffPolicy) : Option Int := do
  let power ← fitInt64 (p.increasePerTry ^ p.maxTryCount)
  fitInt64 (p.delay * power)

/-- The loop between two rounds: how often `keepGoing()` has been asked, how many attempts have been
made, which is also how many waits, the next interval, and what has been done. -/
structure BackoffState where
  asked : Nat
  attempts : Nat
  backoff : Int
  events : List BackoffEvent

section Loop

variable (p : BackoffPolicy) (wakeup : Option SteadyClock) (keepGoing : Nat → Bool)
  (attempt : Nat → ConnectionStatus)

/-- The rounds of `for(;;)`, at most `fuel` of them. -/
def backoffLoop (maxDelay : Int) : Nat → BackoffState → Option BackoffRun
  | 0, _ => none
  | fuel + 1, s =>
      let waited := waitTime wakeup s.attempts s.backoff
      if keepGoing s.asked = false then
        some ⟨s.events ++ [.keepGoing false], .returned .CLOSED⟩
      else if keepGoing (s.asked + 1) = false then
        some ⟨s.events ++ [.keepGoing true, .wait waited, .keepGoing false], .returned .CLOSED⟩
      else
        let status := attempt s.attempts
        let events := s.events ++ [.keepGoing true, .wait waited, .keepGoing true, .attempt status]
        if status = .SUCCESS then some ⟨events, .returned .SUCCESS⟩
        else
          match fitInt64 (s.backoff * p.increasePerTry) with
          | none => some ⟨events, .overflow⟩
          | some backoff =>
              if maxDelay ≤ backoff then some ⟨events, .returned .FAIL⟩
              else backoffLoop maxDelay fuel ⟨s.asked + 2, s.attempts + 1, backoff, events⟩

/-- The call, if it ends within `fuel` rounds. -/
def exponentialBackOff (fuel : Nat) : Option BackoffRun :=
  match p.checkedMaxDelay with
  | none => some ⟨[], .overflow⟩
  | some maxDelay => backoffLoop p wakeup keepGoing attempt maxDelay fuel ⟨0, 0, p.delay, []⟩

end Loop

/-! ## What a call has done

The events of a call, read as the documentation speaks of them: what was asked, what was tried and
how long the thread had waited before each try. -/

/-- The events are those of rounds: in each, `keepGoing()` is asked before the one wait and after
it, and an attempt ends it. The last round may end with an answer false. -/
inductive InRounds : List BackoffEvent → Prop
  | done : InRounds []
  | refused : InRounds [.keepGoing false]
  | woken (ns : Int) : InRounds [.keepGoing true, .wait ns, .keepGoing false]
  | round (ns : Int) (status : ConnectionStatus) {rest : List BackoffEvent} : InRounds rest →
      InRounds (.keepGoing true :: .wait ns :: .keepGoing true :: .attempt status :: rest)

/-- The attempts, each with the wait since the one before it. -/
def attemptsAfter : Option Int → List BackoffEvent → List (Option Int × ConnectionStatus)
  | _, [] => []
  | _, .wait ms :: rest => attemptsAfter (some ms) rest
  | waited, .attempt status :: rest => (waited, status) :: attemptsAfter none rest
  | waited, .keepGoing _ :: rest => attemptsAfter waited rest

def attemptsOf (events : List BackoffEvent) : List (Option Int × ConnectionStatus) :=
  attemptsAfter none events

/-- The answers of `keepGoing()`. -/
def answersOf (events : List BackoffEvent) : List Bool :=
  events.filterMap fun
    | .keepGoing answer => some answer
    | _ => none

/-- An attempt succeeds before `keepGoing()` first answers false. -/
def SucceedsFirst (events : List BackoffEvent) : Prop :=
  ∃ before after, events = before ++ .attempt .SUCCESS :: after ∧ .keepGoing false ∉ before

/-- `keepGoing()` answers false before an attempt succeeds, and no attempt is made after that. -/
def StopsFirst (events : List BackoffEvent) : Prop :=
  ∃ before after, events = before ++ .keepGoing false :: after ∧ .attempt .SUCCESS ∉ before ∧
    attemptsOf after = []

/-- The interval of the round with number `i`, in milliseconds. -/
def BackoffPolicy.interval (p : BackoffPolicy) (i : Nat) : Int := p.delay * p.increasePerTry ^ i

section Documentation

variable (p : BackoffPolicy) (keepGoing : Nat → Bool) (attempt : Nat → ConnectionStatus)

/-- What is documented of a call, apart from how long it waits. -/
structure Answered (run : BackoffRun) : Prop where
  rounds : InRounds run.events
  answers : ∃ n, answersOf run.events = (List.range n).map keepGoing
  no_overflow : run.outcome ≠ .overflow
  success_iff : run.outcome = .returned .SUCCESS ↔ SucceedsFirst run.events
  closed_iff : run.outcome = .returned .CLOSED ↔ StopsFirst run.events
  fail_iff : run.outcome = .returned .FAIL ↔
    (attemptsOf run.events).length = p.maxTryCount ∧
      ∀ a ∈ attemptsOf run.events, a.2 ≠ .SUCCESS

/-- The schedule as it is documented. -/
structure Documented (run : BackoffRun) : Prop extends Answered p keepGoing run where
  /-- the attempts are those of the sequence, the one with number `i` after `delay * r ^ i` ms -/
  attempts : ∃ n ≤ p.maxTryCount, attemptsOf run.events =
    (List.range n).map (fun i => (some (p.interval i * 1000000), attempt i))

/-- The attempt with number `i` is made. -/
def Attempted (i : Nat) : Prop :=
  i < p.maxTryCount ∧ (∀ j < 2 * (i + 1), keepGoing j = true) ∧ ∀ j < i, attempt j ≠ .SUCCESS

/-- The call with these waits: the attempts made are those that the answers and the outcomes ask
for. -/
structure Follows (waits : Nat → Int) (run : BackoffRun) : Prop
    extends Answered p keepGoing run where
  attempts : ∃ n, (∀ i, i < n ↔ Attempted p keepGoing attempt i) ∧ attemptsOf run.events =
    (List.range n).map (fun i => (some (waits i), attempt i))

end Documentation

/-! ## Rounds

The rounds that nothing ends, given how long each wait takes. A call is a number of them and the
part of a round that ends it. -/

section Rounds

variable {waits : Nat → Int} {keepGoing : Nat → Bool} {attempt : Nat → ConnectionStatus}

/-- What the first rounds do when nothing ends them. -/
def rounds (waits : Nat → Int) (attempt : Nat → ConnectionStatus) : Nat → List BackoffEvent
  | 0 => []
  | n + 1 => rounds waits attempt n ++
      [.keepGoing true, .wait (waits n), .keepGoing true, .attempt (attempt n)]

theorem inRounds_append (waits : Nat → Int) (attempt : Nat → ConnectionStatus) (n : Nat)
    {rest : List BackoffEvent} (h : InRounds rest) : InRounds (rounds waits attempt n ++ rest) := by
  induction n generalizing rest with
  | zero => exact h
  | succ n ih =>
      rw [rounds, List.append_assoc]
      exact ih (.round (waits n) (attempt n) h)

theorem inRounds_rounds (waits : Nat → Int) (attempt : Nat → ConnectionStatus) (n : Nat) :
    InRounds (rounds waits attempt n) := by
  have h := inRounds_append waits attempt n .done
  rwa [List.append_nil] at h

theorem mem_rounds {n : Nat} {e : BackoffEvent} (h : e ∈ rounds waits attempt n) :
    e = .keepGoing true ∨ (∃ i < n, e = .wait (waits i)) ∨
      ∃ i < n, e = .attempt (attempt i) := by
  induction n with
  | zero => cases h
  | succ n ih =>
      rw [rounds, List.mem_append] at h
      rcases h with h | h
      · rcases ih h with rfl | ⟨i, hi, rfl⟩ | ⟨i, hi, rfl⟩
        · exact Or.inl rfl
        · exact Or.inr (Or.inl ⟨i, Nat.lt_succ_of_lt hi, rfl⟩)
        · exact Or.inr (Or.inr ⟨i, Nat.lt_succ_of_lt hi, rfl⟩)
      · simp only [List.mem_cons, List.not_mem_nil, or_false] at h
        rcases h with rfl | rfl | rfl | rfl
        · exact Or.inl rfl
        · exact Or.inr (Or.inl ⟨n, Nat.lt_succ_self n, rfl⟩)
        · exact Or.inl rfl
        · exact Or.inr (Or.inr ⟨n, Nat.lt_succ_self n, rfl⟩)

theorem false_notMem_rounds (waits : Nat → Int) (attempt : Nat → ConnectionStatus) (n : Nat) :
    .keepGoing false ∉ rounds waits attempt n := by
  intro h
  rcases mem_rounds h with h | ⟨i, -, h⟩ | ⟨i, -, h⟩ <;> cases h

theorem success_notMem_rounds {n : Nat} (h : ∀ i < n, attempt i ≠ .SUCCESS) :
    .attempt .SUCCESS ∉ rounds waits attempt n := by
  intro hmem
  rcases mem_rounds hmem with he | ⟨i, -, he⟩ | ⟨i, hi, he⟩
  · cases he
  · cases he
  · exact h i hi (BackoffEvent.attempt.inj he).symm

/-- After a whole number of rounds no wait is left over. -/
theorem attemptsAfter_rounds_append (waits : Nat → Int) (attempt : Nat → ConnectionStatus)
    (n : Nat) (rest : List BackoffEvent) :
    attemptsOf (rounds waits attempt n ++ rest) =
      (List.range n).map (fun i => (some (waits i), attempt i)) ++ attemptsOf rest := by
  induction n generalizing rest with
  | zero => rfl
  | succ n ih =>
      rw [rounds, List.append_assoc, ih, List.range_succ, List.map_append, List.append_assoc]
      rfl

theorem attemptsOf_rounds (n : Nat) :
    attemptsOf (rounds waits attempt n) =
      (List.range n).map (fun i => (some (waits i), attempt i)) := by
  have h := attemptsAfter_rounds_append waits attempt n []
  rwa [List.append_nil, show attemptsOf [] = [] from rfl, List.append_nil] at h

theorem answersOf_append (xs ys : List BackoffEvent) :
    answersOf (xs ++ ys) = answersOf xs ++ answersOf ys :=
  List.filterMap_append

theorem answersOf_rounds (waits : Nat → Int) (attempt : Nat → ConnectionStatus) {n : Nat}
    (h : ∀ j < 2 * n, keepGoing j = true) :
    answersOf (rounds waits attempt n) = (List.range (2 * n)).map keepGoing := by
  induction n with
  | zero => rfl
  | succ n ih =>
      have h0 := h (2 * n) (by omega)
      have h1 := h (2 * n + 1) (by omega)
      rw [rounds, answersOf_append, ih (fun j hj => h j (by omega)),
        show 2 * (n + 1) = 2 * n + 1 + 1 by omega, List.range_succ, List.range_succ,
        List.map_append, List.map_append, List.append_assoc]
      rw [List.map_singleton, List.map_singleton, h0, h1]
      rfl

end Rounds

/-! ## How a call ends

One lemma for each of the ends: the call has made whole rounds, and what the last one did decides
between `CLOSED`, `SUCCESS` and `FAIL`. -/

section Ends

variable {p : BackoffPolicy} {waits : Nat → Int} {keepGoing : Nat → Bool}
  {attempt : Nat → ConnectionStatus}

/-- The loop before the round with number `i`. -/
structure AtRound (p : BackoffPolicy) (waits : Nat → Int) (keepGoing : Nat → Bool)
    (attempt : Nat → ConnectionStatus) (i : Nat) (s : BackoffState) : Prop where
  state : s = ⟨2 * i, i, p.interval i, rounds waits attempt i⟩
  kept : ∀ j < 2 * i, keepGoing j = true
  failed : ∀ j < i, attempt j ≠ .SUCCESS

variable {i : Nat}

/-- The attempts of whole rounds are those that are asked for, when the next one is not. -/
theorem lt_iff_attempted (hle : i ≤ p.maxTryCount) (hkept : ∀ j < 2 * i, keepGoing j = true)
    (hfailed : ∀ j < i - 1, attempt j ≠ .SUCCESS)
    (hend : ¬ Attempted p keepGoing attempt i) (m : Nat) :
    m < i ↔ Attempted p keepGoing attempt m := by
  constructor
  · intro h
    exact ⟨by omega, fun j hj => hkept j (by omega), fun j hj => hfailed j (by omega)⟩
  · rintro ⟨hm, hasked, hbefore⟩
    by_contra hle
    exact hend ⟨by omega, fun j hj => hasked j (by omega), fun j hj => hbefore j (by omega)⟩

/-- `keepGoing()` answers false in the round: `asked` is what the round has done before. -/
theorem follows_closed (asked : List BackoffEvent) (m : Nat) (hlt : i < p.maxTryCount)
    (hkept : ∀ j < 2 * i, keepGoing j = true) (hfailed : ∀ j < i, attempt j ≠ .SUCCESS)
    (hend : ¬ Attempted p keepGoing attempt i)
    (hround : InRounds (asked ++ [.keepGoing false]))
    (hasked : attemptsOf (asked ++ [.keepGoing false]) = []) (hno : .attempt .SUCCESS ∉ asked)
    (hanswers : answersOf (rounds waits attempt i ++ (asked ++ [.keepGoing false])) =
      (List.range m).map keepGoing) :
    Follows p keepGoing attempt waits
      ⟨rounds waits attempt i ++ (asked ++ [.keepGoing false]), .returned .CLOSED⟩ := by
  have hattempts := attemptsAfter_rounds_append waits attempt i
    (asked ++ [.keepGoing false])
  rw [hasked, List.append_nil] at hattempts
  have hnone : .attempt .SUCCESS ∉ rounds waits attempt i ++ asked := by
    rw [List.mem_append, not_or]
    exact ⟨success_notMem_rounds hfailed, hno⟩
  refine ⟨⟨inRounds_append waits attempt i hround, ⟨m, hanswers⟩, by simp, ?_, ?_, ?_⟩,
    ⟨i, lt_iff_attempted hlt.le hkept (fun j hj => hfailed j (by omega)) hend, hattempts⟩⟩
  · refine iff_of_false (by simp) ?_
    rintro ⟨before, after, heq, -⟩
    dsimp only at heq
    have hmem : .attempt .SUCCESS ∈ rounds waits attempt i ++ asked ++ [.keepGoing false] := by
      rw [List.append_assoc, heq]
      simp
    rw [List.mem_append] at hmem
    rcases hmem with hmem | hmem
    · exact hnone hmem
    · simp at hmem
  · refine iff_of_true rfl ⟨rounds waits attempt i ++ asked, [], ?_, hnone, rfl⟩
    rw [List.append_assoc]
  · refine iff_of_false (by simp) (fun h => ?_)
    rw [hattempts, List.length_map, List.length_range] at h
    omega

/-- The attempt of the round succeeds. -/
theorem follows_success (hlt : i < p.maxTryCount)
    (hkept : ∀ j < 2 * (i + 1), keepGoing j = true) (hfailed : ∀ j < i, attempt j ≠ .SUCCESS)
    (hup : attempt i = .SUCCESS) :
    Follows p keepGoing attempt waits ⟨rounds waits attempt (i + 1), .returned .SUCCESS⟩ := by
  have hnot := false_notMem_rounds waits attempt (i + 1)
  have hend : ¬ Attempted p keepGoing attempt (i + 1) := fun h => h.2.2 i (Nat.lt_succ_self i) hup
  refine ⟨⟨inRounds_rounds waits attempt (i + 1), ⟨_, answersOf_rounds waits attempt hkept⟩,
    by simp, ?_, ?_, ?_⟩, ⟨i + 1, lt_iff_attempted hlt hkept hfailed hend,
    attemptsOf_rounds (i + 1)⟩⟩
  · refine iff_of_true rfl ⟨rounds waits attempt i ++
      [.keepGoing true, .wait (waits i), .keepGoing true], [], ?_, ?_⟩
    · rw [rounds, hup, List.append_assoc]
      rfl
    · intro hmem
      apply hnot
      rw [rounds, hup]
      simp only [List.mem_append, List.mem_cons] at hmem ⊢
      tauto
  · refine iff_of_false (by simp) ?_
    rintro ⟨before, after, heq, -⟩
    dsimp only at heq
    apply hnot
    rw [heq]
    simp
  · refine iff_of_false (by simp) (fun h => ?_)
    apply h.2 (some (waits i), attempt i) _ hup
    rw [attemptsOf_rounds, List.mem_map]
    exact ⟨i, List.mem_range.mpr (Nat.lt_succ_self i), rfl⟩

/-- The last attempt fails. -/
theorem follows_fail (hlast : i + 1 = p.maxTryCount)
    (hkept : ∀ j < 2 * (i + 1), keepGoing j = true)
    (hfailed : ∀ j < i + 1, attempt j ≠ .SUCCESS) :
    Follows p keepGoing attempt waits ⟨rounds waits attempt (i + 1), .returned .FAIL⟩ := by
  have hend : ¬ Attempted p keepGoing attempt (i + 1) := fun h => by
    have hlt := h.1
    omega
  refine ⟨⟨inRounds_rounds waits attempt (i + 1), ⟨_, answersOf_rounds waits attempt hkept⟩,
    by simp, ?_, ?_, ?_⟩, ⟨i + 1, lt_iff_attempted hlast.le hkept
    (fun j hj => hfailed j (by omega)) hend, attemptsOf_rounds (i + 1)⟩⟩
  · refine iff_of_false (by simp) ?_
    rintro ⟨before, after, heq, -⟩
    dsimp only at heq
    have hnone : .attempt .SUCCESS ∉ rounds waits attempt (i + 1) := success_notMem_rounds hfailed
    apply hnone
    rw [heq]
    simp
  · refine iff_of_false (by simp) ?_
    rintro ⟨before, after, heq, -⟩
    dsimp only at heq
    apply false_notMem_rounds waits attempt (i + 1)
    rw [heq]
    simp
  · refine iff_of_true rfl ⟨?_, ?_⟩
    · rw [attemptsOf_rounds, List.length_map, List.length_range, hlast]
    · intro a ha
      rw [attemptsOf_rounds, List.mem_map] at ha
      obtain ⟨j, hj, rfl⟩ := ha
      exact hfailed j (List.mem_range.mp hj)

end Ends

/-! ## The schedule

The intervals grow, the products fit when the ceiling does, and the stop test is passed as often as
`maxTryCount` says. What is left of the documentation is the length of the waits. -/

section Schedule

variable {p : BackoffPolicy}

theorem interval_succ (p : BackoffPolicy) (i : Nat) :
    p.interval i * p.increasePerTry = p.interval (i + 1) := by
  rw [BackoffPolicy.interval, BackoffPolicy.interval, pow_succ, mul_assoc]

/-- The intervals grow. -/
theorem interval_strictMono (hdelay : 1 ≤ p.delay) (hgrow : 2 ≤ p.increasePerTry) :
    StrictMono p.interval := by
  refine strictMono_nat_of_lt_succ (fun i => ?_)
  have hpos : 0 < p.interval i := mul_pos (by omega) (pow_pos (by omega) i)
  calc p.interval i = p.interval i * 1 := (mul_one _).symm
    _ < p.interval i * p.increasePerTry := by
        apply mul_lt_mul_of_pos_left _ hpos
        omega
    _ = p.interval (i + 1) := interval_succ p i

/-- **The stop test ends the schedule after `maxTryCount` rounds.** -/
theorem nextInterval_interval (hdelay : 1 ≤ p.delay) (hgrow : 2 ≤ p.increasePerTry) (i : Nat) :
    p.nextInterval (p.interval i) =
      if i + 1 < p.maxTryCount then some (p.interval (i + 1)) else none := by
  have hmono := interval_strictMono hdelay hgrow
  have hmax : p.maxDelay = p.interval p.maxTryCount := rfl
  have hle : p.interval p.maxTryCount ≤ p.interval (i + 1) ↔ p.maxTryCount ≤ i + 1 :=
    hmono.le_iff_le
  unfold BackoffPolicy.nextInterval
  rw [interval_succ, hmax]
  by_cases h : i + 1 < p.maxTryCount
  · rw [if_neg (by omega), if_pos h]
  · rw [if_pos (by omega), if_neg h]

theorem interval_fits (hdelay : 1 ≤ p.delay) (hgrow : 2 ≤ p.increasePerTry)
    (hfits : p.delay * p.increasePerTry ^ p.maxTryCount < 2 ^ 63) {i : Nat}
    (hi : i ≤ p.maxTryCount) : fitInt64 (p.interval i) = some (p.interval i) := by
  have hpos : 0 < p.interval i := mul_pos (by omega) (pow_pos (by omega) i)
  have hle : p.interval i ≤ p.interval p.maxTryCount :=
    (interval_strictMono hdelay hgrow).monotone hi
  have hmax : p.interval p.maxTryCount < 2 ^ 63 := hfits
  unfold fitInt64
  rw [if_pos]
  omega

theorem checkedMaxDelay_eq (hdelay : 1 ≤ p.delay) (hgrow : 2 ≤ p.increasePerTry)
    (hfits : p.delay * p.increasePerTry ^ p.maxTryCount < 2 ^ 63) :
    p.checkedMaxDelay = some p.maxDelay := by
  have hpow : 0 < p.increasePerTry ^ p.maxTryCount := pow_pos (by omega) _
  have hle : p.increasePerTry ^ p.maxTryCount ≤ p.delay * p.increasePerTry ^ p.maxTryCount :=
    le_mul_of_one_le_left hpow.le hdelay
  have hpower : fitInt64 (p.increasePerTry ^ p.maxTryCount) =
      some (p.increasePerTry ^ p.maxTryCount) := by
    unfold fitInt64
    rw [if_pos]
    omega
  unfold BackoffPolicy.checkedMaxDelay
  rw [hpower]
  exact interval_fits hdelay hgrow hfits (le_refl p.maxTryCount)

theorem interval_pos (hdelay : 1 ≤ p.delay) (hgrow : 2 ≤ p.increasePerTry) (i : Nat) :
    0 < p.interval i :=
  mul_pos (by omega) (pow_pos (by omega) i)

variable {wakeup : Option SteadyClock} {keepGoing : Nat → Bool} {attempt : Nat → ConnectionStatus}

/-- How long the call's wait with number `i` takes. -/
def BackoffPolicy.waits (p : BackoffPolicy) (wakeup : Option SteadyClock) (i : Nat) : Int :=
  waitTime wakeup i (p.interval i)

/-- **One round.** It ends the call, or it is not the last and leaves the loop before the next
one. -/
theorem backoffLoop_round (hdelay : 1 ≤ p.delay) (hgrow : 2 ≤ p.increasePerTry)
    (hfits : p.delay * p.increasePerTry ^ p.maxTryCount < 2 ^ 63) (fuel : Nat) {i : Nat}
    {s : BackoffState} (hs : AtRound p (p.waits wakeup) keepGoing attempt i s)
    (hlt : i < p.maxTryCount) :
    (∃ run, backoffLoop p wakeup keepGoing attempt p.maxDelay (fuel + 1) s = some run ∧
      Follows p keepGoing attempt (p.waits wakeup) run) ∨
    (i + 1 < p.maxTryCount ∧ ∃ s', AtRound p (p.waits wakeup) keepGoing attempt (i + 1) s' ∧
      backoffLoop p wakeup keepGoing attempt p.maxDelay (fuel + 1) s =
        backoffLoop p wakeup keepGoing attempt p.maxDelay fuel s') := by
  obtain ⟨rfl, hkept, hfailed⟩ := hs
  have hbefore := answersOf_rounds (p.waits wakeup) attempt hkept
  rw [backoffLoop]
  dsimp only
  -- the first `keepGoing()` of the round
  by_cases h0 : keepGoing (2 * i) = false
  · rw [if_pos h0]
    have hend : ¬ Attempted p keepGoing attempt i := fun h => by
      rw [h.2.1 (2 * i) (by omega)] at h0
      cases h0
    refine Or.inl ⟨_, rfl, follows_closed [] (2 * i + 1) hlt hkept hfailed hend .refused rfl
      List.not_mem_nil ?_⟩
    rw [answersOf_append, hbefore, List.range_succ, List.map_append, List.map_singleton, h0]
    rfl
  rw [if_neg h0]
  rw [Bool.not_eq_false] at h0
  -- the second one, after the wait
  by_cases h1 : keepGoing (2 * i + 1) = false
  · rw [if_pos h1]
    have hend : ¬ Attempted p keepGoing attempt i := fun h => by
      rw [h.2.1 (2 * i + 1) (by omega)] at h1
      cases h1
    refine Or.inl ⟨_, rfl, follows_closed [.keepGoing true, .wait (p.waits wakeup i)]
      (2 * i + 1 + 1) hlt hkept hfailed hend (.woken _) rfl (by simp) ?_⟩
    rw [answersOf_append, hbefore, List.range_succ, List.range_succ, List.map_append,
      List.map_append, List.map_singleton, List.map_singleton, h0, h1, List.append_assoc]
    rfl
  rw [if_neg h1]
  rw [Bool.not_eq_false] at h1
  have hkept' : ∀ j < 2 * (i + 1), keepGoing j = true := by
    intro j hj
    rcases (by omega : j < 2 * i ∨ j = 2 * i ∨ j = 2 * i + 1) with h | rfl | rfl
    · exact hkept j h
    · exact h0
    · exact h1
  by_cases hup : attempt i = .SUCCESS
  · rw [if_pos hup]
    exact Or.inl ⟨_, rfl, follows_success hlt hkept' hfailed hup⟩
  rw [if_neg hup, interval_succ, interval_fits hdelay hgrow hfits hlt]
  have hfailed' : ∀ j < i + 1, attempt j ≠ .SUCCESS := by
    intro j hj
    rcases (by omega : j < i ∨ j = i) with h | rfl
    · exact hfailed j h
    · exact hup
  have hle : p.maxDelay ≤ p.interval (i + 1) ↔ p.maxTryCount ≤ i + 1 :=
    (interval_strictMono hdelay hgrow).le_iff_le
  dsimp only
  -- the stop test
  by_cases hlast : p.maxTryCount ≤ i + 1
  · rw [if_pos (hle.mpr hlast)]
    exact Or.inl ⟨_, rfl, follows_fail (by omega) hkept' hfailed'⟩
  · rw [if_neg (fun h => hlast (hle.mp h))]
    exact Or.inr ⟨by omega, ⟨2 * (i + 1), i + 1, p.interval (i + 1),
      rounds (p.waits wakeup) attempt (i + 1)⟩, ⟨rfl, hkept', hfailed'⟩, rfl⟩

/-- From the round with number `i` on the loop ends within the rounds that are left. -/
theorem backoffLoop_follows (hdelay : 1 ≤ p.delay) (hgrow : 2 ≤ p.increasePerTry)
    (hfits : p.delay * p.increasePerTry ^ p.maxTryCount < 2 ^ 63) (left : Nat) {i : Nat}
    {s : BackoffState} (hs : AtRound p (p.waits wakeup) keepGoing attempt i s)
    (hleft : i + (left + 1) = p.maxTryCount) :
    ∃ run, backoffLoop p wakeup keepGoing attempt p.maxDelay (left + 1) s = some run ∧
      Follows p keepGoing attempt (p.waits wakeup) run := by
  -- induction on the rounds that are left after this one
  induction left generalizing i s with
  | zero =>
      rcases backoffLoop_round hdelay hgrow hfits 0 hs (by omega) with h | ⟨hlt, -⟩
      · exact h
      · omega
  | succ left ih =>
      rcases backoffLoop_round hdelay hgrow hfits (left + 1) hs (by omega) with
        h | ⟨-, s', hs', heq⟩
      · exact h
      · rw [heq]
        exact ih hs' (by omega)

/-- `maxTryCount` rounds are enough. -/
theorem exponentialBackOff_follows (wakeup : Option SteadyClock) (keepGoing : Nat → Bool)
    (attempt : Nat → ConnectionStatus) (hdelay : 1 ≤ p.delay) (hgrow : 2 ≤ p.increasePerTry)
    (htries : 1 ≤ p.maxTryCount) (hfits : p.delay * p.increasePerTry ^ p.maxTryCount < 2 ^ 63) :
    ∃ run, exponentialBackOff p wakeup keepGoing attempt p.maxTryCount = some run ∧
      Follows p keepGoing attempt (p.waits wakeup) run := by
  have hstart : AtRound p (p.waits wakeup) keepGoing attempt 0 ⟨0, 0, p.delay, []⟩ := by
    refine ⟨?_, fun j hj => absurd hj (Nat.not_lt_zero j),
      fun j hj => absurd hj (Nat.not_lt_zero j)⟩
    rw [BackoffPolicy.interval, pow_zero, mul_one]
    rfl
  obtain ⟨tries, htries⟩ : ∃ tries, p.maxTryCount = tries + 1 :=
    ⟨p.maxTryCount - 1, by omega⟩
  unfold exponentialBackOff
  rw [checkedMaxDelay_eq hdelay hgrow hfits, htries]
  exact backoffLoop_follows hdelay hgrow hfits tries hstart (by omega)

/-- Such a call is the documented one exactly when the waits before its attempts last their
intervals. -/
theorem Follows.documented_iff {waits : Nat → Int} {run : BackoffRun}
    (h : Follows p keepGoing attempt waits run) :
    Documented p keepGoing attempt run ↔
      ∀ i, Attempted p keepGoing attempt i → waits i = p.interval i * 1000000 := by
  obtain ⟨n, hmade, hn⟩ := h.attempts
  constructor
  · intro hdoc i hi
    obtain ⟨m, -, hm⟩ := hdoc.attempts
    have hlen : n = m := by simpa [hm] using (congrArg List.length hn).symm
    subst hlen
    have hi := (hmade i).mpr hi
    have heq := congrArg (fun made => made[i]?) (hn.symm.trans hm)
    simp only [List.getElem?_map, List.getElem?_range hi, Option.map_some, Option.some.injEq,
      Prod.mk.injEq, and_true] at heq
    exact heq
  · intro hwaits
    refine ⟨h.toAnswered, n, ?_, ?_⟩
    · by_contra hlt
      have hmax := (hmade p.maxTryCount).mp (by omega)
      exact absurd hmax.1 (lt_irrefl _)
    · rw [hn]
      refine List.map_congr_left (fun i hi => ?_)
      rw [hwaits i ((hmade i).mp (List.mem_range.mp hi))]

/-- **A policy whose ceiling fits is followed as documented exactly when the deadlines fit**: those
of the waits before the attempts that the answers and the outcomes ask for. -/
theorem backoff_schedule (p : BackoffPolicy) (wakeup : Option SteadyClock)
    (keepGoing : Nat → Bool) (attempt : Nat → ConnectionStatus) (hdelay : 1 ≤ p.delay)
    (hgrow : 2 ≤ p.increasePerTry) (htries : 1 ≤ p.maxTryCount)
    (hfits : p.delay * p.increasePerTry ^ p.maxTryCount < 2 ^ 63) :
    ∃ run, exponentialBackOff p wakeup keepGoing attempt p.maxTryCount = some run ∧
      (Documented p keepGoing attempt run ↔
        ∀ i, Attempted p keepGoing attempt i → DeadlineFits wakeup i (p.interval i)) := by
  obtain ⟨run, hrun, hfollows⟩ :=
    exponentialBackOff_follows wakeup keepGoing attempt hdelay hgrow htries hfits
  refine ⟨run, hrun, hfollows.documented_iff.trans (forall₂_congr fun i _ => ?_)⟩
  exact waitTime_eq_iff wakeup i (interval_pos hdelay hgrow i)

/-- A clock that reads three hours more at each wait. -/
def everyThreeHours : SteadyClock where
  now := fun i => min (10800000000000 * i) (2 ^ 62)
  nonneg := fun i => by omega
  fits := fun i => by omega

/-- The holders' policy with an interrupt, when the third attempt is the first to succeed. -/
theorem backoff_schedule_standard :
    ∃ run, exponentialBackOff .standard (some everyThreeHours) (fun _ => true)
        (fun i => if i = 2 then .SUCCESS else .FAIL)
        BackoffPolicy.standard.maxTryCount = some run ∧
      Documented .standard (fun _ => true) (fun i => if i = 2 then .SUCCESS else .FAIL) run := by
  obtain ⟨run, hrun, hiff⟩ := backoff_schedule .standard (some everyThreeHours) (fun _ => true)
    (fun i => if i = 2 then .SUCCESS else .FAIL) (by decide) (by decide) (by decide) (by decide)
  refine ⟨run, hrun, hiff.mpr ?_⟩
  rintro i ⟨hi, -⟩
  have hle : BackoffPolicy.standard.interval i ≤ BackoffPolicy.standard.interval 7 :=
    (interval_strictMono (by decide) (by decide)).monotone hi.le
  have hmax : BackoffPolicy.standard.interval 7 = 64000 := by decide
  show min (10800000000000 * (i : Int)) (2 ^ 62) + _ < (2 ^ 63 : Int)
  omega

/-- A policy whose ceiling fits and whose second interval is no 64-bit count of nanoseconds. -/
def longWaits : BackoffPolicy := ⟨9240000, 999000, 2⟩

/-- **A wait whose deadline overflows ends at once**: between the two attempts no time is left. -/
theorem long_wait_ends_at_once :
    1 ≤ longWaits.delay ∧ 2 ≤ longWaits.increasePerTry ∧ 1 ≤ longWaits.maxTryCount ∧
      longWaits.delay * longWaits.increasePerTry ^ longWaits.maxTryCount < 2 ^ 63 ∧
    ∃ run, exponentialBackOff longWaits (some everyThreeHours) (fun _ => true) (fun _ => .FAIL)
        longWaits.maxTryCount = some run ∧
      attemptsOf run.events = [(some 9240000000000, .FAIL), (some 0, .FAIL)] ∧
      longWaits.interval 1 = 9230760000000 ∧
      ¬ Documented longWaits (fun _ => true) (fun _ => .FAIL) run := by
  refine ⟨by decide, by decide, by decide, by decide, ?_⟩
  refine ⟨_, rfl, by decide, by decide, ?_⟩
  intro h
  obtain ⟨n, hn, hattempts⟩ := h.attempts
  have hn : n ≤ 2 := hn
  interval_cases n
  · cases hattempts
  · cases hattempts
  · revert hattempts
    decide

end Schedule

end AstraConnect.Core
