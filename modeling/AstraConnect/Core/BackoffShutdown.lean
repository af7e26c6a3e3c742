import AstraConnect.Lib.Transition
import AstraConnect.Core.StreamHolder

set_option autoImplicit false

/-! # Shutting down a thread that backs off (`BackoffInterrupt`, `exponentialBackOff`)

One thread is inside `exponentialBackOff` with a `BackoffInterrupt`; its `keepGoing()` loads
`running`. The owner stores `running = false` and then calls `signal()`. The two interleave at
every access to `running`, to `signalled` and to the mutex. `wait_for` with a predicate is
`while(!pred()) if(wait_until(…) == timeout) return pred();`: the thread gives the mutex back in
the same step in which it parks, it may wake at any time, and it takes the mutex again before it
looks at the predicate.

Once `signal()` has returned the thread is not parked and is gone after four more steps
(`signal_ends_backOff`).
-/

namespace AstraConnect.Core.Shutdown

open Transition

/-! ## The two threads

Each access to `running`, to `signalled` and to the mutex is a step. A wakeup, by `notify_all`, by
the time or for no reason, is a step that may come whenever the thread is parked. -/

inductive Party where
  | thread
  | owner
  deriving DecidableEq, Repr

/-- Where the thread is in `exponentialBackOff`. -/
inductive Place where
  /-- `if(!keepGoing())` at the head of a round -/
  | checkFirst
  /-- `waitFor`: taking the mutex -/
  | locking
  /-- `waitFor`: at the predicate, with the mutex; after a timeout it is the last look -/
  | testing (timedOut : Bool)
  /-- `signalled` was found false -/
  | parking
  | parked
  /-- awake, and taking the mutex again -/
  | woken (timedOut : Bool)
  /-- `waitFor`: giving the mutex back -/
  | unlocking
  /-- `if(!keepGoing())` after the wait -/
  | checkSecond
  /-- about to call `attempt()` -/
  | calling
  | attempting
  | returned (status : ConnectionStatus)
  deriving DecidableEq, Repr

inductive OwnerPlace where
  /-- about to store `running = false` -/
  | storing
  /-- `signal()`: taking the mutex -/
  | locking
  /-- about to set `signalled` -/
  | setting
  | unlocking
  /-- about to call `cv.notify_all()` -/
  | notifying
  | returned
  deriving DecidableEq, Repr

/-- The calls of `attempt()`, with the interval before them. -/
inductive Call where
  | began (interval : Int)
  | ended (interval : Int) (status : ConnectionStatus)
  deriving DecidableEq, Repr

structure State where
  place : Place
  owner : OwnerPlace
  mutex : Option Party
  running : Bool
  signalled : Bool
  backoff : Int
  /-- what has been called so far; the program does not keep this -/
  calls : List Call
  deriving DecidableEq, Repr

inductive Act where
  | thread
  /-- the parked thread wakes, at its deadline or for no reason -/
  | wake (timedOut : Bool)
  /-- `attempt()` returns -/
  | attemptEnds (status : ConnectionStatus)
  | owner
  deriving DecidableEq, Repr

/-- The rest of a round once `attempt()` has returned. -/
def afterAttempt (p : BackoffPolicy) (s : State) (status : ConnectionStatus) : State :=
  let calls := s.calls ++ [.ended s.backoff status]
  if status = .SUCCESS then { s with place := .returned .SUCCESS, calls := calls }
  else
    match p.nextInterval s.backoff with
    | none => { s with place := .returned .FAIL, calls := calls }
    | some backoff => { s with place := .checkFirst, backoff := backoff, calls := calls }

def threadStep (s : State) : Option State :=
  match s.place with
  | .checkFirst => some { s with place := if s.running then .locking else .returned .CLOSED }
  | .locking =>
      if s.mutex = none then some { s with place := .testing false, mutex := some .thread }
      else none
  | .testing timedOut =>
      some { s with place := if s.signalled || timedOut then .unlocking else .parking }
  | .parking => some { s with place := .parked, mutex := none }
  | .woken timedOut =>
      if s.mutex = none then some { s with place := .testing timedOut, mutex := some .thread }
      else none
  | .unlocking => some { s with place := .checkSecond, mutex := none }
  | .checkSecond => some { s with place := if s.running then .calling else .returned .CLOSED }
  | .calling => some { s with place := .attempting, calls := s.calls ++ [.began s.backoff] }
  | .parked | .attempting | .returned _ => none

def ownerStep (s : State) : Option State :=
  match s.owner with
  | .storing => some { s with owner := .locking, running := false }
  | .locking =>
      if s.mutex = none then some { s with owner := .setting, mutex := some .owner } else none
  | .setting => some { s with owner := .unlocking, signalled := true }
  | .unlocking => some { s with owner := .notifying, mutex := none }
  | .notifying =>
      some { s with
        owner := .returned
        place := if s.place = .parked then .woken false else s.place }
  | .returned => none

def step (p : BackoffPolicy) (s : State) : Act → Option State
  | .thread => threadStep s
  | .wake timedOut => if s.place = .parked then some { s with place := .woken timedOut } else none
  | .attemptEnds status =>
      if s.place = .attempting then some (afterAttempt p s status) else none
  | .owner => ownerStep s

/-- A call of `exponentialBackOff` begins; an earlier signal may still stand. -/
def start (p : BackoffPolicy) (running signalled : Bool) : State :=
  ⟨.checkFirst, .storing, none, running, signalled, p.delay, []⟩

/-! ## What a step does -/

/-- The steps of the thread outside `attempt()`. -/
inductive ThreadMove (s : State) : State → Prop
  | goOn (h : s.place = .checkFirst) (hrun : s.running = true) :
      ThreadMove s { s with place := .locking }
  | stop (h : s.place = .checkFirst ∨ s.place = .checkSecond) (hrun : s.running = false) :
      ThreadMove s { s with place := .returned .CLOSED }
  | lock (timedOut : Bool) (h : s.place = .locking ∨ s.place = .woken timedOut)
      (hfree : s.mutex = none) :
      ThreadMove s { s with place := .testing timedOut, mutex := some .thread }
  | found (timedOut : Bool) (h : s.place = .testing timedOut) :
      ThreadMove s { s with place := .unlocking }
  | missed (timedOut : Bool) (h : s.place = .testing timedOut) (hset : s.signalled = false) :
      ThreadMove s { s with place := .parking }
  | park (h : s.place = .parking) : ThreadMove s { s with place := .parked, mutex := none }
  | unlock (h : s.place = .unlocking) :
      ThreadMove s { s with place := .checkSecond, mutex := none }
  | again (h : s.place = .checkSecond) (hrun : s.running = true) :
      ThreadMove s { s with place := .calling }
  | call (h : s.place = .calling) :
      ThreadMove s { s with place := .attempting, calls := s.calls ++ [.began s.backoff] }

theorem threadMove_of_step {s s' : State} (hs : threadStep s = some s') : ThreadMove s s' := by
  unfold threadStep at hs
  cases hplace : s.place with
  | checkFirst =>
      rw [hplace] at hs
      obtain rfl := Option.some.inj hs
      by_cases hrun : s.running = true
      · rw [if_pos hrun]
        exact .goOn hplace hrun
      · rw [if_neg hrun]
        exact .stop (Or.inl hplace) (Bool.not_eq_true _ ▸ hrun)
  | locking =>
      simp only [hplace, Option.ite_none_right_eq_some] at hs
      obtain ⟨hfree, hs⟩ := hs
      obtain rfl := Option.some.inj hs
      exact .lock false (Or.inl hplace) hfree
  | testing timedOut =>
      rw [hplace] at hs
      obtain rfl := Option.some.inj hs
      by_cases hfound : (s.signalled || timedOut) = true
      · rw [if_pos hfound]
        exact .found timedOut hplace
      · rw [if_neg hfound]
        rw [Bool.or_eq_true, not_or, Bool.not_eq_true] at hfound
        exact .missed timedOut hplace hfound.1
  | parking =>
      rw [hplace] at hs
      obtain rfl := Option.some.inj hs
      exact .park hplace
  | woken timedOut =>
      simp only [hplace, Option.ite_none_right_eq_some] at hs
      obtain ⟨hfree, hs⟩ := hs
      obtain rfl := Option.some.inj hs
      exact .lock timedOut (Or.inr hplace) hfree
  | unlocking =>
      rw [hplace] at hs
      obtain rfl := Option.some.inj hs
      exact .unlock hplace
  | checkSecond =>
      rw [hplace] at hs
      obtain rfl := Option.some.inj hs
      by_cases hrun : s.running = true
      · rw [if_pos hrun]
        exact .again hplace hrun
      · rw [if_neg hrun]
        exact .stop (Or.inr hplace) (Bool.not_eq_true _ ▸ hrun)
  | calling =>
      rw [hplace] at hs
      obtain rfl := Option.some.inj hs
      exact .call hplace
  | _ =>
      rw [hplace] at hs
      cases hs

/-- The steps of the owner. -/
inductive OwnerMove (s : State) : State → Prop
  | store (h : s.owner = .storing) : OwnerMove s { s with owner := .locking, running := false }
  | lock (h : s.owner = .locking) (hfree : s.mutex = none) :
      OwnerMove s { s with owner := .setting, mutex := some .owner }
  | set (h : s.owner = .setting) : OwnerMove s { s with owner := .unlocking, signalled := true }
  | unlock (h : s.owner = .unlocking) : OwnerMove s { s with owner := .notifying, mutex := none }
  | wake (h : s.owner = .notifying) (hparked : s.place = .parked) :
      OwnerMove s { s with owner := .returned, place := .woken false }
  | wakeNone (h : s.owner = .notifying) (hparked : s.place ≠ .parked) :
      OwnerMove s { s with owner := .returned }

theorem ownerMove_of_step {s s' : State} (hs : ownerStep s = some s') : OwnerMove s s' := by
  unfold ownerStep at hs
  cases howner : s.owner with
  | storing =>
      rw [howner] at hs
      obtain rfl := Option.some.inj hs
      exact .store howner
  | locking =>
      simp only [howner, Option.ite_none_right_eq_some] at hs
      obtain ⟨hfree, hs⟩ := hs
      obtain rfl := Option.some.inj hs
      exact .lock howner hfree
  | setting =>
      rw [howner] at hs
      obtain rfl := Option.some.inj hs
      exact .set howner
  | unlocking =>
      rw [howner] at hs
      obtain rfl := Option.some.inj hs
      exact .unlock howner
  | notifying =>
      rw [howner] at hs
      obtain rfl := Option.some.inj hs
      by_cases hparked : s.place = .parked
      · rw [if_pos hparked]
        exact .wake howner hparked
      · rw [if_neg hparked]
        exact .wakeNone howner hparked
  | returned =>
      rw [howner] at hs
      cases hs

/-! ## The invariant

The mutex is with at most one of the two, and from the moment in which the thread has looked at
`signalled` until it parks it is with the thread. So `signal()` cannot come in between and be
missed. -/

/-- The thread has the mutex. -/
def Place.holds : Place → Bool
  | .testing _ | .parking | .unlocking => true
  | _ => false

/-- The owner has the mutex. -/
def OwnerPlace.holds : OwnerPlace → Bool
  | .setting | .unlocking => true
  | _ => false

/-- The owner has set `signalled`, but not woken anyone. -/
def OwnerPlace.signalling : OwnerPlace → Bool
  | .unlocking | .notifying => true
  | _ => false

structure Inv (s : State) : Prop where
  mutex : s.mutex =
    if s.place.holds then some .thread else if s.owner.holds then some .owner else none
  /-- the mutex is not held twice -/
  exclusive : s.place.holds = true → s.owner.holds = false
  stored : s.owner ≠ .storing → s.running = false
  set : s.owner = .returned ∨ s.owner.signalling = true → s.signalled = true
  /-- nobody parks with the signal set -/
  parking : s.place = .parking → s.signalled = false
  /-- who is parked with the signal set is woken by `notify_all` -/
  parked : s.place = .parked → s.signalled = true → s.owner.signalling = true

theorem Inv.start (p : BackoffPolicy) (running signalled : Bool) :
    Inv (start p running signalled) where
  mutex := rfl
  exclusive h := by cases h
  stored h := absurd rfl h
  set h := by rcases h with h | h <;> cases h
  parking h := by cases h
  parked h := by cases h

/-- The mutex is free when neither holds it. -/
theorem Inv.free {s : State} (h : Inv s) (hplace : s.place.holds = false)
    (howner : s.owner.holds = false) : s.mutex = none := by
  rw [h.mutex, hplace, howner]
  rfl

theorem Inv.of_free {s : State} (h : Inv s) (hfree : s.mutex = none) :
    s.place.holds = false ∧ s.owner.holds = false := by
  have hmutex := h.mutex
  rw [hfree] at hmutex
  cases hplace : s.place.holds with
  | true =>
      rw [hplace] at hmutex
      cases hmutex
  | false =>
      cases howner : s.owner.holds with
      | true =>
          rw [hplace, howner] at hmutex
          cases hmutex
      | false => exact ⟨rfl, rfl⟩

/-- The thread goes on without touching the mutex. -/
theorem Inv.move {s : State} (h : Inv s) {place : Place} (backoff : Int) (calls : List Call)
    (hholds : place.holds = s.place.holds) (hparking : place = .parking → s.signalled = false)
    (hparked : place ≠ .parked) :
    Inv { s with place := place, backoff := backoff, calls := calls } where
  mutex := by
    rw [hholds]
    exact h.mutex
  exclusive := by
    rw [hholds]
    exact h.exclusive
  stored := h.stored
  set := h.set
  parking := hparking
  parked hplace := absurd hplace hparked

/-- The thread takes the mutex. -/
theorem Inv.take {s : State} (h : Inv s) (timedOut : Bool) (hfree : s.mutex = none) :
    Inv { s with place := .testing timedOut, mutex := some .thread } where
  mutex := rfl
  exclusive _ := (h.of_free hfree).2
  stored := h.stored
  set := h.set
  parking hplace := by cases hplace
  parked hplace := by cases hplace

/-- The thread gives the mutex back. -/
theorem Inv.give {s : State} (h : Inv s) {place : Place} (hholds : s.place.holds = true)
    (hfree : place.holds = false) (hparked : place = .parked → s.signalled = false) :
    Inv { s with place := place, mutex := none } where
  mutex := by
    rw [hfree, h.exclusive hholds]
    rfl
  exclusive hplace := by
    rw [hfree] at hplace
    cases hplace
  stored := h.stored
  set := h.set
  parking hplace := by
    change place = .parking at hplace
    rw [hplace] at hfree
    cases hfree
  parked hplace hset := by
    change s.signalled = true at hset
    rw [hparked hplace] at hset
    cases hset

theorem Inv.threadMove {s s' : State} (h : Inv s) (hs : ThreadMove s s') : Inv s' := by
  have hmove : ∀ (place : Place) (calls : List Call), place.holds = s.place.holds →
      (place = .parking → s.signalled = false) → place ≠ .parked →
      Inv { s with place := place, calls := calls } :=
    fun place calls => h.move s.backoff calls
  cases hs with
  | goOn hplace =>
      apply hmove .locking s.calls (by rw [hplace]; rfl) <;> intro hp <;> cases hp
  | stop hplace =>
      apply hmove (.returned .CLOSED) s.calls <;> try (intro hp; cases hp)
      rcases hplace with hplace | hplace <;> rw [hplace] <;> rfl
  | lock timedOut hplace hfree => exact h.take timedOut hfree
  | found timedOut hplace =>
      apply hmove .unlocking s.calls (by rw [hplace]; rfl) <;> intro hp <;> cases hp
  | missed timedOut hplace hset =>
      exact hmove .parking s.calls (by rw [hplace]; rfl) (fun _ => hset) (fun hp => by cases hp)
  | park hplace => exact h.give (by rw [hplace]; rfl) rfl (fun _ => h.parking hplace)
  | unlock hplace => exact h.give (by rw [hplace]; rfl) rfl (fun hp => by cases hp)
  | again hplace =>
      apply hmove .calling s.calls (by rw [hplace]; rfl) <;> intro hp <;> cases hp
  | call hplace =>
      apply hmove .attempting _ (by rw [hplace]; rfl) <;> intro hp <;> cases hp

theorem Inv.afterAttempt {s : State} (h : Inv s) (hplace : s.place = .attempting)
    (p : BackoffPolicy) (status : ConnectionStatus) : Inv (afterAttempt p s status) := by
  have hmove : ∀ (place : Place) (backoff : Int) (calls : List Call), place.holds = false →
      place ≠ .parking → place ≠ .parked →
      Inv { s with place := place, backoff := backoff, calls := calls } := by
    intro place backoff calls hholds hparking hparked
    apply h.move backoff calls _ (fun hp => absurd hp hparking) hparked
    rw [hholds, hplace]
    rfl
  unfold Shutdown.afterAttempt
  dsimp only
  split
  · exact hmove (.returned .SUCCESS) s.backoff _ rfl (by decide) (by decide)
  · split
    · exact hmove (.returned .FAIL) s.backoff _ rfl (by decide) (by decide)
    · exact hmove .checkFirst _ _ rfl (by decide) (by decide)

theorem Inv.wake {s : State} (h : Inv s) (timedOut : Bool) (hplace : s.place = .parked) :
    Inv { s with place := .woken timedOut } := by
  apply h.move s.backoff s.calls (by rw [hplace]; rfl) <;> intro hp <;> cases hp

/-- The thread is not parked with the signal set before `signal()` sets it. -/
theorem Inv.signalling {s : State} (h : Inv s) (howner : s.owner.signalling = false) :
    s.place = .parked → s.signalled = true → False := by
  intro hp hset
  have hsig := h.parked hp hset
  rw [howner] at hsig
  cases hsig

theorem Inv.not_holds {s : State} (h : Inv s) (howner : s.owner.holds = true) :
    s.place.holds ≠ true := by
  intro hp
  have howns := h.exclusive hp
  rw [howner] at howns
  cases howns

theorem Inv.ownerMove {s s' : State} (h : Inv s) (hs : OwnerMove s s') : Inv s' := by
  cases hs with
  | store howner =>
      exact
        { mutex := by
            rw [h.mutex, howner]
            rfl
          exclusive := fun _ => rfl
          stored := fun _ => rfl
          set := fun hret => by rcases hret with hret | hret <;> cases hret
          parking := h.parking
          parked := fun hp hset => (h.signalling (by rw [howner]; rfl) hp hset).elim }
  | lock howner hfree =>
      have hplace := (h.of_free hfree).1
      exact
        { mutex := by
            change some Party.owner = if s.place.holds = true then _ else _
            rw [hplace]
            rfl
          exclusive := fun hp => by
            change s.place.holds = true at hp
            rw [hplace] at hp
            cases hp
          stored := fun _ => h.stored (by rw [howner]; decide)
          set := fun hret => by rcases hret with hret | hret <;> cases hret
          parking := h.parking
          parked := fun hp hset => (h.signalling (by rw [howner]; rfl) hp hset).elim }
  | set howner =>
      have hnot := h.not_holds (by rw [howner]; rfl)
      exact
        { mutex := by
            rw [h.mutex, howner]
            rfl
          exclusive := fun hp => absurd hp hnot
          stored := fun _ => h.stored (by rw [howner]; decide)
          set := fun _ => rfl
          parking := fun hp => absurd (congrArg Place.holds hp) hnot
          parked := fun _ _ => rfl }
  | unlock howner =>
      have hnot := h.not_holds (by rw [howner]; rfl)
      exact
        { mutex := by
            change none = if s.place.holds = true then _ else _
            rw [if_neg hnot]
            rfl
          exclusive := fun _ => rfl
          stored := fun _ => h.stored (by rw [howner]; decide)
          set := fun _ => h.set (Or.inr (by rw [howner]; rfl))
          parking := h.parking
          parked := fun _ _ => rfl }
  | wake howner hparked =>
      have hset : s.signalled = true := h.set (Or.inr (by rw [howner]; rfl))
      exact
        { mutex := by
            rw [h.mutex, howner, hparked]
            rfl
          exclusive := fun _ => rfl
          stored := fun _ => h.stored (by rw [howner]; decide)
          set := fun _ => hset
          parking := fun hp => by cases hp
          parked := fun hp => by cases hp }
  | wakeNone howner hparked =>
      have hset : s.signalled = true := h.set (Or.inr (by rw [howner]; rfl))
      exact
        { mutex := by
            rw [h.mutex, howner]
            rfl
          exclusive := fun _ => rfl
          stored := fun _ => h.stored (by rw [howner]; decide)
          set := fun _ => hset
          parking := h.parking
          parked := fun hp => absurd hp hparked }

variable {p : BackoffPolicy}

theorem Inv.step {s s' : State} {a : Act} (h : Inv s) (hs : step p s a = some s') : Inv s' := by
  cases a with
  | thread => exact h.threadMove (threadMove_of_step hs)
  | wake timedOut =>
      rw [Shutdown.step, Option.ite_none_right_eq_some] at hs
      obtain rfl := Option.some.inj hs.2
      exact h.wake timedOut hs.1
  | attemptEnds status =>
      rw [Shutdown.step, Option.ite_none_right_eq_some] at hs
      obtain rfl := Option.some.inj hs.2
      exact h.afterAttempt hs.1 p status
  | owner => exact h.ownerMove (ownerMove_of_step hs)

theorem Inv.of_reach {running signalled : Bool} {s : State}
    (hs : Reach (Shutdown.step p) (fun _ _ => True) (Shutdown.start p running signalled) s) :
    Inv s :=
  hs.invariant (Inv.start p running signalled) (fun _ _ _ h _ hstep => h.step hstep)

/-! ## After `signal()`

From then on `running` is false and `signalled` is true for good, so every place of the thread
leads to its end in the number of steps that `Place.left` counts, with at most one attempt on the
way. -/

/-- No more than so many steps are left once `signal()` has returned. -/
def Place.left : Place → Nat
  | .returned _ => 0
  | .checkFirst | .checkSecond => 1
  | .unlocking | .attempting => 2
  | .testing _ | .calling => 3
  | .locking | .woken _ | .parked | .parking => 4

theorem Place.left_le (place : Place) : place.left ≤ 4 := by
  cases place <;> simp [Place.left]

def Call.isBegan : Call → Bool
  | .began _ => true
  | .ended _ _ => false

/-- What the thread is to return: CLOSED, unless the attempt that ended since the shutdown has
succeeded, or was the last of the schedule. -/
def resultSince (p : BackoffPolicy) (since : List Call) : ConnectionStatus :=
  match since.getLast? with
  | some (.ended interval status) =>
      if status = .SUCCESS then .SUCCESS
      else if p.nextInterval interval = none then .FAIL
      else .CLOSED
  | _ => .CLOSED

/-- What has been called since the thread was at `place₀`, now that it is at `place`. -/
def Since (p : BackoffPolicy) (place₀ place : Place) (backoff : Int) (since : List Call) : Prop :=
  match place with
  | .attempting => since = [] ∨ since = [.began backoff]
  | .checkFirst => since.countP Call.isBegan ≤ 1 ∧ resultSince p since = .CLOSED
  | .returned status =>
      (place₀ = .returned status ∧ since = []) ∨
      (since.countP Call.isBegan ≤ 1 ∧ status = resultSince p since)
  | _ => since = []

theorem since_refl (place : Place) (backoff : Int) : Since p place place backoff [] := by
  cases place with
  | attempting => exact Or.inl rfl
  | checkFirst => exact ⟨Nat.zero_le 1, rfl⟩
  | returned status => exact Or.inl ⟨rfl, rfl⟩
  | _ => exact rfl

theorem Since.countP_le {place₀ place : Place} {backoff : Int} {since : List Call}
    (h : Since p place₀ place backoff since) : since.countP Call.isBegan ≤ 1 := by
  cases place with
  | attempting => rcases h with rfl | rfl <;> simp [Call.isBegan]
  | checkFirst => exact h.1
  | returned status =>
      rcases h with ⟨-, rfl⟩ | ⟨h, -⟩
      · decide
      · exact h
  | _ =>
      obtain rfl : since = [] := h
      decide

/-- A state after `signal()` has returned in the state `s₀`. -/
structure After (p : BackoffPolicy) (s₀ s : State) (since : List Call) : Prop where
  inv : Inv s
  owner : s.owner = .returned
  calls : s.calls = s₀.calls ++ since
  since : Since p s₀.place s.place s.backoff since

section After

variable {s₀ s s' : State} {since : List Call}

theorem After.running (h : After p s₀ s since) : s.running = false :=
  h.inv.stored (by rw [h.owner]; decide)

theorem After.signalled (h : After p s₀ s since) : s.signalled = true :=
  h.inv.set (Or.inl h.owner)

theorem After.not_parked (h : After p s₀ s since) : s.place ≠ .parked := by
  intro hparked
  have hsig := h.inv.parked hparked h.signalled
  rw [h.owner] at hsig
  cases hsig

/-- The thread does not wait for the mutex. -/
theorem After.free (h : After p s₀ s since) (hplace : s.place.holds = false) : s.mutex = none :=
  h.inv.free hplace (by rw [h.owner]; rfl)

theorem After.goes_on (h : After p s₀ s since) :
    (∃ status, s.place = .returned status) ∨ ∃ a, (step p s a).isSome := by
  cases hplace : s.place with
  | returned status => exact Or.inl ⟨status, rfl⟩
  | parked => exact absurd hplace h.not_parked
  | attempting => exact Or.inr ⟨.attemptEnds .FAIL, by simp [Shutdown.step, hplace]⟩
  | locking =>
      have hfree := h.free (by rw [hplace]; rfl)
      exact Or.inr ⟨.thread, by simp [Shutdown.step, threadStep, hplace, hfree]⟩
  | woken timedOut =>
      have hfree := h.free (by rw [hplace]; rfl)
      exact Or.inr ⟨.thread, by simp [Shutdown.step, threadStep, hplace, hfree]⟩
  | _ => exact Or.inr ⟨.thread, by simp [Shutdown.step, threadStep, hplace]⟩

/-- The thread goes on, and nothing is called. -/
theorem After.move (h : After p s₀ s since) (hinv : Inv s') (howner : s'.owner = s.owner)
    (hcalls : s'.calls = s.calls) (hsince : Since p s₀.place s'.place s'.backoff since) :
    After p s₀ s' since :=
  ⟨hinv, howner.trans h.owner, hcalls.trans h.calls, hsince⟩

theorem After.threadMove (h : After p s₀ s since) (hs : ThreadMove s s') :
    ∃ since', After p s₀ s' since' ∧ s'.place.left < s.place.left := by
  have hinv := h.inv.threadMove hs
  have hsince := h.since
  cases hs with
  | goOn hplace hrun =>
      rw [h.running] at hrun
      cases hrun
  | again hplace hrun =>
      rw [h.running] at hrun
      cases hrun
  | stop hplace hrun =>
      rcases hplace with hplace | hplace
      · rw [hplace] at hsince
        refine ⟨since, h.move hinv rfl rfl (Or.inr ⟨hsince.1, hsince.2.symm⟩), ?_⟩
        simp [hplace, Place.left]
      · rw [hplace] at hsince
        obtain rfl : since = [] := hsince
        refine ⟨[], h.move hinv rfl rfl (Or.inr ⟨Nat.zero_le 1, rfl⟩), ?_⟩
        simp [hplace, Place.left]
  | lock timedOut hplace hfree =>
      have hnone : since = [] := by
        rcases hplace with hplace | hplace <;> rw [hplace] at hsince <;> exact hsince
      refine ⟨since, h.move hinv rfl rfl hnone, ?_⟩
      rcases hplace with hplace | hplace <;> simp [hplace, Place.left]
  | found timedOut hplace =>
      rw [hplace] at hsince
      refine ⟨since, h.move hinv rfl rfl hsince, ?_⟩
      simp [hplace, Place.left]
  | missed timedOut hplace hset =>
      rw [h.signalled] at hset
      cases hset
  | park hplace =>
      have hset := h.inv.parking hplace
      rw [h.signalled] at hset
      cases hset
  | unlock hplace =>
      rw [hplace] at hsince
      refine ⟨since, h.move hinv rfl rfl hsince, ?_⟩
      simp [hplace, Place.left]
  | call hplace =>
      rw [hplace] at hsince
      obtain rfl : since = [] := hsince
      refine ⟨[.began s.backoff], ⟨hinv, h.owner, ?_, Or.inr rfl⟩, ?_⟩
      · rw [h.calls, List.append_nil]
      · simp [hplace, Place.left]

theorem After.attemptEnds (h : After p s₀ s since) (hplace : s.place = .attempting)
    (status : ConnectionStatus) :
    ∃ since', After p s₀ (afterAttempt p s status) since' ∧
      (afterAttempt p s status).place.left < s.place.left := by
  have hinv := h.inv.afterAttempt hplace p status
  have hsince := h.since
  rw [hplace] at hsince
  have hcount : (since ++ [Call.ended s.backoff status]).countP Call.isBegan ≤ 1 := by
    rcases hsince with rfl | rfl <;> simp [List.countP_cons, Call.isBegan]
  have hcalls : s.calls ++ [Call.ended s.backoff status] =
      s₀.calls ++ (since ++ [Call.ended s.backoff status]) := by
    rw [h.calls, List.append_assoc]
  have hresult : resultSince p (since ++ [Call.ended s.backoff status]) =
      if status = .SUCCESS then .SUCCESS
      else if p.nextInterval s.backoff = none then .FAIL else .CLOSED := by
    rw [resultSince, List.getLast?_concat]
  refine ⟨since ++ [.ended s.backoff status], ?_⟩
  rw [hplace]
  unfold afterAttempt at hinv ⊢
  dsimp only at hinv ⊢
  by_cases hup : status = .SUCCESS
  · rw [if_pos hup] at hinv hresult ⊢
    exact ⟨⟨hinv, h.owner, hcalls, Or.inr ⟨hcount, hresult.symm⟩⟩, by simp [Place.left]⟩
  · rw [if_neg hup] at hinv hresult ⊢
    cases hnext : p.nextInterval s.backoff with
    | none =>
        rw [hnext] at hinv
        rw [if_pos hnext] at hresult
        exact ⟨⟨hinv, h.owner, hcalls, Or.inr ⟨hcount, hresult.symm⟩⟩, by simp [Place.left]⟩
    | some backoff =>
        rw [hnext] at hinv
        rw [if_neg (by rw [hnext]; simp)] at hresult
        exact ⟨⟨hinv, h.owner, hcalls, ⟨hcount, hresult⟩⟩, by simp [Place.left]⟩

theorem After.step {a : Act} (h : After p s₀ s since) (hs : step p s a = some s') :
    ∃ since', After p s₀ s' since' ∧ s'.place.left < s.place.left := by
  cases a with
  | thread => exact h.threadMove (threadMove_of_step hs)
  | wake timedOut =>
      rw [Shutdown.step, Option.ite_none_right_eq_some] at hs
      exact absurd hs.1 h.not_parked
  | attemptEnds status =>
      rw [Shutdown.step, Option.ite_none_right_eq_some] at hs
      obtain rfl := Option.some.inj hs.2
      exact h.attemptEnds hs.1 status
  | owner =>
      rw [Shutdown.step, ownerStep, h.owner] at hs
      cases hs

/-- A run after `signal()` has returned. -/
theorem After.run {as : List Act} (h : After p s₀ s since)
    (hrun : runFrom (Shutdown.step p) s as = some s') :
    ∃ since', After p s₀ s' since' ∧ as.length + s'.place.left ≤ s.place.left := by
  -- induction on the actions; each of them takes one of the steps that are left
  induction as generalizing s since with
  | nil =>
      obtain rfl := Option.some.inj hrun
      exact ⟨since, h, by simp⟩
  | cons a as ih =>
      rw [runFrom, Option.bind_eq_some_iff] at hrun
      obtain ⟨t, ht, hrest⟩ := hrun
      obtain ⟨since₁, h₁, hlt⟩ := h.step ht
      obtain ⟨since', h', hle⟩ := ih h₁ hrest
      refine ⟨since', h', ?_⟩
      rw [List.length_cons]
      omega

end After

/-- **A signal is not missed.** In every state after `signal()` has returned the thread is not
parked, has returned or can go on, and has taken four steps at most; it has called `attempt()`
once at most, and it returns CLOSED unless the attempt it was in or made then says otherwise. -/
theorem signal_ends_backOff (p : BackoffPolicy) (running signalled : Bool) {s s' : State}
    {as : List Act}
    (hs : Reach (step p) (fun _ _ => True) (start p running signalled) s)
    (hret : s.owner = .returned) (hrun : runFrom (step p) s as = some s') :
    s'.place ≠ .parked ∧
      as.length ≤ 4 ∧ ((∃ status, s'.place = .returned status) ∨ ∃ a, (step p s' a).isSome) ∧
      ∃ since, s'.calls = s.calls ++ since ∧ since.countP Call.isBegan ≤ 1 ∧
        ∀ status, s'.place = .returned status →
          s.place = .returned status ∨ status = resultSince p since := by
  have hafter : After p s s [] :=
    ⟨Inv.of_reach hs, hret, (List.append_nil _).symm, since_refl s.place s.backoff⟩
  obtain ⟨since, h, hle⟩ := hafter.run hrun
  refine ⟨h.not_parked, ?_, h.goes_on, since, h.calls, h.since.countP_le, ?_⟩
  · have hleft := s.place.left_le
    omega
  · intro status hplace
    have hsince := h.since
    rw [hplace] at hsince
    rcases hsince with ⟨hbefore, -⟩ | ⟨-, hresult⟩
    · exact Or.inl hbefore
    · exact Or.inr hresult

/-- The signal comes between the second look at `running` and the attempt, which fails. -/
theorem signal_ends_backOff_attempt :
    ∃ since, [Call.began 500, .ended 500 .FAIL] = [] ++ since ∧
      since.countP Call.isBegan ≤ 1 ∧ ConnectionStatus.CLOSED = resultSince .standard since := by
  have hcalling : runFrom (step .standard) (start .standard true false)
      ([.thread, .thread, .thread, .thread, .wake true, .thread, .thread, .thread, .thread] ++
        List.replicate 5 .owner) =
        some ⟨.calling, .returned, none, false, true, 500, []⟩ := by decide
  have hclosed : runFrom (step .standard) ⟨.calling, .returned, none, false, true, 500, []⟩
      [.thread, .attemptEnds .FAIL, .thread] =
        some ⟨.returned .CLOSED, .returned, none, false, true, 1000,
          [.began 500, .ended 500 .FAIL]⟩ := by decide
  have h := signal_ends_backOff .standard true false (Reach.of_run .refl hcalling) rfl hclosed
  obtain ⟨-, -, -, since, hcalls, hcount, hresult⟩ := h
  refine ⟨since, hcalls, hcount, ?_⟩
  rcases hresult .CLOSED rfl with hbefore | hresult
  · cases hbefore
  · exact hresult

end AstraConnect.Core.Shutdown
