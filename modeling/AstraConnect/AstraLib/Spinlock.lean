import AstraConnect.Lib.CriticalSection

set_option autoImplicit false

/-! # The lock that spins (`spinlock.hpp`)

`lock` exchanges the flag for `true` until it finds `false`, and pauses between its tries, counting
to `waitTime`; `unlock` stores `false`. The threads use it through `SpinlockGuard`, so that only the
thread inside unlocks.

The other modules take such a lock to be with one thread or with none. That is what it amounts to
in every run (`spinlock_is_mutex`). A thread gets a lock that is free by its own steps, provided
that the counter of the pauses, an `int`, can reach `waitTime` (`spinlock_free_is_taken`).
-/

namespace AstraConnect.AstraLib

open Transition

/-! ## The lock -/

/-- Where a thread is with the lock. -/
inductive SpinPlace where
  | outside
  /-- `atomic.value.exchange(true)` -/
  | exchange
  /-- between two `cpuRelax()` calls, before the test of `i < waitTime` -/
  | relax (i : Int)
  | inside
  deriving DecidableEq, Repr

structure Spinlock (τ : Type) where
  atomic : Bool
  waitTime : Int
  threads : τ → SpinPlace

inductive SpinAct (τ : Type) where
  | lock (t : τ)
  | go (t : τ)
  | unlock (t : τ)

/-- `++i`. The counter is an `int`, although `waitTime` has 64 bits. -/
def nextCount (i : Int) : Int := Int.bmod (i + 1) (2 ^ 32)

namespace Spinlock

variable {τ : Type} [DecidableEq τ]

def moveTo (s : Spinlock τ) (t : τ) (p : SpinPlace) : Spinlock τ :=
  { s with threads := Function.update s.threads t p }

def step (s : Spinlock τ) : SpinAct τ → Option (Spinlock τ)
  | .lock t => if s.threads t = .outside then some (s.moveTo t .exchange) else none
  | .go t =>
      match s.threads t with
      | .exchange =>
          some ({ s with atomic := true }.moveTo t
            (if s.atomic then .relax 0 else .inside))
      | .relax i => some (s.moveTo t (if i < s.waitTime then .relax (nextCount i) else .exchange))
      | _ => none
  | .unlock t =>
      if s.threads t = .inside then some ({ s with atomic := false }.moveTo t .outside) else none

/-- `Spinlock(waitTime_)`; the default is 1000. -/
def construct (waitTime : Int) : Spinlock τ := ⟨false, waitTime, fun _ => .outside⟩

end Spinlock

/-! ## The mutex it stands for

The flag is down when there is no owner, and up while the thread that found it down is inside. The
steps in which a thread only tries or pauses are no steps of the mutex. -/

inductive MutexAct (τ : Type) where
  | acquire (t : τ)
  | release (t : τ)

/-- A mutex is its owner. -/
def mutexStep {τ : Type} [DecidableEq τ] (owner : Option τ) : MutexAct τ → Option (Option τ)
  | .acquire t => if owner = none then some (some t) else none
  | .release t => if owner = some t then some none else none

namespace Spinlock

/-- The flag says whether there is an owner, and the owner is the thread inside. -/
structure Owned {τ : Type} (s : Spinlock τ) (owner : Option τ) : Prop where
  atomic : s.atomic = owner.isSome
  inside : ∀ t, s.threads t = .inside ↔ owner = some t

variable {τ : Type} [DecidableEq τ] {s s' : Spinlock τ} {t : τ} {owner : Option τ}

@[simp] theorem threads_moveTo_self (p : SpinPlace) : (s.moveTo t p).threads t = p :=
  Function.update_self ..

/-- A step of a thread that is not inside before or after. -/
theorem Owned.moveTo (h : Owned s owner) {p : SpinPlace} (hthere : s.threads t ≠ .inside)
    (hp : p ≠ .inside) : Owned (s.moveTo t p) owner := by
  refine ⟨h.atomic, fun u => ?_⟩
  by_cases hu : u = t
  · subst hu
    rw [threads_moveTo_self, ← h.inside u]
    exact iff_of_false hp hthere
  · show Function.update s.threads t p u = _ ↔ _
    rw [Function.update_of_ne hu]
    exact h.inside u

/-- The thread gets in. -/
theorem Owned.enter (h : Owned s none) :
    Owned ({ s with atomic := true }.moveTo t .inside) (some t) := by
  refine ⟨rfl, fun u => ?_⟩
  show Function.update s.threads t .inside u = _ ↔ _
  by_cases hu : u = t
  · rw [hu, Function.update_self]
    exact iff_of_true rfl rfl
  · rw [Function.update_of_ne hu, h.inside u]
    exact iff_of_false nofun (fun heq => hu (Option.some.inj heq).symm)

theorem Owned.leave (h : Owned s (some t)) :
    Owned ({ s with atomic := false }.moveTo t .outside) none := by
  refine ⟨rfl, fun u => ?_⟩
  show Function.update s.threads t .outside u = _ ↔ _
  by_cases hu : u = t
  · rw [hu, Function.update_self]
    exact iff_of_false nofun nofun
  · rw [Function.update_of_ne hu, h.inside u]
    exact iff_of_false (fun heq => hu (Option.some.inj heq).symm) nofun

omit [DecidableEq τ] in
theorem owned_construct (waitTime : Int) : Owned (construct waitTime : Spinlock τ) none :=
  ⟨rfl, fun _ => iff_of_false nofun nofun⟩

theorem Owned.step (h : Owned s owner) {a : SpinAct τ} (hs : Spinlock.step s a = some s') :
    Matched Owned mutexStep (fun _ _ => True) owner s' := by
  cases a with
  | lock t =>
      obtain ⟨hp, hs⟩ := Option.ite_none_right_eq_some.mp hs
      obtain rfl := Option.some.inj hs
      exact .stutter (h.moveTo (by rw [hp]; nofun) nofun)
  | unlock t =>
      obtain ⟨hp, hs⟩ := Option.ite_none_right_eq_some.mp hs
      obtain rfl := Option.some.inj hs
      obtain rfl := (h.inside t).mp hp
      have hrelease : mutexStep (some t) (.release t) = some none := if_pos rfl
      exact .step trivial hrelease h.leave
  | go t =>
      unfold Spinlock.step at hs
      dsimp only at hs
      split at hs
      · rename_i hp
        obtain rfl := Option.some.inj hs
        have hflag := h.atomic
        cases owner with
        | none =>
            rw [Option.isSome_none] at hflag
            rw [hflag]
            have hacquire : mutexStep none (.acquire t) = some (some t) := rfl
            exact .step trivial hacquire h.enter
        | some o =>
            -- the flag is true already
            rw [Option.isSome_some] at hflag
            rw [hflag]
            have hsame : Owned { s with atomic := true } (some o) := ⟨rfl, h.inside⟩
            exact .stutter (hsame.moveTo (by show s.threads t ≠ _; rw [hp]; nofun) nofun)
      · rename_i hp
        obtain rfl := Option.some.inj hs
        exact .stutter (h.moveTo (by rw [hp]; nofun) (by split <;> nofun))
      · cases hs

/-! ## The pauses

The counter of a pause goes up to `waitTime`, provided that `waitTime` is an `int`. Then the steps
that a thread has left to the inside of a free lock can be counted. -/

/-- The counters are between 0 and `waitTime`. -/
def Counting (s : Spinlock τ) : Prop :=
  ∀ t i, s.threads t = .relax i → 0 ≤ i ∧ i ≤ s.waitTime.toNat

theorem nextCount_eq {i bound : Int} (hnonneg : 0 ≤ i) (hlt : i < bound) (hint : bound < 2 ^ 31) :
    nextCount i = i + 1 :=
  Int.bmod_eq_of_le (by omega) (by omega)

theorem waitTime_step {a : SpinAct τ} (hs : Spinlock.step s a = some s') :
    s'.waitTime = s.waitTime := by
  cases a with
  | lock t | unlock t =>
      obtain ⟨-, hs⟩ := Option.ite_none_right_eq_some.mp hs
      obtain rfl := Option.some.inj hs
      rfl
  | go t =>
      unfold Spinlock.step at hs
      dsimp only at hs
      split at hs
      · obtain rfl := Option.some.inj hs
        rfl
      · obtain rfl := Option.some.inj hs
        rfl
      · cases hs

theorem Counting.step (hint : s.waitTime < 2 ^ 31) (h : s.Counting) {a : SpinAct τ}
    (hs : Spinlock.step s a = some s') : s'.Counting := by
  have hmove : ∀ {b t p}, (∀ i : Int, p = .relax i → 0 ≤ i ∧ i ≤ s.waitTime.toNat) →
      ({ s with atomic := b }.moveTo t p).Counting := by
    intro b t p hp u i hu
    by_cases hut : u = t
    · rw [hut, threads_moveTo_self] at hu
      exact hp i hu
    · replace hu : Function.update s.threads t p u = .relax i := hu
      rw [Function.update_of_ne hut] at hu
      exact h u i hu
  cases a with
  | lock t =>
      obtain ⟨-, hs⟩ := Option.ite_none_right_eq_some.mp hs
      obtain rfl := Option.some.inj hs
      exact hmove nofun
  | unlock t =>
      obtain ⟨-, hs⟩ := Option.ite_none_right_eq_some.mp hs
      obtain rfl := Option.some.inj hs
      exact hmove nofun
  | go t =>
      unfold Spinlock.step at hs
      dsimp only at hs
      split at hs
      · obtain rfl := Option.some.inj hs
        apply hmove
        intro i hp
        split at hp
        · obtain rfl := SpinPlace.relax.inj hp
          omega
        · cases hp
      · rename_i i hp
        obtain rfl := Option.some.inj hs
        apply hmove
        intro i' hp'
        obtain ⟨hnonneg, -⟩ := h t i hp
        split at hp'
        · rename_i hlt
          rw [nextCount_eq hnonneg hlt hint] at hp'
          obtain rfl := SpinPlace.relax.inj hp'
          omega
        · cases hp'
      · cases hs

/-- The steps a thread has left to the inside of a lock that is free. -/
def stepsToEnter (waitTime : Int) : SpinPlace → Option Nat
  | .exchange => some 1
  | .relax i => some ((waitTime - i).toNat + 2)
  | _ => none

/-- With the flag down, a thread that keeps trying gets in. -/
theorem run_to_inside (hint : s.waitTime < 2 ^ 31) (hcounting : s.Counting)
    (hfree : s.atomic = false) {k : Nat} (hk : stepsToEnter s.waitTime (s.threads t) = some k) :
    ∃ s', runFrom Spinlock.step s (List.replicate k (.go t)) = some s' ∧
      s'.threads t = .inside := by
  induction k generalizing s with
  | zero =>
      cases hp : s.threads t <;> rw [hp] at hk <;> cases hk
  | succ k ih =>
      cases hp : s.threads t with
      | exchange =>
          rw [hp] at hk
          obtain rfl : 0 = k := Nat.succ.inj (Option.some.inj hk)
          refine ⟨{ s with atomic := true }.moveTo t .inside, ?_, threads_moveTo_self _⟩
          have hs : Spinlock.step s (.go t) =
              some ({ s with atomic := true }.moveTo t .inside) := by
            rw [Spinlock.step, hp, hfree]
            rfl
          rw [List.replicate_succ, runFrom, hs]
          rfl
      | relax i =>
          rw [hp] at hk
          have hsteps : (s.waitTime - i).toNat + 2 = k + 1 := Option.some.inj hk
          by_cases hlt : i < s.waitTime
          · -- one more pause
            have hs : Spinlock.step s (.go t) = some (s.moveTo t (.relax (i + 1))) := by
              rw [Spinlock.step, hp]
              dsimp only
              rw [if_pos hlt, nextCount_eq (hcounting t i hp).1 hlt hint]
            rw [List.replicate_succ, runFrom, hs]
            refine ih hint (hcounting.step hint hs) hfree ?_
            rw [threads_moveTo_self]
            refine congrArg some ?_
            show (s.waitTime - (i + 1)).toNat + 2 = k
            omega
          · have hs : Spinlock.step s (.go t) = some (s.moveTo t .exchange) := by
              rw [Spinlock.step, hp]
              dsimp only
              rw [if_neg hlt]
            rw [List.replicate_succ, runFrom, hs]
            refine ih hint (hcounting.step hint hs) hfree ?_
            rw [threads_moveTo_self]
            refine congrArg some ?_
            omega
      | outside => rw [hp] at hk; cases hk
      | inside => rw [hp] at hk; cases hk

/-! ## As a lock of operations -/

def SpinAct.of : CriticalSection.LockAct τ → SpinAct τ
  | .lock t => .lock t
  | .go t => .go t
  | .unlock t => .unlock t

/-- The other threads stay where they are. -/
theorem step_others {a : CriticalSection.LockAct τ} (hs : Spinlock.step s (SpinAct.of a) = some s')
    (ht : t ≠ a.thread) : s'.threads t = s.threads t := by
  cases a with
  | lock u =>
      obtain ⟨-, hs⟩ := Option.ite_none_right_eq_some.mp hs
      obtain rfl := Option.some.inj hs
      exact Function.update_of_ne ht ..
  | go u =>
      unfold SpinAct.of Spinlock.step at hs
      dsimp only at hs
      split at hs
      · obtain rfl := Option.some.inj hs
        exact Function.update_of_ne ht ..
      · obtain rfl := Option.some.inj hs
        exact Function.update_of_ne ht ..
      · cases hs
  | unlock u =>
      obtain ⟨-, hs⟩ := Option.ite_none_right_eq_some.mp hs
      obtain rfl := Option.some.inj hs
      exact Function.update_of_ne ht ..

/-- `SpinlockGuard`s of one lock. -/
def guard (waitTime : Int) : CriticalSection.Lock τ where
  State := Spinlock τ
  start := construct waitTime
  step s a := Spinlock.step s (SpinAct.of a)
  inside s t := decide (s.threads t = .inside)
  Sound s := ∃ owner, Owned s owner
  sound_start := ⟨none, owned_construct waitTime⟩
  sound_step := by
    rintro s s' a ⟨owner, h⟩ hs
    cases h.step hs with
    | stutter h' => exact ⟨owner, h'⟩
    | step _ _ h' => exact ⟨_, h'⟩
  exclusive := by
    rintro s t u ⟨owner, h⟩ ht hu
    have hto := (h.inside t).mp (of_decide_eq_true ht)
    exact Option.some.inj (hto.symm.trans ((h.inside u).mp (of_decide_eq_true hu)))
  inside_start _ := rfl
  others := by
    intro s s' a t hs ht
    rw [step_others hs ht]
  unlock_to := by
    intro s s' t hs
    obtain ⟨-, hs⟩ := Option.ite_none_right_eq_some.mp hs
    obtain rfl := Option.some.inj hs
    rw [threads_moveTo_self]
    rfl

end Spinlock

section Main

variable {τ : Type} [DecidableEq τ] {s : Spinlock τ} {waitTime : Int}

open Spinlock

/-- **The lock is a mutex.** In every run the flag and the threads are those of a mutex that was
acquired only when it was free and released only by its owner. So no two threads are inside. -/
theorem spinlock_is_mutex (h : Reach Spinlock.step (fun _ _ => True) (construct waitTime) s) :
    (∃ owner, Reach mutexStep (fun _ _ => True) none owner ∧ s.atomic = owner.isSome ∧
      ∀ t, s.threads t = .inside ↔ owner = some t) ∧
    ∀ t u, s.threads t = .inside → s.threads u = .inside → t = u := by
  obtain ⟨owner, hreach, howned⟩ :=
    h.simulate (owned_construct waitTime) (fun _ _ _ _ ho _ hs => ho.step hs)
  refine ⟨⟨owner, hreach, howned.atomic, howned.inside⟩, fun t u ht hu => ?_⟩
  exact Option.some.inj (((howned.inside t).mp ht).symm.trans ((howned.inside u).mp hu))

/-- **A free lock is taken by whoever tries.** When `waitTime` is an `int` and nobody is inside, a
thread in `lock` gets in by at most `waitTime + 2` steps of its own. -/
theorem spinlock_free_is_taken (hint : waitTime < 2 ^ 31)
    (h : Reach Spinlock.step (fun _ _ => True) (construct waitTime) s)
    (hfree : ∀ t, s.threads t ≠ .inside) {t : τ} (htries : s.threads t ≠ .outside) :
    ∃ k ≤ waitTime.toNat + 2, ∃ s',
      runFrom Spinlock.step s (List.replicate k (.go t)) = some s' ∧ s'.threads t = .inside := by
  obtain ⟨owner, -, howned⟩ :=
    h.simulate (owned_construct waitTime) (fun _ _ _ _ ho _ hs => ho.step hs)
  obtain ⟨hwait, hcounting⟩ : s.waitTime = waitTime ∧ s.Counting := by
    refine h.invariant (I := fun s => s.waitTime = waitTime ∧ s.Counting) ⟨rfl, nofun⟩ ?_
    rintro s₀ a s₁ ⟨hwait, hcounting⟩ - hs
    exact ⟨(waitTime_step hs).trans hwait, hcounting.step (by rw [hwait]; exact hint) hs⟩
  subst hwait
  have hflag : s.atomic = false := by
    rw [howned.atomic]
    cases owner with
    | none => rfl
    | some o => exact absurd ((howned.inside o).mpr rfl) (hfree o)
  cases hp : s.threads t with
  | outside => exact absurd hp htries
  | inside => exact absurd hp (hfree t)
  | exchange =>
      refine ⟨1, by omega, run_to_inside hint hcounting hflag ?_⟩
      rw [hp]
      rfl
  | relax i =>
      obtain ⟨hnonneg, -⟩ := hcounting t i hp
      refine ⟨(s.waitTime - i).toNat + 2, by omega, run_to_inside hint hcounting hflag ?_⟩
      rw [hp]
      rfl

/-- A thread is inside and another pauses; the first one leaves. -/
def passOn : List (SpinAct Bool) := [.lock true, .lock false, .go true, .go false, .unlock true]

def afterPassOn : Option (Spinlock Bool) := runFrom Spinlock.step (construct 3) passOn

theorem spinlock_is_mutex_passOn :
    ∃ owner : Option Bool, Reach mutexStep (fun _ _ => True) none owner ∧
      (afterPassOn.get rfl).atomic = owner.isSome := by
  have hreach : Reach Spinlock.step (fun _ _ => True) (.construct 3) (afterPassOn.get rfl) :=
    Reach.refl.of_run (Option.some_get _).symm
  obtain ⟨owner, hmutex, hflag, -⟩ := (spinlock_is_mutex hreach).1
  exact ⟨owner, hmutex, hflag⟩

theorem spinlock_free_is_taken_passOn :
    ∃ k ≤ 5, ∃ s', runFrom Spinlock.step (afterPassOn.get rfl) (List.replicate k (.go false)) =
      some s' ∧ s'.threads false = .inside := by
  have hreach : Reach Spinlock.step (fun _ _ => True) (.construct 3) (afterPassOn.get rfl) :=
    Reach.refl.of_run (Option.some_get _).symm
  apply spinlock_free_is_taken (by decide) hreach _ (by decide)
  rintro (_ | _) <;> decide

end Main

end AstraConnect.AstraLib
