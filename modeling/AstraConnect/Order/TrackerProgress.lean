import AstraConnect.Order.OrderAccess

set_option autoImplicit false

/-! # The tracker's two locks do not deadlock

An order's lock is taken under the map's, and the map's lock is never taken with an order's in
hand: an open access gives the map's lock back first. So a thread that waits for the map's lock
waits for its holder, the holder waits at most for an order's lock, and that one is with an open
access (`tracker_progress`).

This is about threads that close an access before their next call, as the getters of `OrderInfo` do:
with an access open a thread only reads. In the source a thread that calls the tracker again
meanwhile can wait for itself, and two such threads for each other; those nested calls are no runs
of the model. Nor is the wait for one of the 1024 indexes that `OrderAccessHolder` gives to open
accesses.
-/

namespace AstraConnect.Order

open Transition

variable {ρ : Type} {R : ResponseReader ρ} {s s' : SharedTracker ρ} {t u : Nat} {p : Place ρ}

/-! ## Who holds a lock -/

/-- A lock that is taken is with a thread that knows it. -/
structure LocksHeld (s : SharedTracker ρ) : Prop where
  lock : ∀ t, s.lock = some t → (s.threads t).holdsMap = true
  orderLock : ∀ order t, s.orderLock order = some t → (s.threads t).holdsOrder = some order

/-- A step takes no lock for another thread, and its own thread knows what it has. -/
theorem LocksHeld.moveTo (h : LocksHeld s) (hthreads : s'.threads = s.threads)
    (hlock : ∀ u, s'.lock = some u → s.lock = some u ∨ u = t)
    (horder : ∀ order u, s'.orderLock order = some u → s.orderLock order = some u ∨ u = t)
    (hmine : s'.lock = some t → p.holdsMap = true)
    (hmineOrder : ∀ order, s'.orderLock order = some t → p.holdsOrder = some order) :
    LocksHeld (s'.moveTo t p) := by
  have hself : (s'.moveTo t p).threads t = p := Function.update_self ..
  have hother : ∀ u, u ≠ t → (s'.moveTo t p).threads u = s.threads u := by
    intro u hu
    rw [← hthreads]
    exact Function.update_of_ne hu ..
  constructor
  · intro u hu
    by_cases hut : u = t
    · rw [hut, hself]
      exact hmine (hut ▸ hu)
    · rw [hother u hut]
      exact h.lock u ((hlock u hu).resolve_right hut)
  · intro order u hu
    by_cases hut : u = t
    · rw [hut, hself]
      exact hmineOrder order (hut ▸ hu)
    · rw [hother u hut]
      exact h.orderLock order u ((horder order u hu).resolve_right hut)

/-- A thread that knows of no lock has none. -/
theorem LocksHeld.lock_ne (h : LocksHeld s) (hp : (s.threads t).holdsMap = false) :
    s.lock ≠ some t := by
  intro hlock
  rw [h.lock t hlock] at hp
  cases hp

theorem LocksHeld.orderLock_ne (h : LocksHeld s) (hp : (s.threads t).holdsOrder = none)
    (order : Nat) : s.orderLock order ≠ some t := by
  intro hlock
  rw [h.orderLock order t hlock] at hp
  cases hp

/-- The section under the map's lock takes no lock and gives none back. -/
theorem underLock_frame {call : TrackerCall ρ} (hs : s.underLock R t call = some s') :
    ∃ (s₁ : SharedTracker ρ) (p : Place ρ), s' = s₁.moveTo t p ∧ s₁.threads = s.threads ∧
      s₁.lock = s.lock ∧
      (∀ order u, s₁.orderLock order = some u → s.orderLock order = some u) ∧
      p.holdsMap = true ∧ p.holdsOrder = none := by
  have hset : ∀ id o, (s.set id o).threads = s.threads ∧ (s.set id o).lock = s.lock ∧
      ∀ order u, (s.set id o).orderLock order = some u → s.orderLock order = some u := by
    intro id o
    refine ⟨(free_frame id).2.2.2, (free_frame id).2.1, fun order u hu => ?_⟩
    replace hu : Function.update (s.free id).orderLock s.next none order = some u := hu
    rw [Function.update_apply, (free_frame id).2.2.1] at hu
    split at hu
    · cases hu
    · exact hu
  cases call with
  | registerOrderSent id r =>
      obtain ⟨o, -, rfl⟩ := Option.map_eq_some_iff.mp hs
      obtain ⟨hthreads, hlock, horder⟩ := hset id o
      exact ⟨s.set id o, .releasing, rfl, hthreads, hlock, horder, rfl, rfl⟩
  | registerOrderResponse id r =>
      simp only [SharedTracker.underLock] at hs
      split at hs
      · rename_i o _
        obtain rfl := Option.some.inj hs
        obtain ⟨hthreads, hlock, horder⟩ := hset id o
        exact ⟨s.set id o, .releasing, rfl, hthreads, hlock, horder, rfl, rfl⟩
      · obtain rfl := Option.some.inj hs
        exact ⟨s, .releasing, rfl, rfl, rfl, fun _ _ h => h, rfl, rfl⟩
      · cases hs
  | updateOrderResponse id r =>
      simp only [SharedTracker.underLock] at hs
      split at hs
      · rename_i order _
        obtain rfl := Option.some.inj hs
        exact ⟨s, .lockingUpdate id r order, rfl, rfl, rfl, fun _ _ h => h, rfl, rfl⟩
      · split at hs
        · rename_i o _
          obtain rfl := Option.some.inj hs
          obtain ⟨hthreads, hlock, horder⟩ := hset id o
          exact ⟨s.set id o, .lockingUpdate id r s.next, rfl, hthreads, hlock, horder, rfl, rfl⟩
        · obtain rfl := Option.some.inj hs
          exact ⟨s, .releasing, rfl, rfl, rfl, fun _ _ h => h, rfl, rfl⟩
        · cases hs
  | removeOrderResponse id =>
      obtain rfl := Option.some.inj hs
      refine ⟨s.erase id, .releasing, rfl, (free_frame id).2.2.2, (free_frame id).2.1, ?_, rfl, rfl⟩
      intro order u hu
      rw [← congrFun (free_frame id).2.2.1 order]
      exact hu
  | access id =>
      obtain ⟨order, -, rfl⟩ := Option.map_eq_some_iff.mp hs
      exact ⟨s, .lockingAccess id order, rfl, rfl, rfl, fun _ _ h => h, rfl, rfl⟩

/-- Taking the lock of an order. -/
theorem LocksHeld.lockOrder (h : LocksHeld s) (hp : (s.threads t).holdsOrder = none) {order : Nat}
    (hmap : p.holdsMap = true) (horder : p.holdsOrder = some order) :
    LocksHeld ({ s with orderLock := Function.update s.orderLock order (some t) }.moveTo t p) := by
  refine h.moveTo rfl (fun _ hu => .inl hu) (fun order' u hu => ?_) (fun _ => hmap)
    (fun order' hu => ?_)
  · replace hu : Function.update s.orderLock order (some t) order' = some u := hu
    rw [Function.update_apply] at hu
    split at hu
    · exact .inr (Option.some.inj hu).symm
    · exact .inl hu
  · replace hu : Function.update s.orderLock order (some t) order' = some t := hu
    rw [Function.update_apply] at hu
    split at hu
    · rename_i heq
      rw [heq]
      exact horder
    · exact absurd hu (h.orderLock_ne hp order')

/-- Giving it back. -/
theorem LocksHeld.unlockOrder (h : LocksHeld s) {order : Nat}
    (hp : (s.threads t).holdsOrder = some order) (hmap : s.lock = some t → p.holdsMap = true)
    (orders : Nat → Option (SharedOrder ρ)) :
    LocksHeld ({ s with
      orders := orders
      orderLock := Function.update s.orderLock order none }.moveTo t p) := by
  have hleft : ∀ order' u, Function.update s.orderLock order none order' = some u →
      order' ≠ order ∧ s.orderLock order' = some u := by
    intro order' u hu
    rw [Function.update_apply] at hu
    split at hu
    · cases hu
    · exact ⟨‹_›, hu⟩
  refine h.moveTo rfl (fun _ hu => .inl hu) (fun order' u hu => .inl (hleft order' u hu).2) hmap
    (fun order' hu => ?_)
  -- the thread had no other
  obtain ⟨hne, hu⟩ := hleft order' t hu
  rw [h.orderLock order' t hu] at hp
  exact absurd (Option.some.inj hp) hne

theorem LocksHeld.go (h : LocksHeld s) (hs : s.go R t = some s') : LocksHeld s' := by
  unfold SharedTracker.go at hs
  cases hp : s.threads t <;> rw [hp] at hs
  case idle => cases hs
  case reading => cases hs
  case locking call =>
    obtain ⟨hfree, hs⟩ := Option.ite_none_right_eq_some.mp hs
    obtain rfl := Option.some.inj hs
    refine h.moveTo rfl (fun u hu => .inr (Option.some.inj hu).symm) (fun _ _ hu => .inl hu)
      (fun _ => rfl) (fun order hu => absurd hu (h.orderLock_ne ?_ order))
    rw [hp]
    rfl
  case holding call =>
    obtain ⟨s₁, p, rfl, hthreads, hlock, horder, hmap, hnone⟩ := underLock_frame hs
    refine h.moveTo hthreads (fun u hu => .inl (hlock ▸ hu)) (fun o u hu => .inl (horder o u hu))
      (fun _ => hmap) (fun o hu => absurd (horder o t hu) (h.orderLock_ne ?_ o))
    rw [hp]
    rfl
  case lockingUpdate id r order =>
    obtain ⟨-, hs⟩ := Option.ite_none_right_eq_some.mp hs
    obtain rfl := Option.some.inj hs
    exact h.lockOrder (by rw [hp]; rfl) rfl rfl
  case lockingAccess id order =>
    obtain ⟨-, hs⟩ := Option.ite_none_right_eq_some.mp hs
    obtain rfl := Option.some.inj hs
    exact h.lockOrder (by rw [hp]; rfl) rfl rfl
  case updating id r order =>
    obtain ⟨o, -, hs⟩ := Option.bind_eq_some_iff.mp hs
    obtain ⟨o', -, rfl⟩ := Option.map_eq_some_iff.mp hs
    exact h.unlockOrder (by rw [hp]; rfl) (fun _ => rfl) _
  case opened id order =>
    obtain rfl := Option.some.inj hs
    refine h.moveTo rfl (fun u hu => nomatch hu) (fun _ _ hu => .inl hu) (fun hu => nomatch hu)
      (fun order' hu => ?_)
    have hmine := h.orderLock order' t hu
    rw [hp] at hmine
    exact hmine
  case releasing =>
    obtain rfl := Option.some.inj hs
    refine h.moveTo rfl (fun u hu => nomatch hu) (fun _ _ hu => .inl hu) (fun hu => nomatch hu)
      (fun order' hu => absurd hu (h.orderLock_ne ?_ order'))
    rw [hp]
    rfl

theorem LocksHeld.step (h : LocksHeld s) {a : TrackAct ρ} (hs : trackStep R s a = some s') :
    LocksHeld s' := by
  cases a with
  | call t c =>
      simp only [trackStep] at hs
      split at hs
      · rename_i hp
        obtain rfl := Option.some.inj hs
        refine h.moveTo rfl (fun _ hu => .inl hu) (fun _ _ hu => .inl hu)
          (fun hu => absurd hu (h.lock_ne ?_)) (fun o hu => absurd hu (h.orderLock_ne ?_ o))
        · rw [hp]
          rfl
        · rw [hp]
          rfl
      · cases hs
  | go t => exact h.go hs
  | read t f =>
      simp only [trackStep] at hs
      split at hs
      · rename_i id order reads hp
        obtain rfl := Option.some.inj hs
        refine h.moveTo rfl (fun _ hu => .inl hu) (fun _ _ hu => .inl hu)
          (fun hu => absurd hu (h.lock_ne ?_)) (fun order' hu => ?_)
        · rw [hp]
          rfl
        · have hmine := h.orderLock order' t hu
          rw [hp] at hmine
          exact hmine
      · cases hs
  | close t =>
      simp only [trackStep] at hs
      split at hs
      · rename_i id order reads hp
        obtain rfl := Option.some.inj hs
        refine h.unlockOrder (by rw [hp]; rfl) (fun hu => absurd hu (h.lock_ne ?_)) _
        rw [hp]
        rfl
      · cases hs

theorem locksHeld_newTracker : LocksHeld (newTracker ρ) := by
  constructor
  · intro t ht
    cases ht
  · intro order t ht
    cases ht

/-! ## Who waits for whom

The order of the locks is read off the places: no thread that waits for the map's lock has an
order's. A chain of waiting threads is therefore two long at most. -/

/-- The thread that holds the lock a thread is waiting for. -/
inductive WaitsFor (s : SharedTracker ρ) (t u : Nat) : Prop
  | map {call : TrackerCall ρ} (hp : s.threads t = .locking call) (hlock : s.lock = some u)
  | update {id : Str} {r : ρ} {order : Nat} (hp : s.threads t = .lockingUpdate id r order)
      (hlock : s.orderLock order = some u)
  | access {id : Str} {order : Nat} (hp : s.threads t = .lockingAccess id order)
      (hlock : s.orderLock order = some u)

/-- Where no lock holds a thread up. -/
inductive Unblocked (R : ResponseReader ρ) (s : SharedTracker ρ) (t : Nat) : Prop
  | goes (h : (s.go R t).isSome = true)
  /-- its access can be closed at any time -/
  | opened {id : Str} {order : Nat} {reads : List (Option ρ)}
      (hp : s.threads t = .reading id order reads)
  /-- the parser does not return, or the id of an access is not in the map -/
  | stuck {call : TrackerCall ρ} (hp : s.threads t = .holding call)
      (h : s.underLock R t call = none)
  | parsing {id : Str} {r : ρ} {order : Nat} {o : SharedOrder ρ}
      (hp : s.threads t = .updating id r order) (ho : s.orders order = some o)
      (h : o.registerResponse R r = none)

/-- Such a thread waits for nobody. -/
theorem Unblocked.not_waitsFor (h : Unblocked R s t) : ¬ WaitsFor s t u := by
  intro hw
  cases h with
  | goes hgo =>
      unfold SharedTracker.go at hgo
      cases hw with
      | map hp hlock | update hp hlock | access hp hlock =>
          rw [hp] at hgo
          dsimp only at hgo
          rw [hlock, if_neg nofun] at hgo
          cases hgo
  | opened hq =>
      cases hw with
      | map hp _ | update hp _ | access hp _ => cases hq.symm.trans hp
  | stuck hq _ =>
      cases hw with
      | map hp _ | update hp _ | access hp _ => cases hq.symm.trans hp
  | parsing hq _ _ =>
      cases hw with
      | map hp _ | update hp _ | access hp _ => cases hq.symm.trans hp

/-- An order's lock that a thread waits for under the map's lock is with an open access. -/
theorem LocksHeld.unblocked_of_orderLock (h : LocksHeld s) (hI : TrackInv s)
    (hmap : (s.threads t).holdsMap = true) (hnone : (s.threads t).holdsOrder = none) {order : Nat}
    (hlock : s.orderLock order = some u) : Unblocked R s u := by
  have hu := h.orderLock order u hlock
  have hne : u ≠ t := by
    rintro rfl
    rw [hnone] at hu
    cases hu
  have hother := hI.not_holdsMap ((hI.threads t).held hmap) hne
  cases hp : s.threads u <;> rw [hp] at hu hother
  case reading id order' reads => exact .opened hp
  case updating => cases hother
  case opened => cases hother
  all_goals cases hu

/-- What holds up a thread that has the map's lock. -/
theorem LocksHeld.ends_of_holdsMap (h : LocksHeld s) (hI : TrackInv s)
    (hmap : (s.threads t).holdsMap = true) :
    ∃ u, Relation.ReflTransGen (WaitsFor s) t u ∧ Unblocked R s u := by
  cases hp : s.threads t
  case idle =>
    rw [hp] at hmap
    cases hmap
  case locking =>
    rw [hp] at hmap
    cases hmap
  case reading =>
    rw [hp] at hmap
    cases hmap
  case holding call =>
    refine ⟨t, .refl, ?_⟩
    cases hs : s.underLock R t call with
    | none => exact .stuck hp hs
    | some s' =>
        apply Unblocked.goes
        rw [SharedTracker.go, hp]
        exact Option.isSome_iff_exists.mpr ⟨s', hs⟩
  case lockingUpdate id r order =>
    cases hlock : s.orderLock order with
    | none =>
        refine ⟨t, .refl, .goes ?_⟩
        rw [SharedTracker.go, hp]
        dsimp only
        rw [if_pos hlock]
        rfl
    | some u =>
        refine ⟨u, .single (.update hp hlock), ?_⟩
        exact h.unblocked_of_orderLock hI hmap (by rw [hp]; rfl) hlock
  case lockingAccess id order =>
    cases hlock : s.orderLock order with
    | none =>
        refine ⟨t, .refl, .goes ?_⟩
        rw [SharedTracker.go, hp]
        dsimp only
        rw [if_pos hlock]
        rfl
    | some u =>
        refine ⟨u, .single (.access hp hlock), ?_⟩
        exact h.unblocked_of_orderLock hI hmap (by rw [hp]; rfl) hlock
  case updating id r order =>
    have hentry := (hI.threads t).entry id order (by rw [hp]; rfl)
    obtain ⟨o, ho⟩ := Option.isSome_iff_exists.mp (hI.heap.alive id order hentry).2
    refine ⟨t, .refl, ?_⟩
    cases hs : o.registerResponse R r with
    | none => exact .parsing hp ho hs
    | some o' =>
        apply Unblocked.goes
        rw [SharedTracker.go, hp]
        dsimp only
        rw [ho, Option.bind_some, hs]
        rfl
  case opened id order =>
    refine ⟨t, .refl, .goes ?_⟩
    rw [SharedTracker.go, hp]
    rfl
  case releasing =>
    refine ⟨t, .refl, .goes ?_⟩
    rw [SharedTracker.go, hp]
    rfl

theorem LocksHeld.ends (h : LocksHeld s) (hI : TrackInv s) (hbusy : s.threads t ≠ .idle) :
    ∃ u, Relation.ReflTransGen (WaitsFor s) t u ∧ Unblocked R s u := by
  cases hp : s.threads t
  case idle => exact absurd hp hbusy
  case reading id order reads => exact ⟨t, .refl, .opened hp⟩
  case locking call =>
    cases hlock : s.lock with
    | none =>
        refine ⟨t, .refl, .goes ?_⟩
        rw [SharedTracker.go, hp]
        dsimp only
        rw [if_pos hlock]
        rfl
    | some v =>
        obtain ⟨u, hpath, hu⟩ := h.ends_of_holdsMap (R := R) hI (h.lock v hlock)
        exact ⟨u, .head (.map hp hlock) hpath, hu⟩
  all_goals exact h.ends_of_holdsMap hI (by rw [hp]; rfl)

/-- **No deadlock** between threads that make no call while they have an access open. In every run
in which no entry is replaced under an open access, the threads that wait for each other lead from
any thread in a call to one that waits for nobody: it can take a step, or its access is open, or its
call does not return. -/
theorem tracker_progress (h : Reach (trackStep R) (Undisturbed R) (newTracker ρ) s)
    (hbusy : s.threads t ≠ .idle) :
    ∃ u, Relation.ReflTransGen (WaitsFor s) t u ∧ Unblocked R s u ∧ ∀ v, ¬ WaitsFor s u v := by
  have hboth : TrackInv s ∧ LocksHeld s := by
    apply h.invariant (I := fun s => TrackInv s ∧ LocksHeld s)
    · exact ⟨trackInv_newTracker, locksHeld_newTracker⟩
    · rintro s a s' ⟨hI, hL⟩ hok hs
      exact ⟨trackInv_step hI hok hs, hL.step hs⟩
  obtain ⟨u, hpath, hu⟩ := hboth.2.ends hboth.1 hbusy
  exact ⟨u, hpath, hu, fun v => hu.not_waitsFor⟩

/-- An update waits for an open access, and a removal for the update. -/
theorem tracker_progress_removal :
    ∃ s, Reach (trackStep documentReader) (Undisturbed documentReader) (newTracker _) s ∧
      s.threads 2 = .locking (.removeOrderResponse ['a']) ∧
      ∃ u, Relation.ReflTransGen (WaitsFor s) 2 u ∧ Unblocked documentReader s u ∧
        ∀ v, ¬ WaitsFor s u v := by
  obtain ⟨s, hrun, hp⟩ : ∃ s, runFrom (fun s a => if quietTest documentReader s a then
        trackStep documentReader s a else none) (newTracker _)
        (openedRun ++ [.call 0 (.updateOrderResponse ['a'] secondAnswer), .go 0, .go 0,
          .call 2 (.removeOrderResponse ['a'])]) = some s ∧
      s.threads 2 = .locking (.removeOrderResponse ['a']) := ⟨_, rfl, rfl⟩
  have h : Reach (trackStep documentReader) (Undisturbed documentReader) (newTracker _) s :=
    Reach.of_runFrom (fun _ _ => undisturbed_of_quietTest) .refl hrun
  exact ⟨s, h, hp, tracker_progress h (by rw [hp]; nofun)⟩

end AstraConnect.Order
