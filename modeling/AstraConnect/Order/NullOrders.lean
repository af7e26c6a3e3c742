import AstraConnect.Order.TrackerEntries

set_option autoImplicit false

/-! # Null pointers in the tracker

`getOrderTypeStatus` and `getOrderStatusint` ask whether the map contains the id. `getLock` and
`getOrderPtr` do not: for an unknown id they insert a null pointer and dereference it, and the
lookups after them find the id in the map. All getters go through `getOrderPtr`. After a failed
`registerOrderSent` the order is there but its wrapper is null, which `getAccountInfo` does not ask.

In a run from the empty tracker nothing of this happens if and only if each lookup that does not ask
is about an order in the map, with a wrapper if it is `getAccountInfo` (`null_free_iff`).
-/

namespace AstraConnect.Tracker

open AstraConnect.Order Transition

/-! ## Safe calls

Where no pointer is null, a call can only go wrong over its own id. So it is enough to look at one
call and to show that a safe one leaves no null pointer behind. -/

def NoNull (m : OrderMap) : Prop := ∀ id, m id ≠ some none

def SameKeys (m m' : OrderMap) : Prop := ∀ id, (m' id).isSome = (m id).isSome

/-- What a call leaves and how it ends has nothing to do with null. -/
structure NullSafe (isDouble : Str → Bool) (m : OrderMap) (c : Call) : Prop where
  noNull : NoNull (c.run isDouble m).1
  keys : ∀ l id, c = .lookup l id → SameKeys m (c.run isDouble m).1
  order : (c.run isDouble m).2 ≠ .error .nullOrder
  wrapper : (c.run isDouble m).2 ≠ .error .nullWrapper

/-- A lookup that does not ask for the id finds an order, and `getAccountInfo` one with a
wrapper. -/
def Guarded (m : OrderMap) : Call → Prop
  | .lookup l id =>
      (l.asks = false → (m id).isSome) ∧
        (l = .getAccountInfo → ∀ o, m id = some (some o) → o.wrapper ≠ none)
  | _ => True

section Null

variable {isDouble : Str → Bool} {m : OrderMap}

theorem NoNull.set (h : NoNull m) (id : Str) (o : Order) : NoNull (m.set id o) := by
  intro id'
  by_cases hid : id' = id
  · subst hid
    rw [set_self]
    simp
  · rw [set_of_ne m o hid]
    exact h id'

theorem NoNull.removeOrderResponse (h : NoNull m) (id : Str) :
    NoNull (m.removeOrderResponse id) := by
  intro id'
  by_cases hid : id' = id
  · subst hid
    rw [OrderMap.removeOrderResponse, Function.update_self]
    simp
  · rw [OrderMap.removeOrderResponse, Function.update_of_ne hid]
    exact h id'

/-- How a write ends that finds an order, or makes one. -/
def WriteEnd (m : OrderMap) (r : OrderMap × Except Fault Unit) : Prop :=
  (r.1 = m ∨ ∃ id o, r.1 = m.set id o) ∧ ∃ e : Exec Unit, r.2 = e.mapError .stop

theorem writeEnd_registerOrderResponse (m : OrderMap) (id : Str) (type : OrderTypeSent)
    (doc : JsonTree) : WriteEnd m (m.registerOrderResponse id isDouble type doc) := by
  rw [OrderMap.registerOrderResponse]
  cases Order.ofResponse isDouble id type doc with
  | ok o => exact ⟨Or.inr ⟨id, o, rfl⟩, .ok (), rfl⟩
  | error stop => exact ⟨Or.inl rfl, .error stop, rfl⟩

/-- A write where no pointer is null puts an order there, or leaves the map. -/
theorem Write.writeEnd (isDouble : Str → Bool) (h : NoNull m) (w : Write) :
    WriteEnd m (w.run isDouble m) := by
  cases w with
  | registerOrderSent id sent doc =>
      rw [Write.run, registerOrderSent_eq]
      exact ⟨Or.inr ⟨id, _, rfl⟩, _, rfl⟩
  | registerOrderResponse id type doc => exact writeEnd_registerOrderResponse m id type doc
  | updateOrderResponse id type doc =>
      rw [Write.run]
      rcases hm : m id with - | - | o
      · rw [updateOrderResponse_of_none hm]
        exact writeEnd_registerOrderResponse m id type doc
      · exact absurd hm (h id)
      · rw [updateOrderResponse_of_some hm]
        exact ⟨Or.inr ⟨id, _, rfl⟩, _, rfl⟩

theorem mapError_stop_ne (e : Exec Unit) :
    e.mapError Fault.stop ≠ .error .nullOrder ∧ e.mapError Fault.stop ≠ .error .nullWrapper := by
  cases e <;> simp [Except.mapError]

theorem Write.nullSafe (h : NoNull m) (w : Write) : NullSafe isDouble m (.write w) := by
  obtain ⟨hmap, e, he⟩ := Write.writeEnd isDouble h w
  obtain ⟨horder, hwrapper⟩ := mapError_stop_ne e
  refine ⟨?_, fun l id hl => (nomatch hl), ?_, ?_⟩
  · show NoNull (w.run isDouble m).1
    rcases hmap with hmap | ⟨id, o, hmap⟩
    · rwa [hmap]
    · rw [hmap]
      exact h.set id o
  · show (w.run isDouble m).2 ≠ _
    rwa [he]
  · show (w.run isDouble m).2 ≠ _
    rwa [he]

/-- A lookup that returns and leaves the map is safe. -/
theorem Lookup.nullSafe_of_returns (h : NoNull m) {l : Lookup} {id : Str}
    (hend : l.run m id = (m, .ok ())) : NullSafe isDouble m (.lookup l id) := by
  have hrun : Call.run isDouble m (.lookup l id) = (m, .ok ()) := hend
  refine ⟨?_, fun l' id' _ id'' => ?_, ?_, ?_⟩
  · rwa [hrun]
  · rw [hrun]
  · rw [hrun]
    simp
  · rw [hrun]
    simp

/-- A lookup where no pointer is null. -/
theorem Lookup.nullSafe_iff (h : NoNull m) (l : Lookup) (id : Str) :
    NullSafe isDouble m (.lookup l id) ↔ Guarded m (.lookup l id) := by
  rcases hm : m id with - | - | o
  · -- without an order, only the lookups that ask return
    have hd : (m.deref id).2 = .error .nullOrder := by rw [deref_of_none hm]
    by_cases hasks : l.asks = true
    · have hend : l.run m id = (m, .ok ()) := by
        rw [l.run_of_no_order hd, if_pos ⟨hasks, hm⟩]
      refine iff_of_true (nullSafe_of_returns h hend) ⟨fun hno => ?_, fun _ o ho => ?_⟩
      · rw [hasks] at hno
        cases hno
      · rw [hm] at ho
        cases ho
    · have hend : (l.run m id).2 = .error .nullOrder := by
        rw [l.run_of_no_order hd, if_neg (fun hand => hasks hand.1)]
      refine iff_of_false (fun hsafe => hsafe.order hend) (fun hguard => ?_)
      have hsome := hguard.1 (Bool.eq_false_iff.mpr hasks)
      rw [hm] at hsome
      cases hsome
  · exact absurd hm (h id)
  · have hend := l.run_of_some hm
    by_cases hnone : l = .getAccountInfo ∧ o.wrapper = none
    · rw [if_pos hnone] at hend
      have hfault : (l.run m id).2 = .error .nullWrapper := by rw [hend]
      exact iff_of_false (fun hsafe => hsafe.wrapper hfault)
        (fun hguard => hguard.2 hnone.1 o hm hnone.2)
    · rw [if_neg hnone] at hend
      refine iff_of_true (nullSafe_of_returns h hend) ⟨fun _ => ?_, fun hl o' ho hw => ?_⟩
      · rw [hm]
        rfl
      · rw [hm] at ho
        obtain rfl := Option.some.inj (Option.some.inj ho)
        exact hnone ⟨hl, hw⟩

/-- **One call.** Where no pointer is null, a call is safe exactly when it is guarded. -/
theorem nullSafe_iff (h : NoNull m) (c : Call) : NullSafe isDouble m c ↔ Guarded m c := by
  cases c with
  | write w => exact iff_of_true (Write.nullSafe h w) trivial
  | removeOrderResponse id =>
      refine iff_of_true ⟨h.removeOrderResponse id, fun l id hl => (nomatch hl), ?_, ?_⟩ trivial
      · simp [Call.run]
      · simp [Call.run]
  | lookup l id => exact Lookup.nullSafe_iff h l id

end Null

/-- **Null never gets into the tracker exactly when the lookups are guarded.** In a run from the
empty tracker, every pointer in the map stays non-null, no lookup changes the set of ids and nothing
dereferences a null order or a null wrapper, if and only if each lookup that does not ask for the id
comes when the id has an order, and `getAccountInfo` when that order has a wrapper. -/
theorem null_free_iff (isDouble : Str → Bool) (calls : List Call) :
    EachStep (track isDouble) (NullSafe isDouble) noOrders calls ↔
      EachStep (track isDouble) Guarded noOrders calls := by
  have hempty : NoNull noOrders := fun id h => nomatch h
  refine EachStep.congr (I := NoNull) hempty (fun m c h => nullSafe_iff h c) ?_
  intro m c m' _ hsafe htrack
  rw [track_eq htrack]
  exact hsafe.noNull

/-- `getLock` of an id that was never registered makes `getOrderStatusint` dereference null, and
`getAccountInfo` of a request that failed dereferences the null wrapper. -/
theorem unknown_id_inserts_null :
    let id : Str := "a".toList
    let locked := (Call.lookup .getLock id).run (fun _ => true) noOrders
    let failed := (Call.write (.registerOrderSent id {} (.obj []))).run (fun _ => true) noOrders
    locked.1 id = some none ∧ locked.2 = .error .nullOrder ∧
      ((Call.lookup .getOrderStatusint id).run (fun _ => true) locked.1).2 = .error .nullOrder ∧
      failed.2 = .error (.stop .throws) ∧
      ((Call.lookup .getAccountInfo id).run (fun _ => true) failed.1).2 = .error .nullWrapper :=
  ⟨rfl, rfl, rfl, rfl, rfl⟩

end AstraConnect.Tracker
