import AstraConnect.Order.TrackerEntries

set_option autoImplicit false

/-! # Writes to the tracker that fail

`registerOrderResponse` builds the whole order first, so it changes the map only when it returns.
The other two writers change the entry and then read the document, which may throw at its status,
at its error or at its result.

A failed write leaves the records as they were, and no order without type and status, if and only
if the document can be registered, or there is nothing to overwrite, or what is overwritten is the
same already (`failed_writes_iff`).
-/

namespace AstraConnect.Tracker

open AstraConnect.Order Transition

/-! ## What a document needs

`Registrable` is a condition on the document and the type alone. It is the end of the constructor
of `OrderResponsePtrWrapper`, written as what must be there. -/

/-- The rate limits up to the ninth can be read, at which the ring is full. -/
def RatesReadable (doc : JsonTree) : Prop :=
  ∃ rates, (doc.get "rateLimits".toList).bind JsonTree.getArray = some rates ∧
    ∀ rate ∈ rates.take (rateLimitCapacity + 1), RateNumbers rate

/-- Registering the document as a response of the type does not throw. A status other than 200
needs an error with a code; a result is needed by the classes that do not catch. -/
def Registrable (isDouble : Str → Bool) (type : OrderTypeSent) (doc : JsonTree) : Prop :=
  ∃ status, statusOf doc = some status ∧
    (status ≠ 200 → HasErrorCode doc) ∧
    ∀ kind, status = 200 → type = .of kind → kind.catches = false →
      ReadableBefore isDouble doc kind ∧ RatesReadable doc

section Throws

variable {isDouble : Str → Bool} {doc : JsonTree}

/-- Reading rate limits throws unless each one up to the one that finds no room can be read. -/
theorem addRateLimits_throws_iff (rates : List JsonTree) (queued : Nat)
    (hq : queued ≤ rateLimitCapacity) :
    addRateLimits rates queued = .error .throws ↔
      ¬ ∀ rate ∈ rates.take (rateLimitCapacity + 1 - queued), ReadableRate rate := by
  induction rates generalizing queued with
  | nil => simp [addRateLimits]
  | cons rate rest ih =>
      rw [take_rates rate rest hq, List.forall_mem_cons]
      by_cases hrate : ReadableRate rate
      · rw [addRateLimits_of_readable hrate, and_iff_right hrate]
        split_ifs with hlt
        · have hshift : rateLimitCapacity + 1 - (queued + 1) = rateLimitCapacity - queued := by
            omega
          rw [ih (queued + 1) hlt, hshift]
        · obtain rfl : queued = rateLimitCapacity := by omega
          simp
      · rw [addRateLimits_of_not_readable hrate]
        exact iff_of_true rfl (fun h => hrate h.1)

theorem readRateLimits_throws_iff (doc : JsonTree) :
    readRateLimits doc = .error .throws ↔ ¬ RatesReadable doc := by
  unfold readRateLimits RatesReadable
  simp only [← readableRate_iff]
  cases hrates : (doc.get "rateLimits".toList).bind JsonTree.getArray with
  | none => exact iff_of_true rfl (fun h => by simp at h)
  | some rates =>
      have hread := addRateLimits_throws_iff rates 0 (Nat.zero_le _)
      rw [valueOf_some_bind, hread]
      simp

theorem constructResponse_throws_iff (kind : ResponseKind) :
    constructResponse isDouble kind doc = .error .throws ↔
      kind.catches = false ∧ ¬ (ReadableBefore isDouble doc kind ∧ RatesReadable doc) := by
  have hends : (parseFields isDouble kind doc).2 = .error .throws ↔
      ¬ (ReadableBefore isDouble doc kind ∧ RatesReadable doc) := by
    have hbefore := readBefore_ne_waits isDouble doc kind
    rw [← readBefore_ok_iff, parseFields]
    rcases h : readBefore isDouble doc kind with ⟨r, (_ | _) | _⟩
    · simp
    · rw [h] at hbefore
      exact absurd rfl hbefore
    · simp only [true_and]
      exact readRateLimits_throws_iff doc
  rw [← hends, constructResponse]
  rcases parseFields isDouble kind doc with ⟨r, (_ | _) | _⟩
  · cases kind.catches <;> simp
  · simp
  · simp

/-- The error of a response can be read when it has a code. -/
theorem error_throws_iff {α : Type} (f : List (Str × JsonTree) → Int → α) :
    (do
      let obj ← valueOf ((doc.get "error".toList).bind JsonTree.getObject)
      let code ← valueOf ((JsonTree.findField obj "code".toList).bind JsonTree.getInt64)
      return f obj code : Exec α) = .error .throws ↔ ¬ HasErrorCode doc := by
  have hcode : HasErrorCode doc ↔ ∃ obj,
      (doc.get "error".toList).bind JsonTree.getObject = some obj ∧
        ((JsonTree.findField obj "code".toList).bind JsonTree.getInt64).isSome := by
    refine exists_congr fun obj => and_congr_right fun _ => ?_
    have hkeys := readInts_ok_iff obj ["code".toList] []
    simp only [List.map_cons, List.map_nil, List.forall_mem_singleton] at hkeys
    rw [readFields, bind_eq_ok_iff, ← hkeys]
    exact exists_congr fun text => and_iff_left rfl
  rw [hcode]
  cases (doc.get "error".toList).bind JsonTree.getObject with
  | none => simp [valueOf, bind, Except.bind]
  | some obj =>
      simp only [valueOf_some_bind, Option.some.injEq, exists_eq_left']
      cases (JsonTree.findField obj "code".toList).bind JsonTree.getInt64 <;>
        simp [valueOf, bind, Except.bind, pure, Except.pure]

/-- **A wrapper is not built exactly when the document cannot be registered.** -/
theorem makeWrapper_throws_iff (isDouble : Str → Bool) (type : OrderTypeSent) (doc : JsonTree) :
    makeWrapper isDouble type doc = .error .throws ↔ ¬ Registrable isDouble type doc := by
  unfold Registrable
  cases hst : statusOf doc with
  | none =>
      refine iff_of_true ?_ (by simp)
      cases type <;> simp [makeWrapper, constructWrapper, hst, valueOf, bind, Except.bind]
  | some status =>
      by_cases h200 : status = 200
      · subst h200
        cases type with
        | NONE =>
            refine iff_of_false ?_ (by simp)
            simp [makeWrapper, hst, valueOf, bind, Except.bind, pure, Except.pure]
        | of kind =>
            have hmap : makeWrapper isDouble (.of kind) doc = .error .throws ↔
                constructResponse isDouble kind doc = .error .throws := by
              rw [makeWrapper, constructWrapper_of_200 isDouble kind hst]
              cases constructResponse isDouble kind doc <;> simp [Except.map]
            rw [hmap, constructResponse_throws_iff]
            simp
      · have herror : makeWrapper isDouble type doc = .error .throws ↔ ¬ HasErrorCode doc := by
          cases type with
          | NONE =>
              rw [makeWrapper, hst, valueOf_some_bind, if_neg h200]
              exact error_throws_iff _
          | of kind =>
              rw [makeWrapper, constructWrapper, hst, valueOf_some_bind, if_neg h200]
              exact error_throws_iff _
        rw [herror]
        simp [h200]

end Throws

/-! ## What a failed write may leave

The two writers that read the document after they have changed the entry leave a trace when it
throws, unless the entry said the same before. A wrapper that was there stays, under the new type
and status. -/

/-- What is recorded for an id. -/
def Order.recorded (o : Order) :
    Option OrderTypeSent × Option Int × Option OrderResponsePtrWrapper :=
  (o.type, o.status, o.wrapper)

/-- The same ids, and for each one the same type, status and stored response. -/
def SameRecords (m m' : OrderMap) : Prop :=
  ∀ id, (m' id).map (·.map Order.recorded) = (m id).map (·.map Order.recorded)

/-- The order has a type or a status that was never assigned. -/
def Unassigned (m : OrderMap) (id : Str) : Prop :=
  ∃ o, m id = some (some o) ∧ (o.type = none ∨ o.status = none)

/-- A write that throws changes no record, and no write leaves an order without type or status
where there was none. -/
structure FailsCleanly (m : OrderMap) (r : OrderMap × Except Fault Unit) : Prop where
  unchanged : r.2 = .error (.stop .throws) → SameRecords m r.1
  assigned : ∀ id, Unassigned r.1 id → Unassigned m id

/-- The write does not throw, or it does so before it changes the map, or what it has overwritten
by then is the same already. -/
def Traceless (isDouble : Str → Bool) (m : OrderMap) : Write → Prop
  | .registerOrderSent id _ doc =>
      Registrable isDouble (.of .NEW) doc ∨
        ∃ o, m id = some (some o) ∧ o.recorded = (some (.of .NEW), statusOf doc, none)
  | .registerOrderResponse _ _ _ => True
  | .updateOrderResponse id type doc =>
      Registrable isDouble type doc ∨
        ∀ o, m id = some (some o) → o.type = some type ∧
          ∀ status, statusOf doc = some status → o.status = some status

section Fail

variable {isDouble : Str → Bool} {m : OrderMap} {id : Str} {o : Order} {type : OrderTypeSent}
  {doc : JsonTree}

theorem sameRecords_set_iff :
    SameRecords m (m.set id o) ↔
      ∃ o', m id = some (some o') ∧ o'.recorded = o.recorded := by
  constructor
  · intro h
    have hid := h id
    rw [set_self, Option.map_some, Option.map_some] at hid
    rcases hm : m id with - | - | o'
    · simp [hm] at hid
    · simp [hm] at hid
    · rw [hm] at hid
      exact ⟨o', rfl, by simpa using hid.symm⟩
  · rintro ⟨o', hm, hsame⟩ id'
    by_cases hid : id' = id
    · subst hid
      rw [set_self, hm]
      simp [hsame]
    · rw [set_of_ne m o hid]

theorem Unassigned.of_set {id' : Str} (h : Unassigned (m.set id o) id') :
    (id' = id ∧ (o.type = none ∨ o.status = none)) ∨ Unassigned m id' := by
  obtain ⟨o', hm, hnone⟩ := h
  by_cases hid : id' = id
  · subst hid
    rw [set_self] at hm
    obtain rfl := Option.some.inj (Option.some.inj hm)
    exact Or.inl ⟨rfl, hnone⟩
  · rw [set_of_ne m o hid] at hm
    exact Or.inr ⟨o', hm, hnone⟩

/-- Overwriting an order is a clean failure exactly when the old one had the same record. -/
theorem failsCleanly_set_iff {r : Except Fault Unit}
    (hassigned : r ≠ .error (.stop .throws) → o.type ≠ none ∧ o.status ≠ none) :
    FailsCleanly m (m.set id o, r) ↔
      (r = .error (.stop .throws) → ∃ o', m id = some (some o') ∧ o'.recorded = o.recorded) := by
  constructor
  · intro h hr
    exact sameRecords_set_iff.mp (h.unchanged hr)
  · intro h
    refine ⟨fun hr => sameRecords_set_iff.mpr (h hr), fun id' hun => ?_⟩
    rcases hun.of_set with ⟨rfl, hnone⟩ | hun
    · by_cases hr : r = .error (.stop .throws)
      · obtain ⟨o', hm, hsame⟩ := h hr
        simp only [Order.recorded, Prod.mk.injEq] at hsame
        obtain ⟨htype, hstatus, -⟩ := hsame
        exact ⟨o', hm, by rwa [htype, hstatus]⟩
      · obtain ⟨htype, hstatus⟩ := hassigned hr
        rcases hnone with hnone | hnone
        · exact absurd hnone htype
        · exact absurd hnone hstatus
    · exact hun

theorem mapError_stop_eq_iff {e : Exec Unit} {stop : Stop} :
    e.mapError Fault.stop = .error (.stop stop) ↔ e = .error stop := by
  cases e <;> simp [Except.mapError]

/-- A response leaves the new wrapper, or else the old one under the new type and status. -/
theorem failsCleanly_register_iff :
    FailsCleanly m (m.set id (o.registerResponse isDouble id type doc).1,
        (o.registerResponse isDouble id type doc).2.mapError .stop) ↔
      Registrable isDouble type doc ∨ ∃ o', m id = some (some o') ∧
        o'.recorded = (some type, (statusOf doc).or o.status, o.wrapper) := by
  have hthrows := makeWrapper_throws_iff isDouble type doc
  by_cases hreg : Registrable isDouble type doc
  · obtain ⟨htype, hstatus, hend⟩ :=
      registerResponse_assigns id o (fun hw => hthrows.mp hw hreg)
    refine iff_of_true ((failsCleanly_set_iff fun _ => ⟨htype, hstatus⟩).mpr fun he => ?_)
      (Or.inl hreg)
    exact absurd (mapError_stop_eq_iff.mp he) hend
  · rw [registerResponse_of_error (hthrows.mpr hreg), or_iff_right hreg]
    refine (failsCleanly_set_iff (fun h => absurd rfl h)).trans ?_
    exact imp_iff_right rfl

theorem failsCleanly_self (m : OrderMap) (r : Except Fault Unit) : FailsCleanly m (m, r) :=
  ⟨fun _ _ => rfl, fun _ h => h⟩

/-- A registration builds the order before it touches the map. -/
theorem failsCleanly_registerOrderResponse (m : OrderMap) (id : Str) (type : OrderTypeSent)
    (doc : JsonTree) : FailsCleanly m (m.registerOrderResponse id isDouble type doc) := by
  rw [OrderMap.registerOrderResponse, ofResponse_eq]
  cases hw : makeWrapper isDouble type doc with
  | error stop => exact failsCleanly_self m _
  | ok wrapper =>
      obtain ⟨status, hst⟩ := statusOf_isSome_of_makeWrapper hw
      rw [hst]
      exact (failsCleanly_set_iff (fun _ => ⟨by simp, by simp⟩)).mpr (fun h => absurd h (by simp))

theorem failsCleanly_iff (m : OrderMap) (w : Write) :
    FailsCleanly m (w.run isDouble m) ↔ Traceless isDouble m w := by
  cases w with
  | registerOrderSent id sent doc =>
      rw [Write.run, registerOrderSent_eq, failsCleanly_register_iff, Traceless]
      simp only [Order.ofSent, Option.or_none]
  | registerOrderResponse id type doc =>
      exact iff_of_true (failsCleanly_registerOrderResponse m id type doc) trivial
  | updateOrderResponse id type doc =>
      rw [Write.run, Traceless]
      rcases hm : m id with - | - | o
      · rw [updateOrderResponse_of_none hm]
        exact iff_of_true (failsCleanly_registerOrderResponse m id type doc)
          (Or.inr fun o h => nomatch h)
      · rw [updateOrderResponse_of_null hm]
        exact iff_of_true (failsCleanly_self m _) (Or.inr fun o h => nomatch h)
      · rw [updateOrderResponse_of_some hm, failsCleanly_register_iff, hm]
        refine or_congr_right ?_
        simp only [Option.some.injEq, exists_eq_left', forall_eq', Order.recorded, Prod.mk.injEq,
          and_true]
        refine and_congr_right fun _ => ?_
        cases statusOf doc <;> simp

/-- A call other than a write leaves no order without type or status. -/
theorem Unassigned.of_track {m' : OrderMap} {c : Call} (hwrite : ∀ w, c ≠ .write w)
    (htrack : track isDouble m c = some m') (h : Unassigned m' id) : Unassigned m id := by
  have hkeep : ∀ (id' : Str) (e : Option (Option Order)), (∀ o, e ≠ some (some o)) →
      Unassigned (Function.update m id' e) id → Unassigned m id := by
    rintro id' e he ⟨o, ho, hnone⟩
    by_cases hid : id = id'
    · subst hid
      rw [Function.update_self] at ho
      exact absurd ho (he o)
    · rw [Function.update_of_ne hid] at ho
      exact ⟨o, ho, hnone⟩
  rw [track_eq htrack] at h
  cases c with
  | write w => exact absurd rfl (hwrite w)
  | removeOrderResponse id' => exact hkeep id' none (fun o => by simp) h
  | lookup l id' =>
      rw [Call.run] at h
      rcases hm : m id' with - | - | o
      · rw [l.run_of_no_order (by rw [deref_of_none hm]), deref_of_none hm] at h
        split at h
        · exact h
        · exact hkeep id' (some none) (fun o => by simp) h
      · rw [l.run_of_no_order (by rw [deref_of_null hm]), deref_of_null hm] at h
        split at h <;> exact h
      · rwa [l.run_of_some hm] at h

end Fail

/-- **When a failed write leaves no trace.** A write changes no record when it throws, and leaves no
order without type or status where there was none, if and only if the document can be registered, or
the write builds the whole order first, or what it overwrites is the same already. In every run
whose writes are such, every order has its type and its status. -/
theorem failed_writes_iff (isDouble : Str → Bool) :
    (∀ (m : OrderMap) (w : Write), FailsCleanly m (w.run isDouble m) ↔ Traceless isDouble m w) ∧
      ∀ m, Reach (track isDouble) (fun m c => ∀ w, c = .write w → Traceless isDouble m w)
        noOrders m → ∀ id, ¬ Unassigned m id := by
  refine ⟨failsCleanly_iff, fun m hreach => ?_⟩
  refine Reach.invariant (I := fun m => ∀ id, ¬ Unassigned m id) hreach ?_ ?_
  · rintro id ⟨o, ho, -⟩
    exact nomatch ho
  · intro m c m' hI hok htrack id hun
    by_cases hwrite : ∃ w, c = .write w
    · obtain ⟨w, rfl⟩ := hwrite
      have hclean := (failsCleanly_iff m w).mpr (hok w rfl)
      rw [track_eq htrack] at hun
      exact hI id (hclean.assigned id hun)
    · exact hI id (hun.of_track (fun w he => hwrite ⟨w, he⟩) htrack)

/-- An order that the exchange rejects has its type and its status. -/
theorem failed_writes_iff_rejected :
    ∃ m, track (fun _ => true) noOrders
        (.write (.registerOrderSent "a".toList {} rejectedReply)) = some m ∧
      ¬ Unassigned m "a".toList := by
  have hmeets : ∀ w, Call.write (.registerOrderSent "a".toList {} rejectedReply) = .write w →
      Traceless (fun _ => true) noOrders w := by
    intro w hw
    obtain rfl := Call.write.inj hw
    exact Or.inl ⟨400, rfl, fun _ => ⟨_, rfl, rfl⟩, fun kind h => absurd h (by decide)⟩
  exact ⟨_, rfl, (failed_writes_iff (fun _ => true)).2 _ (Reach.refl.tail hmeets rfl) _⟩

/-- A reply without a status throws and leaves an order without one, and an update without a status
throws and leaves the response of a query as one of a cancellation. -/
theorem statusless_reply_leaves_order :
    let reply : JsonTree := .obj [("id".toList, .str "a".toList)]
    let sent := (Write.registerOrderSent "a".toList {} reply).run (fun _ => true) noOrders
    let queried : OrderMap := noOrders.set "a".toList
      { type := some (.of .QUERY), status := some 400,
        wrapper := some ⟨fun _ => none, some (-2013, [])⟩ }
    let updated := (Write.updateOrderResponse "a".toList (.of .CANCEL) reply).run
      (fun _ => true) queried
    sent.2 = .error (.stop .throws) ∧ ¬ SameRecords noOrders sent.1 ∧
      Unassigned sent.1 "a".toList ∧
      updated.2 = .error (.stop .throws) ∧ ¬ SameRecords queried updated.1 := by
  intro reply sent queried updated
  refine ⟨rfl, fun h => ?_, ⟨_, rfl, Or.inr rfl⟩, rfl, fun h => ?_⟩
  · have hid := h "a".toList
    exact nomatch hid
  · have hid := h "a".toList
    have htype : some (some (some (OrderTypeSent.of .CANCEL))) =
        some (some (some (OrderTypeSent.of .QUERY))) :=
      congrArg (Option.map (Option.map Prod.fst)) hid
    exact absurd htype (by decide)

end AstraConnect.Tracker
