import AstraConnect.Order.HistoryIndependence

set_option autoImplicit false

/-! # Whose response a call reports

`Reports` says that a call returns what its own response says. A new order goes by the status that
it has just registered; the other calls go by the status that the tracker has for the current
request id, which is the one of an earlier request.
-/

namespace AstraConnect.Order

open Transition

/-! ## What a call returns

What is returned, as a function of the status that the call goes by and of whether the ring has
room. The tracker does not occur in it otherwise. -/

/-- The ring of active orders has room. -/
def OrderTracker.HasRoom (t : OrderTracker) : Prop := t.activeOrders.length < activeOrdersCapacity

instance (t : OrderTracker) : Decidable t.HasRoom := inferInstanceAs (Decidable (_ < _))

/-- What `report` returns. -/
def reportOutcome (status : Int) (doc : JsonTree) (room : Prop) [Decidable room] :
    Option RequestStatus :=
  if status = 200 then
    if (OrderStream.orderIdOf doc).isSome then (if room then some .SUCCESS else none)
    else some .FAIL
  else if OrderStream.IsRejection status then some .FAIL
  else some .UNKNOWN

namespace OrderTracker

variable {t : OrderTracker}

theorem queueActiveOrderId_of_room (h : t.HasRoom) (id : Int) :
    t.queueActiveOrderId id = some { t with activeOrders := t.activeOrders ++ [id] } := if_pos h

theorem queueActiveOrderId_of_full (h : ¬ t.HasRoom) (id : Int) :
    t.queueActiveOrderId id = none := if_neg h

end OrderTracker

theorem report_snd (s : OrderStream) (status : Int) (doc : JsonTree) :
    (s.report status doc).2 = reportOutcome status doc s.orderTracker.HasRoom := by
  unfold OrderStream.report reportOutcome
  split_ifs with h200 hid hroom hrej
  · obtain ⟨id, hid⟩ := Option.isSome_iff_exists.mp hid
    simp only [hid, OrderTracker.queueActiveOrderId_of_room hroom]
  · obtain ⟨id, hid⟩ := Option.isSome_iff_exists.mp hid
    simp only [hid, OrderTracker.queueActiveOrderId_of_full hroom]
  · rw [Option.not_isSome_iff_eq_none] at hid
    simp only [hid]
  · rfl
  · rfl

/-- What `handleNew` returns. -/
def newOutcome (doc : JsonTree) (room : Prop) [Decidable room] : Option RequestStatus :=
  match statusOf doc, orderResponsePtrWrapper .NEW doc with
  | none, _ => some .FAIL
  | some _, .error .throws => some .FAIL
  | some _, .error .waits => none
  | some status, .ok _ => reportOutcome status doc room

theorem handleNew_snd (garbage : Int) (s : OrderStream) (doc : JsonTree) :
    (OrderStream.handleNew garbage s doc).2 = newOutcome doc s.orderTracker.HasRoom := by
  simp only [OrderStream.handleNew, OrderTracker.registerOrderSent, newOutcome]
  rcases statusOf doc with - | status
  · rfl
  · rcases orderResponsePtrWrapper .NEW doc with ⟨_ | _⟩ | _
    · rfl
    · rfl
    · simp only [report_snd]
      have hstatus : (s.orderTracker.set s.requestId.request ⟨status⟩).getOrderStatusint
          s.requestId.request = status := by
        simp [OrderTracker.set, OrderTracker.getOrderStatusint]
      rw [hstatus]
      rfl

/-! ## Reading a response does not wait for anything but the rate limits -/

theorem FieldRead.run_ne_waits (obj : List (Str × JsonTree)) (buffer : Str) (read : FieldRead) :
    read.run obj buffer ≠ .error .waits := by
  intro h
  cases read with
  | int64 key =>
      rcases bind_eq_waits_iff.mp h with h | ⟨_, -, h⟩
      · exact valueOf_ne_waits _ h
      · exact nomatch h
  | bool key =>
      rcases bind_eq_waits_iff.mp h with h | ⟨_, -, h⟩
      · exact valueOf_ne_waits _ h
      · exact nomatch h
  | fixed key =>
      rcases bind_eq_waits_iff.mp h with h | ⟨_, -, h⟩
      · exact readFixed_ne_waits _ h
      · exact nomatch h
  | name key names =>
      simp only [FieldRead.run] at h
      split_ifs at h
      exact nomatch h

theorem readFields_ne_waits (obj : List (Str × JsonTree)) (reads : List FieldRead) :
    readFields obj reads ≠ .error .waits := by
  have hfold : ∀ buffer, reads.foldlM (FieldRead.run obj) buffer ≠ .error .waits := by
    induction reads with
    | nil => exact fun buffer h => nomatch h
    | cons read reads ih =>
        intro buffer h
        rw [List.foldlM_cons] at h
        rcases bind_eq_waits_iff.mp h with h | ⟨text, -, h⟩
        · exact FieldRead.run_ne_waits obj buffer read h
        · exact ih text h
  intro h
  rcases bind_eq_waits_iff.mp h with h | ⟨_, -, h⟩
  · exact hfold _ h
  · exact nomatch h

/-- A rate limit that `parseFields` can read. -/
def ReadableRate (rate : JsonTree) : Prop :=
  ∃ obj, rate.getObject = some obj ∧
    readFields obj [.int64 "intervalNum".toList, .int64 "limit".toList, .int64 "count".toList]
      = .ok ()

/-- The response has more rate limits than `rateLimitBuffer` holds, and everything in front of the
ninth can be read. -/
def TooManyRateLimits (doc : JsonTree) : Prop :=
  ∃ obj rates, (doc.get "result".toList).bind JsonTree.getObject = some obj ∧
    readFields obj newOrderReads = .ok () ∧
    (doc.get "rateLimits".toList).bind JsonTree.getArray = some rates ∧
    rateLimitCapacity < rates.length ∧
    ∀ rate ∈ rates.take (rateLimitCapacity + 1), ReadableRate rate

theorem addRateLimits_of_readable {rate : JsonTree} (h : ReadableRate rate)
    (rest : List JsonTree) (queued : Nat) :
    addRateLimits (rate :: rest) queued =
      if queued < rateLimitCapacity then addRateLimits rest (queued + 1) else .error .waits := by
  obtain ⟨obj, hobj, hread⟩ := h
  rw [addRateLimits, hobj]
  simp only [valueOf, bind, Except.bind, hread]

theorem addRateLimits_of_not_readable {rate : JsonTree} (h : ¬ ReadableRate rate)
    (rest : List JsonTree) (queued : Nat) :
    addRateLimits (rate :: rest) queued = .error .throws := by
  rw [addRateLimits]
  cases hobj : rate.getObject with
  | none => rfl
  | some obj =>
      rcases hread : readFields obj [.int64 "intervalNum".toList, .int64 "limit".toList,
        .int64 "count".toList] with (_ | _) | _
      · simp only [valueOf, bind, Except.bind, hread]
      · exact absurd hread (readFields_ne_waits _ _)
      · exact absurd ⟨obj, hobj, hread⟩ h

/-- What the loop has still to read, while the ring has room for more. -/
theorem take_rates (rate : JsonTree) (rest : List JsonTree) {queued : Nat}
    (hq : queued ≤ rateLimitCapacity) :
    (rate :: rest).take (rateLimitCapacity + 1 - queued)
      = rate :: rest.take (rateLimitCapacity - queued) := by
  rw [Nat.succ_sub hq, List.take_succ_cons]

theorem addRateLimits_waits_iff (rates : List JsonTree) (queued : Nat)
    (hq : queued ≤ rateLimitCapacity) :
    addRateLimits rates queued = .error .waits ↔
      rateLimitCapacity - queued < rates.length ∧
        ∀ rate ∈ rates.take (rateLimitCapacity + 1 - queued), ReadableRate rate := by
  -- each entry takes one place, until the one that finds none
  induction rates generalizing queued with
  | nil => simp [addRateLimits]
  | cons rate rest ih =>
      rw [take_rates rate rest hq, List.forall_mem_cons, List.length_cons]
      by_cases hrate : ReadableRate rate
      · rw [addRateLimits_of_readable hrate, and_iff_right hrate]
        split_ifs with hlt
        · have hshift : rateLimitCapacity + 1 - (queued + 1) = rateLimitCapacity - queued :=
            Nat.add_sub_add_right ..
          rw [ih (queued + 1) hlt, hshift]
          exact and_congr_left fun _ => by omega
        · obtain rfl : queued = rateLimitCapacity := by omega
          simp
      · rw [addRateLimits_of_not_readable hrate]
        exact iff_of_false (by simp) (fun h => hrate h.2.1)

/-- The constructor of `OrderNewResponse` waits exactly when there are too many rate limits. -/
theorem newOrderResponse_waits_iff {doc : JsonTree} {status : Int}
    (hst : statusOf doc = some status) :
    newOrderResponse doc = .error .waits ↔ TooManyRateLimits doc := by
  have hcatch : ∀ r : Exec Unit, catchAll r = .error .waits ↔ r = .error .waits := by
    rintro (⟨_ | _⟩ | _) <;> simp [catchAll]
  rw [newOrderResponse, hcatch, hst]
  constructor
  · intro h
    rcases bind_eq_waits_iff.mp h with h | ⟨_, -, h⟩
    · exact absurd h (valueOf_ne_waits _)
    rcases bind_eq_waits_iff.mp h with h | ⟨obj, hobj, h⟩
    · exact absurd h (valueOf_ne_waits _)
    rcases bind_eq_waits_iff.mp h with h | ⟨_, hread, h⟩
    · exact absurd h (readFields_ne_waits _ _)
    rcases bind_eq_waits_iff.mp h with h | ⟨rates, hrates, h⟩
    · exact absurd h (valueOf_ne_waits _)
    · obtain ⟨hlen, hall⟩ := (addRateLimits_waits_iff rates 0 (Nat.zero_le _)).mp h
      exact ⟨obj, rates, valueOf_eq_ok_iff.mp hobj, hread, valueOf_eq_ok_iff.mp hrates, hlen, hall⟩
  · rintro ⟨obj, rates, hobj, hread, hrates, hlen, hall⟩
    have hwait := (addRateLimits_waits_iff rates 0 (Nat.zero_le _)).mpr ⟨hlen, hall⟩
    exact bind_eq_waits_iff.mpr (.inr ⟨status, rfl, bind_eq_waits_iff.mpr (.inr ⟨obj,
      valueOf_eq_ok_iff.mpr hobj, bind_eq_waits_iff.mpr (.inr ⟨(), hread,
        bind_eq_waits_iff.mpr (.inr ⟨rates, valueOf_eq_ok_iff.mpr hrates, hwait⟩)⟩)⟩)⟩)

/-- The response carries an error with an integer code. -/
def HasErrorCode (doc : JsonTree) : Prop :=
  ∃ obj, (doc.get "error".toList).bind JsonTree.getObject = some obj ∧
    readFields obj [.int64 "code".toList] = .ok ()

/-! ## Whose status a call goes by

A new order has registered its own response just before, so it goes by its own status. The other
calls go by the record under the current id, and report their response only where the two agree. -/

/-- The call returns what the response says: `SUCCESS` for a 200 with an order id and for nothing
else, `FAIL` for a 4xx, `UNKNOWN` for every other status. -/
def Reports (doc : JsonTree) (returned : Option RequestStatus) : Prop :=
  ∃ result, returned = some result ∧
    (result = .SUCCESS ↔ statusOf doc = some 200 ∧ (OrderStream.orderIdOf doc).isSome) ∧
    (∀ status, statusOf doc = some status → OrderStream.IsRejection status → result = .FAIL) ∧
    (∀ status, statusOf doc = some status → status ≠ 200 → ¬ OrderStream.IsRejection status →
      result = .UNKNOWN)

/-- The returned value is the same whatever the tracker has recorded for earlier requests. -/
def Independent (HMAC : Str → Str → List UInt8) (s : OrderStream) (env : Env) (c : Call) : Prop :=
  ∀ map, ((OrderStream.send HMAC { s with orderTracker := { s.orderTracker with map } } env c).2
    = (s.send HMAC env c).2)

/-- When a new order reports its response. -/
def NewReports (room : Prop) (doc : JsonTree) : Prop :=
  ∀ status, statusOf doc = some status →
    (status = 200 → ¬ TooManyRateLimits doc ∧ ((OrderStream.orderIdOf doc).isSome → room)) ∧
    (status ≠ 200 → ¬ OrderStream.IsRejection status → HasErrorCode doc)

/-- When a call that goes by the recorded status reports its response. -/
def RecordAgrees (recorded : Int) (room : Prop) (doc : JsonTree) : Prop :=
  (statusOf doc = none → recorded = 200 → OrderStream.orderIdOf doc = none) ∧
  ∀ status, statusOf doc = some status →
    (status = 200 → (OrderStream.orderIdOf doc).isSome → recorded = 200 ∧ room) ∧
    (OrderStream.IsRejection status →
      (recorded = 200 ∧ OrderStream.orderIdOf doc = none) ∨ OrderStream.IsRejection recorded) ∧
    (status ≠ 200 → ¬ OrderStream.IsRejection status →
      recorded ≠ 200 ∧ ¬ OrderStream.IsRejection recorded)

/-- When a call reports its own response, for each of the four calls that name an order. -/
def GoesByOwnStatus (s : OrderStream) (doc : JsonTree) : Call → Prop
  | .sendNewOrder .. => NewReports s.orderTracker.HasRoom doc
  | _ => RecordAgrees (s.orderTracker.getOrderStatusint s.requestId.request)
      s.orderTracker.HasRoom doc

theorem not_isRejection_200 : ¬ OrderStream.IsRejection 200 := by decide

theorem reports_recorded_iff (recorded : Int) (doc : JsonTree) (room : Prop) [Decidable room] :
    Reports doc (reportOutcome recorded doc room) ↔ RecordAgrees recorded room doc := by
  have h200 := not_isRejection_200
  unfold Reports reportOutcome RecordAgrees
  rcases OrderStream.orderIdOf doc with - | id <;> rcases statusOf doc with - | status
  · split_ifs <;> simp_all
  · by_cases hs : status = 200 <;> by_cases hr : OrderStream.IsRejection status <;>
      split_ifs <;> simp_all
  · split_ifs <;> simp_all
  · by_cases hs : status = 200 <;> by_cases hr : OrderStream.IsRejection status <;>
      split_ifs <;> simp_all

theorem newOrderResponse_ne_throws (doc : JsonTree) : newOrderResponse doc ≠ .error .throws := by
  have hcatch : ∀ r : Exec Unit, catchAll r ≠ .error .throws := by
    rintro (⟨_ | _⟩ | _) <;> simp [catchAll]
  exact hcatch _

section Wrapper

variable {doc : JsonTree} {status : Int}

theorem wrapper_of_success (hst : statusOf doc = some 200) :
    orderResponsePtrWrapper .NEW doc = newOrderResponse doc := by
  rw [orderResponsePtrWrapper, hst]
  rfl

theorem wrapper_of_error (hst : statusOf doc = some status) (h200 : status ≠ 200) :
    orderResponsePtrWrapper .NEW doc = (do
      let obj ← valueOf ((doc.get "error".toList).bind JsonTree.getObject)
      readFields obj [.int64 "code".toList]) := by
  rw [orderResponsePtrWrapper, hst]
  exact if_neg h200

theorem wrapper_ne_waits (hst : statusOf doc = some status) (h200 : status ≠ 200) :
    orderResponsePtrWrapper .NEW doc ≠ .error .waits := by
  rw [wrapper_of_error hst h200]
  intro h
  rcases bind_eq_waits_iff.mp h with h | ⟨obj, -, h⟩
  · exact valueOf_ne_waits _ h
  · exact readFields_ne_waits _ _ h

theorem wrapper_ok_iff (hst : statusOf doc = some status) (h200 : status ≠ 200) :
    orderResponsePtrWrapper .NEW doc = .ok () ↔ HasErrorCode doc := by
  rw [wrapper_of_error hst h200, bind_eq_ok_iff]
  simp only [valueOf_eq_ok_iff, HasErrorCode]

end Wrapper

theorem reports_new_iff (doc : JsonTree) (room : Prop) [Decidable room] :
    Reports doc (newOutcome doc room) ↔ NewReports room doc := by
  rcases hst : statusOf doc with - | status
  · simp [newOutcome, hst, Reports, NewReports]
  by_cases h200 : status = 200
  · subst h200
    have hwaits := newOrderResponse_waits_iff hst
    rcases hresp : newOrderResponse doc with ⟨_ | _⟩ | _
    · exact absurd hresp (newOrderResponse_ne_throws doc)
    · have hmany := hwaits.mp hresp
      simp [newOutcome, hst, wrapper_of_success hst, hresp, Reports, NewReports, hmany]
    · have hfew : ¬ TooManyRateLimits doc := fun h => by
        rw [hwaits.mpr h] at hresp
        exact nomatch hresp
      simp only [newOutcome, hst, wrapper_of_success hst, hresp, reports_recorded_iff]
      simp [RecordAgrees, NewReports, hst, hfew, not_isRejection_200]
  · have hok := wrapper_ok_iff hst h200
    rcases hresp : orderResponsePtrWrapper .NEW doc with ⟨_ | _⟩ | _
    · have hnocode : ¬ HasErrorCode doc := fun h => by
        rw [hok.mpr h] at hresp
        exact nomatch hresp
      simp [newOutcome, hst, hresp, Reports, NewReports, h200, hnocode]
    · exact absurd hresp (wrapper_ne_waits hst h200)
    · have hcode := hok.mp hresp
      simp only [newOutcome, hst, hresp, reports_recorded_iff]
      simp [RecordAgrees, NewReports, hst, h200, hcode]

/-! ## The calls -/

section Calls

variable {HMAC : Str → Str → List UInt8} {env : Env} {doc : JsonTree}

/-- A call that is answered does what its handler makes of the answer. -/
theorem exchange_answered (HMAC : Str → Str → List UInt8) {s : OrderStream}
    (method : RequestParameter) {c : Call}
    (handle : OrderStream → JsonTree → OrderStream × Option RequestStatus)
    (hreply : env.reply = some doc)
    (hsent : ((s.generateParamsForOrder HMAC env.now c).2).isSome) :
    ∃ s' : OrderStream, s'.orderTracker = s.orderTracker ∧ s'.requestId = s.requestId ∧
      s'.waiting = s.waiting ∧ s.exchange HMAC method c env handle = handle s' doc := by
  have hid := OrderStream.generateParams_requestId HMAC s.toRequestState env.now c
  unfold OrderStream.exchange
  rcases h : s.generateParamsForOrder HMAC env.now c with ⟨r, - | params⟩
  · rw [h] at hsent
    simp at hsent
  · rw [h] at hid
    simp only [hreply]
    exact ⟨OrderStream.sendRequest { s with toRequestState := r } _, rfl, hid, rfl, rfl⟩

theorem isSome_params {s : OrderStream} {c : Call} (hsent : (s.payload HMAC env c).isSome) :
    (((s.identified env c).generateParamsForOrder HMAC env.now c).2).isSome := by
  simpa [OrderStream.payload] using hsent

/-- What each of the four calls returns. -/
theorem send_snd {s : OrderStream} {c : Call} (hreply : env.reply = some doc)
    (hsent : (s.payload HMAC env c).isSome) (hop : c ≠ .sendAccountInfoRequest) :
    (s.send HMAC env c).2 =
      if c.drawsId then newOutcome doc s.orderTracker.HasRoom
      else reportOutcome (s.orderTracker.getOrderStatusint s.requestId.request) doc
        s.orderTracker.HasRoom := by
  have hparams := isSome_params hsent
  cases c with
  | sendNewOrder =>
      obtain ⟨s', htracker, -, -, h⟩ := exchange_answered HMAC _ _ hreply hparams
      exact (congrArg Prod.snd h).trans (by rw [handleNew_snd, htracker]; rfl)
  | sendModifyOrder =>
      obtain ⟨s', htracker, hid, -, h⟩ := exchange_answered HMAC _ _ hreply hparams
      refine (congrArg Prod.snd h).trans ?_
      rw [OrderStream.handleTracked, report_snd, htracker, hid]
      rfl
  | sendCancelOrder =>
      obtain ⟨s', htracker, hid, -, h⟩ := exchange_answered HMAC _ _ hreply hparams
      refine (congrArg Prod.snd h).trans ?_
      rw [OrderStream.handleTracked, report_snd, htracker, hid]
      rfl
  | sendQueryOrder =>
      obtain ⟨s', htracker, hid, -, h⟩ := exchange_answered HMAC _ _ hreply hparams
      refine (congrArg Prod.snd h).trans ?_
      rw [OrderStream.handleTracked, report_snd, htracker, hid]
      rfl
  | sendAccountInfoRequest => exact absurd rfl hop

/-- With another record a call may report another status. -/
theorem reportOutcome_ne (doc : JsonTree) (room : Prop) [Decidable room] :
    reportOutcome 200 doc room ≠ reportOutcome 0 doc room := by
  have h0 : reportOutcome 0 doc room = some .UNKNOWN := rfl
  rw [h0, reportOutcome, if_pos rfl]
  split_ifs <;> simp

theorem independent_iff {s : OrderStream} {c : Call} (hreply : env.reply = some doc)
    (hsent : (s.payload HMAC env c).isSome) (hop : c ≠ .sendAccountInfoRequest) :
    Independent HMAC s env c ↔ c.drawsId = true := by
  have hother : ∀ map, (OrderStream.payload HMAC
      { s with orderTracker := { s.orderTracker with map } } env c).isSome := by
    intro map
    cases c <;> exact hsent
  have hsend := fun map => send_snd hreply (hother map) hop
  constructor
  · intro hind
    by_contra hdraws
    have h200 := hind (fun _ => some ⟨200⟩)
    have h0 := hind (fun _ => some ⟨0⟩)
    rw [← h0, hsend, hsend, if_neg hdraws, if_neg hdraws] at h200
    exact reportOutcome_ne doc _ h200
  · intro hdraws map
    rw [hsend map, send_snd hreply hsent hop, if_pos hdraws, if_pos hdraws]
    rfl

/-- **Whose response a call reports.** When a call that names an order is answered by `doc`, it
returns what `doc` says exactly when: for a new order, the ring of active orders and the response's
own ring have room and an answer that is neither a success nor a rejection has an error code; for
the other calls, the status that the tracker has for the current request id is of the same kind as
the one of `doc`. What the tracker has recorded plays no role for a new order, and always does for
the other calls. -/
theorem reports_iff (HMAC : Str → Str → List UInt8) (s : OrderStream) (env : Env) (c : Call)
    (doc : JsonTree) (hop : c ≠ .sendAccountInfoRequest) (hreply : env.reply = some doc)
    (hsent : (s.payload HMAC env c).isSome) :
    (Reports doc (s.send HMAC env c).2 ↔ GoesByOwnStatus s doc c) ∧
      (Independent HMAC s env c ↔ c.drawsId = true) := by
  refine ⟨?_, independent_iff hreply hsent hop⟩
  rw [send_snd hreply hsent hop]
  cases c with
  | sendNewOrder => exact reports_new_iff doc _
  | sendModifyOrder => exact reports_recorded_iff _ doc _
  | sendCancelOrder => exact reports_recorded_iff _ doc _
  | sendQueryOrder => exact reports_recorded_iff _ doc _
  | sendAccountInfoRequest => exact absurd rfl hop

end Calls

/-- The answer `{"status": 200, "result": {"orderId": 9}}`. -/
def acceptedReply : JsonTree :=
  .obj [("status".toList, .int 200), ("result".toList, .obj [("orderId".toList, .int 9)])]

/-- The answer `{"status": 400, "error": {"code": -2010}}`. -/
def rejectedReply : JsonTree :=
  .obj [("status".toList, .int 400), ("error".toList, .obj [("code".toList, .int (-2010))])]

theorem reports_iff_limitOrder :
    Reports acceptedReply ((OrderStream.construct sampleKeys).send (fun _ _ => [1])
      (sampleEnv "u" (some acceptedReply)) limitOrder).2 := by
  refine (reports_iff (fun _ _ => [1]) _ (sampleEnv "u" (some acceptedReply)) limitOrder
    acceptedReply nofun rfl (by decide +kernel)).1.mpr ?_
  rintro status ⟨⟩
  refine ⟨fun _ => ⟨?_, fun _ => by decide⟩, fun hne => absurd rfl hne⟩
  rintro ⟨obj, rates, -, -, hrates, -⟩
  exact nomatch hrates

/-- A cancellation that the exchange accepts is reported as failed when the order before it was
rejected. -/
theorem cancel_reports_lastOrder :
    ∃ s, runFrom (OrderStream.step (fun _ _ => [1])) (OrderStream.construct sampleKeys)
        [.call limitOrder (sampleEnv "u" (some rejectedReply))] = some s ∧
      statusOf acceptedReply = some 200 ∧ OrderStream.orderIdOf acceptedReply = some 9 ∧
      (s.send (fun _ _ => [1]) (sampleEnv "" (some acceptedReply))
        (.sendCancelOrder "BTCUSDT".toList "9".toList)).2 = some .FAIL := by
  refine ⟨_, rfl, ?_, ?_, ?_⟩
  · decide +kernel
  · decide +kernel
  · decide +kernel

end AstraConnect.Order
