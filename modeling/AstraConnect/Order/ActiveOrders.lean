import AstraConnect.Order.FreshFrames
import AstraConnect.Order.OwnResponse

set_option autoImplicit false

/-! # The ring of active orders

Every call that names an order and succeeds queues the id of the order, and only `getLastOrderId`
takes ids out again. The ring blocks when it is full, so the call that has an id to queue while
256 are queued does not return. The number of ids queued is the number of successful calls less
the number of ids taken, along every run (`queued_run`); a call waits for room exactly when that
number is 256 and it has an id (`waitsForRoom_iff`).
-/

namespace AstraConnect.Order

open Transition

/-- Whether the call is one of the four that name an order. -/
def Call.namesOrder : Call → Bool
  | sendAccountInfoRequest => false
  | _ => true

namespace OrderStream

/-- The stream with other ids in its ring. -/
def withRing (s : OrderStream) (ring : List Int) : OrderStream :=
  { s with orderTracker := { s.orderTracker with activeOrders := ring } }

/-- The call waits in `queueActiveOrderId`: it does not return, and with an empty ring it does. -/
def WaitsForRoom (HMAC : Str → Str → List UInt8) (s : OrderStream) (env : Env) (c : Call) : Prop :=
  (s.send HMAC env c).2 = none ∧ ((s.withRing []).send HMAC env c).2 ≠ none

/-! ## What one call does with the ring

Every call is compared with itself on another ring: it queues at most one id, at its very end, and
looks at the ring nowhere else. So the ring decides only whether it returns. -/

/-- The computation `f`, started with any ring, queues the id `queued` and succeeds, or waits when
the ring is full; or it leaves the ring and returns `other`. -/
structure UsesRing (f : List Int → OrderStream × Option RequestStatus) (queued : Option Int)
    (other : Option RequestStatus) : Prop where
  queues : ∀ id, queued = some id → ∀ ring, ring.length < activeOrdersCapacity →
    (f ring).2 = some .SUCCESS ∧ (f ring).1.orderTracker.activeOrders = ring ++ [id]
  waits : ∀ id, queued = some id → ∀ ring, ¬ ring.length < activeOrdersCapacity →
    (f ring).2 = none ∧ (f ring).1.orderTracker.activeOrders = ring
  leaves : queued = none → ∀ ring,
    (f ring).2 = other ∧ (f ring).1.orderTracker.activeOrders = ring

/-- A computation that does not look at the ring. -/
theorem UsesRing.of_leaves {f : List Int → OrderStream × Option RequestStatus}
    {other : Option RequestStatus}
    (h : ∀ ring, (f ring).2 = other ∧ (f ring).1.orderTracker.activeOrders = ring) :
    UsesRing f none other := by
  constructor
  · intro id hid
    simp at hid
  · intro id hid
    simp at hid
  · exact fun _ => h

/-- `report` succeeds only by queueing an id. -/
theorem report_usesRing (s : OrderStream) (status : Int) (doc : JsonTree) :
    ∃ queued other, UsesRing (fun ring => (s.withRing ring).report status doc) queued other ∧
      other ≠ some .SUCCESS := by
  unfold report
  by_cases h200 : status = 200
  · simp only [if_pos h200]
    rcases orderIdOf doc with - | id
    · exact ⟨none, some .FAIL, UsesRing.of_leaves (fun ring => ⟨rfl, rfl⟩), by decide⟩
    · refine ⟨some id, none, ⟨?_, ?_, fun h => by simp at h⟩, by simp⟩
      · intro id' hid ring hroom
        obtain rfl := Option.some.inj hid
        simp only [OrderTracker.queueActiveOrderId_of_room (t := (s.withRing ring).orderTracker)
          hroom]
        exact ⟨trivial, rfl⟩
      · intro id' hid ring hfull
        simp only [OrderTracker.queueActiveOrderId_of_full (t := (s.withRing ring).orderTracker)
          hfull]
        exact ⟨trivial, rfl⟩
  · simp only [if_neg h200]
    by_cases hrej : IsRejection status
    · simp only [if_pos hrej]
      exact ⟨none, some .FAIL, UsesRing.of_leaves (fun ring => ⟨rfl, rfl⟩), by decide⟩
    · simp only [if_neg hrej]
      exact ⟨none, some .UNKNOWN, UsesRing.of_leaves (fun ring => ⟨rfl, rfl⟩), by decide⟩

theorem handleNew_usesRing (garbage : Int) (s : OrderStream) (doc : JsonTree) :
    ∃ queued other, UsesRing (fun ring => handleNew garbage (s.withRing ring) doc) queued other ∧
      other ≠ some .SUCCESS := by
  simp only [handleNew, OrderTracker.registerOrderSent]
  rcases statusOf doc with - | status
  · exact ⟨none, some .FAIL, UsesRing.of_leaves (fun ring => ⟨rfl, rfl⟩), by decide⟩
  · rcases orderResponsePtrWrapper .NEW doc with ⟨_ | _⟩ | _
    · exact ⟨none, some .FAIL, UsesRing.of_leaves (fun ring => ⟨rfl, rfl⟩), by decide⟩
    · exact ⟨none, none, UsesRing.of_leaves (fun ring => ⟨rfl, rfl⟩), by decide⟩
    · let registered := s.orderTracker.set s.requestId.request ⟨status⟩
      exact report_usesRing { s with orderTracker := registered }
        (registered.getOrderStatusint s.requestId.request) doc

/-- The account info queues no id. -/
theorem handleAccountInfo_usesRing (s : OrderStream) (doc : JsonTree) :
    ∃ other, UsesRing (fun ring => handleAccountInfo (s.withRing ring) doc) none other := by
  simp only [handleAccountInfo, OrderTracker.registerOrderResponse]
  rcases statusOf doc with - | status
  · exact ⟨some .FAIL, UsesRing.of_leaves (fun ring => ⟨rfl, rfl⟩)⟩
  · by_cases h200 : status = 200
    · simp only [if_pos h200]
      rcases orderResponsePtrWrapper .ACCOUNT_INFO doc with ⟨_ | _⟩ | _
      · exact ⟨some .FAIL, UsesRing.of_leaves (fun ring => ⟨rfl, rfl⟩)⟩
      · exact ⟨none, UsesRing.of_leaves (fun ring => ⟨rfl, rfl⟩)⟩
      · exact ⟨some .SUCCESS, UsesRing.of_leaves (fun ring => ⟨rfl, rfl⟩)⟩
    · simp only [if_neg h200]
      by_cases hrej : IsRejection status
      · simp only [if_pos hrej]
        exact ⟨some .FAIL, UsesRing.of_leaves (fun ring => ⟨rfl, rfl⟩)⟩
      · simp only [if_neg hrej]
        exact ⟨some .UNKNOWN, UsesRing.of_leaves (fun ring => ⟨rfl, rfl⟩)⟩

section Calls

/-- A call through `exchange` uses the ring as its handler does, or not at all. -/
theorem exchange_usesRing (HMAC : Str → Str → List UInt8) (s : OrderStream)
    (method : RequestParameter) (c : Call) (env : Env)
    (handle : OrderStream → JsonTree → OrderStream × Option RequestStatus)
    {P : Option Int → Option RequestStatus → Prop} (hfail : P none (some .FAIL))
    (hh : ∀ (s : OrderStream) (doc : JsonTree), ∃ queued other,
      UsesRing (fun ring => handle (s.withRing ring) doc) queued other ∧ P queued other) :
    ∃ queued other,
      UsesRing (fun ring => exchange HMAC (s.withRing ring) method c env handle) queued other ∧
        P queued other := by
  unfold exchange
  have hparams : ∀ ring, (s.withRing ring).toRequestState = s.toRequestState := fun _ => rfl
  simp only [hparams]
  rcases s.generateParamsForOrder HMAC env.now c with ⟨r, - | params⟩
  · exact ⟨none, some .FAIL, UsesRing.of_leaves (fun ring => ⟨rfl, rfl⟩), hfail⟩
  · rcases env.reply with - | doc
    · exact ⟨none, some .FAIL, UsesRing.of_leaves (fun ring => ⟨rfl, rfl⟩), hfail⟩
    · exact hh (sendRequest { s with toRequestState := r }
        (makeRequestFromRequestParameters [r.requestId, method, params])) doc

/-- **What a call does with the ring.** One that names an order succeeds exactly by queueing an
id, and that is the only place where the ring counts. -/
theorem send_usesRing (HMAC : Str → Str → List UInt8) (s : OrderStream) (env : Env) (c : Call)
    (hop : c.namesOrder = true) :
    ∃ queued other, UsesRing (fun ring => (s.withRing ring).send HMAC env c) queued other ∧
      other ≠ some .SUCCESS := by
  have hfail : (some RequestStatus.FAIL) ≠ some .SUCCESS := by decide
  have htracked : ∀ (s : OrderStream) (doc : JsonTree), ∃ queued other,
      UsesRing (fun ring => handleTracked (s.withRing ring) doc) queued other ∧
        other ≠ some .SUCCESS := fun s doc =>
    report_usesRing s (s.orderTracker.getOrderStatusint s.requestId.request) doc
  cases c with
  | sendNewOrder => exact 
      exchange_usesRing HMAC (s.generateID env.uuid) _ _ _ _ hfail (handleNew_usesRing _)
  | sendModifyOrder => exact exchange_usesRing HMAC s _ _ _ _ hfail htracked
  | sendCancelOrder => exact exchange_usesRing HMAC s _ _ _ _ hfail htracked
  | sendQueryOrder => exact exchange_usesRing HMAC s _ _ _ _ hfail htracked
  | sendAccountInfoRequest => simp [Call.namesOrder] at hop

theorem send_usesRing_accountInfo (HMAC : Str → Str → List UInt8) (s : OrderStream) (env : Env)
    (c : Call) (hop : ¬ c.namesOrder = true) :
    ∃ other, UsesRing (fun ring => (s.withRing ring).send HMAC env c) none other := by
  obtain rfl : c = .sendAccountInfoRequest := by
    cases c with
    | sendAccountInfoRequest => rfl
    | _ => exact absurd rfl hop
  obtain ⟨queued, other, huse, rfl⟩ := exchange_usesRing HMAC (s.generateID env.uuid)
    methodAccountInfo .sendAccountInfoRequest env handleAccountInfo
    (P := fun queued _ => queued = none) rfl (fun s doc => by
      obtain ⟨other, huse⟩ := handleAccountInfo_usesRing s doc
      exact ⟨none, other, huse, rfl⟩)
  exact ⟨other, huse⟩

end Calls

/-- A call that names an order and returns `SUCCESS`. -/
def Succeeds (HMAC : Str → Str → List UInt8) (s : OrderStream) (env : Env) (c : Call) : Prop :=
  c.namesOrder = true ∧ (s.send HMAC env c).2 = some .SUCCESS

instance (HMAC : Str → Str → List UInt8) (s : OrderStream) (env : Env) (c : Call) :
    Decidable (s.Succeeds HMAC env c) := inferInstanceAs (Decidable (_ ∧ _))

/-- The ring grows by one with a successful call and stays with any other. -/
theorem queued_send (HMAC : Str → Str → List UInt8) (s : OrderStream) (env : Env) (c : Call) :
    (s.send HMAC env c).1.orderTracker.activeOrders.length
        = s.orderTracker.activeOrders.length + (if s.Succeeds HMAC env c then 1 else 0) ∧
      (s.Succeeds HMAC env c → s.orderTracker.HasRoom) := by
  by_cases hop : c.namesOrder = true
  · obtain ⟨queued, other, huse, hother⟩ := send_usesRing HMAC s env c hop
    rcases queued with - | id
    · obtain ⟨hret, hring⟩ := huse.leaves rfl s.orderTracker.activeOrders
      have hnot : ¬ s.Succeeds HMAC env c := fun h => hother (hret.symm.trans h.2)
      rw [if_neg hnot]
      exact ⟨congrArg List.length hring, fun h => absurd h hnot⟩
    · by_cases hroom : s.orderTracker.HasRoom
      · obtain ⟨hret, hring⟩ := huse.queues id rfl s.orderTracker.activeOrders hroom
        rw [if_pos ⟨hop, hret⟩]
        refine ⟨(congrArg List.length hring).trans ?_, fun _ => hroom⟩
        rw [List.length_append, List.length_singleton]
      · obtain ⟨hret, hring⟩ := huse.waits id rfl s.orderTracker.activeOrders hroom
        have hnot : ¬ s.Succeeds HMAC env c := fun h => by
          have := hret.symm.trans h.2
          simp at this
        rw [if_neg hnot]
        exact ⟨congrArg List.length hring, fun h => absurd h hnot⟩
  · obtain ⟨other, huse⟩ := send_usesRing_accountInfo HMAC s env c hop
    have hsend := (huse.leaves rfl s.orderTracker.activeOrders).2
    have hnot : ¬ s.Succeeds HMAC env c := fun h => hop h.1
    rw [if_neg hnot]
    exact ⟨congrArg List.length hsend, fun h => absurd h hnot⟩

/-- **When a call waits for room**: the ring is full, and with an empty one the call would have
succeeded. -/
theorem waits_iff (HMAC : Str → Str → List UInt8) (s : OrderStream) (env : Env) (c : Call)
    (hle : s.orderTracker.activeOrders.length ≤ activeOrdersCapacity) :
    s.WaitsForRoom HMAC env c ↔
      s.orderTracker.activeOrders.length = activeOrdersCapacity ∧
        (s.withRing []).Succeeds HMAC env c := by
  by_cases hop : c.namesOrder = true
  · obtain ⟨queued, other, huse, hother⟩ := send_usesRing HMAC s env c hop
    -- an outcome that queues nothing does not depend on the ring
    rcases queued with - | id
    · have hfull := (huse.leaves rfl s.orderTracker.activeOrders).1
      have hempty := (huse.leaves rfl []).1
      constructor
      · rintro ⟨hwait, hreturns⟩
        exact absurd (hempty.trans (hfull.symm.trans hwait)) hreturns
      · rintro ⟨-, -, hret⟩
        exact absurd (hempty.symm.trans hret) hother
    · have hempty := (huse.queues id rfl [] (by decide)).1
      constructor
      · rintro ⟨hwait, -⟩
        refine ⟨?_, hop, hempty⟩
        by_contra hne
        have hret := (huse.queues id rfl s.orderTracker.activeOrders (by omega)).1
        have := hwait.symm.trans hret
        simp at this
      · rintro ⟨hlen, -⟩
        refine ⟨(huse.waits id rfl s.orderTracker.activeOrders (by omega)).1, ?_⟩
        have hsuccess : ((s.withRing []).send HMAC env c).2 = some .SUCCESS := hempty
        rw [hsuccess]
        exact Option.some_ne_none _
  · obtain ⟨other, huse⟩ := send_usesRing_accountInfo HMAC s env c hop
    have hfull := (huse.leaves rfl s.orderTracker.activeOrders).1
    have hempty := (huse.leaves rfl []).1
    constructor
    · rintro ⟨hwait, hreturns⟩
      exact absurd (hempty.trans (hfull.symm.trans hwait)) hreturns
    · rintro ⟨-, hnames, -⟩
      exact absurd hnames hop

/-! ## Whole runs -/

/-- How many of the calls succeed, the first of them made on `s`. -/
def successes (HMAC : Str → Str → List UInt8) (s : OrderStream) : List Action → Nat
  | [] => 0
  | .call c env :: as =>
      (if s.Succeeds HMAC env c then 1 else 0) + successes HMAC (s.send HMAC env c).1 as
  | .getLastOrderId :: as =>
      successes HMAC (s.withRing s.orderTracker.activeOrders.tail) as

/-- How many ids are taken. -/
def taken : List Action → Nat
  | [] => 0
  | .call _ _ :: as => taken as
  | .getLastOrderId :: as => taken as + 1

/-- The ring holds one id for each success whose id was not taken, and never more than fit. -/
theorem queued_run {HMAC : Str → Str → List UInt8} {as : List Action} {s s' : OrderStream}
    (hle : s.orderTracker.activeOrders.length ≤ activeOrdersCapacity)
    (hrun : runFrom (step HMAC) s as = some s') :
    s'.orderTracker.activeOrders.length + taken as
        = s.orderTracker.activeOrders.length + successes HMAC s as ∧
      s'.orderTracker.activeOrders.length ≤ activeOrdersCapacity := by
  -- the capacity is carried along: a success that queues has found room
  induction as generalizing s with
  | nil =>
      obtain rfl := Option.some.inj hrun
      exact ⟨rfl, hle⟩
  | cons a as ih =>
      rw [runFrom, Option.bind_eq_some_iff] at hrun
      obtain ⟨t, ht, hrest⟩ := hrun
      cases a with
      | call c env =>
          simp only [step, Option.ite_none_left_eq_some, Option.some.injEq] at ht
          obtain ⟨hgrow, hroom⟩ := queued_send HMAC s env c
          rw [ht.2] at hgrow
          have hle' : t.orderTracker.activeOrders.length ≤ activeOrdersCapacity := by
            rw [hgrow]
            split_ifs with hsucc
            · exact hroom hsucc
            · exact hle
          obtain ⟨hcount, hlast⟩ := ih hle' hrest
          rw [taken, successes, ht.2]
          exact ⟨by omega, hlast⟩
      | getLastOrderId =>
          simp only [step] at ht
          split at ht
          · simp at ht
          · next id rest hring =>
              simp only [Option.ite_none_left_eq_some, Option.some.injEq] at ht
              have htail : t = s.withRing s.orderTracker.activeOrders.tail := by
                rw [← ht.2, hring]
                rfl
              have hlen : t.orderTracker.activeOrders.length + 1
                  = s.orderTracker.activeOrders.length := by
                rw [← ht.2, hring]
                rfl
              obtain ⟨hcount, hlast⟩ := ih (by omega) hrest
              rw [taken, successes, ← htail]
              exact ⟨by omega, hlast⟩

end OrderStream

/-- **A call waits for room in the ring of active orders exactly when** it has an order id to queue
and the calls before it that succeeded outnumber the ids taken by the 256 that the ring holds. -/
theorem waitsForRoom_iff (HMAC : Str → Str → List UInt8) (cred : Credentials)
    (as : List OrderStream.Action) (s : OrderStream)
    (hrun : runFrom (OrderStream.step HMAC) (OrderStream.construct cred) as = some s)
    (c : Call) (env : Env) :
    s.WaitsForRoom HMAC env c ↔
      OrderStream.successes HMAC (OrderStream.construct cred) as = OrderStream.taken as + 256 ∧
        (s.withRing []).Succeeds HMAC env c := by
  have hempty : (OrderStream.construct cred).orderTracker.activeOrders.length = 0 := rfl
  obtain ⟨hcount, hle⟩ := OrderStream.queued_run (by rw [hempty]; exact Nat.zero_le _) hrun
  rw [OrderStream.waits_iff HMAC s env c hle]
  have hcap : activeOrdersCapacity = 256 := rfl
  have hfull : s.orderTracker.activeOrders.length = activeOrdersCapacity ↔
      OrderStream.successes HMAC (OrderStream.construct cred) as
        = OrderStream.taken as + 256 := by omega
  rw [hfull]

/-! ## A run that fills the ring

The counterexample takes 257 calls, which are made by induction: after any number of accepted
orders the ring holds that many ids. -/

section Filling

variable {h : List Call} {s : OrderStream}

/-- The order that the runs below repeat, and its answer. -/
def acceptedOrder : OrderStream.Action := .call limitOrder (sampleEnv "u" (some acceptedReply))

theorem not_lacksValue_limitOrder (h : List Call) : ¬ LacksValue h limitOrder := by
  unfold limitOrder
  rw [lacksValue_new h rfl]
  simp [sent, Call.positionSide, Call.timeInForce, Call.orderType, PositionSide.text,
    TimeInForce.text, OrderType.text]

/-- With room, the answer of an accepted order is registered and its id queued. -/
theorem handleNew_accepted (garbage : Int) (hroom : s.orderTracker.HasRoom) :
    (OrderStream.handleNew garbage s acceptedReply).1.waiting = s.waiting ∧
      (OrderStream.handleNew garbage s acceptedReply).1.orderTracker.activeOrders
        = s.orderTracker.activeOrders ++ [9] := by
  have hstatus : statusOf acceptedReply = some 200 := by decide +kernel
  have hid : OrderStream.orderIdOf acceptedReply = some 9 := by decide +kernel
  have hread : orderResponsePtrWrapper .NEW acceptedReply = .ok () := rfl
  have hrecorded : ∀ t : OrderTracker, (t.set s.requestId.request ⟨200⟩).getOrderStatusint
      s.requestId.request = 200 := by
    intro t
    simp [OrderTracker.set, OrderTracker.getOrderStatusint]
  simp only [OrderStream.handleNew, OrderTracker.registerOrderSent, hstatus, hread, hrecorded,
    OrderStream.report, if_true, hid]
  rw [OrderTracker.queueActiveOrderId_of_room
    (t := s.orderTracker.set s.requestId.request ⟨200⟩) hroom]
  exact ⟨rfl, rfl⟩

theorem step_acceptedOrder (HMAC : Str → Str → List UInt8)
    (hl : Leftover sampleKeys h s.toRequestState)
    (hwait : s.waiting = false) (hroom : s.orderTracker.HasRoom) :
    ∃ s', s.step HMAC acceptedOrder = some s' ∧ s'.waiting = false ∧
      s'.orderTracker.activeOrders = s.orderTracker.activeOrders ++ [9] := by
  refine ⟨(s.send HMAC (sampleEnv "u" (some acceptedReply)) limitOrder).1, ?_, ?_⟩
  · unfold acceptedOrder OrderStream.step
    rw [hwait]
    rfl
  · -- the parameters of the order are complete, so it is sent and answered
    rcases params_spec HMAC (hl.generateID "u".toList) 5 limitOrder with
      ⟨hlack, -⟩ | ⟨-, text, -, hp⟩
    · exact absurd hlack (not_lacksValue_limitOrder h)
    have hsome : (((s.generateID "u".toList).generateParamsForOrder HMAC
        (sampleEnv "u" (some acceptedReply)).now limitOrder).2).isSome := by
      rw [show (sampleEnv "u" (some acceptedReply)).now = 5 from rfl, hp]
      rfl
    obtain ⟨s', htracker, -, hwaiting, hsend⟩ :=
      exchange_answered HMAC methodPlaceOrder (OrderStream.handleNew 0) rfl hsome
    have hroom' : s'.orderTracker.HasRoom := by rw [htracker]; exact hroom
    obtain ⟨h1, h2⟩ := handleNew_accepted 0 hroom'
    rw [show s.send HMAC (sampleEnv "u" (some acceptedReply)) limitOrder = _ from hsend]
    refine ⟨h1.trans (hwaiting.trans hwait), h2.trans ?_⟩
    rw [htracker]
    rfl

/-- `n` accepted orders, one after the other, as long as their ids fit. -/
theorem run_acceptedOrders (HMAC : Str → Str → List UInt8) (n : Nat)
    (hl : Leftover sampleKeys h s.toRequestState)
    (hwait : s.waiting = false)
    (hroom : s.orderTracker.activeOrders.length + n ≤ activeOrdersCapacity) :
    ∃ s' h', runFrom (OrderStream.step HMAC) s (List.replicate n acceptedOrder) = some s' ∧
      s'.waiting = false ∧ Leftover sampleKeys h' s'.toRequestState ∧
      s'.orderTracker.activeOrders.length = s.orderTracker.activeOrders.length + n := by
  induction n generalizing s h with
  | zero => exact ⟨s, h, rfl, hwait, hl, rfl⟩
  | succ n ih =>
      have hlt : s.orderTracker.activeOrders.length < activeOrdersCapacity := by omega
      obtain ⟨t, hstep, htwait, hring⟩ := step_acceptedOrder HMAC hl hwait hlt
      have hlen : t.orderTracker.activeOrders.length
          = s.orderTracker.activeOrders.length + 1 := by
        rw [hring, List.length_append, List.length_singleton]
      obtain ⟨s', h', hrun, hs', hl', hcount⟩ := ih (hl.step hstep) htwait (by omega)
      refine ⟨s', h', ?_, hs', hl', by omega⟩
      rw [List.replicate_succ, runFrom, hstep, Option.bind_some, hrun]

/-- 256 orders are accepted, and one of their ids is taken. -/
def takeOne : List OrderStream.Action := List.replicate 256 acceptedOrder ++ [.getLastOrderId]

/-- Then the next order has room for its id. -/
theorem waitsForRoom_iff_takeOne :
    ∃ s, runFrom (OrderStream.step (fun _ _ => [1])) (OrderStream.construct sampleKeys)
        takeOne = some s ∧
      OrderStream.successes (fun _ _ => [1]) (OrderStream.construct sampleKeys) takeOne = 256 ∧
      ¬ s.WaitsForRoom (fun _ _ => [1]) (sampleEnv "u" (some acceptedReply)) limitOrder := by
  obtain ⟨s, h, hrun, hwait, -, hlen⟩ := run_acceptedOrders (fun _ _ => [1]) 256
    (Leftover.construct sampleKeys) rfl (le_refl 256)
  have hlen : s.orderTracker.activeOrders.length = 256 := hlen
  cases hring : s.orderTracker.activeOrders with
  | nil =>
      rw [hring] at hlen
      cases hlen
  | cons id rest =>
      have hstep : s.step (fun _ _ => [1]) .getLastOrderId = some (s.withRing rest) := by
        simp only [OrderStream.step, hring]
        exact if_neg (by rw [hwait]; decide)
      have hrun' : runFrom (OrderStream.step (fun _ _ => [1])) (OrderStream.construct sampleKeys)
          takeOne = some (s.withRing rest) := by
        rw [takeOne, runFrom_append, hrun, Option.bind_some, runFrom, hstep]
        rfl
      have htaken : OrderStream.taken takeOne = 1 := rfl
      have hcount := (OrderStream.queued_run (Nat.zero_le _) hrun').1
      have hsuccesses : OrderStream.successes (fun _ _ => [1]) (OrderStream.construct sampleKeys)
          takeOne = 256 := by
        have hrest : rest.length + 1 = 256 := (congrArg List.length hring).symm.trans hlen
        have hleft : (s.withRing rest).orderTracker.activeOrders.length = rest.length := rfl
        have hnew : (OrderStream.construct sampleKeys).orderTracker.activeOrders.length = 0 := rfl
        omega
      refine ⟨s.withRing rest, hrun', hsuccesses, fun hwaits => ?_⟩
      have hfull := ((waitsForRoom_iff (fun _ _ => [1]) sampleKeys takeOne _ hrun' limitOrder
        (sampleEnv "u" (some acceptedReply))).mp hwaits).1
      omega

/-- After 256 accepted orders whose ids nobody took, the next one never returns. -/
theorem order257_waits :
    ∃ s, runFrom (OrderStream.step (fun _ _ => [1])) (OrderStream.construct sampleKeys)
        (List.replicate 256 acceptedOrder) = some s ∧ s.waiting = false ∧
      s.WaitsForRoom (fun _ _ => [1]) (sampleEnv "u" (some acceptedReply)) limitOrder := by
  obtain ⟨s, h, hrun, hwait, hl, hlen⟩ := run_acceptedOrders (fun _ _ => [1]) 256
    (Leftover.construct sampleKeys) rfl (le_refl 256)
  refine ⟨s, hrun, hwait, (OrderStream.waits_iff _ s _ _ (le_of_eq hlen)).mpr ⟨hlen, ?_⟩⟩
  -- with an empty ring the order queues its id, so it succeeds
  have hempty : (s.withRing []).orderTracker.HasRoom := Nat.zero_lt_succ _
  have hwait' : (s.withRing []).waiting = false := hwait
  have hl' : Leftover sampleKeys h (s.withRing []).toRequestState := hl
  obtain ⟨t, hstep, -, hring⟩ := step_acceptedOrder (fun _ _ => [1]) hl' hwait' hempty
  have hsend : t = ((s.withRing []).send (fun _ _ => [1]) (sampleEnv "u" (some acceptedReply))
      limitOrder).1 := by
    simp only [acceptedOrder, OrderStream.step, hwait', Bool.false_eq_true, if_false,
      Option.some.injEq] at hstep
    exact hstep.symm
  have hgrow := (OrderStream.queued_send (fun _ _ => [1]) (s.withRing [])
    (sampleEnv "u" (some acceptedReply)) limitOrder).1
  by_contra hnot
  rw [← hsend, hring, if_neg hnot] at hgrow
  simp at hgrow

end Filling

end AstraConnect.Order
