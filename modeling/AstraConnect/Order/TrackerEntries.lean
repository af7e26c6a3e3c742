import AstraConnect.Lib.Transition
import AstraConnect.Order.ResponseTermination

set_option autoImplicit false

/-! # The orders in the tracker (`orderTracker.hpp`, `orderClass.hpp`, `orderSentEvents.hpp`)

`OrderTracker::map` leads from an id to a pointer, and `map[id]` of an unknown id inserts a null
pointer. Here an entry is `some none` when its pointer is null, and a member of an order is `none`
as long as nothing has been assigned to it. A call either returns, ends as a read of the document
does, or dereferences a null pointer; it leaves the map in whatever state it has come to.

The constructor for a sent order assigns neither `type` nor `status`, and `registerResponse`
overwrites both before it has built the new response.
-/

namespace AstraConnect.Tracker

open AstraConnect.Order Transition

/-! ## `Order` -/

inductive OrderTypeSent where
  | of (kind : ResponseKind)
  | NONE
  deriving DecidableEq, Repr

structure OrderSent where
  timestamp : Option Int := none
  price : Option Int := none
  quantity : Option Int := none
  pair : Option Str := some []
  timeInForce : Option TimeInForce := none
  side : Option OrderSide := none
  positionSide : Option PositionSide := none
  type : Option Order.OrderType := none
  deriving DecidableEq, Repr

/-- `Order` without its lock. -/
structure Order where
  id : Str := []
  type : Option OrderTypeSent := none
  wrapper : Option OrderResponsePtrWrapper := none
  sent : OrderSent := {}
  status : Option Int := none

section Build

variable (isDouble : Str → Bool)

/-- The constructor of `OrderResponsePtrWrapper`, where `NONE` goes to the `default` case. -/
def makeWrapper (type : OrderTypeSent) (doc : JsonTree) : Exec OrderResponsePtrWrapper :=
  match type with
  | .of kind => constructWrapper isDouble kind doc
  | .NONE => do
      let status ← valueOf (statusOf doc)
      if status = 200 then return ⟨fun _ => none, none⟩
      else
        let obj ← valueOf ((doc.get "error".toList).bind JsonTree.getObject)
        let code ← valueOf ((JsonTree.findField obj "code".toList).bind JsonTree.getInt64)
        return ⟨fun _ => none,
          some (code, (stringOf (JsonTree.findField obj "msg".toList)).getD [])⟩

namespace Order

/-- `Order(id, type, doc)`: the wrapper is built first. -/
def ofResponse (id : Str) (type : OrderTypeSent) (doc : JsonTree) : Exec Order := do
  let wrapper ← makeWrapper isDouble type doc
  let status ← valueOf (statusOf doc)
  return { id, type := some type, wrapper := some wrapper, status := some status }

/-- `Order(timestamp, posSide, orderSide, tif, orderType, pair, px, qty)` -/
def ofSent (sent : OrderSent) : Order := { sent }

/-- `registerResponse(id, type, doc)`: what it leaves of the order, and how it ends. -/
def registerResponse (o : Order) (id : Str) (type : OrderTypeSent) (doc : JsonTree) :
    Order × Exec Unit :=
  let named := { o with id, type := some type }
  match statusOf doc with
  | none => (named, .error .throws)
  | some status =>
      let stated := { named with status := some status }
      match makeWrapper isDouble type doc with
      | .ok wrapper => ({ stated with wrapper := some wrapper }, .ok ())
      | .error stop => (stated, .error stop)

/-- `if(wrapper) return wrapper->…(type); return …;` -/
def get (o : Order) (g : Getter) : Option Value :=
  match o.wrapper with
  | none => some g.default
  | some wrapper =>
      match o.type with
      | some (.of kind) => wrapper.get g kind
      | some .NONE => some g.default
      | none => none

end Order

end Build

/-- The getters of `OrderInfo::OrderSent`. -/
inductive SentGetter where
  | getTimestamp | getPrice | getQuantity | getPair | getTimeInForce | getOrderSide
  | getPositionSide | getOrderType
  deriving DecidableEq, Repr

def OrderSent.get (sent : OrderSent) : SentGetter → Option Value
  | .getTimestamp => sent.timestamp.map .int64
  | .getPrice => sent.price.map .fixed
  | .getQuantity => sent.quantity.map .fixed
  | .getPair => sent.pair.map .text
  | .getTimeInForce => sent.timeInForce.map .timeInForce
  | .getOrderSide => sent.side.map .orderSide
  | .getPositionSide => sent.positionSide.map .positionSide
  | .getOrderType => sent.type.map .orderType

/-! ## `OrderTracker`

Each function is written as the source has it, with `map[id]` as a lookup that inserts. So a call
that ends early leaves what it has inserted. -/

/-- How a call ends other than by returning. -/
inductive Fault where
  | stop (s : Stop)
  | nullOrder
  | nullWrapper
  deriving DecidableEq, Repr

/-- `OrderTracker::map`; an entry `some none` is a null pointer. -/
abbrev OrderMap := Str → Option (Option Order)

namespace OrderMap

variable (m : OrderMap) (id : Str)

/-- `map[id] = …` -/
def set (o : Order) : OrderMap := Function.update m id (some (some o))

/-- `map[id]->…`, which inserts a null pointer for an unknown id. -/
def deref : OrderMap × Except Fault Order :=
  match m id with
  | some (some o) => (m, .ok o)
  | some none => (m, .error .nullOrder)
  | none => (Function.update m id (some none), .error .nullOrder)

section Writers

variable (isDouble : Str → Bool)

/-- `map[id]->registerResponse(id, type, doc)`, the last line of two of the writers. -/
def registerAt (type : OrderTypeSent) (doc : JsonTree) : OrderMap × Except Fault Unit :=
  match m.deref id with
  | (m, .error fault) => (m, .error fault)
  | (m, .ok o) =>
      let r := o.registerResponse isDouble id type doc
      (m.set id r.1, r.2.mapError .stop)

/-- `registerOrderSent(id, …, doc)` -/
def registerOrderSent (sent : OrderSent) (doc : JsonTree) : OrderMap × Except Fault Unit :=
  (m.set id (.ofSent sent)).registerAt id isDouble (.of .NEW) doc

/-- `registerOrderResponse(id, type, doc)`: the order is built before `map[id]` is evaluated. -/
def registerOrderResponse (type : OrderTypeSent) (doc : JsonTree) :
    OrderMap × Except Fault Unit :=
  match Order.ofResponse isDouble id type doc with
  | .ok o => (m.set id o, .ok ())
  | .error stop => (m, .error (.stop stop))

/-- `updateOrderResponse(id, type, doc)` -/
def updateOrderResponse (type : OrderTypeSent) (doc : JsonTree) : OrderMap × Except Fault Unit :=
  match if (m id).isSome then (m, .ok ()) else m.registerOrderResponse id isDouble type doc with
  | (m, .ok _) => m.registerAt id isDouble type doc
  | stopped => stopped

end Writers

/-- `removeOrderResponse(id)` -/
def removeOrderResponse : OrderMap := Function.update m id none

/-- `getOrderTypeStatus(id)` -/
def getOrderTypeStatus : OrderMap × Except Fault (Option OrderTypeSent) :=
  if (m id).isSome then ((m.deref id).1, (m.deref id).2.map (·.type)) else (m, .ok (some .NONE))

/-- `getOrderStatusint(id)` -/
def getOrderStatusint : OrderMap × Except Fault (Option Int) :=
  if (m id).isSome then ((m.deref id).1, (m.deref id).2.map (·.status)) else (m, .ok (some 0))

/-- `getLock(id)`, which returns `map[id]->lock`. -/
def getLock : OrderMap × Except Fault Unit := ((m.deref id).1, (m.deref id).2.map (fun _ => ()))

/-- `getOrderPtr(id)`: the access it returns has locked `map[id]->lock`. -/
def getOrderPtr : OrderMap × Except Fault Order := m.deref id

/-- A getter of `OrderInfo::OrderSent`. -/
def getSent (g : SentGetter) : OrderMap × Except Fault (Option Value) :=
  ((m.getOrderPtr id).1, (m.getOrderPtr id).2.map (·.sent.get g))

/-- A getter of `OrderInfo::OrderResponse`. -/
def getResponse (g : Getter) : OrderMap × Except Fault (Option Value) :=
  ((m.getOrderPtr id).1, (m.getOrderPtr id).2.map (·.get g))

end OrderMap

/-- What `getAccountInfo` copies from a wrapper. -/
def accountInfoOf (wrapper : OrderResponsePtrWrapper) : AccountInfoLite where
  balance := wrapper.getAccount .balance (.fixed 0)
  availableBalance := wrapper.getAccount .availableBalance (.fixed 0)
  asset := wrapper.getAccount .asset (.text [])
  crossWalletBalance := wrapper.getAccount .crossWalletBalance (.fixed 0)
  updateTime := wrapper.getAccount .updateTime (.int64 0)

/-- `getAccountInfo(id, out)`, which does not look whether the wrapper is null. -/
def OrderMap.getAccountInfo (m : OrderMap) (id : Str) : OrderMap × Except Fault AccountInfoLite :=
  match m.getOrderPtr id with
  | (m, .error fault) => (m, .error fault)
  | (m, .ok o) =>
      match o.wrapper with
      | none => (m, .error .nullWrapper)
      | some wrapper => (m, .ok (accountInfoOf wrapper))

/-! ## Runs -/

/-- The calls that can throw. -/
inductive Write where
  | registerOrderSent (id : Str) (sent : OrderSent) (doc : JsonTree)
  | registerOrderResponse (id : Str) (type : OrderTypeSent) (doc : JsonTree)
  | updateOrderResponse (id : Str) (type : OrderTypeSent) (doc : JsonTree)

inductive Lookup where
  | getOrderTypeStatus
  | getOrderStatusint
  | getLock
  | getOrderPtr
  | getSent (g : SentGetter)
  | getResponse (g : Getter)
  | getAccountInfo
  deriving DecidableEq, Repr

inductive Call where
  | write (w : Write)
  | removeOrderResponse (id : Str)
  | lookup (l : Lookup) (id : Str)

section Run

variable (isDouble : Str → Bool) (m : OrderMap)

def Write.run : Write → OrderMap × Except Fault Unit
  | .registerOrderSent id sent doc => m.registerOrderSent id isDouble sent doc
  | .registerOrderResponse id type doc => m.registerOrderResponse id isDouble type doc
  | .updateOrderResponse id type doc => m.updateOrderResponse id isDouble type doc

/-- What a call leaves, and how it ends. -/
def ending {α : Type} (r : OrderMap × Except Fault α) : OrderMap × Except Fault Unit :=
  (r.1, r.2.map (fun _ => ()))

def Lookup.run (id : Str) : Lookup → OrderMap × Except Fault Unit
  | .getOrderTypeStatus => ending (m.getOrderTypeStatus id)
  | .getOrderStatusint => ending (m.getOrderStatusint id)
  | .getLock => ending (m.getLock id)
  | .getOrderPtr => ending (m.getOrderPtr id)
  | .getSent g => ending (m.getSent id g)
  | .getResponse g => ending (m.getResponse id g)
  | .getAccountInfo => ending (m.getAccountInfo id)

def Call.run : Call → OrderMap × Except Fault Unit
  | .write w => w.run isDouble m
  | .removeOrderResponse id => (m.removeOrderResponse id, .ok ())
  | .lookup l id => l.run m id

/-- The map after a call. A call that waits never returns, and keeps the lock of the map. -/
def track (c : Call) : Option OrderMap :=
  if (c.run isDouble m).2 = .error (.stop .waits) then none else some (c.run isDouble m).1

/-- The map of a new tracker. -/
def noOrders : OrderMap := fun _ => none

variable {isDouble m} in
theorem track_eq {m' : OrderMap} {c : Call} (h : track isDouble m c = some m') :
    m' = (c.run isDouble m).1 := by
  unfold track at h
  split at h
  · cases h
  · exact (Option.some.inj h).symm

end Run

/-! ## What the steps do -/

section Steps

variable {isDouble : Str → Bool} {m : OrderMap} {id : Str} {type : OrderTypeSent}
  {doc : JsonTree} {o : Order}

@[simp] theorem set_self (m : OrderMap) (id : Str) (o : Order) :
    m.set id o id = some (some o) := Function.update_self ..

theorem set_of_ne (m : OrderMap) (o : Order) {id id' : Str} (h : id' ≠ id) :
    m.set id o id' = m id' := Function.update_of_ne h ..

theorem set_set (m : OrderMap) (id : Str) (o o' : Order) : (m.set id o).set id o' = m.set id o' :=
  Function.update_idem ..

theorem deref_of_some (h : m id = some (some o)) : m.deref id = (m, .ok o) := by
  simp only [OrderMap.deref, h]

theorem deref_of_null (h : m id = some none) : m.deref id = (m, .error .nullOrder) := by
  simp only [OrderMap.deref, h]

theorem deref_of_none (h : m id = none) :
    m.deref id = (Function.update m id (some none), .error .nullOrder) := by
  simp only [OrderMap.deref, h]

theorem registerAt_of_some (h : m id = some (some o)) :
    m.registerAt id isDouble type doc =
      (m.set id (o.registerResponse isDouble id type doc).1,
        (o.registerResponse isDouble id type doc).2.mapError .stop) := by
  simp only [OrderMap.registerAt, deref_of_some h]

theorem registerOrderSent_eq (sent : OrderSent) :
    m.registerOrderSent id isDouble sent doc =
      (m.set id ((Order.ofSent sent).registerResponse isDouble id (.of .NEW) doc).1,
        ((Order.ofSent sent).registerResponse isDouble id (.of .NEW) doc).2.mapError .stop) := by
  rw [OrderMap.registerOrderSent, registerAt_of_some (set_self m id _), set_set]

theorem updateOrderResponse_of_some (h : m id = some (some o)) :
    m.updateOrderResponse id isDouble type doc =
      (m.set id (o.registerResponse isDouble id type doc).1,
        (o.registerResponse isDouble id type doc).2.mapError .stop) := by
  simp only [OrderMap.updateOrderResponse, h, Option.isSome_some, if_true]
  exact registerAt_of_some h

theorem updateOrderResponse_of_null (h : m id = some none) :
    m.updateOrderResponse id isDouble type doc = (m, .error .nullOrder) := by
  simp only [OrderMap.updateOrderResponse, h, Option.isSome_some, if_true, OrderMap.registerAt,
    deref_of_null h]

theorem makeWrapper_of_no_status (isDouble : Str → Bool) (type : OrderTypeSent)
    (hst : statusOf doc = none) : makeWrapper isDouble type doc = .error .throws := by
  cases type <;> simp [makeWrapper, constructWrapper, hst, valueOf, bind, Except.bind]

/-- Unless it throws, the constructor of a wrapper has read a status. -/
theorem statusOf_of_makeWrapper (h : makeWrapper isDouble type doc ≠ .error .throws) :
    ∃ status, statusOf doc = some status := by
  cases hst : statusOf doc with
  | some status => exact ⟨status, rfl⟩
  | none => exact absurd (makeWrapper_of_no_status isDouble type hst) h

theorem statusOf_isSome_of_makeWrapper {wrapper : OrderResponsePtrWrapper}
    (h : makeWrapper isDouble type doc = .ok wrapper) : ∃ status, statusOf doc = some status := by
  have hne : makeWrapper isDouble type doc ≠ .error .throws := by simp [h]
  exact statusOf_of_makeWrapper hne

/-- An order is built exactly when its wrapper is. -/
theorem ofResponse_eq (isDouble : Str → Bool) (id : Str) (type : OrderTypeSent) (doc : JsonTree) :
    Order.ofResponse isDouble id type doc = (makeWrapper isDouble type doc).map (fun wrapper =>
      { id, type := some type, wrapper := some wrapper, status := statusOf doc }) := by
  cases h : makeWrapper isDouble type doc with
  | error stop => simp [Order.ofResponse, h, bind, Except.bind, Except.map]
  | ok wrapper =>
      obtain ⟨status, hst⟩ := statusOf_isSome_of_makeWrapper h
      simp [Order.ofResponse, h, hst, valueOf, bind, Except.bind, pure, Except.pure, Except.map]

/-- A response is registered exactly when its wrapper is built. -/
theorem registerResponse_of_ok {wrapper : OrderResponsePtrWrapper}
    (h : makeWrapper isDouble type doc = .ok wrapper) :
    o.registerResponse isDouble id type doc =
      ({ o with id, type := some type, status := statusOf doc, wrapper := some wrapper },
        .ok ()) := by
  obtain ⟨status, hst⟩ := statusOf_isSome_of_makeWrapper h
  simp only [Order.registerResponse, hst, h]

/-- Without a wrapper the old one stays, but type and status are those of the document; the status
stays only where the document has none. -/
theorem registerResponse_of_error {stop : Stop} (h : makeWrapper isDouble type doc = .error stop) :
    o.registerResponse isDouble id type doc =
      ({ o with id, type := some type, status := (statusOf doc).or o.status }, .error stop) := by
  cases hst : statusOf doc with
  | some status => simp only [Order.registerResponse, hst, h, Option.some_or]
  | none =>
      rw [makeWrapper_of_no_status isDouble type hst] at h
      obtain rfl := Except.error.inj h
      simp only [Order.registerResponse, hst, Option.none_or]

/-- A response that does not throw assigns type and status. -/
theorem registerResponse_assigns (id : Str) (o : Order)
    (h : makeWrapper isDouble type doc ≠ .error .throws) :
    (o.registerResponse isDouble id type doc).1.type ≠ none ∧
      (o.registerResponse isDouble id type doc).1.status ≠ none ∧
      (o.registerResponse isDouble id type doc).2 ≠ .error .throws := by
  obtain ⟨status, hst⟩ := statusOf_of_makeWrapper h
  cases hw : makeWrapper isDouble type doc with
  | error stop =>
      rw [hw] at h
      rw [registerResponse_of_error hw, hst]
      exact ⟨by simp, by simp, by simpa using h⟩
  | ok wrapper =>
      rw [registerResponse_of_ok hw, hst]
      exact ⟨by simp, by simp, by simp⟩

/-- An update of an unknown id is a registration. -/
theorem updateOrderResponse_of_none (h : m id = none) :
    m.updateOrderResponse id isDouble type doc = m.registerOrderResponse id isDouble type doc := by
  have hnew : (m id).isSome = false := by rw [h]; rfl
  rw [OrderMap.updateOrderResponse, hnew, if_neg Bool.false_ne_true]
  cases hw : makeWrapper isDouble type doc with
  | error stop => simp [OrderMap.registerOrderResponse, ofResponse_eq, hw, Except.map]
  | ok wrapper =>
      have hbuilt := ofResponse_eq isDouble id type doc
      rw [hw] at hbuilt
      simp only [OrderMap.registerOrderResponse, hbuilt, Except.map]
      rw [registerAt_of_some (set_self m id _), registerResponse_of_ok hw, set_set]
      rfl

/-- The lookups that ask whether the map contains the id. -/
def Lookup.asks : Lookup → Bool
  | .getOrderTypeStatus | .getOrderStatusint => true
  | _ => false

/-- A lookup of an order returns, only `getAccountInfo` needs its wrapper. -/
theorem Lookup.run_of_some (h : m id = some (some o)) (l : Lookup) :
    l.run m id = (m, if l = .getAccountInfo ∧ o.wrapper = none then .error .nullWrapper
      else .ok ()) := by
  have hd := deref_of_some h
  cases l with
  | getAccountInfo =>
      simp only [Lookup.run, ending, OrderMap.getAccountInfo, OrderMap.getOrderPtr, hd]
      cases o.wrapper <;> rfl
  | getOrderTypeStatus => simp [Lookup.run, ending, OrderMap.getOrderTypeStatus, h, hd, Except.map]
  | getOrderStatusint => simp [Lookup.run, ending, OrderMap.getOrderStatusint, h, hd, Except.map]
  | getLock => simp [Lookup.run, ending, OrderMap.getLock, hd, Except.map]
  | getOrderPtr => simp [Lookup.run, ending, OrderMap.getOrderPtr, hd, Except.map]
  | getSent g =>
      simp [Lookup.run, ending, OrderMap.getSent, OrderMap.getOrderPtr, hd, Except.map]
  | getResponse g =>
      simp [Lookup.run, ending, OrderMap.getResponse, OrderMap.getOrderPtr, hd, Except.map]

/-- Without an order behind the id every lookup dereferences null, except where it asks first. -/
theorem Lookup.run_of_no_order (hd : (m.deref id).2 = .error .nullOrder) (l : Lookup) :
    l.run m id =
      if l.asks ∧ m id = none then (m, .ok ()) else ((m.deref id).1, .error .nullOrder) := by
  have hpair : m.deref id = ((m.deref id).1, .error .nullOrder) := Prod.ext rfl hd
  cases l with
  | getOrderTypeStatus =>
      simp only [Lookup.run, ending, OrderMap.getOrderTypeStatus, Lookup.asks]
      cases m id <;> simp [hd, Except.map]
  | getOrderStatusint =>
      simp only [Lookup.run, ending, OrderMap.getOrderStatusint, Lookup.asks]
      cases m id <;> simp [hd, Except.map]
  | getLock => simp [Lookup.run, ending, OrderMap.getLock, Lookup.asks, hd, Except.map]
  | getOrderPtr => simp [Lookup.run, ending, OrderMap.getOrderPtr, Lookup.asks, hd, Except.map]
  | getSent g =>
      simp [Lookup.run, ending, OrderMap.getSent, OrderMap.getOrderPtr, Lookup.asks, hd, Except.map]
  | getResponse g =>
      simp [Lookup.run, ending, OrderMap.getResponse, OrderMap.getOrderPtr, Lookup.asks, hd,
        Except.map]
  | getAccountInfo =>
      simp only [Lookup.run, ending, OrderMap.getAccountInfo, OrderMap.getOrderPtr, Lookup.asks]
      rw [hpair]
      simp [Except.map]

end Steps

/-! ## The statuses and the wrappers alone

The other models of the tracker keep less of it: `OrderTracker.lean` the statuses,
`AccountBalance.lean` the wrappers. Both follow this one, call by call. -/

/-- `t` has the statuses of `m`; one that was never assigned may be any number there. -/
def Follows (m : OrderMap) (t : OrderTracker) : Prop :=
  ∀ id, match m id with
    | none => t.map id = none
    | some none => False
    | some (some o) => ∃ v, t.map id = some ⟨v⟩ ∧ ∀ status, o.status = some status → v = status

section Follow

variable {isDouble : Str → Bool} {m : OrderMap} {t : OrderTracker} {id : Str} {o : Order}
  {doc : JsonTree}

theorem Follows.set (h : Follows m t) {v : Int}
    (hv : ∀ status, o.status = some status → v = status) :
    Follows (m.set id o) (t.set id ⟨v⟩) := by
  intro id'
  by_cases hid : id' = id
  · subst hid
    rw [set_self]
    exact ⟨v, Function.update_self .., hv⟩
  · rw [set_of_ne m o hid]
    have hother : (t.set id ⟨v⟩).map id' = t.map id' := Function.update_of_ne hid ..
    rw [hother]
    exact h id'

/-- The constructor of the wrapper ends as the tracker of statuses has it. -/
theorem makeWrapper_ends (isDouble : Str → Bool) (type : Order.OrderTypeSent) (doc : JsonTree) :
    orderResponsePtrWrapper type doc =
      (makeWrapper isDouble (.of type.kind) doc).map (fun _ => ()) :=
  orderResponsePtrWrapper_eq isDouble type doc

/-- **The tracker of statuses follows `registerOrderSent`.** -/
theorem Follows.registerOrderSent (h : Follows m t) (sent : OrderSent) (garbage : Int) :
    Follows (m.registerOrderSent id isDouble sent doc).1 (t.registerOrderSent id garbage doc).1 ∧
      (m.registerOrderSent id isDouble sent doc).2 =
        (t.registerOrderSent id garbage doc).2.mapError .stop := by
  have hends := makeWrapper_ends isDouble .NEW doc
  rw [registerOrderSent_eq, OrderTracker.registerOrderSent]
  cases hw : makeWrapper isDouble (.of .NEW) doc with
  | ok wrapper =>
      obtain ⟨status, hst⟩ := statusOf_isSome_of_makeWrapper hw
      rw [registerResponse_of_ok hw, hst]
      refine ⟨h.set fun status' he => Option.some.inj he, ?_⟩
      dsimp only
      rw [hends, Order.OrderTypeSent.kind, hw]
      rfl
  | error stop =>
      rw [registerResponse_of_error hw]
      cases hst : statusOf doc with
      | none =>
          rw [makeWrapper_of_no_status isDouble _ hst] at hw
          obtain rfl := Except.error.inj hw
          exact ⟨h.set fun status he => by simp [Order.ofSent] at he, rfl⟩
      | some status =>
          refine ⟨h.set fun status' he => Option.some.inj he, ?_⟩
          dsimp only
          rw [hends, Order.OrderTypeSent.kind, hw]
          rfl

/-- **The tracker of statuses follows `registerOrderResponse`.** -/
theorem Follows.registerOrderResponse (h : Follows m t) (type : Order.OrderTypeSent) :
    Follows (m.registerOrderResponse id isDouble (.of type.kind) doc).1
        (t.registerOrderResponse id type doc).1 ∧
      (m.registerOrderResponse id isDouble (.of type.kind) doc).2 =
        (t.registerOrderResponse id type doc).2.mapError .stop := by
  have hends := makeWrapper_ends isDouble type doc
  rw [OrderMap.registerOrderResponse, ofResponse_eq, OrderTracker.registerOrderResponse, hends]
  cases hw : makeWrapper isDouble (.of type.kind) doc with
  | error stop => exact ⟨h, rfl⟩
  | ok wrapper =>
      obtain ⟨status, hst⟩ := statusOf_isSome_of_makeWrapper hw
      rw [hst]
      exact ⟨h.set fun status' he => Option.some.inj he, rfl⟩

/-- **`getOrderStatusint` is the recorded status.** -/
theorem Follows.getOrderStatusint (h : Follows m t) (id : Str) :
    ∃ status, m.getOrderStatusint id = (m, .ok status) ∧
      ∀ n, status = some n → t.getOrderStatusint id = n := by
  have hid := h id
  unfold OrderMap.getOrderStatusint OrderTracker.getOrderStatusint
  rcases hm : m id with - | - | o
  · rw [hm] at hid
    dsimp only at hid
    rw [hid]
    exact ⟨some 0, rfl, fun n hn => Option.some.inj hn⟩
  · rw [hm] at hid
    exact hid.elim
  · rw [hm] at hid
    obtain ⟨v, ht, hv⟩ := hid
    rw [ht, deref_of_some hm]
    exact ⟨o.status, rfl, hv⟩

/-- The wrappers that the map leads to. -/
def OrderMap.wrappers (m : OrderMap) : Wrappers := fun id => (m id).bind (·.bind (·.wrapper))

/-- **`registerOrderResponse` registers the wrapper.** -/
theorem wrappers_registerOrderResponse (m : OrderMap) (id : Str) (kind : ResponseKind)
    (doc : JsonTree) :
    registerWrapper isDouble m.wrappers id kind doc =
      match m.registerOrderResponse id isDouble (.of kind) doc with
      | (m', .ok _) => .ok m'.wrappers
      | (_, .error _) => (makeWrapper isDouble (.of kind) doc).map (fun _ => m.wrappers) := by
  rw [OrderMap.registerOrderResponse, ofResponse_eq, registerWrapper]
  have hsame : constructWrapper isDouble kind doc = makeWrapper isDouble (.of kind) doc := rfl
  rw [hsame]
  cases hw : makeWrapper isDouble (.of kind) doc with
  | error stop => rfl
  | ok wrapper =>
      obtain ⟨status, hst⟩ := statusOf_isSome_of_makeWrapper hw
      rw [hst]
      refine congrArg Except.ok (funext fun id' => ?_)
      by_cases hid : id' = id
      · subst hid
        simp [OrderMap.wrappers]
      · simp [OrderMap.wrappers, set_of_ne m _ hid, hid]

/-- **`getAccountInfo` copies what the wrapper has.** -/
theorem getAccountInfo_ok_iff (m : OrderMap) (id : Str) (info : AccountInfoLite) :
    (m.getAccountInfo id).2 = .ok info ↔ getAccountInfo m.wrappers id = some info := by
  unfold OrderMap.getAccountInfo OrderMap.getOrderPtr getAccountInfo OrderMap.wrappers
  rcases hm : m id with - | - | o
  · rw [deref_of_none hm]
    simp
  · rw [deref_of_null hm]
    simp
  · rw [deref_of_some hm]
    cases hw : o.wrapper with
    | none => simp [hw]
    | some wrapper => simp [hw, accountInfoOf]

end Follow

end AstraConnect.Tracker
