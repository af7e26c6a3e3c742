import AstraConnect.Lib.Transition
import AstraConnect.Order.OrderTracker
import AstraConnect.Order.PlaceOrderParameters

set_option autoImplicit false

/-! # The order stream (`api/futures/order/orderStream.hpp`)

An `OrderStream` sends requests over one websocket and waits for the response to each. Its calls
share the parameters of an order, the request id and the tracker. What a call gets from outside
(the clock, the drawn UUID, the response) is an argument, `Env`. A call that throws is caught and
returns `FAIL` with the changes it made before; a call that waits for a ring buffer returns nothing.

`wire` is no member of the class: it records the payloads handed to
`WebsocketAPIStreamHolder::sendRequest`.
-/

namespace AstraConnect.Order

open Utils

/-- `AstraConnect::Utils::Fixed`, an `int64_t`. -/
abbrev Fixed := { v : Int // IntType.int64.InRange v }

/-- `formatFixed(v)`: its buffer holds every `int64_t`, see `formatFixed_isSome`. -/
def formatPx (v : Fixed) : Str := (formatFixed .int64 v).getD []

/-- The keys of an `APIManager` that can build an `OrderStream`: `requireAPIKey` and
`requirePrivateKey` throw on a missing one. -/
structure Credentials where
  apiKey : Str
  privateKey : Str
  apiKey_ne_nil : apiKey ≠ []
  privateKey_ne_nil : privateKey ≠ []

/-- The calls that send a request, with their arguments. -/
inductive Call where
  | sendNewOrder (posSide : PositionSide) (orderSide : OrderSide) (tif : TimeInForce)
      (orderType : OrderType) (pair : Str) (px qty : Fixed)
  | sendModifyOrder (posSide : PositionSide) (orderSide : OrderSide) (priceMatch : PriceMatchMode)
      (orderType : OrderType) (pair : Str) (px qty : Fixed) (binanceId : Str)
  | sendCancelOrder (pair binanceId : Str)
  | sendQueryOrder (pair binanceId : Str)
  | sendAccountInfoRequest

inductive RequestStatus where
  | SUCCESS | FAIL | UNKNOWN
  deriving DecidableEq, Repr

/-- What a call gets from outside. -/
structure Env where
  /-- `unixTimestampMS()` -/
  now : Int
  /-- The UUID that `generateID` draws. -/
  uuid : Str
  /-- What the memory of a new `Order` holds. -/
  garbage : Int
  /-- The document that `sendRequest` reads, `none` when the write or the read fails. -/
  reply : Option JsonTree

/-- The members that a request is built from. -/
structure RequestState where
  APIKey : RequestParameter
  privateKey : Str
  HMACKey : RequestParameter := ⟨"signature".toList, [], false⟩
  placeOrder : PlaceOrderParameters := {}
  requestId : RequestParameter := ⟨"id".toList, [], false⟩
  orderId : RequestParameter := ⟨"orderId".toList, [], false⟩
  deriving DecidableEq, Repr

structure OrderStream extends RequestState where
  orderTracker : OrderTracker := {}
  wire : List Str := []
  waiting : Bool := false

def methodPlaceOrder : RequestParameter := ⟨"method".toList, "order.place".toList, false⟩

def methodModifyOrder : RequestParameter := ⟨"method".toList, "order.modify".toList, false⟩

def methodCancelOrder : RequestParameter := ⟨"method".toList, "order.cancel".toList, false⟩

def methodQueryOrder : RequestParameter := ⟨"method".toList, "order.status".toList, false⟩

def methodAccountInfo : RequestParameter := ⟨"method".toList, "v2/account.balance".toList, false⟩

section Requests

variable (HMAC : Str → Str → List UInt8)

/-! ## `generateParamsForOrder`

Each overload writes its part of the parameters first and signs them then. What it writes stays,
also when a value is missing and the signing throws. -/

namespace RequestState

/-- How every overload ends: the parameters are put together, signed, and the signature is added.
`none` is the exception of `hmac_sha256`. -/
def signedParams (s : RequestState) (args : List RequestParameter) :
    RequestState × Option RequestParameter :=
  let out := RequestParameter.makeRequestFromRequestParameters ⟨"params".toList, [], false⟩ args
  match hmac_sha256 HMAC s.privateKey out.request with
  | none => (s, none)
  | some mac =>
      let HMACKey := s.HMACKey.withRequest mac
      ({ s with HMACKey }, some (out.addParameterToRequest HMACKey))

/-- The overload for a new order. -/
def generateParamsForNew (s : RequestState) (now : Int) (posSide : PositionSide)
    (orderSide : OrderSide) (tif : TimeInForce) (orderType : OrderType) (pair px qty : Str) :
    RequestState × Option RequestParameter :=
  let placeOrder := s.placeOrder.prepareOrder posSide orderSide tif orderType pair px qty now
  signedParams HMAC { s with placeOrder }
    [s.APIKey, placeOrder.positionSide, placeOrder.price, placeOrder.quantity, placeOrder.side,
      placeOrder.symbol, placeOrder.timeInForce, placeOrder.timestamp, placeOrder.type]

/-- The overload for a modification. -/
def generateParamsForModify (s : RequestState) (now : Int) (binanceId : Str)
    (posSide : PositionSide) (orderSide : OrderSide) (priceMatch : PriceMatchMode)
    (orderType : OrderType) (pair px qty : Str) : RequestState × Option RequestParameter :=
  let orderId := s.orderId.withRequest binanceId
  let placeOrder :=
    s.placeOrder.prepareModify posSide orderSide priceMatch orderType pair px qty now
  signedParams HMAC { s with orderId, placeOrder }
    [s.APIKey, orderId, placeOrder.type, placeOrder.positionSide, placeOrder.price,
      placeOrder.priceMatch, placeOrder.quantity, placeOrder.side, placeOrder.symbol,
      placeOrder.timestamp]

/-- The overload for an order that is named by its id. -/
def generateParamsForId (s : RequestState) (now : Int) (binanceId pair : Str) :
    RequestState × Option RequestParameter :=
  let orderId := s.orderId.withRequest binanceId
  signedParams HMAC { s with orderId }
    [s.APIKey, orderId, ⟨"symbol".toList, pair, false⟩,
      ⟨"timestamp".toList, to_string now, false⟩]

/-- The overload for the account info. -/
def generateParamsForAccount (s : RequestState) (now : Int) :
    RequestState × Option RequestParameter :=
  signedParams HMAC s [s.APIKey, ⟨"timestamp".toList, to_string now, false⟩]

/-- `generateParamsForOrder`, the overload that the call uses. -/
def generateParamsForOrder (s : RequestState) (now : Int) :
    Call → RequestState × Option RequestParameter
  | .sendNewOrder posSide orderSide tif orderType pair px qty =>
      generateParamsForNew HMAC s now posSide orderSide tif orderType pair (formatPx px)
        (formatPx qty)
  | .sendModifyOrder posSide orderSide priceMatch orderType pair px qty binanceId =>
      generateParamsForModify HMAC s now binanceId posSide orderSide priceMatch orderType pair
        (formatPx px) (formatPx qty)
  | .sendCancelOrder pair binanceId => generateParamsForId HMAC s now binanceId pair
  | .sendQueryOrder pair binanceId => generateParamsForId HMAC s now binanceId pair
  | .sendAccountInfoRequest => generateParamsForAccount HMAC s now

end RequestState

/-! ## The calls -/

namespace OrderStream

/-- The constructor. -/
def construct (cred : Credentials) : OrderStream :=
  { APIKey := ⟨"apiKey".toList, cred.apiKey, false⟩, privateKey := cred.privateKey }

/-- `requestId.request = boost::uuids::to_string(boost::uuids::random_generator()());` -/
def generateID (s : OrderStream) (uuid : Str) : OrderStream :=
  { s with requestId := s.requestId.withRequest uuid }

/-- `doc["result"].get_object().value().find_field("orderId").get_int64()` -/
def orderIdOf (doc : JsonTree) : Option Int := do
  let result ← doc.get "result".toList
  let fields ← result.getObject
  let field ← JsonTree.findField fields "orderId".toList
  field.getInt64

/-- `status / 100 == 4` -/
def IsRejection (status : Int) : Prop := status.tdiv 100 = 4

instance (status : Int) : Decidable (IsRejection status) := inferInstanceAs (Decidable (_ = _))

/-- How a call that names an order ends: what it returns for the status it goes by. -/
def report (s : OrderStream) (status : Int) (doc : JsonTree) : OrderStream × Option RequestStatus :=
  if status = 200 then
    match orderIdOf doc with
    | none => (s, some .FAIL)
    | some id =>
        match s.orderTracker.queueActiveOrderId id with
        | none => ({ s with waiting := true }, none)
        | some orderTracker => ({ s with orderTracker }, some .SUCCESS)
  else if IsRejection status then (s, some .FAIL)
  else (s, some .UNKNOWN)

/-- `orderStream.sendRequest(payload)`, as far as this side sees it. -/
def sendRequest (s : OrderStream) (payload : Str) : OrderStream :=
  { s with wire := s.wire ++ [payload] }

/-- What every call does up to the response, which `handle` then works on. -/
def exchange (s : OrderStream) (method : RequestParameter) (call : Call) (env : Env)
    (handle : OrderStream → JsonTree → OrderStream × Option RequestStatus) :
    OrderStream × Option RequestStatus :=
  match s.generateParamsForOrder HMAC env.now call with
  | (r, none) => ({ s with toRequestState := r }, some .FAIL)
  | (r, some params) =>
      let s := { s with toRequestState := r }
      let s := s.sendRequest (makeRequestFromRequestParameters [s.requestId, method, params])
      match env.reply with
      | none => (s, some .FAIL)
      | some doc => handle s doc

/-- The response to a new order is registered and its status read back from the tracker. -/
def handleNew (garbage : Int) (s : OrderStream) (doc : JsonTree) :
    OrderStream × Option RequestStatus :=
  let id := s.requestId.request
  match s.orderTracker.registerOrderSent id garbage doc with
  | (orderTracker, .error .throws) => ({ s with orderTracker }, some .FAIL)
  | (orderTracker, .error .waits) => ({ s with orderTracker, waiting := true }, none)
  | (orderTracker, .ok _) =>
      report { s with orderTracker } (orderTracker.getOrderStatusint id) doc

/-- The status is the one the tracker has for the current request id. -/
def handleTracked (s : OrderStream) (doc : JsonTree) : OrderStream × Option RequestStatus :=
  report s (s.orderTracker.getOrderStatusint s.requestId.request) doc

/-- The status is the response's own. -/
def handleAccountInfo (s : OrderStream) (doc : JsonTree) : OrderStream × Option RequestStatus :=
  match statusOf doc with
  | none => (s, some .FAIL)
  | some status =>
      if status = 200 then
        match s.orderTracker.registerOrderResponse s.requestId.request .ACCOUNT_INFO doc with
        | (orderTracker, .error .throws) => ({ s with orderTracker }, some .FAIL)
        | (orderTracker, .error .waits) => ({ s with orderTracker, waiting := true }, none)
        | (orderTracker, .ok _) => ({ s with orderTracker }, some .SUCCESS)
      else if IsRejection status then (s, some .FAIL)
      else (s, some .UNKNOWN)

/-- A call: the stream afterwards and the value returned, `none` when the call waits. -/
def send (s : OrderStream) (env : Env) : Call → OrderStream × Option RequestStatus
  | c@(.sendNewOrder ..) =>
      exchange HMAC (s.generateID env.uuid) methodPlaceOrder c env (handleNew env.garbage)
  | c@(.sendModifyOrder ..) => exchange HMAC s methodModifyOrder c env handleTracked
  | c@(.sendCancelOrder ..) => exchange HMAC s methodCancelOrder c env handleTracked
  | c@(.sendQueryOrder ..) => exchange HMAC s methodQueryOrder c env handleTracked
  | c@(.sendAccountInfoRequest) =>
      exchange HMAC (s.generateID env.uuid) methodAccountInfo c env handleAccountInfo

/-- What can be done with a stream. -/
inductive Action where
  | call (c : Call) (env : Env)
  | getLastOrderId

/-- One action; none is possible on a stream whose call waits, and `getLastOrderId` needs an id. -/
def step (s : OrderStream) : Action → Option OrderStream
  | .call c env => if s.waiting then none else some (s.send HMAC env c).1
  | .getLastOrderId =>
      match s.orderTracker.activeOrders with
      | [] => none
      | _ :: rest =>
          if s.waiting then none
          else some { s with orderTracker := { s.orderTracker with activeOrders := rest } }

/-! ## What a call changes

The requests are changed before the exchange, by the id and the parameters, and never after. The
tracker and its ring are changed after it. -/

/-- The requests and what they are built from are the same. -/
structure SameRequests (s s' : OrderStream) : Prop where
  toRequestState : s'.toRequestState = s.toRequestState
  wire : s'.wire = s.wire

theorem report_same (s : OrderStream) (status : Int) (doc : JsonTree) :
    SameRequests s (report s status doc).1 := by
  unfold report
  split_ifs
  · split
    · exact ⟨rfl, rfl⟩
    · split <;> exact ⟨rfl, rfl⟩
  · exact ⟨rfl, rfl⟩
  · exact ⟨rfl, rfl⟩

theorem handleNew_same (garbage : Int) (s : OrderStream) (doc : JsonTree) :
    SameRequests s (handleNew garbage s doc).1 := by
  simp only [handleNew]
  split
  · exact ⟨rfl, rfl⟩
  · exact ⟨rfl, rfl⟩
  · next orderTracker _ _ =>
      obtain ⟨h1, h2⟩ := report_same { s with orderTracker } _ doc
      exact ⟨h1, h2⟩

theorem handleAccountInfo_same (s : OrderStream) (doc : JsonTree) :
    SameRequests s (handleAccountInfo s doc).1 := by
  unfold handleAccountInfo
  split
  · exact ⟨rfl, rfl⟩
  · split_ifs
    · split <;> exact ⟨rfl, rfl⟩
    · exact ⟨rfl, rfl⟩
    · exact ⟨rfl, rfl⟩

end OrderStream

end Requests

namespace Call

/-- Whether the call starts with `generateID()`. -/
def drawsId : Call → Bool
  | sendNewOrder .. => true
  | sendModifyOrder .. => false
  | sendCancelOrder .. => false
  | sendQueryOrder .. => false
  | sendAccountInfoRequest => true

def method : Call → RequestParameter
  | sendNewOrder .. => methodPlaceOrder
  | sendModifyOrder .. => methodModifyOrder
  | sendCancelOrder .. => methodCancelOrder
  | sendQueryOrder .. => methodQueryOrder
  | sendAccountInfoRequest => methodAccountInfo

end Call

namespace OrderStream

variable {HMAC : Str → Str → List UInt8}

/-- The stream when the call builds its parameters. -/
def identified (s : OrderStream) (env : Env) (c : Call) : OrderStream :=
  if c.drawsId then s.generateID env.uuid else s

/-- The payload of a call, `none` when its parameters cannot be signed. -/
def payload (HMAC : Str → Str → List UInt8) (s : OrderStream) (env : Env) (c : Call) :
    Option Str :=
  ((s.identified env c).generateParamsForOrder HMAC env.now c).2.map fun params =>
    makeRequestFromRequestParameters [(s.identified env c).requestId, c.method, params]

theorem signedParams_requestId (r : RequestState) (args : List RequestParameter) :
    (r.signedParams HMAC args).1.requestId = r.requestId := by
  simp only [RequestState.signedParams]
  split <;> rfl

theorem generateParams_requestId (HMAC : Str → Str → List UInt8) (r : RequestState) (now : Int)
    (c : Call) :
    (r.generateParamsForOrder HMAC now c).1.requestId = r.requestId := by
  cases c <;> exact signedParams_requestId _ _

/-- A call through `exchange` whose handler leaves the requests alone. -/
theorem exchange_spec (s : OrderStream) (method : RequestParameter) (c : Call) (env : Env)
    {handle : OrderStream → JsonTree → OrderStream × Option RequestStatus}
    (hh : ∀ s doc, SameRequests s (handle s doc).1) :
    (exchange HMAC s method c env handle).1.toRequestState
        = (s.generateParamsForOrder HMAC env.now c).1 ∧
      (exchange HMAC s method c env handle).1.wire = s.wire ++
        ((s.generateParamsForOrder HMAC env.now c).2.map fun params =>
          makeRequestFromRequestParameters [s.requestId, method, params]).toList := by
  have hid := generateParams_requestId HMAC s.toRequestState env.now c
  unfold exchange
  rcases h : s.generateParamsForOrder HMAC env.now c with ⟨r, none | params⟩
  · simp
  · rw [h] at hid
    simp only [Option.map_some, Option.toList_some]
    rcases env.reply with - | doc
    · exact ⟨rfl, by rw [← hid]; rfl⟩
    · have hsame := hh (sendRequest { s with toRequestState := r }
        (makeRequestFromRequestParameters [r.requestId, method, params])) doc
      exact ⟨hsame.toRequestState, by rw [hsame.wire, ← hid]; rfl⟩

/-- **What a call does to the requests.** It leaves what its parameters leave, and hands at most
one payload to the socket. -/
theorem send_spec (HMAC : Str → Str → List UInt8) (s : OrderStream) (env : Env) (c : Call) :
    (s.send HMAC env c).1.toRequestState
        = ((s.identified env c).generateParamsForOrder HMAC env.now c).1 ∧
      (s.send HMAC env c).1.wire = s.wire ++ (s.payload HMAC env c).toList := by
  cases c with
  | sendNewOrder => exact exchange_spec _ _ _ _ (handleNew_same _)
  | sendModifyOrder => exact exchange_spec _ _ _ _ (fun s doc => report_same s _ doc)
  | sendCancelOrder => exact exchange_spec _ _ _ _ (fun s doc => report_same s _ doc)
  | sendQueryOrder => exact exchange_spec _ _ _ _ (fun s doc => report_same s _ doc)
  | sendAccountInfoRequest => exact exchange_spec _ _ _ _ handleAccountInfo_same

end OrderStream

end AstraConnect.Order
