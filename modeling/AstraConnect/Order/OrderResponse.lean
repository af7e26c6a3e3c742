import AstraConnect.Order.OrderTracker
import AstraConnect.Order.PlaceOrderParameters

set_option autoImplicit false

/-! # What the response objects hold (`orderResponseEvents.hpp`, `toEnum.hpp`)

The five `parseFields` are lists of assignments, made in the order of the source. An assignment
reads one key and writes one member; a name goes through `intermediateString`, which a failed
`get_string` leaves as it was. A member that is never assigned holds `none`: its value is
indeterminate. An exception leaves the members written before it. The member `status` keeps the
`int64` that was read, where the classes narrow it to `int`; no getter reports it.

`isDouble` is what `get_double_in_string` accepts.
-/

namespace AstraConnect.Order

open Utils

/-! ## Names

The `return…` functions compare with the names in upper and in lower case. They differ in what they
make of any other name: some throw, one takes it for `GTC`. -/

inductive OrderStatus where
  | NEW | PARTIALLY_FILLED | FILLED | CANCELED | EXPIRED | EXPIRED_IN_MATCH | NONE
  deriving DecidableEq, Repr

inductive WorkingType where
  | MARK_PRICE | CONTRACT_PRICE | NONE
  deriving DecidableEq, Repr

inductive STPMode where
  | NONE | EXPIRE_TAKER | EXPIRE_MAKER | EXPIRE_BOTH
  deriving DecidableEq, Repr

/-- The value of a member; a double is known by the text it was read from. -/
inductive Value where
  | int64 (n : Int)
  | fixed (v : Int)
  | bool (b : Bool)
  | text (s : Str)
  | double (s : Str)
  | orderStatus (x : OrderStatus)
  | timeInForce (x : TimeInForce)
  | orderType (x : OrderType)
  | orderSide (x : OrderSide)
  | positionSide (x : PositionSide)
  | workingType (x : WorkingType)
  | priceMatch (x : PriceMatchMode)
  | stpMode (x : STPMode)
  deriving DecidableEq, Repr

/-- A `return…` function: the names it knows, in upper or in lower case, and what it returns for
any other; without a fallback it throws. -/
structure Names where
  table : List (Str × Value)
  fallback : Option Value
  deriving DecidableEq, Repr

def Names.convert (names : Names) (s : Str) : Option Value :=
  ((names.table.find? (fun e => s = e.1 ∨ s = e.1.map Char.toLower)).map (·.2)).or names.fallback

def returnOrderStatus : Names where
  table := [("NEW".toList, .orderStatus .NEW),
    ("PARTIALLY_FILLED".toList, .orderStatus .PARTIALLY_FILLED),
    ("FILLED".toList, .orderStatus .FILLED), ("CANCELED".toList, .orderStatus .CANCELED),
    ("EXPIRED".toList, .orderStatus .EXPIRED),
    ("EXPIRED_IN_MATCH".toList, .orderStatus .EXPIRED_IN_MATCH)]
  fallback := none

/-- Unknown names are `GTC`. -/
def returnTimeInForce : Names where
  table := [("GTC".toList, .timeInForce .GTC), ("IOC".toList, .timeInForce .IOC),
    ("FOK".toList, .timeInForce .FOK), ("GTX".toList, .timeInForce .GTX)]
  fallback := some (.timeInForce .GTC)

def returnOrderType : Names where
  table := [("LIMIT".toList, .orderType .LIMIT), ("MARKET".toList, .orderType .MARKET),
    ("STOP".toList, .orderType .STOP), ("STOP_MARKET".toList, .orderType .STOP_MARKET),
    ("TAKE_PROFIT".toList, .orderType .TAKE_PROFIT),
    ("TAKE_PROFIT_MARKET".toList, .orderType .TAKE_PROFIT_MARKET),
    ("TRAILING_STOP_MARKET".toList, .orderType .TRAILING_STOP_MARKET),
    ("LIQUIDATION".toList, .orderType .LIQUIDATION)]
  fallback := none

def returnOrderSide : Names where
  table := [("SELL".toList, .orderSide .SELL), ("BUY".toList, .orderSide .BUY)]
  fallback := none

def returnPositionSide : Names where
  table := [("BOTH".toList, .positionSide .BOTH), ("LONG".toList, .positionSide .LONG),
    ("SHORT".toList, .positionSide .SHORT)]
  fallback := none

def returnWorkingType : Names where
  table := [("MARK_PRICE".toList, .workingType .MARK_PRICE),
    ("CONTRACT_PRICE".toList, .workingType .CONTRACT_PRICE)]
  fallback := none

def returnPriceMatchMode : Names where
  table := [("NONE".toList, .priceMatch .NONE), ("OPPONENT".toList, .priceMatch .OPPONENT),
    ("QUEUE".toList, .priceMatch .QUEUE), ("MAKER".toList, .priceMatch .MAKER),
    ("BIDDER".toList, .priceMatch .BIDDER)]
  fallback := none

def returnSTPMode : Names where
  table := [("NONE".toList, .stpMode .NONE), ("EXPIRE_TAKER".toList, .stpMode .EXPIRE_TAKER),
    ("EXPIRE_MAKER".toList, .stpMode .EXPIRE_MAKER), ("EXPIRE_BOTH".toList, .stpMode .EXPIRE_BOTH)]
  fallback := none

/-! ## Assignments

A response is a function from members to values. The lists of assignments are read against the
`parseFields` line by line; what is the same in all five classes is said once, in `readBefore` and
`parseFields`. -/

/-- The members of the response classes; a class has those that its `parseFields` assigns, and
`closePosition`. -/
inductive Member where
  | id | status
  | orderId | symbol | orderStatus | clientOrderId | price | avgPrice | origQty | executedQty
  | cumQty | cumQuote | timeInForce | type | reduceOnly | closePosition | side | positionSide
  | stopPrice | workingType | priceProtect | origType | priceMatch | selfTradePreventionMode
  | goodTillDate | time | updateTime | activatePrice | priceRate
  | accountAlias | asset | balance | crossWalletBalance | crossUnPnl | availableBalance
  | maxWithdrawAmount | marginAvailable
  deriving DecidableEq, Repr

inductive FieldReader where
  | int64
  | bool
  | fixed
  /-- `get_string` into the member, the error ignored -/
  | text
  /-- `get_string` into `intermediateString`, the error ignored, and a `return…` function -/
  | name (names : Names)
  deriving DecidableEq, Repr

/-- `get_string()` of a key that may be missing. -/
def stringOf (field : Option JsonTree) : Option Str := field.bind JsonTree.getString

/-- The value that the field itself stands for. -/
def FieldReader.decode (field : Option JsonTree) : FieldReader → Option Value
  | .int64 => (field.bind JsonTree.getInt64).map .int64
  | .bool => (field.bind JsonTree.getBool).map .bool
  | .fixed => (readFixed field).toOption.map .fixed
  | .text => (stringOf field).map .text
  | .name names => (stringOf field).bind names.convert

inductive Assign where
  | field (member : Member) (key : Str) (reader : FieldReader)
  /-- `if(type == OrderType::TRAILING_STOP_MARKET) { activatePrice = …; priceRate = …; }` -/
  | trailingStop
  deriving DecidableEq, Repr

abbrev Members := Member → Option Value

/-- A response object under construction, and `intermediateString`. -/
structure Reading where
  members : Members
  buffer : Str

namespace Reading

def set (r : Reading) (m : Member) (v : Value) : Reading :=
  { r with members := Function.update r.members m (some v) }

/-- The strings are empty and the members with an initialiser are zero. -/
def initial : Reading where
  members := fun
    | .id => some (.text [])
    | .symbol => some (.text [])
    | .clientOrderId => some (.text [])
    | .accountAlias => some (.text [])
    | .asset => some (.text [])
    | .activatePrice => some (.fixed 0)
    | .priceRate => some (.double "0".toList)
    | _ => none
  buffer := []

/-- An assignment that throws when there is no value. -/
def setValue (r : Reading) (m : Member) : Option Value → Reading × Exec Unit
  | some v => (r.set m v, .ok ())
  | none => (r, .error .throws)

end Reading

section Parse

variable (isDouble : Str → Bool)

def Assign.run (obj : JsonTree) (r : Reading) : Assign → Reading × Exec Unit
  | .field m key .text =>
      match stringOf (obj.get key) with
      | some s => (r.set m (.text s), .ok ())
      | none => (r, .ok ())
  | .field m key (.name names) =>
      let text := (stringOf (obj.get key)).getD r.buffer
      { r with buffer := text }.setValue m (names.convert text)
  | .field m key reader => r.setValue m (reader.decode (obj.get key))
  | .trailingStop =>
      if r.members .type = some (.orderType .TRAILING_STOP_MARKET) then
        let activatePrice := FieldReader.fixed.decode (obj.get "activatePrice".toList)
        let priceRate := ((stringOf (obj.get "priceRate".toList)).filter isDouble).map .double
        match r.setValue .activatePrice activatePrice with
        | (r', .ok _) => r'.setValue .priceRate priceRate
        | stopped => stopped
      else (r, .ok ())

/-- The assignments one after the other, up to one that throws. -/
def assignAll (obj : JsonTree) : List Assign → Reading → Reading × Exec Unit
  | [], r => (r, .ok ())
  | a :: rest, r =>
      match a.run isDouble obj r with
      | (r', .ok _) => assignAll obj rest r'
      | stopped => stopped

/-- `OrderTypeSent` without `NONE`. -/
inductive ResponseKind where
  | NEW | MODIFY | CANCEL | QUERY | ACCOUNT_INFO
  deriving DecidableEq, Repr

open FieldReader in
/-- `OrderNewResponse::parseFields` and `OrderModifyResponse::parseFields`. -/
def newOrderAssigns : List Assign :=
  [.field .orderId "orderId".toList int64, .field .symbol "symbol".toList text,
    .field .orderStatus "status".toList (name returnOrderStatus),
    .field .clientOrderId "clientOrderId".toList text,
    .field .price "price".toList fixed, .field .avgPrice "avgPrice".toList fixed,
    .field .origQty "origQty".toList fixed, .field .executedQty "executedQty".toList fixed,
    .field .cumQty "cumQty".toList fixed, .field .cumQuote "cumQuote".toList fixed,
    .field .timeInForce "timeInForce".toList (name returnTimeInForce),
    .field .type "type".toList (name returnOrderType),
    .field .reduceOnly "reduceOnly".toList bool,
    .field .side "side".toList (name returnOrderSide),
    .field .positionSide "positionSide".toList (name returnPositionSide),
    .field .stopPrice "stopPrice".toList fixed,
    .field .workingType "workingType".toList (name returnWorkingType),
    .field .priceProtect "priceProtect".toList bool,
    .field .origType "origType".toList (name returnOrderType),
    .field .priceMatch "priceMatch".toList (name returnPriceMatchMode),
    .field .selfTradePreventionMode "selfTradePreventionMode".toList (name returnSTPMode),
    .field .goodTillDate "goodTillDate".toList int64,
    .field .updateTime "updateTime".toList int64]

open FieldReader in
/-- `OrderCancelResponse::parseFields` -/
def cancelOrderAssigns : List Assign :=
  [.field .clientOrderId "clientOrderId".toList text, .field .cumQty "cumQty".toList fixed,
    .field .cumQuote "cumQuote".toList fixed, .field .executedQty "executedQty".toList fixed,
    .field .orderId "orderId".toList int64, .field .origQty "origQty".toList fixed,
    .field .origType "origType".toList (name returnOrderType),
    .field .price "price".toList fixed, .field .reduceOnly "reduceOnly".toList bool,
    .field .side "side".toList (name returnOrderSide),
    .field .positionSide "positionSide".toList (name returnPositionSide),
    .field .orderStatus "status".toList (name returnOrderStatus),
    .field .stopPrice "stopPrice".toList fixed,
    .field .closePosition "closePosition".toList bool,
    .field .symbol "symbol".toList text,
    .field .timeInForce "timeInForce".toList (name returnTimeInForce),
    .field .type "type".toList (name returnOrderType), .trailingStop,
    .field .updateTime "updateTime".toList int64,
    .field .workingType "workingType".toList (name returnWorkingType),
    .field .priceProtect "priceProtect".toList bool,
    .field .priceMatch "priceMatch".toList (name returnPriceMatchMode),
    .field .selfTradePreventionMode "selfTradePreventionMode".toList (name returnSTPMode),
    .field .goodTillDate "goodTillDate".toList int64]

open FieldReader in
/-- `QueryOrderResponse::parseFields`, whose `status` is the status of the order. -/
def queryOrderAssigns : List Assign :=
  [.field .orderId "orderId".toList int64, .field .clientOrderId "clientOrderId".toList text,
    .field .symbol "symbol".toList text,
    .field .avgPrice "avgPrice".toList fixed, .field .cumQuote "cumQuote".toList fixed,
    .field .executedQty "executedQty".toList fixed, .field .origQty "origQty".toList fixed,
    .field .price "price".toList fixed, .field .stopPrice "stopPrice".toList fixed,
    .field .reduceOnly "reduceOnly".toList bool,
    .field .closePosition "closePosition".toList bool,
    .field .priceProtect "priceProtect".toList bool,
    .field .side "side".toList (name returnOrderSide),
    .field .positionSide "positionSide".toList (name returnPositionSide),
    .field .orderStatus "status".toList (name returnOrderStatus),
    .field .timeInForce "timeInForce".toList (name returnTimeInForce),
    .field .type "type".toList (name returnOrderType), .trailingStop,
    .field .workingType "workingType".toList (name returnWorkingType),
    .field .time "time".toList int64, .field .updateTime "updateTime".toList int64]

/-- `doc["id"].get_string(id); status = doc["status"].get_int64().value();` -/
def headAssigns : List Assign :=
  [.field .id "id".toList .text, .field .status "status".toList .int64]

/-- `doc["result"]` -/
def resultOf (doc : JsonTree) : JsonTree := (doc.get "result".toList).getD .null

/-- The fields of `result` in the classes that take it as an object. -/
def readResult (assigns : List Assign) (doc : JsonTree) : Reading × Exec Unit :=
  match assignAll isDouble doc headAssigns .initial with
  | (r, .ok _) =>
      if (resultOf doc).getObject.isSome then assignAll isDouble (resultOf doc) assigns r
      else (r, .error .throws)
  | stopped => stopped

open FieldReader in
/-- The numbers of an element of `AccountInfoResponse`. -/
def balanceAssigns : List Assign :=
  [.field .balance "balance".toList fixed,
    .field .crossWalletBalance "crossWalletBalance".toList fixed,
    .field .crossUnPnl "crossUnPnl".toList fixed,
    .field .availableBalance "availableBalance".toList fixed,
    .field .maxWithdrawAmount "maxWithdrawAmount".toList fixed,
    .field .marginAvailable "marginAvailable".toList bool,
    .field .updateTime "updateTime".toList int64]

def assetAssigns : List Assign :=
  [.field .accountAlias "accountAlias".toList .text, .field .asset "asset".toList .text]

/-- `for (auto elem : resultArray) { …; if(asset != "USDT") continue; …; break; }` -/
def readElements : List JsonTree → Reading → Reading × Exec Unit
  | [], r => (r, .ok ())
  | elem :: rest, r =>
      if elem.getObject.isSome then
        let named := (assignAll isDouble elem assetAssigns r).1
        if named.members .asset ≠ some (.text "USDT".toList) then readElements rest named
        else assignAll isDouble elem balanceAssigns named
      else (r, .error .throws)

/-- `parseFields` up to the rate limits. -/
def readBefore (doc : JsonTree) : ResponseKind → Reading × Exec Unit
  | .NEW => readResult isDouble newOrderAssigns doc
  | .MODIFY => readResult isDouble newOrderAssigns doc
  | .CANCEL => readResult isDouble cancelOrderAssigns doc
  | .QUERY => assignAll isDouble (resultOf doc) queryOrderAssigns .initial
  | .ACCOUNT_INFO =>
      match assignAll isDouble doc headAssigns .initial with
      | (r, .ok _) =>
          match (resultOf doc).getArray with
          | some resultArray => readElements isDouble resultArray r
          | none => (r, .error .throws)
      | stopped => stopped

/-- `parseFields` without its `try`: what it has assigned, and how it ends. -/
def parseFields (kind : ResponseKind) (doc : JsonTree) : Reading × Exec Unit :=
  match readBefore isDouble doc kind with
  | (r, .ok _) => (r, readRateLimits doc)
  | stopped => stopped

/-- The `parseFields` that catch every exception. -/
def ResponseKind.catches : ResponseKind → Bool
  | .NEW => true
  | .ACCOUNT_INFO => true
  | _ => false

/-- The constructor of the response class. -/
def constructResponse (kind : ResponseKind) (doc : JsonTree) : Exec Members :=
  match parseFields isDouble kind doc with
  | (r, .ok _) => .ok r.members
  | (r, .error .throws) => if kind.catches then .ok r.members else .error .throws
  | (_, .error .waits) => .error .waits

/-! ## The wrapper -/

/-- The pointers of `OrderResponsePtrWrapper`. -/
structure OrderResponsePtrWrapper where
  response : ResponseKind → Option Members
  /-- the code and the message of `error` -/
  error : Option (Int × Str)

/-- The constructor. -/
def constructWrapper (kind : ResponseKind) (doc : JsonTree) : Exec OrderResponsePtrWrapper := do
  let status ← valueOf (statusOf doc)
  if status = 200 then
    let members ← constructResponse isDouble kind doc
    return ⟨Function.update (fun _ => none) kind (some members), none⟩
  else
    let obj ← valueOf ((doc.get "error".toList).bind JsonTree.getObject)
    let code ← valueOf ((JsonTree.findField obj "code".toList).bind JsonTree.getInt64)
    return ⟨fun _ => none,
      some (code, (stringOf (JsonTree.findField obj "msg".toList)).getD [])⟩

end Parse

/-- The getters that take the type of the order. -/
inductive Getter where
  | getOrderId | getSymbol | getPrice | getOrigQty | getExecutedQty | getCumQty | getCumQuote
  | getAvgPrice | getOrderStatus | getTimeInForce | getOrderSide | getPositionSide | getWorkingType
  | getOrigType | getPriceMatchMode | getSelfTradePreventionMode | getGoodTillDate | getReduceOnly
  | getClosePosition | getPriceProtect | getUpdateTime
  deriving DecidableEq, Repr

namespace Getter

/-- What the `default` case returns. -/
def default : Getter → Value
  | getOrderId => .int64 (-1)
  | getSymbol => .text []
  | getPrice | getOrigQty | getExecutedQty | getCumQty | getCumQuote | getAvgPrice => .fixed 0
  | getOrderStatus => .orderStatus .NONE
  | getTimeInForce => .timeInForce .NONE
  | getOrderSide => .orderSide .NONE
  | getPositionSide => .positionSide .NONE
  | getWorkingType => .workingType .NONE
  | getOrigType => .orderType .NONE
  | getPriceMatchMode => .priceMatch .NONE
  | getSelfTradePreventionMode => .stpMode .NONE
  | getGoodTillDate | getUpdateTime => .int64 0
  | getReduceOnly | getClosePosition | getPriceProtect => .bool false

/-- The cases NEW, CANCEL, MODIFY and QUERY, which return the same member. -/
def everyCase (m : Member) : List (ResponseKind × Member) :=
  [(.NEW, m), (.CANCEL, m), (.MODIFY, m), (.QUERY, m)]

/-- The cases of the `switch`, in order, and the members they return. -/
def cases : Getter → List (ResponseKind × Member)
  | getOrderId => everyCase .orderId
  | getSymbol => everyCase .symbol
  | getPrice => everyCase .price
  | getOrigQty => everyCase .origQty
  | getExecutedQty => everyCase .executedQty
  | getCumQty =>
      [(.NEW, .cumQty), (.CANCEL, .cumQty), (.MODIFY, .cumQty), (.QUERY, .executedQty)]
  | getCumQuote => everyCase .cumQuote
  | getAvgPrice => [(.NEW, .avgPrice), (.MODIFY, .avgPrice), (.QUERY, .avgPrice)]
  | getOrderStatus => everyCase .orderStatus
  | getTimeInForce => everyCase .timeInForce
  | getOrderSide => everyCase .side
  | getPositionSide => everyCase .positionSide
  | getWorkingType => everyCase .workingType
  | getOrigType =>
      [(.NEW, .origType), (.CANCEL, .origType), (.MODIFY, .origType), (.QUERY, .type)]
  | getPriceMatchMode => [(.NEW, .priceMatch), (.CANCEL, .priceMatch), (.MODIFY, .priceMatch)]
  | getSelfTradePreventionMode =>
      [(.NEW, .selfTradePreventionMode), (.CANCEL, .selfTradePreventionMode),
        (.MODIFY, .selfTradePreventionMode)]
  | getGoodTillDate =>
      [(.NEW, .goodTillDate), (.CANCEL, .goodTillDate), (.MODIFY, .goodTillDate)]
  | getReduceOnly => everyCase .reduceOnly
  | getClosePosition => everyCase .closePosition
  | getPriceProtect => everyCase .priceProtect
  | getUpdateTime => everyCase .updateTime

end Getter

namespace OrderResponsePtrWrapper

/-- The cases from the label on: a case whose pointer is null falls through to the next. -/
def fallThrough (w : OrderResponsePtrWrapper) (g : Getter) :
    List (ResponseKind × Member) → Option Value
  | [] => some g.default
  | (kind, m) :: rest =>
      match w.response kind with
      | some members => members m
      | none => w.fallThrough g rest

/-- A getter called with the type `event`; `none` when the value returned is indeterminate. -/
def get (w : OrderResponsePtrWrapper) (g : Getter) (event : ResponseKind) : Option Value :=
  w.fallThrough g (g.cases.dropWhile (fun c => c.1 ≠ event))

end OrderResponsePtrWrapper

end AstraConnect.Order
