import AstraConnect.Order.RequestText

set_option autoImplicit false

/-! # What a request keeps of the calls before it

All calls of an `OrderStream` write the same `PlaceOrderParameters`. `Leftover` says what a history
of calls leaves there: for a parameter whose `switch` has no case for `NONE` the last value that was
written, and for the field of the order type the name of the last overload that named it. From this
follows when two histories lead to the same parameters for the same call.
-/

namespace AstraConnect.Order

open RequestParameter Transition

/-! ## Histories -/

namespace Call

/-- What the call writes to `positionSide`. -/
def positionSide : Call → Option Str
  | sendNewOrder posSide .. => posSide.text
  | sendModifyOrder posSide .. => posSide.text
  | _ => none

/-- What the call writes to `timeInForce`. -/
def timeInForce : Call → Option Str
  | sendNewOrder _ _ tif .. => tif.text
  | _ => none

/-- What the call writes to `type`. -/
def orderType : Call → Option Str
  | sendNewOrder _ _ _ orderType .. => orderType.text
  | sendModifyOrder _ _ _ orderType .. => orderType.text
  | _ => none

def isModify : Call → Bool
  | sendModifyOrder .. => true
  | _ => false

end Call

/-- The value that the calls wrote last, empty when none did. -/
def lastWritten (f : Call → Option Str) (h : List Call) : Str :=
  h.foldl (fun last c => (f c).getD last) []

/-- The name under which the order type is sent after the calls `h`. -/
def typeField (h : List Call) : Str :=
  if h.any Call.isModify then "origType".toList else "type".toList

/-- The calls of a history. -/
def calls : List OrderStream.Action → List Call
  | [] => []
  | .call c _ :: as => c :: calls as
  | .getLastOrderId :: as => calls as

theorem lastWritten_concat (f : Call → Option Str) (h : List Call) (c : Call) :
    lastWritten f (h ++ [c]) = (f c).getD (lastWritten f h) := by
  rw [lastWritten, List.foldl_append]
  rfl

theorem typeField_concat (h : List Call) (c : Call) :
    typeField (h ++ [c]) = if c.isModify then "origType".toList else typeField h := by
  simp only [typeField, List.any_append, List.any_cons, List.any_nil, Bool.or_false,
    Bool.or_eq_true]
  split_ifs <;> simp_all

theorem quote_notMem_lastWritten {f : Call → Option Str}
    (hf : ∀ c t, f c = some t → '"' ∉ t) (h : List Call) : '"' ∉ lastWritten f h := by
  induction h using List.reverseRecOn with
  | nil => exact List.not_mem_nil
  | append_singleton h c ih =>
      rw [lastWritten_concat]
      rcases hc : f c with - | t
      · exact ih
      · exact hf c t hc

theorem Call.quote_notMem_positionSide (c : Call) (t : Str) (h : c.positionSide = some t) :
    '"' ∉ t := by
  cases c with
  | sendNewOrder => exact (PositionSide.text_spec h).2
  | sendModifyOrder => exact (PositionSide.text_spec h).2
  | sendCancelOrder => nomatch h
  | sendQueryOrder => nomatch h
  | sendAccountInfoRequest => nomatch h

theorem Call.quote_notMem_timeInForce (c : Call) (t : Str) (h : c.timeInForce = some t) :
    '"' ∉ t := by
  cases c with
  | sendNewOrder => exact (TimeInForce.text_spec h).2
  | sendModifyOrder => nomatch h
  | sendCancelOrder => nomatch h
  | sendQueryOrder => nomatch h
  | sendAccountInfoRequest => nomatch h

theorem Call.quote_notMem_orderType (c : Call) (t : Str) (h : c.orderType = some t) :
    '"' ∉ t := by
  cases c with
  | sendNewOrder => exact (OrderType.text_spec h).2
  | sendModifyOrder => exact (OrderType.text_spec h).2
  | sendCancelOrder => nomatch h
  | sendQueryOrder => nomatch h
  | sendAccountInfoRequest => nomatch h

/-! ## What a history leaves

By induction on the run: each call writes its values over those of the calls before, and leaves a
field alone where its `switch` has no case. -/

/-- The parameters with the given values, the order type under the name `typeName`. -/
def written (positionSide timeInForce typeName type price quantity side symbol timestamp
    priceMatch : Str) : PlaceOrderParameters where
  positionSide := ⟨"positionSide".toList, positionSide, false⟩
  price := ⟨"price".toList, price, false⟩
  quantity := ⟨"quantity".toList, quantity, false⟩
  side := ⟨"side".toList, side, false⟩
  symbol := ⟨"symbol".toList, symbol, false⟩
  timeInForce := ⟨"timeInForce".toList, timeInForce, false⟩
  timestamp := ⟨"timestamp".toList, timestamp, false⟩
  type := ⟨typeName, type, false⟩
  priceMatch := ⟨"priceMatch".toList, priceMatch, false⟩

/-- The parameters after the calls `h`, the ones that every order writes given. -/
def leftover (h : List Call) : Str → Str → Str → Str → Str → Str → PlaceOrderParameters :=
  written (lastWritten Call.positionSide h) (lastWritten Call.timeInForce h) (typeField h)
    (lastWritten Call.orderType h)

/-- What the calls `h` leave of the members that requests are built from. -/
structure Leftover (cred : Credentials) (h : List Call) (r : RequestState) : Prop where
  APIKey : r.APIKey = ⟨"apiKey".toList, cred.apiKey, false⟩
  privateKey : r.privateKey = cred.privateKey
  HMACKey : r.HMACKey.requestField = "signature".toList
  orderId : ∃ v, r.orderId = ⟨"orderId".toList, v, false⟩
  requestId : ∃ v, r.requestId = ⟨"id".toList, v, false⟩
  placeOrder : ∃ price quantity side symbol timestamp priceMatch,
    r.placeOrder = leftover h price quantity side symbol timestamp priceMatch

variable {HMAC : Str → Str → List UInt8} {cred : Credentials} {h : List Call} {r : RequestState}

theorem prepareOrder_leftover (posSide : PositionSide) (orderSide : OrderSide) (tif : TimeInForce)
    (orderType : OrderType) (pair : Str) (px qty : Fixed) (now : Int)
    (price quantity side symbol timestamp priceMatch : Str) :
    (leftover h price quantity side symbol timestamp priceMatch).prepareOrder posSide orderSide tif
        orderType pair (formatPx px) (formatPx qty) now
      = leftover (h ++ [.sendNewOrder posSide orderSide tif orderType pair px qty]) (formatPx px)
          (formatPx qty) orderSide.text pair (to_string now) priceMatch := by
  rw [leftover, leftover, lastWritten_concat, lastWritten_concat, lastWritten_concat,
    typeField_concat]
  rfl

theorem prepareModify_leftover (posSide : PositionSide) (orderSide : OrderSide)
    (mode : PriceMatchMode) (orderType : OrderType) (pair : Str) (px qty : Fixed) (binanceId : Str)
    (now : Int) (price quantity side symbol timestamp priceMatch : Str) :
    (leftover h price quantity side symbol timestamp priceMatch).prepareModify posSide orderSide
        mode orderType pair (formatPx px) (formatPx qty) now
      = leftover (h ++ [.sendModifyOrder posSide orderSide mode orderType pair px qty binanceId])
          (formatPx px) (formatPx qty) orderSide.text pair (to_string now)
          (mode.text.getD priceMatch) := by
  rw [leftover, leftover, lastWritten_concat, lastWritten_concat, lastWritten_concat,
    typeField_concat]
  rfl

/-- The calls that leave `PlaceOrderParameters` alone. -/
theorem leftover_concat {c : Call} (hpos : c.positionSide = none) (htif : c.timeInForce = none)
    (htype : c.orderType = none) (hmod : c.isModify = false) :
    leftover (h ++ [c]) = leftover h := by
  rw [leftover, leftover, lastWritten_concat, lastWritten_concat, lastWritten_concat,
    typeField_concat, hpos, htif, htype, hmod]
  rfl

theorem signedParams_fst (HMAC : Str → Str → List UInt8) (r : RequestState)
    (args : List RequestParameter) :
    ∃ mac, (r.signedParams HMAC args).1 = { r with HMACKey := r.HMACKey.withRequest mac } := by
  simp only [RequestState.signedParams]
  split
  · exact ⟨r.HMACKey.request, rfl⟩
  · next mac _ => exact ⟨mac, rfl⟩

/-- Signing changes nothing but the signature. -/
theorem Leftover.signed {args : List RequestParameter} (hl : Leftover cred h r) :
    Leftover cred h (r.signedParams HMAC args).1 := by
  obtain ⟨mac, hmac⟩ := signedParams_fst HMAC r args
  rw [hmac]
  exact ⟨hl.APIKey, hl.privateKey, hl.HMACKey, hl.orderId, hl.requestId, hl.placeOrder⟩

/-- One call. -/
theorem Leftover.generateParams (hl : Leftover cred h r) (now : Int) (c : Call) :
    Leftover cred (h ++ [c]) (r.generateParamsForOrder HMAC now c).1 := by
  obtain ⟨v, hid⟩ := hl.orderId
  obtain ⟨price, quantity, side, symbol, timestamp, priceMatch, hp⟩ := hl.placeOrder
  cases c with
  | sendNewOrder posSide orderSide tif orderType pair px qty =>
      apply Leftover.signed
      refine ⟨hl.APIKey, hl.privateKey, hl.HMACKey, hl.orderId, hl.requestId, ?_⟩
      rw [hp, prepareOrder_leftover]
      exact ⟨_, _, _, _, _, _, rfl⟩
  | sendModifyOrder posSide orderSide mode orderType pair px qty binanceId =>
      apply Leftover.signed
      refine ⟨hl.APIKey, hl.privateKey, hl.HMACKey, ⟨binanceId, by rw [hid]; rfl⟩, hl.requestId, ?_⟩
      rw [hp, prepareModify_leftover _ _ _ _ _ _ _ binanceId]
      exact ⟨_, _, _, _, _, _, rfl⟩
  | sendCancelOrder pair binanceId =>
      apply Leftover.signed
      refine ⟨hl.APIKey, hl.privateKey, hl.HMACKey, ⟨binanceId, by rw [hid]; rfl⟩, hl.requestId,
        price, quantity, side, symbol, timestamp, priceMatch, ?_⟩
      rw [leftover_concat rfl rfl rfl rfl, hp]
  | sendQueryOrder pair binanceId =>
      apply Leftover.signed
      refine ⟨hl.APIKey, hl.privateKey, hl.HMACKey, ⟨binanceId, by rw [hid]; rfl⟩, hl.requestId,
        price, quantity, side, symbol, timestamp, priceMatch, ?_⟩
      rw [leftover_concat rfl rfl rfl rfl, hp]
  | sendAccountInfoRequest =>
      apply Leftover.signed
      refine ⟨hl.APIKey, hl.privateKey, hl.HMACKey, hl.orderId, hl.requestId,
        price, quantity, side, symbol, timestamp, priceMatch, ?_⟩
      rw [leftover_concat rfl rfl rfl rfl, hp]

theorem Leftover.generateID {s : OrderStream} (hl : Leftover cred h s.toRequestState)
    (uuid : Str) : Leftover cred h (s.generateID uuid).toRequestState := by
  obtain ⟨v, hid⟩ := hl.requestId
  exact ⟨hl.APIKey, hl.privateKey, hl.HMACKey, hl.orderId, ⟨uuid, by
    rw [OrderStream.generateID, hid]; rfl⟩, hl.placeOrder⟩

theorem Leftover.identified {s : OrderStream} (hl : Leftover cred h s.toRequestState) (env : Env)
    (c : Call) : Leftover cred h (s.identified env c).toRequestState := by
  unfold OrderStream.identified
  split_ifs
  · exact hl.generateID env.uuid
  · exact hl

/-- One action. -/
theorem Leftover.step {s s' : OrderStream} {a : OrderStream.Action}
    (hl : Leftover cred h s.toRequestState) (hs : s.step HMAC a = some s') :
    Leftover cred (h ++ calls [a]) s'.toRequestState := by
  cases a with
  | call c env =>
      simp only [OrderStream.step, Option.ite_none_left_eq_some, Option.some.injEq] at hs
      rw [← hs.2, (OrderStream.send_spec HMAC s env c).1]
      exact (hl.identified env c).generateParams env.now c
  | getLastOrderId =>
      simp only [OrderStream.step] at hs
      split at hs
      · exact absurd hs (by simp)
      · simp only [Option.ite_none_left_eq_some, Option.some.injEq] at hs
        rw [← hs.2]
        simpa [calls] using hl

theorem Leftover.construct (cred : Credentials) :
    Leftover cred [] (OrderStream.construct cred).toRequestState :=
  ⟨rfl, rfl, rfl, ⟨[], rfl⟩, ⟨[], rfl⟩, [], [], [], [], [], [], rfl⟩

theorem calls_append (as bs : List OrderStream.Action) :
    calls (as ++ bs) = calls as ++ calls bs := by
  induction as with
  | nil => rfl
  | cons a as ih =>
      cases a with
      | call c env => exact congrArg (c :: ·) ih
      | getLastOrderId => exact ih

/-- **What a run leaves.** -/
theorem Leftover.run {as : List OrderStream.Action} {s s' : OrderStream}
    (hl : Leftover cred h s.toRequestState)
    (hrun : runFrom (OrderStream.step HMAC) s as = some s') :
    Leftover cred (h ++ calls as) s'.toRequestState := by
  induction as generalizing h s with
  | nil =>
      obtain rfl := Option.some.inj hrun
      simpa [calls] using hl
  | cons a as ih =>
      rw [runFrom, Option.bind_eq_some_iff] at hrun
      obtain ⟨t, ht, hrest⟩ := hrun
      have := ih (hl.step ht) hrest
      rwa [List.append_assoc, ← calls_append] at this

end AstraConnect.Order
