import AstraConnect.Lib.Json
import AstraConnect.Core.StreamHolder
import AstraConnect.Order.PlaceOrderParameters

set_option autoImplicit false

/-! # Errors of the exchange (`api/common/error/apiError.hpp`, `fetchError.hpp`)

The exchange reports an error as `{"code":-1121,"msg":"Invalid symbol."}` in place of the payload.
`iterateResponse` looks for such a body, and for a failed HTTP status, before a response is read.
The code is an `int64_t` that is cut down to an `int` before it is looked up, so the error returned
is the one the code names exactly while the cut does not turn an unknown code into a known one
(`errors_told_apart_iff`).

A part of a text that is no JSON, as far as the parser on demand has got to it, reads as `null`.
-/

namespace AstraConnect.Api

open AstraConnect.Core (ConnectionStatus)
open AstraConnect.Order (Str to_string)

/-! ## `APIError`

An enumerator stands for a number. `fromErrorCode` lists the codes of the exchange that it knows,
and any other code is UNKNOWN. -/

inductive APIError where
  | SUCCESS | BAD_FIELD | BOOST_ERROR | ORDERBOOK_OUTDATED | RETRY | UNKNOWN | DISCONNECTED
  | UNAUTHORIZED | TOO_MANY_REQUESTS | UNEXPECTED_RESP | TIMEOUT | SERVER_BUSY | INVALID_MESSAGE
  | UNKNOWN_ORDER_COMPOSITION | TOO_MANY_ORDERS | SERVICE_SHUTTING_DOWN | UNSUPPORTED_OPERATION
  | INVALID_TIMESTAMP | INVALID_SIGNATURE | COMP_ID_IN_USE | TOO_MANY_CONNECTIONS | LOGGED_OUT
  | ILLEGAL_CHARS | TOO_MANY_PARAMETERS | MANDATORY_PARAM_EMPTY_OR_MALFORMED | UNKNOWN_PARAM
  | UNREAD_PARAMETERS | PARAM_EMPTY | PARAM_NOT_REQUIRED | PARAM_OVERFLOW | BAD_PRECISION
  | NO_DEPTH | TIF_NOT_REQUIRED | INVALID_TIF | INVALID_ORDER_TYPE | INVALID_SIDE
  | EMPTY_NEW_CL_ORD_ID | EMPTY_ORG_CL_ORD_ID | BAD_INTERVAL | BAD_SYMBOL | INVALID_SYMBOLSTATUS
  | INVALID_LISTEN_KEY | MORE_THAN_XX_HOURS | OPTIONAL_PARAMS_BAD_COMBO | INVALID_PARAMETER
  | BAD_STRATEGY_TYPE | INVALID_JSON | INVALID_TICKER_TYPE | INVALID_CANCEL_RESTRICTIONS
  | DUPLICATE_SYMBOLS | INVALID_SBE_HEADER | UNSUPPORTED_SCHEMA_ID | SBE_DISABLED
  | OCO_ORDER_TYPE_REJECTED | OCO_ICEBERGQTY_TIMEINFORCE | DEPRECATED_SCHEMA
  | BUY_OCO_LIMIT_MUST_BE_BELOW | SELL_OCO_LIMIT_MUST_BE_ABOVE | BOTH_OCO_ORDERS_CANNOT_BE_LIMIT
  | INVALID_TAG_NUMBER | TAG_NOT_DEFINED_IN_MESSAGE | TAG_APPEARS_MORE_THAN_ONCE
  | TAG_OUT_OF_ORDER | GROUP_FIELDS_OUT_OF_ORDER | INVALID_COMPONENT | RESET_SEQ_NUM_SUPPORT
  | ALREADY_LOGGED_IN | GARBLED_MESSAGE | BAD_SENDER_COMPID | BAD_SEQ_NUM | EXPECTED_LOGON
  | TOO_MANY_MESSAGES | PARAMS_BAD_COMBO | NOT_ALLOWED_IN_DROP_COPY_SESSIONS
  | DROP_COPY_SESSION_NOT_ALLOWED | DROP_COPY_SESSION_REQUIRED
  | NOT_ALLOWED_IN_ORDER_ENTRY_SESSIONS | NOT_ALLOWED_IN_MARKET_DATA_SESSIONS
  | INCORRECT_NUM_IN_GROUP_COUNT | DUPLICATE_ENTRIES_IN_A_GROUP | INVALID_REQUEST_ID
  | TOO_MANY_SUBSCRIPTIONS | INVALID_TIME_UNIT | BUY_OCO_STOP_LOSS_MUST_BE_ABOVE
  | SELL_OCO_STOP_LOSS_MUST_BE_BELOW | BUY_OCO_TAKE_PROFIT_MUST_BE_BELOW
  | SELL_OCO_TAKE_PROFIT_MUST_BE_ABOVE | INVALID_PEG_PRICE_TYPE | INVALID_PEG_OFFSET_TYPE
  | SYMBOL_DOES_NOT_MATCH_STATUS | NEW_ORDER_REJECTED | CANCEL_REJECTED | NO_SUCH_ORDER
  | BAD_API_KEY_FMT | REJECTED_MBX_KEY | NO_TRADING_WINDOW | ORDER_ARCHIVED | SUBSCRIPTION_ACTIVE
  | SUBSCRIPTION_INACTIVE | CLIENT_ORDER_ID_INVALID | MAXIMUM_SUBSCRIPTION_IDS
  deriving DecidableEq, Repr

/-- The number that an enumerator stands for. -/
def APIError.value : APIError → Int
  | .SUCCESS => 0 | .BAD_FIELD => 1 | .BOOST_ERROR => 2 | .ORDERBOOK_OUTDATED => 3 | .RETRY => 4
  | .UNKNOWN => -1000 | .DISCONNECTED => -1001 | .UNAUTHORIZED => -1002
  | .TOO_MANY_REQUESTS => -1003 | .UNEXPECTED_RESP => -1006 | .TIMEOUT => -1007
  | .SERVER_BUSY => -1008 | .INVALID_MESSAGE => -1013 | .UNKNOWN_ORDER_COMPOSITION => -1014
  | .TOO_MANY_ORDERS => -1015 | .SERVICE_SHUTTING_DOWN => -1016 | .UNSUPPORTED_OPERATION => -1020
  | .INVALID_TIMESTAMP => -1021 | .INVALID_SIGNATURE => -1022 | .COMP_ID_IN_USE => -1033
  | .TOO_MANY_CONNECTIONS => -1034 | .LOGGED_OUT => -1035 | .ILLEGAL_CHARS => -1100
  | .TOO_MANY_PARAMETERS => -1101 | .MANDATORY_PARAM_EMPTY_OR_MALFORMED => -1102
  | .UNKNOWN_PARAM => -1103 | .UNREAD_PARAMETERS => -1104 | .PARAM_EMPTY => -1105
  | .PARAM_NOT_REQUIRED => -1106 | .PARAM_OVERFLOW => -1108 | .BAD_PRECISION => -1111
  | .NO_DEPTH => -1112 | .TIF_NOT_REQUIRED => -1114 | .INVALID_TIF => -1115
  | .INVALID_ORDER_TYPE => -1116 | .INVALID_SIDE => -1117 | .EMPTY_NEW_CL_ORD_ID => -1118
  | .EMPTY_ORG_CL_ORD_ID => -1119 | .BAD_INTERVAL => -1120 | .BAD_SYMBOL => -1121
  | .INVALID_SYMBOLSTATUS => -1122 | .INVALID_LISTEN_KEY => -1125 | .MORE_THAN_XX_HOURS => -1127
  | .OPTIONAL_PARAMS_BAD_COMBO => -1128 | .INVALID_PARAMETER => -1130
  | .BAD_STRATEGY_TYPE => -1134 | .INVALID_JSON => -1135 | .INVALID_TICKER_TYPE => -1139
  | .INVALID_CANCEL_RESTRICTIONS => -1145 | .DUPLICATE_SYMBOLS => -1151
  | .INVALID_SBE_HEADER => -1152 | .UNSUPPORTED_SCHEMA_ID => -1153 | .SBE_DISABLED => -1155
  | .OCO_ORDER_TYPE_REJECTED => -1158 | .OCO_ICEBERGQTY_TIMEINFORCE => -1160
  | .DEPRECATED_SCHEMA => -1161 | .BUY_OCO_LIMIT_MUST_BE_BELOW => -1165
  | .SELL_OCO_LIMIT_MUST_BE_ABOVE => -1166 | .BOTH_OCO_ORDERS_CANNOT_BE_LIMIT => -1168
  | .INVALID_TAG_NUMBER => -1169 | .TAG_NOT_DEFINED_IN_MESSAGE => -1170
  | .TAG_APPEARS_MORE_THAN_ONCE => -1171 | .TAG_OUT_OF_ORDER => -1172
  | .GROUP_FIELDS_OUT_OF_ORDER => -1173 | .INVALID_COMPONENT => -1174
  | .RESET_SEQ_NUM_SUPPORT => -1175 | .ALREADY_LOGGED_IN => -1176 | .GARBLED_MESSAGE => -1177
  | .BAD_SENDER_COMPID => -1178 | .BAD_SEQ_NUM => -1179 | .EXPECTED_LOGON => -1180
  | .TOO_MANY_MESSAGES => -1181 | .PARAMS_BAD_COMBO => -1182
  | .NOT_ALLOWED_IN_DROP_COPY_SESSIONS => -1183 | .DROP_COPY_SESSION_NOT_ALLOWED => -1184
  | .DROP_COPY_SESSION_REQUIRED => -1185 | .NOT_ALLOWED_IN_ORDER_ENTRY_SESSIONS => -1186
  | .NOT_ALLOWED_IN_MARKET_DATA_SESSIONS => -1187 | .INCORRECT_NUM_IN_GROUP_COUNT => -1188
  | .DUPLICATE_ENTRIES_IN_A_GROUP => -1189 | .INVALID_REQUEST_ID => -1190
  | .TOO_MANY_SUBSCRIPTIONS => -1191 | .INVALID_TIME_UNIT => -1194
  | .BUY_OCO_STOP_LOSS_MUST_BE_ABOVE => -1196 | .SELL_OCO_STOP_LOSS_MUST_BE_BELOW => -1197
  | .BUY_OCO_TAKE_PROFIT_MUST_BE_BELOW => -1198 | .SELL_OCO_TAKE_PROFIT_MUST_BE_ABOVE => -1199
  | .INVALID_PEG_PRICE_TYPE => -1210 | .INVALID_PEG_OFFSET_TYPE => -1211
  | .SYMBOL_DOES_NOT_MATCH_STATUS => -1220 | .NEW_ORDER_REJECTED => -2010
  | .CANCEL_REJECTED => -2011 | .NO_SUCH_ORDER => -2013 | .BAD_API_KEY_FMT => -2014
  | .REJECTED_MBX_KEY => -2015 | .NO_TRADING_WINDOW => -2016 | .ORDER_ARCHIVED => -2026
  | .SUBSCRIPTION_ACTIVE => -2035 | .SUBSCRIPTION_INACTIVE => -2036
  | .CLIENT_ORDER_ID_INVALID => -2039 | .MAXIMUM_SUBSCRIPTION_IDS => -2042

/-- The cases of the `switch` in `fromErrorCode`. -/
def errorCodes : List (Int × APIError) :=
  [(-1000, .UNKNOWN), (-1001, .DISCONNECTED), (-1002, .UNAUTHORIZED),
    (-1003, .TOO_MANY_REQUESTS), (-1006, .UNEXPECTED_RESP), (-1007, .TIMEOUT),
    (-1008, .SERVER_BUSY), (-1013, .INVALID_MESSAGE), (-1014, .UNKNOWN_ORDER_COMPOSITION),
    (-1015, .TOO_MANY_ORDERS), (-1016, .SERVICE_SHUTTING_DOWN), (-1020, .UNSUPPORTED_OPERATION),
    (-1021, .INVALID_TIMESTAMP), (-1022, .INVALID_SIGNATURE), (-1033, .COMP_ID_IN_USE),
    (-1034, .TOO_MANY_CONNECTIONS), (-1035, .LOGGED_OUT), (-1100, .ILLEGAL_CHARS),
    (-1101, .TOO_MANY_PARAMETERS), (-1102, .MANDATORY_PARAM_EMPTY_OR_MALFORMED),
    (-1103, .UNKNOWN_PARAM), (-1104, .UNREAD_PARAMETERS), (-1105, .PARAM_EMPTY),
    (-1106, .PARAM_NOT_REQUIRED), (-1108, .PARAM_OVERFLOW), (-1111, .BAD_PRECISION),
    (-1112, .NO_DEPTH), (-1114, .TIF_NOT_REQUIRED), (-1115, .INVALID_TIF),
    (-1116, .INVALID_ORDER_TYPE), (-1117, .INVALID_SIDE), (-1118, .EMPTY_NEW_CL_ORD_ID),
    (-1119, .EMPTY_ORG_CL_ORD_ID), (-1120, .BAD_INTERVAL), (-1121, .BAD_SYMBOL),
    (-1122, .INVALID_SYMBOLSTATUS), (-1125, .INVALID_LISTEN_KEY), (-1127, .MORE_THAN_XX_HOURS),
    (-1128, .OPTIONAL_PARAMS_BAD_COMBO), (-1130, .INVALID_PARAMETER), (-1134, .BAD_STRATEGY_TYPE),
    (-1135, .INVALID_JSON), (-1139, .INVALID_TICKER_TYPE), (-1145, .INVALID_CANCEL_RESTRICTIONS),
    (-1151, .DUPLICATE_SYMBOLS), (-1152, .INVALID_SBE_HEADER), (-1153, .UNSUPPORTED_SCHEMA_ID),
    (-1155, .SBE_DISABLED), (-1158, .OCO_ORDER_TYPE_REJECTED),
    (-1160, .OCO_ICEBERGQTY_TIMEINFORCE), (-1161, .DEPRECATED_SCHEMA),
    (-1165, .BUY_OCO_LIMIT_MUST_BE_BELOW), (-1166, .SELL_OCO_LIMIT_MUST_BE_ABOVE),
    (-1168, .BOTH_OCO_ORDERS_CANNOT_BE_LIMIT), (-1169, .INVALID_TAG_NUMBER),
    (-1170, .TAG_NOT_DEFINED_IN_MESSAGE), (-1171, .TAG_APPEARS_MORE_THAN_ONCE),
    (-1172, .TAG_OUT_OF_ORDER), (-1173, .GROUP_FIELDS_OUT_OF_ORDER), (-1174, .INVALID_COMPONENT),
    (-1175, .RESET_SEQ_NUM_SUPPORT), (-1176, .ALREADY_LOGGED_IN), (-1177, .GARBLED_MESSAGE),
    (-1178, .BAD_SENDER_COMPID), (-1179, .BAD_SEQ_NUM), (-1180, .EXPECTED_LOGON),
    (-1181, .TOO_MANY_MESSAGES), (-1182, .PARAMS_BAD_COMBO),
    (-1183, .NOT_ALLOWED_IN_DROP_COPY_SESSIONS), (-1184, .DROP_COPY_SESSION_NOT_ALLOWED),
    (-1185, .DROP_COPY_SESSION_REQUIRED), (-1186, .NOT_ALLOWED_IN_ORDER_ENTRY_SESSIONS),
    (-1187, .NOT_ALLOWED_IN_MARKET_DATA_SESSIONS), (-1188, .INCORRECT_NUM_IN_GROUP_COUNT),
    (-1189, .DUPLICATE_ENTRIES_IN_A_GROUP), (-1190, .INVALID_REQUEST_ID),
    (-1191, .TOO_MANY_SUBSCRIPTIONS), (-1194, .INVALID_TIME_UNIT),
    (-1196, .BUY_OCO_STOP_LOSS_MUST_BE_ABOVE), (-1197, .SELL_OCO_STOP_LOSS_MUST_BE_BELOW),
    (-1198, .BUY_OCO_TAKE_PROFIT_MUST_BE_BELOW), (-1199, .SELL_OCO_TAKE_PROFIT_MUST_BE_ABOVE),
    (-1210, .INVALID_PEG_PRICE_TYPE), (-1211, .INVALID_PEG_OFFSET_TYPE),
    (-1220, .SYMBOL_DOES_NOT_MATCH_STATUS), (-2010, .NEW_ORDER_REJECTED),
    (-2011, .CANCEL_REJECTED), (-2013, .NO_SUCH_ORDER), (-2014, .BAD_API_KEY_FMT),
    (-2015, .REJECTED_MBX_KEY), (-2016, .NO_TRADING_WINDOW), (-2026, .ORDER_ARCHIVED),
    (-2035, .SUBSCRIPTION_ACTIVE), (-2036, .SUBSCRIPTION_INACTIVE),
    (-2039, .CLIENT_ORDER_ID_INVALID), (-2042, .MAXIMUM_SUBSCRIPTION_IDS)]

/-- `fromErrorCode(code)` -/
def fromErrorCode (code : Int) : APIError :=
  ((errorCodes.find? (fun e => e.1 = code)).map (·.2)).getD .UNKNOWN

/-- The codes that `fromErrorCode` lists. -/
def listedCodes : List Int := errorCodes.map (·.1)

/-! ## `FetchError` -/

structure FetchError where
  error : APIError
  msg : Option Str
  deriving DecidableEq, Repr

namespace FetchError

def success : FetchError := ⟨.SUCCESS, none⟩

/-- `operator bool` -/
def getError (e : FetchError) : Bool := decide (e.error ≠ .SUCCESS)

def getErrorMsg (e : FetchError) : Str := e.msg.getD []

/-- `FetchError(e->error,e->getErrorMsg())`: a copy has a text, if only an empty one. -/
def copy (e : FetchError) : FetchError := ⟨e.error, some e.getErrorMsg⟩

end FetchError

/-- `static_cast<int>` -/
def toInt (n : Int) : Int := Int.bmod n (2 ^ 32)

/-- What `parser.iterate(body)` makes of a response: an error text, or a document. -/
inductive Body where
  | refused (error : Str)
  | iterated (doc : JsonTree)

/-- `obj["code"].get_int64()` of a document that is an object. -/
def codeOf (doc : JsonTree) : Option Int := (doc.get "code".toList).bind JsonTree.getInt64

def getErrorFromDocument (doc : JsonTree) : FetchError :=
  match codeOf doc with
  | some code =>
      ⟨fromErrorCode (toInt code), some (((doc.get "msg".toList).bind JsonTree.getString).getD [])⟩
  | none => .success

/-- The overload without a status. -/
def iterateBody : Body → FetchError
  | .refused error => ⟨.BAD_FIELD, some ("Failed to parse response. error: ".toList ++ error)⟩
  | .iterated doc => getErrorFromDocument doc

def fromHttpStatus (httpStatus : Int) : APIError :=
  if httpStatus = 418 then .TOO_MANY_REQUESTS
  else if httpStatus = 429 then .TOO_MANY_REQUESTS
  else if httpStatus = 401 then .UNAUTHORIZED
  else if httpStatus = 403 then .UNAUTHORIZED
  else if httpStatus = 503 then .SERVER_BUSY
  else .UNEXPECTED_RESP

/-- `httpStatus != 0 && httpStatus / 100 != 2` -/
def HttpFailed (httpStatus : Int) : Prop := httpStatus ≠ 0 ∧ httpStatus.tdiv 100 ≠ 2

instance (httpStatus : Int) : Decidable (HttpFailed httpStatus) :=
  inferInstanceAs (Decidable (_ ∧ _))

def iterateResponse (body : Body) (httpStatus : Int) : FetchError :=
  let err := iterateBody body
  if ¬ HttpFailed httpStatus ∨ (err.getError ∧ err.error ≠ .BAD_FIELD) then err
  else ⟨fromHttpStatus httpStatus, some ("HTTP ".toList ++ to_string httpStatus)⟩

/-- What a request has brought: a `StreamData`, with the text of its `ec` and with what the parser
makes of its `string`. -/
structure Reply where
  status : ConnectionStatus
  httpStatus : Int
  message : Str
  body : Body

/-- How every fetch begins: `if(!data) return …` and `if(FetchError err = iterateResponse(…))`. -/
def Reply.document (reply : Reply) : Except FetchError JsonTree :=
  if reply.status ≠ .SUCCESS then .error ⟨.BOOST_ERROR, some reply.message⟩
  else
    let err := iterateResponse reply.body reply.httpStatus
    match reply.body with
    | .iterated doc => if err.getError then .error err else .ok doc
    | .refused _ => .error err

/-! ## The table

What the `switch` over the codes gives, for all codes at once. Only codes below zero are listed, so
no code of the exchange can be taken for SUCCESS or for BAD_FIELD. -/

theorem errorCodes_value : ∀ e ∈ errorCodes, e.2.value = e.1 := by decide

theorem listedCodes_inRange : ∀ code ∈ listedCodes, -2 ^ 31 ≤ code ∧ code < 0 := by decide

/-- **A listed code is its own error, any other is UNKNOWN.** -/
theorem fromErrorCode_value (code : Int) :
    (fromErrorCode code).value = if code ∈ listedCodes then code else APIError.UNKNOWN.value := by
  unfold fromErrorCode
  cases hfind : errorCodes.find? (fun e => e.1 = code) with
  | some e =>
      have hmem := List.mem_of_find?_eq_some hfind
      have hcode : e.1 = code := by simpa using List.find?_some hfind
      rw [if_pos (hcode ▸ List.mem_map_of_mem hmem)]
      exact (errorCodes_value e hmem).trans hcode
  | none =>
      have hnot : code ∉ listedCodes := by
        intro h
        obtain ⟨e, hmem, rfl⟩ := List.mem_map.mp h
        exact absurd (List.find?_eq_none.mp hfind e hmem) (by simp)
      rw [if_neg hnot]
      rfl

/-- No code is taken for SUCCESS or for BAD_FIELD. -/
theorem fromErrorCode_value_neg (code : Int) : (fromErrorCode code).value < 0 := by
  rw [fromErrorCode_value]
  split
  · rename_i h
    exact (listedCodes_inRange code h).2
  · decide

theorem fromErrorCode_ne (code : Int) :
    fromErrorCode code ≠ .SUCCESS ∧ fromErrorCode code ≠ .BAD_FIELD := by
  have h := fromErrorCode_value_neg code
  constructor
  · intro he
    rw [he] at h
    exact absurd h (by decide)
  · intro he
    rw [he] at h
    exact absurd h (by decide)

theorem fromHttpStatus_ne_success (httpStatus : Int) : fromHttpStatus httpStatus ≠ .SUCCESS := by
  unfold fromHttpStatus
  split_ifs <;> decide

/-! ## What a response is taken for -/

/-- The code of a body that is an error. -/
def Body.code : Body → Option Int
  | .refused _ => none
  | .iterated doc => codeOf doc

/-- The body can be iterated. -/
def Body.Iterates : Body → Prop
  | .refused _ => False
  | .iterated _ => True

/-- A status of 0, or 2xx. -/
theorem not_httpFailed_iff (httpStatus : Int) :
    ¬ HttpFailed httpStatus ↔ httpStatus = 0 ∨ (200 ≤ httpStatus ∧ httpStatus < 300) := by
  unfold HttpFailed
  have hdiv : httpStatus.tdiv 100 = 2 ↔ 200 ≤ httpStatus ∧ httpStatus < 300 := by
    rcases le_or_gt 0 httpStatus with h | h
    · rw [Int.tdiv_eq_ediv_of_nonneg h]
      omega
    · have hneg : httpStatus.tdiv 100 = -(-httpStatus).tdiv 100 := by rw [Int.neg_tdiv, neg_neg]
      have hpos : 0 ≤ (-httpStatus).tdiv 100 := Int.tdiv_nonneg (by omega) (by decide)
      omega
  rw [not_and_or, not_not, not_not, hdiv]

/-- An error body is returned as it is, whatever the status. -/
theorem iterateResponse_of_code {body : Body} {code : Int} (h : body.code = some code)
    (httpStatus : Int) : (iterateResponse body httpStatus).error = fromErrorCode (toInt code) := by
  cases body with
  | refused error => cases h
  | iterated doc =>
      have herr : (iterateBody (.iterated doc)).error = fromErrorCode (toInt code) := by
        have hcode : codeOf doc = some code := h
        simp only [iterateBody, getErrorFromDocument, hcode]
      have hne := fromErrorCode_ne (toInt code)
      unfold iterateResponse
      rw [if_pos]
      · exact herr
      · refine Or.inr ⟨?_, ?_⟩
        · rw [FetchError.getError, herr]
          exact decide_eq_true hne.1
        · rw [herr]
          exact hne.2

/-- **A response is taken for a payload exactly when it is one.** -/
theorem iterateResponse_success_iff (body : Body) (httpStatus : Int) :
    (iterateResponse body httpStatus).error = .SUCCESS ↔
      body.Iterates ∧ body.code = none ∧
        (httpStatus = 0 ∨ (200 ≤ httpStatus ∧ httpStatus < 300)) := by
  rw [← not_httpFailed_iff]
  cases hcode : body.code with
  | some code =>
      rw [iterateResponse_of_code hcode]
      exact iff_of_false (fromErrorCode_ne _).1 (fun h => by cases h.2.1)
  | none =>
      cases body with
      | refused error =>
          refine iff_of_false ?_ (fun h => h.1)
          unfold iterateResponse
          dsimp only
          split
          · exact fun h => by cases h
          · exact fromHttpStatus_ne_success httpStatus
      | iterated doc =>
          have herr : iterateBody (.iterated doc) = .success := by
            have hnone : codeOf doc = none := hcode
            simp only [iterateBody, getErrorFromDocument, hnone]
          unfold iterateResponse
          rw [herr]
          by_cases hfailed : HttpFailed httpStatus
          · rw [if_neg (by simp [hfailed, FetchError.getError, FetchError.success])]
            exact iff_of_false (fromHttpStatus_ne_success httpStatus) (fun h => h.2.2 hfailed)
          · rw [if_pos (Or.inl hfailed)]
            exact iff_of_true rfl ⟨trivial, rfl, hfailed⟩

/-! ## The cut

`static_cast<int>` keeps the low 32 bits. A code of more bits is told apart from the others only if
what is left of it is no listed code. -/

theorem toInt_of_inRange {code : Int} (h : -2 ^ 31 ≤ code ∧ code < 2 ^ 31) : toInt code = code := by
  unfold toInt
  rw [Int.bmod_eq_of_le] <;> omega

/-- The error returned is the one that the code names: the code itself when it is listed, and
UNKNOWN otherwise. -/
def NamesError (code : Int) (error : APIError) : Prop :=
  error.value = if code ∈ listedCodes then code else APIError.UNKNOWN.value

/-- The code is an `int`, or what is left of it as an `int` stands for no other error. -/
def CutSafely (code : Int) : Prop :=
  (-2 ^ 31 ≤ code ∧ code < 2 ^ 31) ∨ toInt code ∉ listedCodes ∨ toInt code = -1000

instance (code : Int) : Decidable (CutSafely code) := inferInstanceAs (Decidable (_ ∨ _))

theorem namesError_iff (code : Int) :
    NamesError code (fromErrorCode (toInt code)) ↔ CutSafely code := by
  unfold NamesError CutSafely
  rw [fromErrorCode_value]
  by_cases hrange : -2 ^ 31 ≤ code ∧ code < 2 ^ 31
  · rw [toInt_of_inRange hrange]
    exact iff_of_true rfl (Or.inl hrange)
  · -- a code that is not an `int` is not listed
    have hnot : code ∉ listedCodes := fun h => hrange ⟨(listedCodes_inRange code h).1, by
      have := (listedCodes_inRange code h).2
      omega⟩
    rw [if_neg hnot, or_iff_right hrange]
    by_cases hcut : toInt code ∈ listedCodes
    · rw [if_pos hcut, or_iff_right (not_not.mpr hcut)]
      rfl
    · rw [if_neg hcut]
      exact iff_of_true rfl (Or.inl hcut)

/-- **An error of the exchange is told from a payload always, and from other errors exactly while
its code is cut safely.** -/
theorem errors_told_apart_iff (body : Body) (httpStatus : Int) :
    (((iterateResponse body httpStatus).error = .SUCCESS ↔
        body.Iterates ∧ body.code = none ∧
          (httpStatus = 0 ∨ (200 ≤ httpStatus ∧ httpStatus < 300))) ∧
      ∀ code, body.code = some code → NamesError code (iterateResponse body httpStatus).error) ↔
    ∀ code, body.code = some code → CutSafely code := by
  rw [and_iff_right (iterateResponse_success_iff body httpStatus)]
  refine forall_congr' (fun code => ?_)
  constructor
  · intro h hcode
    have hnames := h hcode
    rw [iterateResponse_of_code hcode] at hnames
    exact (namesError_iff code).mp hnames
  · intro h hcode
    rw [iterateResponse_of_code hcode]
    exact (namesError_iff code).mpr (h hcode)

/-- The body `{"code":4294966175,"msg":"x"}` is reported as BAD_SYMBOL. -/
theorem wideCode_badSymbol :
    let body : Body :=
      .iterated (.obj [("code".toList, .int 4294966175), ("msg".toList, .str ['x'])])
    body.code = some 4294966175 ∧ (iterateResponse body 400).error = .BAD_SYMBOL ∧
      ¬ NamesError 4294966175 (iterateResponse body 400).error := by
  refine ⟨rfl, by decide, ?_⟩
  unfold NamesError
  decide

end AstraConnect.Api
