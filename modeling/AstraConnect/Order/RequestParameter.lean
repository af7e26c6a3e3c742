import AstraConnect.Utils.FixedPointFormat

set_option autoImplicit false

/-! # Building and signing a request (`core/protocol/requestParameter.hpp`,
`utils/crypto/hmacSha256.hpp`)

A request is JSON text put together from named strings. A string is a `List Char`. The digest
that OpenSSL's `HMAC(EVP_sha256(), …)` computes is a parameter of the functions that use it.
-/

namespace AstraConnect.Order

abbrev Str := List Char

/-- `RequestParameter<std::string>` -/
structure RequestParameter where
  requestField : Str
  request : Str := []
  isConstructed : Bool := false
  deriving DecidableEq, Repr

namespace RequestParameter

/-- `!requestField.empty() && !request.empty()` -/
def Present (p : RequestParameter) : Prop := p.requestField ≠ [] ∧ p.request ≠ []

instance (p : RequestParameter) : Decidable p.Present := inferInstanceAs (Decidable (_ ∧ _))

/-- `"field": value`, the value in quotes unless it is `raw`. -/
def member (raw : Bool) (p : RequestParameter) : Str :=
  if raw then "\"".toList ++ p.requestField ++ "\": ".toList ++ p.request
  else "\"".toList ++ p.requestField ++ "\": \"".toList ++ p.request ++ "\"".toList

/-- The expansion of the parameter pack, `", "` in front of every member but the first. -/
def members (isRaw : RequestParameter → Bool) : List RequestParameter → Str
  | [] => []
  | [p] => p.member (isRaw p)
  | p :: ps => p.member (isRaw p) ++ ", ".toList ++ members isRaw ps

/-- The object with the given members, or the empty string when a name or a value is missing. -/
def object (isRaw : RequestParameter → Bool) (ps : List RequestParameter) : Str :=
  if ∀ p ∈ ps, p.Present then "\x7b".toList ++ members isRaw ps ++ "\x7d".toList else []

/-- The member function `makeRequestFromRequestParameters`. -/
def makeRequestFromRequestParameters (out : RequestParameter) (ps : List RequestParameter) :
    RequestParameter :=
  { out with
    request := object (fun p => p.isConstructed || p.requestField = "timestamp".toList) ps
    isConstructed := if ∀ p ∈ ps, p.Present then true else out.isConstructed }

/-- The member function `addParameterToRequest`. -/
def addParameterToRequest (out param : RequestParameter) : RequestParameter :=
  if out.request.getLast? ≠ some '}' then out
  else
    { out with request := out.request.dropLast ++
        (", ".toList ++ "\"".toList ++ param.requestField ++ "\": \"".toList ++ param.request ++
          "\"\x7d".toList) }

end RequestParameter

/-- The function `makeRequestFromRequestParameters`, which builds the payload. -/
def makeRequestFromRequestParameters (ps : List RequestParameter) : Str :=
  RequestParameter.object (·.isConstructed) ps

/-! ## `hmac_sha256` -/

/-- `if (c == ',') c = '&'; else if (c == ':') c = '='; …`, where `'\0'` marks what is removed. -/
def queryChar (c : Char) : Char :=
  if c = ',' then '&'
  else if c = ':' then '='
  else if c = '"' then '\x00'
  else if c = ' ' then '\x00'
  else c

/-- The text that is signed: the request without its braces, as a query string. -/
def queryString (data : Str) : Str :=
  ((data.drop 1).dropLast.map queryChar).filter (· ≠ '\x00')

def hexmap : Str := "0123456789abcdef".toList

def hexDigit (n : Nat) : Char := hexmap.getD n '0'

/-- The digest in lower case hex. -/
def hexString (digest : List UInt8) : Str :=
  digest.flatMap fun c => [hexDigit (c.toNat >>> (4 : Nat)), hexDigit (c.toNat &&& 15)]

/-- `hmac_sha256(key, data)`; `none` is `throw std::runtime_error("Parameter empty")`. -/
def hmac_sha256 (HMAC : Str → Str → List UInt8) (key data : Str) : Option Str :=
  if data = [] then none else some (hexString (HMAC key (queryString data)))

example : queryString "\x7b\"apiKey\": \"k\", \"timestamp\": 5\x7d".toList
    = "apiKey=k&timestamp=5".toList := by
  decide

/-! ## Requests as texts

An object is the empty text as soon as a name or a value is missing. On a closed object a parameter
is added in place of the closing brace, so the order of the members is that of the calls. -/

theorem hexDigit_mem (n : Nat) : hexDigit n ∈ hexmap := by
  rw [hexDigit, List.getD_eq_getElem?_getD]
  by_cases h : n < hexmap.length
  · rw [List.getElem?_eq_getElem h, Option.getD_some]
    exact List.getElem_mem h
  · rw [List.getElem?_eq_none (Nat.le_of_not_lt h)]
    decide

theorem mem_hexmap_of_mem_hexString {digest : List UInt8} {c : Char} (h : c ∈ hexString digest) :
    c ∈ hexmap := by
  obtain ⟨byte, -, hc⟩ := List.mem_flatMap.mp h
  simp only [List.mem_cons, List.not_mem_nil, or_false] at hc
  rcases hc with rfl | rfl
  · exact hexDigit_mem _
  · exact hexDigit_mem _

theorem quote_notMem_hexString (digest : List UInt8) : '"' ∉ hexString digest := by
  intro h
  exact absurd (mem_hexmap_of_mem_hexString h) (by decide)

namespace RequestParameter

variable {isRaw : RequestParameter → Bool} {ps : List RequestParameter}

theorem object_of_present (h : ∀ p ∈ ps, p.Present) :
    object isRaw ps = "\x7b".toList ++ members isRaw ps ++ "\x7d".toList := if_pos h

theorem object_eq_nil_iff : object isRaw ps = [] ↔ ¬ ∀ p ∈ ps, p.Present := by
  by_cases h : ∀ p ∈ ps, p.Present
  · rw [object_of_present h]
    exact ⟨fun hnil => by simp at hnil, fun hnot => absurd h hnot⟩
  · exact ⟨fun _ => h, fun _ => if_neg h⟩

/-- On a closed object the parameter becomes its last member. -/
theorem addParameterToRequest_object (field body : Str) (b : Bool) (param : RequestParameter) :
    addParameterToRequest ⟨field, body ++ "\x7d".toList, b⟩ param
      = ⟨field, body ++ (", ".toList ++ "\"".toList ++ param.requestField ++ "\": \"".toList ++
          param.request ++ "\"\x7d".toList), b⟩ := by
  have hlast : (body ++ "\x7d".toList).getLast? = some '}' := List.getLast?_concat
  have hdrop : (body ++ "\x7d".toList).dropLast = body := List.dropLast_concat
  simp only [addParameterToRequest, hlast, hdrop, ne_eq, not_true_eq_false, if_false]

end RequestParameter

end AstraConnect.Order
