import AstraConnect.Lib.Json
import AstraConnect.Order.OrderStream

set_option autoImplicit false

/-! # The text of signed parameters

`signedParams` gives no text exactly when a name or a value is missing, and otherwise the members
followed by the signature. A member whose value has no quote can be read back from the text.
-/

namespace AstraConnect.Order

namespace RequestParameter

/-- The members that the parameters of a request leave without quotes. -/
def isRawParam (p : RequestParameter) : Bool :=
  p.isConstructed || p.requestField = "timestamp".toList

variable {isRaw : RequestParameter → Bool} {p p' q q' : RequestParameter}
  {ps ps' : List RequestParameter} {x x' : Str}

theorem members_cons_append :
    members isRaw (p :: q :: ps) ++ x
      = p.member (isRaw p) ++ (", ".toList ++ (members isRaw (q :: ps) ++ x)) := by
  simp only [members, List.append_assoc]

theorem members_concat (hps : ps ≠ []) :
    members isRaw (ps ++ [p]) = members isRaw ps ++ ", ".toList ++ p.member (isRaw p) := by
  induction ps with
  | nil => exact absurd rfl hps
  | cons q ps ih =>
      cases ps with
      | nil => rfl
      | cons q' ps =>
          calc members isRaw (q :: q' :: ps ++ [p])
              = q.member (isRaw q) ++ ", ".toList ++ members isRaw (q' :: ps ++ [p]) := rfl
            _ = q.member (isRaw q) ++ ", ".toList ++
                  (members isRaw (q' :: ps) ++ ", ".toList ++ p.member (isRaw p)) := by
                rw [ih (List.cons_ne_nil _ _)]
            _ = members isRaw (q :: q' :: ps) ++ ", ".toList ++ p.member (isRaw p) := by
                simp only [members, List.append_assoc]

/-- An equal first member can be taken off. -/
theorem members_cons_cancel
    (h : members isRaw (p :: q :: ps) ++ x = members isRaw (p :: q' :: ps') ++ x') :
    members isRaw (q :: ps) ++ x = members isRaw (q' :: ps') ++ x' := by
  rw [members_cons_append, members_cons_append] at h
  exact List.append_cancel_left (List.append_cancel_left h)

/-- A quoted member can be read back from the text it starts. -/
theorem member_append_inj {f f' v v' : Str} {b b' : Bool} (hf : '"' ∉ f) (hf' : '"' ∉ f')
    (hv : '"' ∉ v) (hv' : '"' ∉ v')
    (h : member false ⟨f, v, b⟩ ++ x = member false ⟨f', v', b'⟩ ++ x') :
    f = f' ∧ v = v' ∧ x = x' := by
  have hname : f ++ '"' :: (": \"".toList ++ v ++ "\"".toList ++ x)
      = f' ++ '"' :: (": \"".toList ++ v' ++ "\"".toList ++ x') := by
    simpa [member] using h
  obtain ⟨rfl, hrest⟩ := append_quote_inj hf hf' hname
  have hvalue : v ++ '"' :: x = v' ++ '"' :: x' := by simpa using hrest
  obtain ⟨rfl, rfl⟩ := append_quote_inj hv hv' hvalue
  exact ⟨rfl, rfl, rfl⟩

/-- A quoted first member can be read back and taken off. -/
theorem members_cons_inj {f v v' : Str}
    (h : members isRaw (⟨f, v, false⟩ :: q :: ps) ++ x
      = members isRaw (⟨f, v', false⟩ :: q' :: ps') ++ x')
    (hraw : isRaw ⟨f, v, false⟩ = false) (hraw' : isRaw ⟨f, v', false⟩ = false)
    (hf : '"' ∉ f) (hv : '"' ∉ v) (hv' : '"' ∉ v') :
    v = v' ∧ members isRaw (q :: ps) ++ x = members isRaw (q' :: ps') ++ x' := by
  rw [members_cons_append, members_cons_append, hraw, hraw'] at h
  obtain ⟨-, hval, hrest⟩ := member_append_inj hf hf hv hv' h
  exact ⟨hval, List.append_cancel_left hrest⟩

end RequestParameter

open RequestParameter

variable (HMAC : Str → Str → List UInt8)

/-- The signature of the members `ps`. -/
def signatureOf (key : Str) (ps : List RequestParameter) : Str :=
  hexString (HMAC key (queryString ("\x7b".toList ++ members isRawParam ps ++ "\x7d".toList)))

/-- The signed text of the members `ps`. -/
def signedText (key : Str) (ps : List RequestParameter) : Str :=
  "\x7b".toList ++ members isRawParam ps ++ ", \"signature\": \"".toList ++
    signatureOf HMAC key ps ++
    "\"\x7d".toList

theorem quote_notMem_signatureOf (key : Str) (ps : List RequestParameter) :
    '"' ∉ signatureOf HMAC key ps := quote_notMem_hexString _

/-- What signing the members gives: nothing when a name or a value is missing. -/
def signedResult (key : Str) (ps : List RequestParameter) : Option RequestParameter :=
  if ∀ p ∈ ps, p.Present then some ⟨"params".toList, signedText HMAC key ps, true⟩ else none

/-- **The parameters of a request** depend on nothing but the key and the members. -/
theorem signedParams_snd {r : RequestState} (hsig : r.HMACKey.requestField = "signature".toList)
    (ps : List RequestParameter) :
    (r.signedParams HMAC ps).2 = signedResult HMAC r.privateKey ps := by
  unfold signedResult
  split_ifs with h
  · have hobj : (RequestParameter.makeRequestFromRequestParameters ⟨"params".toList, [], false⟩
        ps).request = "\x7b".toList ++ members isRawParam ps ++ "\x7d".toList := object_of_present h
    have hcons : (RequestParameter.makeRequestFromRequestParameters ⟨"params".toList, [], false⟩ ps)
        = ⟨"params".toList, "\x7b".toList ++ members isRawParam ps ++ "\x7d".toList, true⟩ := by
      rw [← hobj]
      simp only [RequestParameter.makeRequestFromRequestParameters, if_pos h]
    simp only [RequestState.signedParams, hcons, hmac_sha256]
    rw [if_neg (by simp)]
    show some (addParameterToRequest _ _) = _
    rw [addParameterToRequest_object]
    simp only [withRequest, signedText, signatureOf, hsig, List.append_assoc]
    rfl
  · have hobj : (RequestParameter.makeRequestFromRequestParameters ⟨"params".toList, [], false⟩
        ps).request = [] := object_eq_nil_iff.mpr h
    simp only [RequestState.signedParams, hobj, hmac_sha256, if_pos]

variable {HMAC} {key : Str} {ps ps' : List RequestParameter}

theorem signedResult_eq_some_iff {params : RequestParameter} :
    signedResult HMAC key ps = some params ↔
      (∀ p ∈ ps, p.Present) ∧ params = ⟨"params".toList, signedText HMAC key ps, true⟩ := by
  unfold signedResult
  split_ifs with h
  · exact ⟨fun heq => ⟨h, (Option.some.inj heq).symm⟩, fun heq => congrArg some heq.2.symm⟩
  · exact ⟨nofun, fun heq => absurd heq.1 h⟩

/-- Two lists of members give the same when neither or both can be signed, with the same text. -/
theorem signedResult_eq_iff :
    signedResult HMAC key ps = signedResult HMAC key ps' ↔
      (¬ (∀ p ∈ ps, p.Present) ∧ ¬ ∀ p ∈ ps', p.Present) ∨
        ((∀ p ∈ ps, p.Present) ∧ (∀ p ∈ ps', p.Present) ∧
          signedText HMAC key ps = signedText HMAC key ps') := by
  unfold signedResult
  split_ifs with h h'
  · simp only [Option.some.injEq, RequestParameter.mk.injEq, true_and, and_true]
    exact ⟨fun heq => .inr ⟨h, h', heq⟩, fun hor => hor.elim (fun hn => absurd h hn.1) (·.2.2)⟩
  · exact ⟨nofun, fun hor => hor.elim (fun hn => absurd h hn.1) (fun hp => absurd hp.2.1 h')⟩
  · next h' => exact ⟨nofun, fun hor => hor.elim (fun hn => absurd h' hn.2)
      (fun hp => absurd hp.1 h)⟩
  · next h' => exact ⟨fun _ => .inl ⟨h, h'⟩, fun _ => rfl⟩

/-- The signed text ends with a quoted last member and the signature. -/
theorem signedText_concat {f v : Str} (hps : ps ≠ [])
    (hraw : isRawParam ⟨f, v, false⟩ = false) :
    signedText HMAC key (ps ++ [⟨f, v, false⟩])
      = "\x7b".toList ++ members isRawParam ps ++ ", \"".toList ++ f ++ "\": \"".toList ++ v ++
          "\", \"signature\": \"".toList ++ signatureOf HMAC key (ps ++ [⟨f, v, false⟩]) ++
          "\"\x7d".toList := by
  rw [signedText, members_concat hps, hraw]
  simp [member]

/-- Equal signed texts have equal members, up to what follows them. -/
theorem members_eq_of_signedText (h : signedText HMAC key ps = signedText HMAC key ps') :
    members isRawParam ps ++
        (", \"signature\": \"".toList ++ (signatureOf HMAC key ps ++ "\"\x7d".toList))
      = members isRawParam ps' ++
        (", \"signature\": \"".toList ++ (signatureOf HMAC key ps' ++ "\"\x7d".toList)) := by
  simp only [signedText, List.append_assoc] at h
  exact List.append_cancel_left h

end AstraConnect.Order
