import Mathlib.Data.Bool.AllAny
import AstraConnect.Lib.JsonText
import AstraConnect.Order.RequestText

set_option autoImplicit false

/-! # What is signed is what is sent

`hmac_sha256` recovers the query string from the JSON text of the parameters by rewriting its
characters. For parameters without the characters that the rewriting touches, the text that is
signed is `name=value&name=value…` (`queryString_object`), and the JSON text decodes to the same
names and values (`decode_object_members`), with the signature behind them once it is added.
-/

namespace AstraConnect.Order

open JsonText RequestParameter

/-- A character that neither JSON nor the rewriting gives a meaning to. -/
def IsSafe (c : Char) : Prop :=
  c ≠ ',' ∧ c ≠ ':' ∧ c ≠ '"' ∧ c ≠ ' ' ∧ c ≠ '\\' ∧ 32 ≤ c.toNat

instance (c : Char) : Decidable (IsSafe c) := inferInstanceAs (Decidable (_ ∧ _))

/-- A parameter that can be signed: safe name and value, neither of them empty, sent as a string
or, under the name `timestamp`, as a number. -/
structure Admissible (p : RequestParameter) : Prop where
  present : p.Present
  safeName : ∀ c ∈ p.requestField, IsSafe c
  safeValue : ∀ c ∈ p.request, IsSafe c
  number : p.requestField = "timestamp".toList → (numberValue p.request).isSome
  string : p.requestField ≠ "timestamp".toList → p.isConstructed = false

/-- `name=value` -/
def queryPair (p : RequestParameter) : Str := p.requestField ++ "=".toList ++ p.request

/-- `name=value&name=value…` -/
def queryOf (ps : List RequestParameter) : Str := List.intercalate "&".toList (ps.map queryPair)

/-- The member that a parameter stands for. -/
def memberOf (p : RequestParameter) : Str × JsonTree :=
  (p.requestField,
    if p.requestField = "timestamp".toList then (numberValue p.request).getD .null
    else .str p.request)

/-! ## The query string

The rewriting goes character by character, so it can be followed through a text member by member.
On safe characters it does nothing. -/

/-- The rewriting of `hmac_sha256`, without the braces. -/
def rewritten (text : Str) : Str := (text.map queryChar).filter (· ≠ '\x00')

theorem rewritten_append (x y : Str) : rewritten (x ++ y) = rewritten x ++ rewritten y := by
  simp only [rewritten, List.map_append, List.filter_append]

theorem rewritten_of_safe {text : Str} (h : ∀ c ∈ text, IsSafe c) : rewritten text = text := by
  have hkeep : ∀ c ∈ text, queryChar c = c := by
    intro c hc
    obtain ⟨hcomma, hcolon, hquote, hspace, -, -⟩ := h c hc
    rw [queryChar, if_neg hcomma, if_neg hcolon, if_neg hquote, if_neg hspace]
  have hmap : text.map queryChar = text := by
    rw [List.map_congr_left hkeep, List.map_id']
  rw [rewritten, hmap, List.filter_eq_self]
  intro c hc
  obtain ⟨-, -, -, -, -, hcontrol⟩ := h c hc
  rw [decide_eq_true_eq]
  rintro rfl
  exact absurd hcontrol (by decide)

theorem rewritten_member {p : RequestParameter} (hp : Admissible p) (raw : Bool) :
    rewritten (p.member raw) = queryPair p := by
  have hname := rewritten_of_safe hp.safeName
  have hvalue := rewritten_of_safe hp.safeValue
  unfold member queryPair
  split
  · rw [rewritten_append, rewritten_append, rewritten_append, hname, hvalue,
      show rewritten "\"".toList = [] by decide,
      show rewritten "\": ".toList = "=".toList by decide, List.nil_append]
  · rw [rewritten_append, rewritten_append, rewritten_append, rewritten_append, hname, hvalue,
      show rewritten "\"".toList = [] by decide,
      show rewritten "\": \"".toList = "=".toList by decide, List.nil_append, List.append_nil]

theorem rewritten_members {isRaw : RequestParameter → Bool} {ps : List RequestParameter}
    (hps : ∀ p ∈ ps, Admissible p) : rewritten (members isRaw ps) = queryOf ps := by
  induction ps with
  | nil => rfl
  | cons p ps ih =>
      have hp := rewritten_member (hps p (List.mem_cons_self ..)) (isRaw p)
      cases ps with
      | nil =>
          rw [members, hp]
          simp [queryOf]
      | cons q ps =>
          calc rewritten (members isRaw (p :: q :: ps))
              = rewritten (p.member (isRaw p)) ++ rewritten ", ".toList ++
                  rewritten (members isRaw (q :: ps)) := by
                rw [← rewritten_append, ← rewritten_append]
                rfl
            _ = queryPair p ++ "&".toList ++ queryOf (q :: ps) := by
                rw [hp, ih (fun r hr => hps r (List.mem_cons_of_mem _ hr))]
                rfl
            _ = queryOf (p :: q :: ps) := by
                simp [queryOf, List.intercalate]

/-- **The text that is signed** is the query string of the parameters. -/
theorem queryString_object {isRaw : RequestParameter → Bool} {ps : List RequestParameter}
    (hps : ∀ p ∈ ps, Admissible p) : queryString (object isRaw ps) = queryOf ps := by
  rw [object_of_present (fun p hp => (hps p hp).present), queryString]
  show rewritten ((members isRaw ps ++ ['\x7d']).dropLast) = _
  rw [List.dropLast_concat, rewritten_members hps]

/-! ## The JSON text

The text is read back with the rules of the JSON reader: one for each member, put together by
induction on the list. -/

theorem IsSafe.isPlain {c : Char} (h : IsSafe c) : IsPlain c := ⟨h.2.2.1, h.2.2.2.2⟩

/-- A parameter whose member can be read back: also the signature, whatever the digest is. -/
structure Readable (p : RequestParameter) : Prop where
  plainName : ∀ c ∈ p.requestField, IsPlain c
  number : p.requestField = "timestamp".toList → (numberValue p.request).isSome
  string : p.requestField ≠ "timestamp".toList →
    p.isConstructed = false ∧ ∀ c ∈ p.request, IsPlain c

theorem Admissible.readable {p : RequestParameter} (h : Admissible p) : Readable p :=
  ⟨fun c hc => (h.safeName c hc).isPlain, h.number,
    fun hne => ⟨h.string hne, fun c hc => (h.safeValue c hc).isPlain⟩⟩

/-- The text of a value, with the blank in front of it. -/
def valueText (p : RequestParameter) : Str :=
  if p.requestField = "timestamp".toList then ' ' :: p.request
  else ' ' :: '"' :: (p.request ++ ['"'])

theorem member_eq {p : RequestParameter} (hp : Readable p) (x : Str) :
    p.member (isRawParam p) ++ x = '"' :: (p.requestField ++ '"' :: ':' :: (valueText p ++ x)) := by
  by_cases ht : p.requestField = "timestamp".toList
  · rw [isRawParam, decide_eq_true ht, Bool.or_true, member, if_pos rfl, valueText, if_pos ht]
    simp
  · rw [isRawParam, (hp.string ht).1, decide_eq_false ht, Bool.or_false, member,
      if_neg (by decide), valueText, if_neg ht]
    simp

/-- A value is read back in front of the `,` or the brace behind it. -/
theorem readValue_valueText {p : RequestParameter} (hp : Readable p) (fuel : Nat) {d : Char}
    (hd : isNumberChar d = false) (r : Str) :
    readValue (fuel + 1) (valueText p ++ d :: r) = some ((memberOf p).2, d :: r) := by
  by_cases ht : p.requestField = "timestamp".toList
  · obtain ⟨v, hv⟩ := Option.isSome_iff_exists.mp (hp.number ht)
    rw [valueText, if_pos ht, List.cons_append, readValue_blank, memberOf]
    dsimp only
    rw [if_pos ht, hv, Option.getD_some]
    apply readValue_number fuel hv
    intro c hc
    rw [List.head?_cons, Option.some.injEq] at hc
    rw [← hc, hd]
  · rw [valueText, if_neg ht, memberOf]
    dsimp only
    rw [if_neg ht, List.cons_append, readValue_blank, List.cons_append, List.append_assoc]
    exact readValue_string fuel (hp.string ht).2 (d :: r)

theorem readMembers_members {ps : List RequestParameter} (hne : ps ≠ [])
    (hps : ∀ p ∈ ps, Readable p) (fuel : Nat) (hfuel : ps.length < fuel) (r : Str) :
    readMembers fuel (members isRawParam ps ++ '\x7d' :: r) = some (ps.map memberOf, r) := by
  induction ps generalizing fuel with
  | nil => exact absurd rfl hne
  | cons p ps ih =>
      have hp := hps p (List.mem_cons_self ..)
      rw [List.length_cons] at hfuel
      obtain ⟨n, rfl⟩ : ∃ n, fuel = n + 1 + 1 := ⟨fuel - 2, by omega⟩
      cases ps with
      | nil =>
          rw [members, member_eq hp, readMembers_last (n + 1) hp.plainName
            (readValue_valueText hp n (by decide) r)]
          rfl
      | cons q ps =>
          have hrest := ih (List.cons_ne_nil _ _) (fun s hs => hps s (List.mem_cons_of_mem _ hs))
            (n + 1) (by omega)
          rw [members_cons_append, member_eq hp]
          rw [show ", ".toList ++ (members isRawParam (q :: ps) ++ '\x7d' :: r)
              = ',' :: ' ' :: (members isRawParam (q :: ps) ++ '\x7d' :: r) from rfl,
            readMembers_cons (n + 1) hp.plainName (readValue_valueText hp n (by decide) _),
            readMembers_blank, hrest, Option.map_some]
          rfl

theorem length_le_members (isRaw : RequestParameter → Bool) (ps : List RequestParameter) :
    ps.length ≤ (members isRaw ps).length := by
  induction ps with
  | nil => exact Nat.le_refl 0
  | cons p ps ih =>
      cases ps with
      | nil =>
          rw [members, member]
          split <;> simp
      | cons q ps =>
          show (q :: ps).length + 1
            ≤ (p.member (isRaw p) ++ ", ".toList ++ members isRaw (q :: ps)).length
          rw [List.length_append, List.length_append, show ", ".toList.length = 2 from rfl]
          omega

/-- **The text of an object decodes to its members**, in their order. -/
theorem decode_object_members {ps : List RequestParameter} (hne : ps ≠ [])
    (hps : ∀ p ∈ ps, Readable p) :
    decode ("\x7b".toList ++ members isRawParam ps ++ "\x7d".toList)
      = some (.obj (ps.map memberOf)) := by
  show decode ('\x7b' :: (members isRawParam ps ++ ['\x7d'])) = _
  apply decode_object
  · cases ps with
    | nil => exact absurd rfl hne
    | cons p ps =>
        cases ps with
        | nil => rw [members, member_eq (hps p (List.mem_cons_self ..)), List.head?_cons]
        | cons q ps =>
            rw [members_cons_append, member_eq (hps p (List.mem_cons_self ..)), List.head?_cons]
  · apply readMembers_members hne hps
    have := length_le_members isRawParam ps
    rw [List.length_append]
    omega

/-! ## Signing -/

theorem readable_signature (digest : List UInt8) :
    Readable ⟨"signature".toList, hexString digest, false⟩ := by
  have hhex : ∀ c ∈ hexmap, IsPlain c := List.all_iff_forall_prop.mp (by decide)
  have hname : ∀ c ∈ "signature".toList, IsPlain c := List.all_iff_forall_prop.mp (by decide)
  have hother : "signature".toList ≠ "timestamp".toList := by decide
  refine ⟨hname, fun h => absurd h hother, fun _ => ⟨rfl, ?_⟩⟩
  exact fun c hc => hhex c (mem_hexmap_of_mem_hexString hc)

/-- The request with the signature behind its members is the object with one member more. -/
theorem addSignature_object {ps : List RequestParameter} (hne : ps ≠ [])
    (hps : ∀ p ∈ ps, p.Present) {out signature : RequestParameter}
    (hout : out.request = object isRawParam ps)
    (hname : signature.requestField = "signature".toList) :
    (out.addParameterToRequest signature).request
      = "\x7b".toList ++
          members isRawParam (ps ++ [⟨"signature".toList, signature.request, false⟩]) ++
          "\x7d".toList := by
  obtain ⟨field, text, constructed⟩ := out
  change text = object isRawParam ps at hout
  have hraw : isRawParam ⟨"signature".toList, signature.request, false⟩ = false := rfl
  rw [hout, object_of_present hps, addParameterToRequest_object, hname, members_concat hne, hraw]
  simp [member]

/-- **What is signed is what is sent.** The message of the HMAC is the query string of the
parameters, the text decodes to them, and with the signature added to them and the signature.
With a name or a value missing there is no text, and `hmac_sha256` throws. -/
theorem signs_what_is_sent (HMAC : Str → Str → List UInt8) (key : Str) (out : RequestParameter)
    (ps : List RequestParameter) (hne : ps ≠ []) :
    ((∀ p ∈ ps, Admissible p) →
      queryString (out.makeRequestFromRequestParameters ps).request = queryOf ps ∧
      hmac_sha256 HMAC key (out.makeRequestFromRequestParameters ps).request
        = some (hexString (HMAC key (queryOf ps))) ∧
      decode (out.makeRequestFromRequestParameters ps).request
        = some (.obj (ps.map memberOf)) ∧
      ∀ signature : RequestParameter, signature.requestField = "signature".toList →
        signature.request = hexString (HMAC key (queryOf ps)) →
        decode ((out.makeRequestFromRequestParameters ps).addParameterToRequest signature).request
          = some (.obj (ps.map memberOf ++
              [("signature".toList, .str (hexString (HMAC key (queryOf ps))))]))) ∧
    ((∃ p ∈ ps, p.requestField = [] ∨ p.request = []) →
      (out.makeRequestFromRequestParameters ps).request = [] ∧
      hmac_sha256 HMAC key (out.makeRequestFromRequestParameters ps).request = none) := by
  have hrequest : (out.makeRequestFromRequestParameters ps).request = object isRawParam ps := rfl
  constructor
  · intro hps
    have hpresent : ∀ p ∈ ps, p.Present := fun p hp => (hps p hp).present
    have hreadable : ∀ p ∈ ps, Readable p := fun p hp => (hps p hp).readable
    have hquery : queryString (object isRawParam ps) = queryOf ps := queryString_object hps
    rw [hrequest]
    refine ⟨hquery, ?_, ?_, ?_⟩
    · have hsome : object isRawParam ps ≠ [] := fun h => object_eq_nil_iff.mp h hpresent
      rw [hmac_sha256, if_neg hsome, hquery]
    · rw [object_of_present hpresent, decode_object_members hne hreadable]
    · intro signature hname hmac
      rw [addSignature_object hne hpresent hrequest hname, decode_object_members, List.map_append,
        hmac]
      · rfl
      · exact List.append_ne_nil_of_left_ne_nil hne _
      · intro p hp
        rcases List.mem_append.mp hp with hp | hp
        · exact hreadable p hp
        · rw [List.mem_singleton.mp hp, hmac]
          exact readable_signature _
  -- one missing name or value empties the whole object
  · rintro ⟨p, hp, hmissing⟩
    have hnil : object isRawParam ps = [] := by
      rw [object_eq_nil_iff]
      intro hall
      rcases hmissing with h | h
      · exact (hall p hp).1 h
      · exact (hall p hp).2 h
    rw [hrequest, hnil]
    exact ⟨rfl, rfl⟩

/-- The parameters of an account info request, signed with a fixed digest. -/
theorem signs_what_is_sent_accountInfo :
    queryOf [⟨"apiKey".toList, "key".toList, false⟩, ⟨"timestamp".toList, "5".toList, false⟩]
        = "apiKey=key&timestamp=5".toList ∧
      decode (RequestParameter.makeRequestFromRequestParameters ⟨"params".toList, [], false⟩
          [⟨"apiKey".toList, "key".toList, false⟩,
            ⟨"timestamp".toList, "5".toList, false⟩]).request
        = some (.obj [("apiKey".toList, .str "key".toList), ("timestamp".toList, .int 5)]) := by
  refine ⟨by decide, ?_⟩
  have h := (signs_what_is_sent (fun _ _ => [1]) "secret".toList ⟨"params".toList, [], false⟩
    [⟨"apiKey".toList, "key".toList, false⟩, ⟨"timestamp".toList, "5".toList, false⟩]
    (List.cons_ne_nil _ _)).1
  refine (h ?_).2.2.1.trans rfl
  intro p hp
  rcases List.mem_cons.mp hp with rfl | hp
  · exact ⟨by decide, List.all_iff_forall_prop.mp (by decide),
      List.all_iff_forall_prop.mp (by decide), fun h => absurd h (by decide), fun _ => rfl⟩
  · rw [List.mem_singleton.mp hp]
    exact ⟨by decide, List.all_iff_forall_prop.mp (by decide),
      List.all_iff_forall_prop.mp (by decide), fun _ => rfl, fun h => absurd rfl h⟩

end AstraConnect.Order
