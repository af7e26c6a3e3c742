import AstraConnect.Api.FetchError
import AstraConnect.Order.OrderTracker

set_option autoImplicit false

/-! # Fetches into a ring (`api/futures/api.hpp`, `api/spot/api.hpp`)

`fetchCandles` and `fetchOpenInterestHist` read the rows of a response one after the other into one
element, and enqueue it after each row. An exception ends the loop, and the ring is cleared as a
whole. Nobody dequeues during a call; a call that finds no room waits.

A candle holds its own row alone exactly when the row has eight elements
(`candles_own_rows_iff`), and a failed fetch keeps what was in the ring exactly when nothing was
in it or no row was at fault (`failed_fetch_keeps_buffer_iff`).
-/

namespace AstraConnect.Api

open AstraConnect.Utils
open AstraConnect.Order (Str Exec Stop valueOf readFixed bind_eq_ok_iff valueOf_eq_ok_iff)

/-! ## The ring

Here the ring is what a thread sees that is alone with it: a list of at most `SIZE` items. That its
calls are the calls of such a list is shown in `AstraLib/RingCalls.lean`. -/

/-- `AtomicRingBuffer<A,SIZE>`, as the items that can be dequeued, the oldest first. -/
structure Ring (α : Type) (SIZE : Nat) where
  items : List α
  length_le : items.length ≤ SIZE

namespace Ring

variable {α : Type} {SIZE : Nat}

/-- `enqueue`, which waits on a full ring. -/
def enqueue (ring : Ring α SIZE) (item : α) : Exec (Ring α SIZE) :=
  if h : ring.items.length < SIZE then
    .ok ⟨ring.items ++ [item], by rw [List.length_append]; exact h⟩
  else .error .waits

def clearBuffer (_ : Ring α SIZE) : Ring α SIZE := ⟨[], Nat.zero_le SIZE⟩

end Ring

/-! ## The fetches -/

section Fetch

variable {α : Type} {SIZE : Nat}

/-- The loop over the rows, with the element that they are all read into. -/
def enqueueRows (read : α → JsonTree → Exec α) :
    List JsonTree → α → Ring α SIZE → Exec Unit × Ring α SIZE
  | [], _, ring => (.ok (), ring)
  | row :: rows, element, ring =>
      match read element row with
      | .error stop => (.error stop, ring)
      | .ok element =>
          match ring.enqueue element with
          | .error stop => (.error stop, ring)
          | .ok ring => enqueueRows read rows element ring

/-- The body that the fetches share. `element` is what the element holds before it is first
assigned, and `what` the text of the exception, if there is one. -/
def fetchRows (read : α → JsonTree → Exec α) (element : α) (reply : Reply) (what : Str)
    (outputBuff : Ring α SIZE) : Exec FetchError × Ring α SIZE :=
  match reply.document with
  | .error err => (.ok err, outputBuff)
  | .ok doc =>
      let failed := ⟨.BAD_FIELD, some ("Failed to parse a field. error: ".toList ++ what)⟩
      match doc.getArray with
      -- an iteration over what is not an array throws in its first round
      | none => (.ok failed, outputBuff.clearBuffer)
      | some rows =>
          match enqueueRows read rows element outputBuff with
          | (.ok (), ring) => (.ok .success, ring)
          | (.error .throws, ring) => (.ok failed, ring.clearBuffer)
          | (.error .waits, ring) => (.error .waits, ring)

end Fetch

/-- `readFixed128(field)` -/
def readFixed128 (field : Option JsonTree) : Exec Int := do
  let text ← valueOf (field.bind JsonTree.getString)
  match parseFixed .int128 text 0 with
  | some (true, v) => .ok v
  | _ => .error .throws

structure Candle where
  timestampOpen : Int
  open_ : Int
  high : Int
  close : Int
  low : Int
  volume : Int
  timestampClose : Int
  quoteVolume : Int
  deriving DecidableEq, Repr

/-- `switch (index)` -/
def readCandleField (index : Nat) (field : JsonTree) (outCandle : Candle) : Exec Candle :=
  match index with
  | 0 => (valueOf field.getInt64).map (fun v => { outCandle with timestampOpen := v })
  | 1 => (readFixed (some field)).map (fun v => { outCandle with open_ := v })
  | 2 => (readFixed (some field)).map (fun v => { outCandle with high := v })
  | 3 => (readFixed (some field)).map (fun v => { outCandle with low := v })
  | 4 => (readFixed (some field)).map (fun v => { outCandle with close := v })
  | 5 => (readFixed128 (some field)).map (fun v => { outCandle with volume := v })
  | 6 => (valueOf field.getInt64).map (fun v => { outCandle with timestampClose := v })
  | 7 => (readFixed128 (some field)).map (fun v => { outCandle with quoteVolume := v })
  | _ => .ok outCandle

/-- `for(auto field : iterate)` -/
def readCandleFields : Nat → List JsonTree → Candle → Exec Candle
  | _, [], outCandle => .ok outCandle
  | index, field :: fields, outCandle => do
      let outCandle ← readCandleField index field outCandle
      readCandleFields (index + 1) fields outCandle

def readCandle (outCandle : Candle) (candle : JsonTree) : Exec Candle := do
  let iterate ← valueOf candle.getArray
  readCandleFields 0 iterate outCandle

namespace Futures

def candlesTarget (pair timeframe : Str) : Str :=
  "/fapi/v1/klines?symbol=".toList ++ pair ++ "&interval=".toList ++ timeframe

def fetchCandles (sendRequest : Str → Reply) (outCandle : Candle) (what : Str)
    (outputBuff : Ring Candle 2048) (pair timeframe : Str) :
    Exec FetchError × Ring Candle 2048 :=
  fetchRows readCandle outCandle (sendRequest (candlesTarget pair timeframe)) what outputBuff

end Futures

namespace Spot

def candlesTarget (pair timeframe : Str) : Str :=
  "/api/v3/klines?symbol=".toList ++ pair ++ "&interval=".toList ++ timeframe

def fetchCandles (sendRequest : Str → Reply) (outCandle : Candle) (what : Str)
    (outputBuff : Ring Candle 2048) (pair timeframe : Str) :
    Exec FetchError × Ring Candle 2048 :=
  fetchRows readCandle outCandle (sendRequest (candlesTarget pair timeframe)) what outputBuff

end Spot

structure OpenInterest where
  timestamp : Int
  totalInterest : Int
  totalInterestValue : Int
  circulation : Int
  deriving DecidableEq, Repr

def readInterestFrame (_ : OpenInterest) (interestFrame : JsonTree) : Exec OpenInterest := do
  let totalInterest ← readFixed128 (interestFrame.get "sumOpenInterest".toList)
  let totalInterestValue ← readFixed128 (interestFrame.get "sumOpenInterestValue".toList)
  let circulation ← readFixed128 (interestFrame.get "CMCCirculatingSupply".toList)
  let timestamp ← valueOf ((interestFrame.get "timestamp".toList).bind JsonTree.getInt64)
  -- `timestamp` is a `uint64_t`
  .ok ⟨timestamp % 2 ^ 64, totalInterest, totalInterestValue, circulation⟩

namespace Futures

def interestTarget (pair timeframe : Str) : Str :=
  "/futures/data/openInterestHist?symbol=".toList ++ pair ++ "&period=".toList ++ timeframe

def fetchOpenInterestHist (sendRequest : Str → Reply) (interestFrameHolder : OpenInterest)
    (what : Str) (outputBuff : Ring OpenInterest 1024) (pair timeframe : Str) :
    Exec FetchError × Ring OpenInterest 1024 :=
  fetchRows readInterestFrame interestFrameHolder (sendRequest (interestTarget pair timeframe))
    what outputBuff

end Futures

/-! ## What a fetch leaves in the ring

Every fetch is `fetchRows` with a way to read one row, and what it leaves depends on two things:
whether the rows can all be read, and whether there is room for what they are read as. The lemmas
take any way to read a row of which `ReadsRows` holds. -/

/-- The call returns SUCCESS. -/
def Succeeds {β : Type} (call : Exec FetchError × β) : Prop :=
  ∃ err, call.1 = .ok err ∧ err.error = .SUCCESS

theorem document_error {reply : Reply} {err : FetchError} (h : reply.document = .error err) :
    err.error ≠ .SUCCESS := by
  unfold Reply.document at h
  split at h
  · obtain rfl := Except.error.inj h
    simp
  · dsimp only at h
    split at h
    · split at h
      · rename_i hget
        obtain rfl := Except.error.inj h
        exact of_decide_eq_true hget
      · cases h
    · rename_i error hbody
      obtain rfl := Except.error.inj h
      intro hsuccess
      rw [iterateResponse_success_iff, hbody] at hsuccess
      exact hsuccess.1

theorem document_ok {reply : Reply} {doc : JsonTree} (h : reply.document = .ok doc) :
    reply.body = .iterated doc := by
  unfold Reply.document at h
  split at h
  · cases h
  · dsimp only at h
    split at h
    · rename_i doc' hbody
      split at h
      · cases h
      · obtain rfl := Except.ok.inj h
        exact hbody
    · cases h

section Fetch

variable {α : Type} {SIZE : Nat} {read : α → JsonTree → Exec α}

/-- The items that the rows are read as, up to the first row that throws, and how the reading
ends. -/
def readRows (read : α → JsonTree → Exec α) : List JsonTree → α → List α × Exec Unit
  | [], _ => ([], .ok ())
  | row :: rows, element =>
      match read element row with
      | .error stop => ([], .error stop)
      | .ok element => (element :: (readRows read rows element).1, (readRows read rows element).2)

/-- **What is read is enqueued**, when there is room. -/
theorem enqueueRows_of_room (read : α → JsonTree → Exec α) (rows : List JsonTree) (element : α)
    (ring : Ring α SIZE)
    (hroom : ring.items.length + (readRows read rows element).1.length ≤ SIZE) :
    (enqueueRows read rows element ring).1 = (readRows read rows element).2 ∧
      (enqueueRows read rows element ring).2.items =
        ring.items ++ (readRows read rows element).1 := by
  induction rows generalizing element ring with
  | nil => exact ⟨rfl, (List.append_nil _).symm⟩
  | cons row rows ih =>
      unfold enqueueRows
      unfold readRows at hroom ⊢
      cases hrow : read element row with
      | error stop => exact ⟨rfl, (List.append_nil _).symm⟩
      | ok next =>
          simp only [hrow, List.length_cons] at hroom
          have hlt : ring.items.length < SIZE := by omega
          simp only [Ring.enqueue, hlt, dite_true]
          have h := ih next ⟨ring.items ++ [next], by rw [List.length_append]; exact hlt⟩ (by
            rw [List.length_append, List.length_singleton]
            omega)
          rw [List.append_assoc] at h
          exact h

/-- A ring that has no room for what is read stops the call. -/
theorem enqueueRows_of_full (read : α → JsonTree → Exec α) (rows : List JsonTree) (element : α)
    (ring : Ring α SIZE)
    (hfull : SIZE < ring.items.length + (readRows read rows element).1.length) :
    (enqueueRows read rows element ring).1 = .error .waits := by
  induction rows generalizing element ring with
  | nil => exact absurd ring.length_le (Nat.not_le.mpr hfull)
  | cons row rows ih =>
      unfold enqueueRows
      unfold readRows at hfull
      cases hrow : read element row with
      | error stop =>
          simp only [hrow, List.length_nil, Nat.add_zero] at hfull
          exact absurd ring.length_le (Nat.not_le.mpr hfull)
      | ok next =>
          simp only [hrow, List.length_cons] at hfull
          unfold Ring.enqueue
          by_cases hlt : ring.items.length < SIZE
          · simp only [hlt, dite_true]
            apply ih
            rw [List.length_append, List.length_singleton]
            omega
          · simp only [hlt, dite_false]

/-- What the fetches rely on of the reading of a row: it does not wait, and whether it throws does
not depend on what the element holds. -/
structure ReadsRows (read : α → JsonTree → Exec α) : Prop where
  ne_waits : ∀ element row, read element row ≠ .error .waits
  same : ∀ element element' row, (∃ a, read element row = .ok a) → ∃ a, read element' row = .ok a

/-- A row that is read without an exception. -/
def Readable (read : α → JsonTree → Exec α) (row : JsonTree) : Prop :=
  ∃ element a, read element row = .ok a

theorem ReadsRows.ok (hread : ReadsRows read) {row : JsonTree} (h : Readable read row)
    (element : α) : ∃ a, read element row = .ok a := by
  obtain ⟨element', a, ha⟩ := h
  exact hread.same element' element row ⟨a, ha⟩

theorem ReadsRows.throws (hread : ReadsRows read) {row : JsonTree} (h : ¬ Readable read row)
    (element : α) : read element row = .error .throws := by
  cases hrow : read element row with
  | ok a => exact absurd ⟨element, a, hrow⟩ h
  | error stop =>
      cases stop with
      | throws => rfl
      | waits => exact absurd hrow (hread.ne_waits element row)

theorem readRows_of_readable (hread : ReadsRows read) (element : α) {rows : List JsonTree}
    (h : ∀ row ∈ rows, Readable read row) :
    (readRows read rows element).2 = .ok () ∧
      (readRows read rows element).1.length = rows.length := by
  induction rows generalizing element with
  | nil => exact ⟨rfl, rfl⟩
  | cons row rows ih =>
      obtain ⟨next, hrow⟩ := hread.ok (h row (List.mem_cons_self ..)) element
      obtain ⟨hend, hlength⟩ := ih next
        (fun row' hmem => h row' (List.mem_cons_of_mem row hmem))
      simp only [readRows, hrow, List.length_cons, hlength]
      exact ⟨hend, trivial⟩

theorem readRows_of_not_readable (hread : ReadsRows read) (element : α) {rows : List JsonTree}
    (h : ¬ ∀ row ∈ rows, Readable read row) :
    (readRows read rows element).2 = .error .throws := by
  induction rows generalizing element with
  | nil => exact absurd (fun row hmem => absurd hmem List.not_mem_nil) h
  | cons row rows ih =>
      by_cases hrow : Readable read row
      · obtain ⟨next, hnext⟩ := hread.ok hrow element
        simp only [readRows, hnext]
        apply ih
        intro hall
        apply h
        intro row' hmem
        rcases List.mem_cons.mp hmem with rfl | hmem
        · exact hrow
        · exact hall row' hmem
      · simp only [readRows, hread.throws hrow element]

/-- What decides about the rows of a response: they are all read, and the ring has room. -/
structure Accepted (read : α → JsonTree → Exec α) (reply : Reply) (outputBuff : Ring α SIZE)
    (rows : List JsonTree) : Prop where
  document : ∃ doc, reply.document = .ok doc ∧ doc.getArray = some rows
  readable : ∀ row ∈ rows, Readable read row
  room : outputBuff.items.length + rows.length ≤ SIZE

variable {reply : Reply} {element : α} {what : Str} {outputBuff : Ring α SIZE}
  {rows : List JsonTree} {doc : JsonTree}

/-- **An accepted response is enqueued whole**, as the items its rows are read as. -/
theorem fetchRows_of_accepted (hread : ReadsRows read) (element : α) (what : Str)
    (h : Accepted read reply outputBuff rows) :
    (fetchRows read element reply what outputBuff).1 = .ok .success ∧
      (fetchRows read element reply what outputBuff).2.items =
        outputBuff.items ++ (readRows read rows element).1 := by
  obtain ⟨⟨doc, hdoc, hrows⟩, hreadable, hroom⟩ := h
  obtain ⟨hend, hlength⟩ := readRows_of_readable hread element hreadable
  have hcall := enqueueRows_of_room read rows element outputBuff (by omega)
  rw [hend] at hcall
  unfold fetchRows
  simp only [hdoc, hrows]
  generalize enqueueRows read rows element outputBuff = result at hcall ⊢
  obtain ⟨outcome, ring⟩ := result
  obtain ⟨rfl, hitems⟩ := hcall
  exact ⟨rfl, hitems⟩

/-- A response that is refused leaves the ring alone. -/
theorem fetchRows_of_refused {err : FetchError} (h : reply.document = .error err) :
    fetchRows read element reply what outputBuff = (.ok err, outputBuff) := by
  unfold fetchRows
  simp only [h]

/-- Without room the call does not return. -/
theorem fetchRows_of_full (hdoc : reply.document = .ok doc) (hrows : doc.getArray = some rows)
    (hfull : SIZE < outputBuff.items.length + (readRows read rows element).1.length) :
    (fetchRows read element reply what outputBuff).1 = .error .waits := by
  have hcall := enqueueRows_of_full read rows element outputBuff hfull
  unfold fetchRows
  simp only [hdoc, hrows]
  generalize enqueueRows read rows element outputBuff = result at hcall ⊢
  obtain ⟨outcome, ring⟩ := result
  obtain rfl : outcome = .error .waits := hcall
  rfl

/-- **A response that is at fault empties the ring**, if the call returns. -/
theorem fetchRows_of_fault (hread : ReadsRows read) (element : α) (what : Str)
    (outputBuff : Ring α SIZE) (hdoc : reply.document = .ok doc)
    (hfault : ¬ ∃ rows, doc.getArray = some rows ∧ ∀ row ∈ rows, Readable read row) :
    (fetchRows read element reply what outputBuff).1 = .error .waits ∨
      ((∃ err, (fetchRows read element reply what outputBuff).1 = .ok err ∧
        err.error ≠ .SUCCESS) ∧ (fetchRows read element reply what outputBuff).2.items = []) := by
  cases hrows : doc.getArray with
  | none =>
      right
      unfold fetchRows
      simp only [hdoc, hrows]
      exact ⟨⟨_, rfl, by simp⟩, rfl⟩
  | some rows =>
      by_cases hfull : SIZE < outputBuff.items.length + (readRows read rows element).1.length
      · exact Or.inl (fetchRows_of_full hdoc hrows hfull)
      · right
        have hnot : ¬ ∀ row ∈ rows, Readable read row := fun h => hfault ⟨rows, hrows, h⟩
        have hcall := enqueueRows_of_room read rows element outputBuff (by omega)
        rw [readRows_of_not_readable hread element hnot] at hcall
        unfold fetchRows
        simp only [hdoc, hrows]
        generalize enqueueRows read rows element outputBuff = result at hcall ⊢
        obtain ⟨outcome, ring⟩ := result
        obtain rfl : outcome = .error .throws := hcall.1
        exact ⟨⟨_, rfl, by simp⟩, rfl⟩

/-- **A fetch succeeds exactly when the response is accepted.** -/
theorem succeeds_iff (hread : ReadsRows read) :
    Succeeds (fetchRows read element reply what outputBuff) ↔
      ∃ rows, Accepted read reply outputBuff rows := by
  constructor
  · rintro ⟨err, hcall, hsuccess⟩
    cases hdoc : reply.document with
    | error err' =>
        rw [fetchRows_of_refused hdoc] at hcall
        obtain rfl := Except.ok.inj hcall
        exact absurd hsuccess (document_error hdoc)
    | ok doc =>
        by_cases hfault : ∃ rows, doc.getArray = some rows ∧ ∀ row ∈ rows, Readable read row
        · obtain ⟨rows, hrows, hreadable⟩ := hfault
          refine ⟨rows, ⟨doc, hdoc, hrows⟩, hreadable, ?_⟩
          by_contra hroom
          have hlength := (readRows_of_readable hread element hreadable).2
          rw [fetchRows_of_full hdoc hrows (by omega)] at hcall
          cases hcall
        · rcases fetchRows_of_fault hread element what outputBuff hdoc hfault with
            hwaits | ⟨⟨err', hcall', herr⟩, -⟩
          · rw [hwaits] at hcall
            cases hcall
          · rw [hcall'] at hcall
            obtain rfl := Except.ok.inj hcall
            exact absurd hsuccess herr
  · rintro ⟨rows, haccepted⟩
    exact ⟨_, (fetchRows_of_accepted hread element what haccepted).1, rfl⟩

end Fetch

/-! ## Candles

An element of a row goes to the field of its index. A row that is too short therefore leaves the
last fields as they were, which is all that the candle before can show through. -/

/-- The field of a candle that the element with this index of a row is for. -/
def Candle.get (c : Candle) : Fin 8 → Int
  | 0 => c.timestampOpen
  | 1 => c.open_
  | 2 => c.high
  | 3 => c.low
  | 4 => c.close
  | 5 => c.volume
  | 6 => c.timestampClose
  | 7 => c.quoteVolume

/-- What the element with this index is read as. -/
def decodeCandleField (index : Fin 8) (field : JsonTree) : Exec Int :=
  match index with
  | 0 | 6 => valueOf field.getInt64
  | 5 | 7 => readFixed128 (some field)
  | _ => readFixed (some field)

/-- The candle is what the first eight elements of the row are read as. -/
def OwnRow (row : List JsonTree) (c : Candle) : Prop :=
  ∀ i : Fin 8, ∃ field, row[i.val]? = some field ∧ decodeCandleField i field = .ok (c.get i)

/-- A row determines its candle. -/
theorem OwnRow.unique {row : List JsonTree} {c c' : Candle} (h : OwnRow row c)
    (h' : OwnRow row c') : c = c' := by
  have hget : ∀ i, c.get i = c'.get i := by
    intro i
    obtain ⟨field, hfield, hdecode⟩ := h i
    obtain ⟨field', hfield', hdecode'⟩ := h' i
    obtain rfl : field = field' := Option.some.inj (hfield.symm.trans hfield')
    exact Except.ok.inj (hdecode.symm.trans hdecode')
  cases c
  cases c'
  rw [Candle.mk.injEq]
  exact ⟨hget 0, hget 1, hget 2, hget 4, hget 3, hget 5, hget 6, hget 7⟩

theorem map_eq_ok_iff {α β : Type} {x : Exec α} {f : α → β} {b : β} :
    x.map f = .ok b ↔ ∃ a, x = .ok a ∧ f a = b := by
  cases x <;> simp [Except.map]

/-- **One element of a row.** -/
theorem readCandleField_ok {i : Fin 8} {field : JsonTree} {c c' : Candle}
    (h : readCandleField i field c = .ok c') :
    decodeCandleField i field = .ok (c'.get i) ∧ ∀ j, j ≠ i → c'.get j = c.get j := by
  fin_cases i <;> obtain ⟨v, hv, rfl⟩ := map_eq_ok_iff.mp h <;> refine ⟨hv, fun j hj => ?_⟩ <;>
    fin_cases j <;> first | rfl | exact absurd rfl hj

/-- Whether an element can be read does not depend on the candle. -/
theorem readCandleField_isOk (i : Fin 8) (field : JsonTree) (c : Candle) :
    (∃ c', readCandleField i field c = .ok c') ↔ ∃ v, decodeCandleField i field = .ok v := by
  have hmap : ∀ (x : Exec Int) (f : Int → Candle),
      (∃ c', x.map f = .ok c') ↔ ∃ v, x = .ok v := by
    intro x f
    cases x <;> simp [Except.map]
  fin_cases i <;> exact hmap _ _

/-- The elements after the eighth are passed over. -/
theorem readCandleField_rest {index : Nat} (h : 8 ≤ index) (field : JsonTree) (c : Candle) :
    readCandleField index field c = .ok c := by
  obtain ⟨n, rfl⟩ := Nat.exists_eq_add_of_le' h
  rfl

/-- One step of the loop over a row. -/
theorem readCandleField_step {index : Nat} {field : JsonTree} {c c' : Candle}
    (h : readCandleField index field c = .ok c') (i : Fin 8) :
    (index = i → decodeCandleField i field = .ok (c'.get i)) ∧
      (index ≠ i → c'.get i = c.get i) := by
  by_cases hlt : index < 8
  · obtain ⟨hdecode, hframe⟩ := readCandleField_ok (i := ⟨index, hlt⟩) h
    constructor
    · intro heq
      obtain rfl : i = ⟨index, hlt⟩ := Fin.ext heq.symm
      exact hdecode
    · intro hne
      apply hframe
      intro heq
      exact hne (congrArg Fin.val heq).symm
  · rw [readCandleField_rest (by omega)] at h
    obtain rfl := Except.ok.inj h
    exact ⟨fun heq => absurd i.isLt (heq ▸ hlt), fun _ => rfl⟩

/-- **What a row makes of a candle**: an element that is there is read into its field, and a field
without an element keeps what it held. -/
theorem readCandleFields_spec {index : Nat} {fields : List JsonTree} {c c' : Candle}
    (h : readCandleFields index fields c = .ok c') (i : Fin 8) :
    (∀ k field, fields[k]? = some field → index + k = i →
        decodeCandleField i field = .ok (c'.get i)) ∧
      ((∀ k < fields.length, index + k ≠ i) → c'.get i = c.get i) := by
  induction fields generalizing index c with
  | nil =>
      obtain rfl := Except.ok.inj h
      exact ⟨fun k field hfield => by simp at hfield, fun _ => rfl⟩
  | cons field fields ih =>
      obtain ⟨c₁, hfirst, hrest⟩ := bind_eq_ok_iff.mp h
      obtain ⟨hdecode, hkept⟩ := readCandleField_step hfirst i
      obtain ⟨hlater, hframe⟩ := ih hrest
      constructor
      · intro k field' hfield heq
        cases k with
        | zero =>
            obtain rfl : field = field' := by simpa using hfield
            have hindex : index = i.val := heq
            rw [hframe (fun k _ => by omega)]
            exact hdecode hindex
        | succ k => exact hlater k field' (by simpa using hfield) (by omega)
      · intro hnone
        calc c'.get i = c₁.get i := hframe (fun k hk => by
              have := hnone (k + 1) (by simpa using hk)
              omega)
          _ = c.get i := hkept (hnone 0 (Nat.succ_pos _))

/-- Whether a row can be read does not depend on the candle. -/
theorem readCandleFields_isOk {index : Nat} {fields : List JsonTree} {c : Candle} :
    (∃ c', readCandleFields index fields c = .ok c') ↔
      ∀ k field, fields[k]? = some field → ∀ i : Fin 8, index + k = i →
        ∃ v, decodeCandleField i field = .ok v := by
  induction fields generalizing index c with
  | nil => exact iff_of_true ⟨c, rfl⟩ (fun k field hfield => by simp at hfield)
  | cons field fields ih =>
      constructor
      · rintro ⟨c', h⟩ k field' hfield i heq
        obtain ⟨c₁, hfirst, hrest⟩ := bind_eq_ok_iff.mp h
        cases k with
        | zero =>
            obtain rfl : field = field' := by simpa using hfield
            exact ⟨_, (readCandleField_step hfirst i).1 heq⟩
        | succ k => exact ih.mp ⟨c', hrest⟩ k field' (by simpa using hfield) i (by omega)
      · intro h
        have hfirst : ∃ c₁, readCandleField index field c = .ok c₁ := by
          by_cases hlt : index < 8
          · exact (readCandleField_isOk ⟨index, hlt⟩ field c).mpr
              (h 0 field rfl ⟨index, hlt⟩ (Nat.add_zero index))
          · exact ⟨c, readCandleField_rest (by omega) field c⟩
        obtain ⟨c₁, hfirst⟩ := hfirst
        have hlater : ∃ c', readCandleFields (index + 1) fields c₁ = .ok c' :=
          ih.mpr (fun k field' hfield i heq =>
            h (k + 1) field' (by simpa using hfield) i (by omega))
        obtain ⟨c', hrest⟩ := hlater
        exact ⟨c', bind_eq_ok_iff.mpr ⟨c₁, hfirst, hrest⟩⟩

theorem readFixed128_ne_waits (field : Option JsonTree) : readFixed128 field ≠ .error .waits := by
  intro h
  rcases Order.bind_eq_waits_iff.mp h with h | ⟨text, -, h⟩
  · exact Order.valueOf_ne_waits _ h
  · split at h <;> cases h

theorem readCandleField_ne_waits (index : Nat) (field : JsonTree) (c : Candle) :
    readCandleField index field c ≠ .error .waits := by
  have hmap : ∀ (x : Exec Int) (f : Int → Candle), x ≠ .error .waits →
      x.map f ≠ .error .waits := by
    intro x f hx
    cases x with
    | ok v => simp [Except.map]
    | error stop => simpa [Except.map] using hx
  unfold readCandleField
  split
  all_goals first
    | exact hmap _ _ (Order.valueOf_ne_waits _)
    | exact hmap _ _ (Order.readFixed_ne_waits _)
    | exact hmap _ _ (readFixed128_ne_waits _)
    | simp

theorem readCandleFields_ne_waits (index : Nat) (fields : List JsonTree) (c : Candle) :
    readCandleFields index fields c ≠ .error .waits := by
  induction fields generalizing index c with
  | nil => exact fun h => by cases h
  | cons field fields ih =>
      intro h
      rcases Order.bind_eq_waits_iff.mp h with h | ⟨c₁, -, h⟩
      · exact readCandleField_ne_waits index field c h
      · exact ih (index + 1) c₁ h

theorem readsRows_candle : ReadsRows readCandle where
  ne_waits c candle h := by
    rcases Order.bind_eq_waits_iff.mp h with h | ⟨fields, -, h⟩
    · exact Order.valueOf_ne_waits _ h
    · exact readCandleFields_ne_waits 0 fields c h
  same c c' candle h := by
    obtain ⟨a, h⟩ := h
    obtain ⟨fields, harray, hfields⟩ := bind_eq_ok_iff.mp h
    obtain ⟨a', ha'⟩ := (readCandleFields_isOk (c := c')).mpr
      (readCandleFields_isOk.mp ⟨a, hfields⟩)
    exact ⟨a', bind_eq_ok_iff.mpr ⟨fields, harray, ha'⟩⟩

theorem readsRows_interestFrame : ReadsRows readInterestFrame where
  ne_waits _ frame h := by
    rcases Order.bind_eq_waits_iff.mp h with h | ⟨_, -, h⟩
    · exact readFixed128_ne_waits _ h
    rcases Order.bind_eq_waits_iff.mp h with h | ⟨_, -, h⟩
    · exact readFixed128_ne_waits _ h
    rcases Order.bind_eq_waits_iff.mp h with h | ⟨_, -, h⟩
    · exact readFixed128_ne_waits _ h
    rcases Order.bind_eq_waits_iff.mp h with h | ⟨_, -, h⟩
    · exact Order.valueOf_ne_waits _ h
    · cases h
  same _ _ _ h := h

/-! ## Each candle is decoded from its own row -/

inductive CandleApi where
  | Futures
  | Spot
  deriving DecidableEq, Repr

namespace CandleApi

def target : CandleApi → Str → Str → Str
  | Futures => Futures.candlesTarget
  | Spot => Spot.candlesTarget

def fetchCandles : CandleApi → (Str → Reply) → Candle → Str → Ring Candle 2048 → Str → Str →
    Exec FetchError × Ring Candle 2048
  | Futures => Futures.fetchCandles
  | Spot => Spot.fetchCandles

theorem fetchCandles_eq (api : CandleApi) (sendRequest : Str → Reply) (outCandle : Candle)
    (what : Str) (outputBuff : Ring Candle 2048) (pair timeframe : Str) :
    api.fetchCandles sendRequest outCandle what outputBuff pair timeframe =
      fetchRows readCandle outCandle (sendRequest (api.target pair timeframe)) what
        outputBuff := by
  cases api <;> rfl

end CandleApi

/-- A call that returns SUCCESS has enqueued one candle a row, each of them read from its own row,
and a call whose response has a short row does not. -/
def OwnRows (rows : List (List JsonTree)) (before : Ring Candle 2048)
    (call : Exec FetchError × Ring Candle 2048) : Prop :=
  (Succeeds call → ∃ candles, call.2.items = before.items ++ candles ∧
    List.Forall₂ OwnRow rows candles) ∧
  ((∃ row ∈ rows, row.length < 8) → ¬ Succeeds call)

theorem readCandle_ownRow {row : List JsonTree} {c c' : Candle} (hlength : 8 ≤ row.length)
    (h : readCandle c (.arr row) = .ok c') : OwnRow row c' := by
  intro i
  have hlt : i.val < row.length := lt_of_lt_of_le i.isLt hlength
  have hfield := List.getElem?_eq_getElem hlt
  exact ⟨row[i.val], hfield, (readCandleFields_spec h i).1 i.val _ hfield (Nat.zero_add _)⟩

/-- Rows of eight elements or more give their own candles. -/
theorem readRows_ownRows {rows : List (List JsonTree)} {c : Candle}
    (hlength : ∀ row ∈ rows, 8 ≤ row.length)
    (hend : (readRows readCandle (rows.map .arr) c).2 = .ok ()) :
    List.Forall₂ OwnRow rows (readRows readCandle (rows.map .arr) c).1 := by
  induction rows generalizing c with
  | nil => exact .nil
  | cons row rows ih =>
      rw [List.map_cons] at hend ⊢
      unfold readRows at hend ⊢
      cases hrow : readCandle c (.arr row) with
      | error stop =>
          simp only [hrow] at hend
          cases hend
      | ok c' =>
          simp only [hrow] at hend ⊢
          exact .cons (readCandle_ownRow (hlength row (List.mem_cons_self ..)) hrow)
            (ih (fun row' hmem => hlength row' (List.mem_cons_of_mem row hmem)) hend)

/-- **Each candle is read from its own row alone, exactly when no row is short** or the response is
not accepted. -/
theorem candles_own_rows_iff (api : CandleApi) (sendRequest : Str → Reply) (outCandle : Candle)
    (what : Str) (outputBuff : Ring Candle 2048) (pair timeframe : Str)
    {rows : List (List JsonTree)}
    (hbody : (sendRequest (api.target pair timeframe)).body = .iterated (.arr (rows.map .arr))) :
    OwnRows rows outputBuff
        (api.fetchCandles sendRequest outCandle what outputBuff pair timeframe) ↔
      (∀ row ∈ rows, 8 ≤ row.length) ∨
        ¬ Accepted readCandle (sendRequest (api.target pair timeframe)) outputBuff
          (rows.map .arr) := by
  rw [CandleApi.fetchCandles_eq]
  have hrows : ∀ rows', Accepted readCandle (sendRequest (api.target pair timeframe)) outputBuff
      rows' → rows' = rows.map .arr := by
    rintro rows' ⟨⟨doc, hdoc, hrows'⟩, -, -⟩
    have hsame := document_ok hdoc
    rw [hbody] at hsame
    obtain rfl := Body.iterated.inj hsame
    exact (Option.some.inj hrows').symm
  have hsucceeds : Succeeds (fetchRows readCandle outCandle
      (sendRequest (api.target pair timeframe)) what outputBuff) ↔
      Accepted readCandle (sendRequest (api.target pair timeframe)) outputBuff
        (rows.map .arr) := by
    rw [succeeds_iff readsRows_candle]
    constructor
    · rintro ⟨rows', haccepted⟩
      obtain rfl := hrows rows' haccepted
      exact haccepted
    · exact fun haccepted => ⟨_, haccepted⟩
  rw [OwnRows, hsucceeds]
  constructor
  · rintro ⟨-, hshort⟩
    by_cases hlength : ∀ row ∈ rows, 8 ≤ row.length
    · exact Or.inl hlength
    · push Not at hlength
      exact Or.inr (hshort hlength)
  · intro h
    constructor
    · intro haccepted
      have hlength := h.resolve_right (not_not.mpr haccepted)
      have hitems := (fetchRows_of_accepted readsRows_candle outCandle what haccepted).2
      have hend := (readRows_of_readable readsRows_candle outCandle haccepted.readable).1
      exact ⟨_, hitems, readRows_ownRows hlength hend⟩
    · rintro ⟨row, hmem, hlt⟩
      rcases h with hlength | hnot
      · exact absurd (hlength row hmem) (Nat.not_le.mpr hlt)
      · exact hnot

/-- A response of the exchange with the given rows. -/
def rowsReply (rows : List (List JsonTree)) : Reply :=
  ⟨.SUCCESS, 200, [], .iterated (.arr (rows.map .arr))⟩

def fullRow : List JsonTree :=
  [.int 1, .str "2".toList, .str "4".toList, .str "1".toList, .str "3".toList, .str "5".toList,
    .int 9, .str "6".toList]

/-- The candle of `fullRow`. -/
def fullCandle : Candle :=
  ⟨1, 200000000, 400000000, 300000000, 100000000, 500000000, 9, 600000000⟩

/-- A row of another candle, with an element more than are read. -/
def laterRow : List JsonTree :=
  [.int 10, .str "3".toList, .str "5".toList, .str "2".toList, .str "4".toList, .str "7".toList,
    .int 19, .str "8".toList, .int 3]

/-- What the candle holds before it is assigned. -/
def unassigned : Candle := ⟨0, 0, 0, 0, 0, 0, 0, 0⟩

/-- Two candles are fetched into a ring that holds one already. -/
theorem candles_own_rows_iff_twoRows :
    (CandleApi.Futures.fetchCandles (fun _ => rowsReply [fullRow, laterRow]) unassigned []
        ⟨[unassigned], by decide⟩ [] []).2.items =
      [unassigned, fullCandle, ⟨10, 300000000, 500000000, 400000000, 200000000, 700000000, 19,
        800000000⟩] ∧
    OwnRows [fullRow, laterRow] ⟨[unassigned], by decide⟩
      (CandleApi.Futures.fetchCandles (fun _ => rowsReply [fullRow, laterRow]) unassigned []
        ⟨[unassigned], by decide⟩ [] []) := by
  refine ⟨by decide +kernel, ?_⟩
  apply (candles_own_rows_iff .Futures _ _ _ _ _ _ rfl).mpr
  left
  decide

/-- **A short row takes over what the row before it left.** -/
theorem short_row_inherits :
    (CandleApi.Futures.fetchCandles (fun _ => rowsReply [fullRow, [.int 10]]) unassigned []
        ⟨[], Nat.zero_le _⟩ [] []).2.items = [fullCandle, { fullCandle with timestampOpen := 10 }] ∧
      ¬ OwnRows [fullRow, [.int 10]] ⟨[], Nat.zero_le _⟩
        (CandleApi.Futures.fetchCandles (fun _ => rowsReply [fullRow, [.int 10]]) unassigned []
          ⟨[], Nat.zero_le _⟩ [] []) := by
  refine ⟨by decide +kernel, fun h => h.2 ?_ ?_⟩
  · exact ⟨[.int 10], by simp, by decide⟩
  · exact ⟨.success, by decide +kernel, rfl⟩

/-! ## A failed fetch and the ring -/

/-- A call that returns an error leaves what can be dequeued as it was; one that returns SUCCESS
adds one item for each row. -/
def KeepsBuffer {α : Type} {SIZE : Nat} (reply : Reply) (before : Ring α SIZE)
    (call : Exec FetchError × Ring α SIZE) : Prop :=
  ∀ err, call.1 = .ok err →
    (err.error ≠ .SUCCESS → call.2.items = before.items) ∧
    (err.error = .SUCCESS → ∃ doc rows new, reply.document = .ok doc ∧
      doc.getArray = some rows ∧ call.2.items = before.items ++ new ∧ new.length = rows.length)

/-- A row of an accepted document is at fault, or the document is no array. -/
def AtFault {α : Type} (read : α → JsonTree → Exec α) (reply : Reply) : Prop :=
  ∃ doc, reply.document = .ok doc ∧
    ¬ ∃ rows, doc.getArray = some rows ∧ ∀ row ∈ rows, Readable read row

theorem keepsBuffer_iff {α : Type} {SIZE : Nat} {read : α → JsonTree → Exec α}
    (hread : ReadsRows read) (element : α) (reply : Reply) (what : Str) (before : Ring α SIZE)
    (hreturns : (fetchRows read element reply what before).1 ≠ .error .waits) :
    KeepsBuffer reply before (fetchRows read element reply what before) ↔
      before.items = [] ∨ ¬ AtFault read reply := by
  by_cases hfault : AtFault read reply
  · obtain ⟨doc, hdoc, hbad⟩ := hfault
    obtain ⟨⟨err, hcall, herr⟩, hitems⟩ :=
      (fetchRows_of_fault hread element what before hdoc hbad).resolve_left hreturns
    rw [or_iff_left (not_not.mpr ⟨doc, hdoc, hbad⟩)]
    constructor
    · intro h
      rw [← (h err hcall).1 herr, hitems]
    · intro hempty err' hcall'
      obtain rfl := Except.ok.inj (hcall.symm.trans hcall')
      exact ⟨fun _ => hitems.trans hempty.symm, fun hsuccess => absurd hsuccess herr⟩
  · refine iff_of_true ?_ (Or.inr hfault)
    intro err hcall
    cases hdoc : reply.document with
    | error err' =>
        rw [fetchRows_of_refused hdoc] at hcall ⊢
        obtain rfl := Except.ok.inj hcall
        exact ⟨fun _ => rfl, fun hsuccess => absurd hsuccess (document_error hdoc)⟩
    | ok doc =>
        have hgood : ∃ rows, doc.getArray = some rows ∧ ∀ row ∈ rows, Readable read row := by
          by_contra hbad
          exact hfault ⟨doc, hdoc, hbad⟩
        obtain ⟨rows, hrows, hreadable⟩ := hgood
        have hlength := (readRows_of_readable hread element hreadable).2
        have hroom : before.items.length + rows.length ≤ SIZE := by
          by_contra hfull
          exact hreturns (fetchRows_of_full hdoc hrows (by omega))
        obtain ⟨hsuccess, hitems⟩ := fetchRows_of_accepted hread element what
          ⟨⟨doc, hdoc, hrows⟩, hreadable, hroom⟩
        rw [hsuccess] at hcall
        obtain rfl := Except.ok.inj hcall
        exact ⟨fun hne => absurd rfl hne,
          fun _ => ⟨doc, rows, _, rfl, hrows, hitems, hlength⟩⟩

/-- **A failed fetch leaves the ring as it was exactly when it was empty or no row was at fault**,
for every call that returns. -/
theorem failed_fetch_keeps_buffer_iff (sendRequest : Str → Reply) (what pair timeframe : Str) :
    (∀ (api : CandleApi) (outCandle : Candle) (outputBuff : Ring Candle 2048),
      (api.fetchCandles sendRequest outCandle what outputBuff pair timeframe).1 ≠
        .error .waits →
      (KeepsBuffer (sendRequest (api.target pair timeframe)) outputBuff
          (api.fetchCandles sendRequest outCandle what outputBuff pair timeframe) ↔
        outputBuff.items = [] ∨ ¬ AtFault readCandle (sendRequest (api.target pair timeframe)))) ∧
    (∀ (interestFrameHolder : OpenInterest) (outputBuff : Ring OpenInterest 1024),
      (Futures.fetchOpenInterestHist sendRequest interestFrameHolder what outputBuff pair
        timeframe).1 ≠ .error .waits →
      (KeepsBuffer (sendRequest (Futures.interestTarget pair timeframe)) outputBuff
          (Futures.fetchOpenInterestHist sendRequest interestFrameHolder what outputBuff pair
            timeframe) ↔
        outputBuff.items = [] ∨
          ¬ AtFault readInterestFrame (sendRequest (Futures.interestTarget pair timeframe)))) := by
  constructor
  · intro api outCandle outputBuff hreturns
    rw [CandleApi.fetchCandles_eq] at hreturns ⊢
    exact keepsBuffer_iff readsRows_candle _ _ _ _ hreturns
  · intro interestFrameHolder outputBuff hreturns
    exact keepsBuffer_iff readsRows_interestFrame _ _ _ _ hreturns

/-- A row whose first element is no integer. -/
def badRow : List JsonTree := [.str "x".toList]

/-- The exchange refuses the request. -/
def refusedReply : Reply :=
  ⟨.SUCCESS, 429, [], .iterated (.obj [("code".toList, .int (-1003)),
    ("msg".toList, .str "Too many requests".toList)])⟩

/-- The candles of the fetch before are still there when the next one is refused. -/
theorem failed_fetch_keeps_buffer_iff_refused :
    KeepsBuffer refusedReply ⟨[fullCandle, unassigned], by decide⟩
      (CandleApi.Spot.fetchCandles (fun _ => refusedReply) fullCandle []
        ⟨[fullCandle, unassigned], by decide⟩ [] []) := by
  refine ((failed_fetch_keeps_buffer_iff _ _ _ _).1 .Spot _ _ ?_).mpr (Or.inr ?_)
  · exact fun h => nomatch h
  · rintro ⟨doc, hdoc, -⟩
    cases hdoc

/-- **A failed fetch throws away the candles of the fetch before it.** -/
theorem failed_fetch_clears_buffer :
    (CandleApi.Futures.fetchCandles (fun _ => rowsReply [badRow]) unassigned []
        ⟨[fullCandle], by decide⟩ [] []).2.items = [] ∧
      ¬ KeepsBuffer (rowsReply [badRow]) ⟨[fullCandle], by decide⟩
        (CandleApi.Futures.fetchCandles (fun _ => rowsReply [badRow]) unassigned []
          ⟨[fullCandle], by decide⟩ [] []) := by
  refine ⟨rfl, fun h => ?_⟩
  have hkept := (h _ rfl).1 (by simp)
  cases hkept

end AstraConnect.Api
