import AstraConnect.Orderbook.LevelReading
import AstraConnect.Orderbook.ExecutionLoop

set_option autoImplicit false

/-! # The slots of the depth events

`OrderbookArrayHolder` lends 128 slots to the events in flight. The decoder (`decodeEntries.hpp`)
runs on the stream thread: it acquires a slot, writes the levels of a message into the slot's
arrays and queues the event, or gives the slot back. The update thread takes an event, applies or
skips it, and releases its slot. `Depth` puts both threads and the holder together; a step is one
access to the count, to the ring of free slots, to an entry of an array or to the queue.

`slot_ownership` follows the slots through every interleaving of the two threads.
-/

namespace AstraConnect.Orderbook

open Transition DepthDecoder

/-! ## The holder and the decoder -/

namespace OrderbookArrayHolder

def SLOTS : Nat := 128

/-- The slots in the ring at the end of the constructor. -/
def slotNumbers : List Int := (List.range SLOTS).map Int.ofNat

end OrderbookArrayHolder

open OrderbookArrayHolder

/-- Events `bufferOut` has room for. -/
def BUFFER_OUT : Nat := 1024

/-- A message of the stream: a document, or a text that the parser gives up on when it has read
some levels. -/
inductive Message where
  | document (doc : JsonTree)
  | broken (levels : Bool → List Entry)

namespace DepthDecoder

/-- What the decoder has written into the arrays of its slot, and the ids `u`, `U` and `pu` of a
good event. -/
structure Decoded where
  levels : Bool → List Entry
  ids : Option (Int × Int × Int)

/-- `get_uint64()`, stored in an `int64_t`. -/
def getUint64 : JsonTree → Option Int
  | .int n => if 0 ≤ n ∧ n < 2 ^ 64 then some (Int.bmod n (2 ^ 64)) else none
  | _ => none

/-- `readLevels(obj[name], …)`: what is written and whether the event is still good. -/
def readSide (garbage : Nat → Int) (obj : JsonTree) (name : List Char) : List Entry × Bool :=
  match (obj.get name).bind JsonTree.getArray with
  | none => ([], false)
  | some levels =>
      let r := readLevels garbage levels []
      (r.1, r.2.toOption = some true)

/-- The `try` block of `operator()`; a read that throws ends it. -/
def decode (garbage : Nat → Int) : Message → Decoded
  | .broken levels => ⟨levels, none⟩
  | .document doc =>
      match (doc.get "data".toList).bind JsonTree.getObject with
      | none => ⟨fun _ => [], none⟩
      | some fields =>
          let obj := JsonTree.obj fields
          let bids := readSide garbage obj "b".toList
          if bids.2 then
            let asks := readSide garbage obj "a".toList
            let levels := fun side => if side then bids.1 else asks.1
            if asks.2 then
              ⟨levels, do
                let u ← (obj.get "u".toList).bind getUint64
                let U ← (obj.get "U".toList).bind getUint64
                let pu ← (obj.get "pu".toList).bind getUint64
                return (u, U, pu)⟩
            else ⟨levels, none⟩
          else ⟨fun side => if side then bids.1 else [], none⟩

/-- The writes, in order: `out[count++].assignValues(…)`, the bids first. -/
def Decoded.writes (d : Decoded) : List (Bool × Nat × Entry) :=
  (d.levels true).zipIdx.map (fun e => (true, e.2, e.1)) ++
    (d.levels false).zipIdx.map (fun e => (false, e.2, e.1))

end DepthDecoder

/-- Where the decoder is. -/
inductive Decoder where
  | idle
  /-- `acquire`: the load of `freeCount` -/
  | load (m : Message)
  /-- `acquire`: `fetch_sub` -/
  | sub (m : Message)
  /-- `acquire`: `freeSlots.dequeue()` -/
  | pop (m : Message)
  /-- the writes that are left -/
  | write (slot : Int) (writes : List (Bool × Nat × Entry)) (d : Decoded)
  /-- `release` of a bad event: `freeSlots.enqueue(slot)` -/
  | giveBack (slot : Int)
  /-- `release` of a bad event: `fetch_add` -/
  | count
  /-- `bufferOut.enqueue(data)` -/
  | put (item : OrderbookArrays)

/-- The two threads and the holder. -/
structure Depth where
  book : State
  decoder : Decoder
  freeSlots : List Int
  freeCount : Int
  /-- `bidArrays` and `askArrays`: slot, side and index -/
  arrays : Int → Bool → Nat → Entry
  /-- in `release` of the update thread: the slot is in the ring and not counted yet -/
  returned : Bool
  /-- a history variable: the slots of the events the update thread has taken -/
  taken : List Int

namespace Depth

/-- The event that refers to the first entries of its slot's arrays. -/
def eventAt (σ : Depth) (slot : Int) (count : Bool → Nat) (ids : Int × Int × Int) : DepthEvent where
  slot := slot
  levels side := (List.range (count side)).map (σ.arrays slot side)
  u := ids.1
  U := ids.2.1
  pu := ids.2.2

def decoderStep (garbage : Nat → Int) (σ : Depth) : Option Depth :=
  match σ.decoder with
  | .idle => none
  | .load m =>
      some { σ with decoder := if σ.freeCount = 0 then .put none else .sub m }
  | .sub m => some { σ with freeCount := σ.freeCount - 1, decoder := .pop m }
  | .pop m =>
      match σ.freeSlots with
      | [] => none
      | slot :: rest =>
          let d := decode garbage m
          some { σ with freeSlots := rest, decoder := .write slot d.writes d }
  | .write slot ((side, i, entry) :: rest) d =>
      some { σ with
        arrays := Function.update σ.arrays slot
          (Function.update (σ.arrays slot) side (Function.update (σ.arrays slot side) i entry))
        decoder := .write slot rest d }
  | .write slot [] d =>
      some { σ with
        decoder := match d.ids with
          | none => .giveBack slot
          | some ids => .put (some (σ.eventAt slot (fun side => (d.levels side).length) ids)) }
  | .giveBack slot =>
      if σ.freeSlots.length < SLOTS then
        some { σ with freeSlots := σ.freeSlots ++ [slot], decoder := .count }
      else none
  | .count => some { σ with freeCount := σ.freeCount + 1, decoder := .put none }
  | .put item =>
      if σ.book.bufferOut.length < BUFFER_OUT then
        some { σ with
          book := { σ.book with bufferOut := σ.book.bufferOut ++ [item] }
          decoder := .idle }
      else none

/-- One constructor for each way a step of the decoder can go. -/
inductive DecoderStep (garbage : Nat → Int) (σ : Depth) : Depth → Prop
  | noSlot {m : Message} (hd : σ.decoder = .load m) (hzero : σ.freeCount = 0) :
      DecoderStep garbage σ { σ with decoder := .put none }
  | slotLeft {m : Message} (hd : σ.decoder = .load m) (hne : σ.freeCount ≠ 0) :
      DecoderStep garbage σ { σ with decoder := .sub m }
  | sub {m : Message} (hd : σ.decoder = .sub m) :
      DecoderStep garbage σ { σ with freeCount := σ.freeCount - 1, decoder := .pop m }
  | pop {m : Message} {slot : Int} {rest : List Int} (hd : σ.decoder = .pop m)
      (hfree : σ.freeSlots = slot :: rest) :
      DecoderStep garbage σ
        { σ with
          freeSlots := rest
          decoder := .write slot (decode garbage m).writes (decode garbage m) }
  | write {slot : Int} {side : Bool} {i : Nat} {entry : Entry} {rest : List (Bool × Nat × Entry)}
      {d : Decoded} (hd : σ.decoder = .write slot ((side, i, entry) :: rest) d) :
      DecoderStep garbage σ
        { σ with
          arrays := Function.update σ.arrays slot
            (Function.update (σ.arrays slot) side (Function.update (σ.arrays slot side) i entry))
          decoder := .write slot rest d }
  | bad {slot : Int} {d : Decoded} (hd : σ.decoder = .write slot [] d) (hids : d.ids = none) :
      DecoderStep garbage σ { σ with decoder := .giveBack slot }
  | good {slot : Int} {d : Decoded} {ids : Int × Int × Int} (hd : σ.decoder = .write slot [] d)
      (hids : d.ids = some ids) :
      DecoderStep garbage σ
        { σ with
          decoder := .put (some (σ.eventAt slot (fun side => (d.levels side).length) ids)) }
  | giveBack {slot : Int} (hd : σ.decoder = .giveBack slot) :
      DecoderStep garbage σ { σ with freeSlots := σ.freeSlots ++ [slot], decoder := .count }
  | count (hd : σ.decoder = .count) :
      DecoderStep garbage σ { σ with freeCount := σ.freeCount + 1, decoder := .put none }
  | put {item : OrderbookArrays} (hd : σ.decoder = .put item)
      (hroom : σ.book.bufferOut.length < BUFFER_OUT) :
      DecoderStep garbage σ
        { σ with
          book := { σ.book with bufferOut := σ.book.bufferOut ++ [item] }
          decoder := .idle }

theorem decoderStep_cases {garbage : Nat → Int} {σ σ' : Depth}
    (hs : σ.decoderStep garbage = some σ') : DecoderStep garbage σ σ' := by
  unfold decoderStep at hs
  split at hs
  · cases hs
  · rename_i m hd
    obtain rfl := Option.some.inj hs
    by_cases hzero : σ.freeCount = 0
    · rw [if_pos hzero]
      exact .noSlot hd hzero
    · rw [if_neg hzero]
      exact .slotLeft hd hzero
  · obtain rfl := Option.some.inj hs
    exact .sub ‹_›
  · split at hs
    · cases hs
    · obtain rfl := Option.some.inj hs
      exact .pop ‹_› ‹_›
  · obtain rfl := Option.some.inj hs
    exact .write ‹_›
  · rename_i slot d hd
    obtain rfl := Option.some.inj hs
    cases hids : d.ids with
    | none => exact .bad hd hids
    | some ids => exact .good hd hids
  · obtain ⟨-, hs⟩ := Option.ite_none_right_eq_some.mp hs
    obtain rfl := Option.some.inj hs
    exact .giveBack ‹_›
  · obtain rfl := Option.some.inj hs
    exact .count ‹_›
  · obtain ⟨hroom, hs⟩ := Option.ite_none_right_eq_some.mp hs
    obtain rfl := Option.some.inj hs
    exact .put ‹_› hroom

/-- The slot of the event that a step of the thread takes. -/
def takenBy : Pc → List OrderbookArrays → List Int
  | .take _, some e :: _ => [e.slot]
  | _, _ => []

/-- A step of the update thread; `release` is two of them. -/
def threadStep (σ : Depth) : Option Depth :=
  match σ.book.pc with
  | .release slot r =>
      if 0 ≤ slot ∧ σ.returned = false then
        if σ.freeSlots.length < SLOTS then
          some { σ with freeSlots := σ.freeSlots ++ [slot], returned := true }
        else none
      else
        some { σ with
          book := σ.book.release slot r
          freeCount := if 0 ≤ slot then σ.freeCount + 1 else σ.freeCount
          returned := false }
  | pc =>
      σ.book.threadStep.map (fun s =>
        { σ with book := s, taken := σ.taken ++ takenBy pc σ.book.bufferOut })

end Depth

inductive DepthAct where
  /-- the stream thread has read a message -/
  | receive (m : Message)
  | decoder
  | book (a : Act)

def depthStep (garbage : Nat → Int) (σ : Depth) : DepthAct → Option Depth
  | .receive m =>
      match σ.decoder with
      | .idle => some { σ with decoder := .load m }
      | _ => none
  | .decoder => σ.decoderStep garbage
  | .book .thread => σ.threadStep
  | .book (.deliver _) => none
  | .book a => (step σ.book a).map (fun s => { σ with book := s })

theorem depthStep_other {garbage : Nat → Int} {σ : Depth} {a : Act} (hthread : a ≠ .thread)
    (hdeliver : ∀ item, a ≠ .deliver item) :
    depthStep garbage σ (.book a) = (step σ.book a).map (fun s => { σ with book := s }) := by
  cases a with
  | thread => exact absurd rfl hthread
  | deliver item => exact absurd rfl (hdeliver item)
  | _ => rfl

/-- A new book; `arrays` is what the uninitialised arrays hold. -/
def constructDepth (slots : Bool → Nat → Nat → Nat) (updateId : Int)
    (arrays : Int → Bool → Nat → Entry) : Depth where
  book := construct slots updateId
  decoder := .idle
  freeSlots := slotNumbers
  freeCount := SLOTS
  arrays := arrays
  returned := false
  taken := []

/-! ## Where the slots are

Every slot is in one of four places: in the ring, with the decoder, in a queued event, or with the
update thread. The count is compared with the ring, as the two are changed in different steps. -/

/-- The slot of the event the update thread holds. -/
def Pc.held : Pc → List Int
  | .applyFirst e => [e.slot]
  | .applyInner e => [e.slot]
  | .release slot _ => if 0 ≤ slot then [slot] else []
  | _ => []

/-- The event the update thread is about to apply. -/
def Pc.event : Pc → Option DepthEvent
  | .applyFirst e => some e
  | .applyInner e => some e
  | _ => none

def Decoder.held : Decoder → List Int
  | .write slot _ _ => [slot]
  | .giveBack slot => [slot]
  | .put (some e) => [e.slot]
  | _ => []

def queuedSlots (l : List OrderbookArrays) : List Int := l.filterMap (Option.map DepthEvent.slot)

@[simp] theorem queuedSlots_nil : queuedSlots [] = [] := rfl

@[simp] theorem queuedSlots_cons (item : OrderbookArrays) (l : List OrderbookArrays) :
    queuedSlots (item :: l) = (item.map DepthEvent.slot).toList ++ queuedSlots l := by
  cases item <;> rfl

@[simp] theorem queuedSlots_append (l l' : List OrderbookArrays) :
    queuedSlots (l ++ l') = queuedSlots l ++ queuedSlots l' :=
  List.filterMap_append

/-- A slot that the decoder has counted out and not popped yet, or popped back and not counted. -/
def Decoder.uncounted : Decoder → Int
  | .pop _ => 1
  | .count => 1
  | _ => 0

/-- The decoder has seen a free slot and not counted it out yet. -/
def Decoder.seen : Decoder → Int
  | .sub _ => 1
  | _ => 0

namespace Depth

def bookHeld (σ : Depth) : List Int := if σ.returned then [] else σ.book.pc.held

/-- The slots in the ring, held by the decoder, in queued events, and held by the update thread. -/
def places (σ : Depth) : List Int :=
  σ.freeSlots ++ σ.decoder.held ++ queuedSlots σ.book.bufferOut ++ σ.bookHeld

/-- The arrays of the event's slot hold its levels. -/
def Stored (σ : Depth) (e : DepthEvent) : Prop :=
  ∀ side, e.levels side = (List.range (e.levels side).length).map (σ.arrays e.slot side)

/-- The events that are not released yet. -/
def Live (σ : Depth) (e : DepthEvent) : Prop :=
  some e ∈ σ.book.bufferOut ∨ σ.book.pc.event = some e ∨ σ.decoder = .put (some e)

/-- **The invariant.** -/
structure Inv (σ : Depth) : Prop where
  perm : σ.places.Perm slotNumbers
  count : (σ.freeSlots.length : Int)
    = σ.freeCount + σ.decoder.uncounted + if σ.returned then 1 else 0
  seen : σ.decoder.seen ≤ σ.freeCount
  stored : ∀ e, σ.Live e → σ.Stored e
  taken : σ.taken = σ.book.released ++ σ.book.pc.held
  returned : σ.returned = true → ∃ slot r, σ.book.pc = .release slot r ∧ 0 ≤ slot

theorem nodup_slotNumbers : slotNumbers.Nodup :=
  List.nodup_range.map (fun _ _ h => Int.ofNat.inj h)

theorem nonneg_of_mem_slotNumbers {slot : Int} (h : slot ∈ slotNumbers) : 0 ≤ slot := by
  obtain ⟨n, -, rfl⟩ := List.mem_map.mp h
  exact Int.natCast_nonneg n

variable {σ : Depth}

theorem Inv.nodup (h : σ.Inv) : σ.places.Nodup := h.perm.nodup_iff.mpr nodup_slotNumbers

theorem slot_mem_queuedSlots {e : DepthEvent} {l : List OrderbookArrays} (h : some e ∈ l) :
    e.slot ∈ queuedSlots l :=
  List.mem_filterMap.mpr ⟨some e, h, rfl⟩

/-- The slot the decoder holds is in no event. -/
theorem Inv.not_live (h : σ.Inv) {slot : Int} (hheld : slot ∈ σ.decoder.held) :
    slot ∉ queuedSlots σ.book.bufferOut ∧ slot ∉ σ.bookHeld := by
  have hnodup := h.nodup
  unfold places at hnodup
  rw [List.append_assoc, List.append_assoc] at hnodup
  have hrest := (List.nodup_append.mp hnodup).2.1
  obtain ⟨-, -, hdisj⟩ := List.nodup_append.mp hrest
  constructor
  · exact fun hm => hdisj slot hheld slot (List.mem_append_left _ hm) rfl
  · exact fun hm => hdisj slot hheld slot (List.mem_append_right _ hm) rfl

end Depth

/-! ## What the update thread does with a slot -/

/-- A step of the thread that is not `release` keeps what it holds, or takes the front of the
queue while it holds nothing. -/
theorem threadStep_slots {s s' : State} (hs : s.threadStep = some s')
    (hrelease : ∀ slot r, s.pc ≠ .release slot r) (hheld : ∀ slot ∈ s.pc.held, 0 ≤ slot) :
    s'.released = s.released ∧
      ((s'.bufferOut = s.bufferOut ∧ s'.pc.held = s.pc.held ∧
          Depth.takenBy s.pc s.bufferOut = [] ∧
          (∀ e, s'.pc.event = some e → s.pc.event = some e)) ∨
        ∃ item rest, s.bufferOut = item :: rest ∧ s'.bufferOut = rest ∧ s.pc.held = [] ∧
          Depth.takenBy s.pc s.bufferOut = (item.map DepthEvent.slot).toList ∧
          (∀ e, s'.pc.event = some e → item = some e) ∧
          ((∀ e, item = some e → 0 ≤ e.slot) →
            s'.pc.held = (item.map DepthEvent.slot).toList)) := by
  -- a take puts the slot into the hands of the thread; every other step leaves it there
  cases State.threadStep_cases hs with
  | @takeFirst w item rest hpc _ hbuf =>
      refine ⟨rfl, .inr ⟨item, rest, hbuf, rfl, by rw [hpc]; rfl, ?_, ?_, ?_⟩⟩
      · rw [hpc, hbuf]
        cases item <;> rfl
      · intro e he
        cases item with
        | none => cases he
        | some e' =>
            dsimp only [State.decideFirst] at he
            split at he
            · cases he
            · split at he
              · exact he
              · cases he
      · intro hnonneg
        cases item with
        | none => rfl
        | some e =>
            have h0 := hnonneg e rfl
            dsimp only [State.decideFirst]
            split
            · exact if_pos h0
            · split
              · rfl
              · exact if_pos h0
  | @takeInner item rest hpc hbuf =>
      refine ⟨rfl, .inr ⟨item, rest, hbuf, rfl, by rw [hpc]; rfl, ?_, ?_, ?_⟩⟩
      · rw [hpc, hbuf]
        cases item <;> rfl
      · intro e he
        cases item with
        | none => cases he
        | some e' =>
            dsimp only [State.decideInner] at he
            split at he
            · exact he
            · cases he
      · intro hnonneg
        cases item with
        | none => rfl
        | some e =>
            have h0 := hnonneg e rfl
            dsimp only [State.decideInner]
            split
            · rfl
            · exact if_pos h0
  | release hpc => exact absurd hpc (hrelease _ _)
  | @stopping w hpc _ =>
      rw [hpc]
      cases w <;> exact ⟨rfl, .inl ⟨rfl, rfl, rfl, fun e he => (by cases he)⟩⟩
  | @stopNoUpdate w hpc =>
      rw [hpc]
      cases w <;> exact ⟨rfl, .inl ⟨rfl, rfl, rfl, fun e he => (by cases he)⟩⟩
  -- the event is applied with its slot held, which `release` gives back next
  | @applyFirst e hpc _ =>
      rw [hpc] at hheld ⊢
      have h0 := hheld e.slot (List.mem_singleton.mpr rfl)
      exact ⟨rfl, .inl ⟨rfl, if_pos h0, rfl, fun e he => (by cases he)⟩⟩
  | @applyInner e hpc _ =>
      rw [hpc] at hheld ⊢
      have h0 := hheld e.slot (List.mem_singleton.mpr rfl)
      exact ⟨rfl, .inl ⟨rfl, if_pos h0, rfl, fun e he => (by cases he)⟩⟩
  | _ =>
      rw [‹s.pc = _›]
      exact ⟨rfl, .inl ⟨rfl, rfl, rfl, fun e he => (by cases he)⟩⟩

/-- The other actions of the book's system leave the queue and the slots alone. -/
theorem step_slots {s s' : State} {a : Act} (hs : step s a = some s') (hthread : a ≠ .thread)
    (hdeliver : ∀ item, a ≠ .deliver item) :
    s'.bufferOut = s.bufferOut ∧ s'.released = s.released ∧ s'.pc.held = s.pc.held ∧
      (∀ e, s'.pc.event = some e → s.pc.event = some e) ∧
      (∀ slot r, s.pc = .release slot r → s'.pc = .release slot r) := by
  cases otherStep_of_step hs hthread with
  | deliver item => exact absurd rfl (hdeliver item)
  | closeStream => exact ⟨rfl, rfl, rfl, fun _ => id, fun _ _ => id⟩
  | destroy => exact ⟨rfl, rfl, rfl, fun _ => id, fun _ _ => id⟩
  | readerLock => exact ⟨rfl, rfl, rfl, fun _ => id, fun _ _ => id⟩
  | readerUnlock => exact ⟨rfl, rfl, rfl, fun _ => id, fun _ _ => id⟩
  | _ =>
      rw [‹s.pc = _›]
      exact ⟨rfl, rfl, rfl, fun e he => (by cases he), fun _ _ h => (by cases h)⟩

namespace Depth

variable {σ : Depth}

/-! ## The steps keep the invariant

A slot goes from place to place in one step each. A write of the decoder goes to its own slot,
which is in no event that is still to be read. -/

/-- A write into the decoder's slot does not touch a live event. -/
theorem Inv.stored_write (h : σ.Inv) {slot : Int} (hheld : slot ∈ σ.decoder.held)
    (cells : Bool → Nat → Entry) {e : DepthEvent}
    (hlive : some e ∈ σ.book.bufferOut ∨ σ.book.pc.event = some e) :
    { σ with arrays := Function.update σ.arrays slot cells }.Stored e := by
  obtain ⟨hqueue, hbook⟩ := h.not_live hheld
  have hne : e.slot ≠ slot := by
    rintro rfl
    rcases hlive with hm | hpc
    · exact hqueue (slot_mem_queuedSlots hm)
    · apply hbook
      have hnot : σ.returned ≠ true := by
        intro hret
        obtain ⟨_, _, hrel, -⟩ := h.returned hret
        rw [hrel] at hpc
        cases hpc
      rw [bookHeld, if_neg hnot]
      cases hc : σ.book.pc <;> rw [hc] at hpc <;> cases hpc <;> exact List.mem_singleton.mpr rfl
  intro side
  show _ = List.map (Function.update σ.arrays slot cells e.slot side) _
  rw [Function.update_of_ne hne]
  apply h.stored e
  rcases hlive with hm | hpc
  · exact .inl hm
  · exact .inr (.inl hpc)

/-- The decoder moves on without an event of its own. -/
theorem Inv.of_decoder (h : σ.Inv) {decoder : Decoder} {freeSlots : List Int} {freeCount : Int}
    (hperm : (freeSlots ++ decoder.held).Perm (σ.freeSlots ++ σ.decoder.held))
    (hcount : (freeSlots.length : Int) - freeCount - decoder.uncounted
      = σ.freeSlots.length - σ.freeCount - σ.decoder.uncounted)
    (hseen : decoder.seen ≤ freeCount) (hput : ∀ e, decoder ≠ .put (some e)) :
    Inv { σ with decoder := decoder, freeSlots := freeSlots, freeCount := freeCount } := by
  refine ⟨?_, ?_, hseen, ?_, h.taken, h.returned⟩
  · exact ((hperm.append_right _).append_right _).trans h.perm
  · have hc := h.count
    show (freeSlots.length : Int)
      = freeCount + decoder.uncounted + if σ.returned then 1 else 0
    omega
  · rintro e (hm | hpc | hd)
    · exact h.stored e (.inl hm)
    · exact h.stored e (.inr (.inl hpc))
    · exact absurd hd (hput e)

/-- A write goes to the arrays of the decoder's slot. -/
theorem Inv.write (h : σ.Inv) {slot : Int} {w : Bool × Nat × Entry}
    {rest : List (Bool × Nat × Entry)} {d : Decoded} (hd : σ.decoder = .write slot (w :: rest) d)
    (cells : Bool → Nat → Entry) :
    Inv { σ with
      arrays := Function.update σ.arrays slot cells
      decoder := .write slot rest d } := by
  have hheld : slot ∈ σ.decoder.held := by
    rw [hd]
    exact List.mem_singleton.mpr rfl
  have hperm := h.perm
  have hcount := h.count
  have hseen := h.seen
  unfold places at hperm
  rw [hd] at hperm hcount hseen
  refine ⟨hperm, hcount, hseen, ?_, h.taken, h.returned⟩
  rintro e (hm | hpc | hput)
  · exact h.stored_write hheld cells (.inl hm)
  · exact h.stored_write hheld cells (.inr hpc)
  · cases hput

/-- The event that is about to be queued refers to what the arrays hold now. -/
theorem Inv.good (h : σ.Inv) {slot : Int} {d : Decoded} (hd : σ.decoder = .write slot [] d)
    (count : Bool → Nat) (ids : Int × Int × Int) :
    Inv { σ with decoder := .put (some (σ.eventAt slot count ids)) } := by
  have hperm := h.perm
  have hcount := h.count
  have hseen := h.seen
  unfold places at hperm
  rw [hd] at hperm hcount hseen
  refine ⟨hperm, hcount, hseen, ?_, h.taken, h.returned⟩
  rintro e (hm | hpc | hput)
  · exact h.stored e (.inl hm)
  · exact h.stored e (.inr (.inl hpc))
  · obtain rfl := Option.some.inj (Decoder.put.inj hput)
    intro side
    simp [eventAt]

/-- A queued event takes its slot from the decoder to the queue. -/
theorem Inv.put (h : σ.Inv) {item : OrderbookArrays} (hd : σ.decoder = .put item) :
    Inv { σ with
      book := { σ.book with bufferOut := σ.book.bufferOut ++ [item] }
      decoder := .idle } := by
  have hperm := h.perm
  have hcount := h.count
  have hseen := h.seen
  unfold places at hperm
  rw [hd] at hperm hcount hseen
  have hheld : (Decoder.put item).held = (item.map DepthEvent.slot).toList := by
    cases item <;> rfl
  refine ⟨?_, ?_, hseen, ?_, h.taken, h.returned⟩
  · refine List.Perm.trans ?_ hperm
    show (σ.freeSlots ++ [] ++ queuedSlots (σ.book.bufferOut ++ [item]) ++ σ.bookHeld).Perm _
    rw [hheld, queuedSlots_append, queuedSlots_cons, queuedSlots_nil, List.append_nil,
      List.append_nil]
    apply List.Perm.append_right
    rw [List.append_assoc]
    exact List.perm_append_comm.append_left _
  · cases item <;> exact hcount
  · rintro e (hm | hpc | hput)
    · rcases List.mem_append.mp hm with hm | hm
      · exact h.stored e (.inl hm)
      · exact h.stored e (.inr (.inr (by rw [hd, List.mem_singleton.mp hm])))
    · exact h.stored e (.inr (.inl hpc))
    · cases hput

theorem Inv.decoder {σ' : Depth} {garbage : Nat → Int} (h : σ.Inv)
    (hs : σ.decoderStep garbage = some σ') : σ'.Inv := by
  have hseen := h.seen
  cases decoderStep_cases hs with
  | noSlot hd =>
      rw [hd] at hseen
      refine h.of_decoder ?_ ?_ hseen (by simp)
      · rw [hd]
        exact .refl _
      · rw [hd]
        rfl
  | slotLeft hd hne =>
      rw [hd] at hseen
      refine h.of_decoder ?_ ?_ ?_ (by simp)
      · rw [hd]
        exact .refl _
      · rw [hd]
        rfl
      · -- the count is not zero, and only the decoder lowers it
        have hcount : 0 ≤ σ.freeCount := hseen
        show 1 ≤ σ.freeCount
        omega
  | sub hd =>
      rw [hd] at hseen
      have hcount : 1 ≤ σ.freeCount := hseen
      refine h.of_decoder ?_ ?_ ?_ (by simp)
      · rw [hd]
        exact .refl _
      · rw [hd]
        show (σ.freeSlots.length : Int) - (σ.freeCount - 1) - 1 = _ - _ - 0
        omega
      · show 0 ≤ σ.freeCount - 1
        omega
  | @pop m slot rest hd hfree =>
      rw [hd] at hseen
      refine h.of_decoder ?_ ?_ hseen (by simp)
      · rw [hd, hfree]
        show (rest ++ [slot]).Perm (slot :: rest ++ [])
        rw [List.append_nil]
        exact List.perm_append_singleton slot rest
      · rw [hd, hfree, List.length_cons]
        show (rest.length : Int) - σ.freeCount - 0 = (rest.length + 1 : Nat) - σ.freeCount - 1
        omega
  | write hd => exact h.write hd _
  | bad hd =>
      rw [hd] at hseen
      refine h.of_decoder ?_ ?_ hseen (by simp)
      · rw [hd]
        exact .refl _
      · rw [hd]
        rfl
  | good hd => exact h.good hd _ _
  | @giveBack slot hd =>
      rw [hd] at hseen
      refine h.of_decoder ?_ ?_ hseen (by simp)
      · rw [hd]
        show (σ.freeSlots ++ [slot] ++ []).Perm (σ.freeSlots ++ [slot])
        rw [List.append_nil]
      · rw [hd, List.length_append]
        show ((σ.freeSlots.length + 1 : Nat) : Int) - σ.freeCount - 1 = _ - _ - 0
        omega
  | count hd =>
      rw [hd] at hseen
      have hcount : 0 ≤ σ.freeCount := hseen
      refine h.of_decoder ?_ ?_ ?_ (by simp)
      · rw [hd]
        exact .refl _
      · rw [hd]
        show (σ.freeSlots.length : Int) - (σ.freeCount + 1) - 0 = _ - _ - 1
        omega
      · show 0 ≤ σ.freeCount + 1
        omega
  | put hd => exact h.put hd

/-- An action of the book's system that is neither the thread nor the stream. -/
theorem Inv.other {s' : State} {a : Act} (h : σ.Inv) (hs : step σ.book a = some s')
    (hthread : a ≠ .thread) (hdeliver : ∀ item, a ≠ .deliver item) :
    Inv { σ with book := s' } := by
  obtain ⟨hbuf, hrel, hheld, hev, hpc⟩ := step_slots hs hthread hdeliver
  refine ⟨?_, h.count, h.seen, ?_, ?_, ?_⟩
  · have hperm := h.perm
    unfold places bookHeld at hperm ⊢
    rw [hbuf, hheld]
    exact hperm
  · rintro e (hm | hpc | hd)
    · exact h.stored e (.inl (by rw [← hbuf]; exact hm))
    · exact h.stored e (.inr (.inl (hev e hpc)))
    · exact h.stored e (.inr (.inr hd))
  · show σ.taken = s'.released ++ s'.pc.held
    rw [hrel, hheld]
    exact h.taken
  · intro hret
    obtain ⟨slot, r, hc, h0⟩ := h.returned hret
    exact ⟨slot, r, hpc slot r hc, h0⟩

/-- What `release` leaves: the slot is in the list of released slots, and nothing is held. -/
theorem release_spec (s : State) (slot : Int) (r : Released) :
    (s.release slot r).bufferOut = s.bufferOut ∧
      (s.release slot r).released = s.released ++ (if 0 ≤ slot then [slot] else []) ∧
      (s.release slot r).pc.held = [] ∧ (s.release slot r).pc.event = none := by
  have hreleased : (if slot ≥ 0 then s.released ++ [slot] else s.released)
      = s.released ++ (if 0 ≤ slot then [slot] else []) := by
    by_cases h0 : 0 ≤ slot
    · rw [if_pos h0, if_pos h0]
    · rw [if_neg h0, if_neg h0, List.append_nil]
  rcases r with _ | (_ | _) | (_ | _) <;> exact ⟨rfl, hreleased, rfl, rfl⟩

/-- `release` of the update thread: the slot goes back into the ring. -/
theorem Inv.giveBack (h : σ.Inv) {slot : Int} {r : Released} (hpc : σ.book.pc = .release slot r)
    (h0 : 0 ≤ slot) (hret : σ.returned = false) :
    Inv { σ with freeSlots := σ.freeSlots ++ [slot], returned := true } := by
  have hperm := h.perm
  have hcount := h.count
  have hheld : (Pc.release slot r).held = [slot] := if_pos h0
  unfold places bookHeld at hperm
  rw [hret, hpc, hheld] at hperm
  rw [hret] at hcount
  refine ⟨?_, ?_, h.seen, h.stored, h.taken, fun _ => ⟨slot, r, hpc, h0⟩⟩
  · refine List.Perm.trans ?_ hperm
    show (σ.freeSlots ++ [slot] ++ σ.decoder.held ++ queuedSlots σ.book.bufferOut ++ []).Perm
      (σ.freeSlots ++ σ.decoder.held ++ queuedSlots σ.book.bufferOut ++ [slot])
    simp only [List.append_assoc, List.append_nil]
    apply List.Perm.append_left
    rw [← List.append_assoc σ.decoder.held _ [slot]]
    exact List.perm_append_comm
  · show ((σ.freeSlots ++ [slot]).length : Int) = σ.freeCount + σ.decoder.uncounted + 1
    rw [List.length_append]
    push_cast
    rw [hcount]
    simp

/-- `release` of the update thread: it goes on, with the slot in the ring and counted. -/
theorem Inv.goOn (h : σ.Inv) {slot freeCount : Int} {r : Released}
    (hpc : σ.book.pc = .release slot r) (hheld : σ.bookHeld = [])
    (hcount : (σ.freeSlots.length : Int) = freeCount + σ.decoder.uncounted)
    (hseen : σ.decoder.seen ≤ freeCount) :
    Inv { σ with book := σ.book.release slot r, freeCount := freeCount, returned := false } := by
  obtain ⟨hbuf, hrel, hnone, hev⟩ := release_spec σ.book slot r
  have hperm := h.perm
  have htaken := h.taken
  unfold places at hperm
  rw [hheld] at hperm
  rw [hpc] at htaken
  refine ⟨?_, ?_, hseen, ?_, ?_, fun hf => (by cases hf)⟩
  · show (σ.freeSlots ++ σ.decoder.held ++ queuedSlots (σ.book.release slot r).bufferOut ++
      (σ.book.release slot r).pc.held).Perm _
    rw [hbuf, hnone]
    exact hperm
  · show (σ.freeSlots.length : Int) = freeCount + σ.decoder.uncounted + 0
    rw [hcount, Int.add_zero]
  · rintro e (hm | hpc' | hd)
    · exact h.stored e (.inl (by rw [← hbuf]; exact hm))
    · rw [hev] at hpc'
      cases hpc'
    · exact h.stored e (.inr (.inr hd))
  · show σ.taken = (σ.book.release slot r).released ++ (σ.book.release slot r).pc.held
    rw [hrel, hnone, List.append_nil]
    exact htaken

theorem Inv.release {σ' : Depth} (h : σ.Inv) {slot : Int} {r : Released}
    (hpc : σ.book.pc = .release slot r) (hs : σ.threadStep = some σ') : σ'.Inv := by
  have hcount := h.count
  have hseen := h.seen
  simp only [threadStep, hpc] at hs
  split at hs
  · rename_i hfirst
    split at hs
    · obtain rfl := Option.some.inj hs
      exact h.giveBack hpc hfirst.1 hfirst.2
    · cases hs
  · rename_i hfirst
    obtain rfl := Option.some.inj hs
    by_cases h0 : 0 ≤ slot
    · -- the slot is in the ring already
      have hret : σ.returned = true := by
        cases hr : σ.returned with
        | true => rfl
        | false => exact absurd ⟨h0, hr⟩ hfirst
      rw [hret, if_pos rfl] at hcount
      rw [if_pos h0]
      apply h.goOn hpc
      · rw [bookHeld, hret]
        rfl
      · omega
      · omega
    · -- a dropped event has no slot
      have hret : σ.returned = false := by
        cases hr : σ.returned with
        | false => rfl
        | true =>
            obtain ⟨_, _, hpc', h0'⟩ := h.returned hr
            rw [hpc] at hpc'
            cases hpc'
            exact absurd h0' h0
      rw [hret, if_neg Bool.false_ne_true] at hcount
      rw [if_neg h0]
      apply h.goOn hpc
      · rw [bookHeld, hret, hpc]
        exact if_neg h0
      · omega
      · exact hseen

/-- **A step of the update thread.** -/
theorem Inv.thread {σ' : Depth} (h : σ.Inv) (hs : σ.threadStep = some σ') : σ'.Inv := by
  by_cases hrelease : ∃ slot r, σ.book.pc = .release slot r
  · obtain ⟨slot, r, hpc⟩ := hrelease
    exact h.release hpc hs
  have hnot : ∀ slot r, σ.book.pc ≠ .release slot r := fun slot r hpc => hrelease ⟨slot, r, hpc⟩
  have hret : σ.returned = false := by
    cases hr : σ.returned with
    | false => rfl
    | true =>
        obtain ⟨slot, r, hpc, -⟩ := h.returned hr
        exact absurd hpc (hnot slot r)
  have hbook : σ.bookHeld = σ.book.pc.held := by
    rw [bookHeld, hret]
    rfl
  have heq : σ.threadStep = σ.book.threadStep.map (fun s =>
      { σ with book := s, taken := σ.taken ++ takenBy σ.book.pc σ.book.bufferOut }) := by
    unfold threadStep
    split
    · rename_i slot r hpc
      exact absurd hpc (hnot slot r)
    · rfl
  rw [heq, Option.map_eq_some_iff] at hs
  obtain ⟨s', hs, rfl⟩ := hs
  have hperm := h.perm
  unfold places at hperm
  rw [hbook] at hperm
  have hnonneg : ∀ slot ∈ σ.book.pc.held, 0 ≤ slot := by
    intro slot hm
    apply nonneg_of_mem_slotNumbers
    exact hperm.mem_iff.mp (List.mem_append_right _ hm)
  obtain ⟨hrel, hkeep | ⟨item, rest, hbuf, hbuf', hempty, htakes, hev, hheld⟩⟩ :=
    threadStep_slots hs hnot hnonneg
  · obtain ⟨hbuf, hheld, htakes, hev⟩ := hkeep
    refine ⟨?_, h.count, h.seen, ?_, ?_, fun hr => ?_⟩
    · unfold places bookHeld
      rw [hret]
      show (σ.freeSlots ++ σ.decoder.held ++ queuedSlots s'.bufferOut ++ s'.pc.held).Perm _
      rw [hbuf, hheld]
      exact hperm
    · rintro e (hm | hpc | hd)
      · exact h.stored e (.inl (by rw [← hbuf]; exact hm))
      · exact h.stored e (.inr (.inl (hev e hpc)))
      · exact h.stored e (.inr (.inr hd))
    · show σ.taken ++ takenBy σ.book.pc σ.book.bufferOut = s'.released ++ s'.pc.held
      rw [htakes, List.append_nil, hrel, hheld]
      exact h.taken
    · rw [show σ.returned = true from hr] at hret
      cases hret
  · -- the slot of the event moves from the queue to the thread
    have hslot : ∀ e, item = some e → 0 ≤ e.slot := by
      rintro e rfl
      apply nonneg_of_mem_slotNumbers
      refine hperm.mem_iff.mp (List.mem_append_left _ (List.mem_append_right _ ?_))
      rw [hbuf]
      exact slot_mem_queuedSlots (List.mem_cons_self ..)
    refine ⟨?_, h.count, h.seen, ?_, ?_, fun hr => ?_⟩
    · unfold places bookHeld
      rw [hret]
      show (σ.freeSlots ++ σ.decoder.held ++ queuedSlots s'.bufferOut ++ s'.pc.held).Perm _
      rw [hempty, List.append_nil, hbuf, queuedSlots_cons] at hperm
      rw [hbuf', hheld hslot, List.append_assoc]
      exact (List.perm_append_comm.append_left _).trans hperm
    · rintro e (hm | hpc | hd)
      · refine h.stored e (.inl ?_)
        rw [hbuf]
        exact List.mem_cons_of_mem _ (by rw [← hbuf']; exact hm)
      · refine h.stored e (.inl ?_)
        rw [hbuf, hev e hpc]
        exact List.mem_cons_self ..
      · exact h.stored e (.inr (.inr hd))
    · show σ.taken ++ takenBy σ.book.pc σ.book.bufferOut = s'.released ++ s'.pc.held
      rw [htakes, hrel, hheld hslot, h.taken, hempty, List.append_nil]
    · rw [show σ.returned = true from hr] at hret
      cases hret

/-- **One step.** -/
theorem Inv.step {σ' : Depth} {garbage : Nat → Int} {a : DepthAct} (h : σ.Inv)
    (hs : depthStep garbage σ a = some σ') : σ'.Inv := by
  cases a with
  | decoder => exact h.decoder hs
  | receive m =>
      have hseen := h.seen
      simp only [depthStep] at hs
      split at hs
      · rename_i hd
        obtain rfl := Option.some.inj hs
        rw [hd] at hseen
        refine h.of_decoder ?_ ?_ hseen (by simp)
        · rw [hd]
          exact .refl _
        · rw [hd]
          rfl
      · cases hs
  | book a =>
      by_cases hthread : a = .thread
      · subst hthread
        exact h.thread hs
      by_cases hdeliver : ∃ item, a = .deliver item
      · obtain ⟨item, rfl⟩ := hdeliver
        cases hs
      · rw [not_exists] at hdeliver
        rw [depthStep_other hthread hdeliver, Option.map_eq_some_iff] at hs
        obtain ⟨s', hs, rfl⟩ := hs
        exact h.other hs hthread hdeliver

theorem inv_constructDepth (slots : Bool → Nat → Nat → Nat) (updateId : Int)
    (arrays : Int → Bool → Nat → Entry) : (constructDepth slots updateId arrays).Inv := by
  refine ⟨?_, ?_, Int.natCast_nonneg _, ?_, rfl, fun hf => (by cases hf)⟩
  · show (slotNumbers ++ [] ++ [] ++ []).Perm slotNumbers
    simp
  · show (slotNumbers.length : Int) = SLOTS + 0 + 0
    simp [slotNumbers]
  · rintro e (hm | hpc | hd)
    · cases hm
    · cases hpc
    · cases hd

end Depth

/-! ## The book's system, with the decoder in the place of the stream

In `Orderbook.lean` the stream is an action that queues any event. Here the event comes from the
decoder, so every run here is one of those, and what was shown of them can be used. -/

/-- A step is a step of the book's system, or leaves the book as it is. -/
theorem depthStep_book {garbage : Nat → Int} {σ σ' : Depth} {a : DepthAct}
    (hs : depthStep garbage σ a = some σ') :
    σ'.book = σ.book ∨ ∃ act, step σ.book act = some σ'.book := by
  cases a with
  | receive m =>
      simp only [depthStep] at hs
      split at hs
      · obtain rfl := Option.some.inj hs
        exact .inl rfl
      · cases hs
  | decoder =>
      cases Depth.decoderStep_cases hs with
      | put => exact .inr ⟨.deliver _, rfl⟩
      | _ => exact .inl rfl
  | book a =>
      cases a with
      | deliver item => cases hs
      -- a step that gives a slot back touches the free list as well
      | thread =>
          simp only [depthStep, Depth.threadStep] at hs
          split at hs
          · rename_i slot r hpc
            split at hs
            · split at hs
              · obtain rfl := Option.some.inj hs
                exact .inl rfl
              · cases hs
            · obtain rfl := Option.some.inj hs
              refine .inr ⟨.thread, ?_⟩
              show σ.book.threadStep = some (σ.book.release slot r)
              rw [State.threadStep, hpc]
          · obtain ⟨s', hthread, rfl⟩ := Option.map_eq_some_iff.mp hs
            exact .inr ⟨.thread, hthread⟩
      | _ =>
          rw [depthStep_other (by simp) (by simp), Option.map_eq_some_iff] at hs
          obtain ⟨s', hact, rfl⟩ := hs
          exact .inr ⟨_, hact⟩

/-- **What holds in every run of the book's system holds here.** -/
theorem reach_book {garbage : Nat → Int} {slots : Bool → Nat → Nat → Nat} {updateId : Int}
    {arrays : Int → Bool → Nat → Entry} {σ : Depth}
    (h : Reach (depthStep garbage) (fun _ _ => True) (constructDepth slots updateId arrays) σ) :
    Reach step (fun _ _ => True) (construct slots updateId) σ.book := by
  apply h.invariant (I := fun σ => Reach step (fun _ _ => True) (construct slots updateId) σ.book)
  · exact .refl
  · intro σ a σ' hreach _ hs
    rcases depthStep_book hs with heq | ⟨act, hact⟩
    · rw [heq]
      exact hreach
    · exact hreach.tail trivial hact

theorem inv_of_reach {garbage : Nat → Int} {slots : Bool → Nat → Nat → Nat} {updateId : Int}
    {arrays : Int → Bool → Nat → Entry} {σ : Depth}
    (h : Reach (depthStep garbage) (fun _ _ => True) (constructDepth slots updateId arrays) σ) :
    σ.Inv := by
  apply h.invariant (Depth.inv_constructDepth slots updateId arrays)
  intro σ a σ' hi _ hs
  exact hi.step hs

/-- **Slot ownership.** In every state that the decoder and the update thread reach together, with
any messages: each slot is in exactly one place; `acquire` finds a slot when it comes to the ring;
the arrays of an event that is not released hold its levels, and the decoder writes to the arrays
of no such event; and the slots of the events the update thread has taken are those it has
released, each of them once, and the one it holds. -/
theorem slot_ownership (garbage : Nat → Int) (slots : Bool → Nat → Nat → Nat) (updateId : Int)
    (arrays : Int → Bool → Nat → Entry) {σ : Depth}
    (h : Reach (depthStep garbage) (fun _ _ => True) (constructDepth slots updateId arrays) σ) :
    σ.places.Perm slotNumbers ∧
      (∀ m, σ.decoder = .pop m → σ.freeSlots ≠ []) ∧
      (∀ e, σ.Live e → σ.Stored e) ∧
      (∀ slot write rest d, σ.decoder = .write slot (write :: rest) d →
        slot ∉ queuedSlots σ.book.bufferOut ∧ slot ∉ σ.bookHeld) ∧
      σ.taken = σ.book.released ++ σ.book.pc.held := by
  have hinv := inv_of_reach h
  refine ⟨hinv.perm, ?_, hinv.stored, ?_, hinv.taken⟩
  · intro m hd hempty
    have hcount := hinv.count
    have hseen := hinv.seen
    rw [hd, hempty] at hcount
    rw [hd] at hseen
    have h0 : 0 ≤ σ.freeCount := hseen
    have h1 : (0 : Int) = σ.freeCount + 1 + if σ.returned then 1 else 0 := hcount
    split at h1 <;> omega
  · intro slot write rest d hd
    apply hinv.not_live
    rw [hd]
    exact List.mem_singleton.mpr rfl

/-- A message with two bids and an ask. -/
def levelsMessage (pu : Int) : Message :=
  .document (.obj [("data".toList, .obj [
    ("b".toList, .arr [.arr [.str "100".toList, .str "2".toList],
      .arr [.str "99".toList, .str "3".toList]]),
    ("a".toList, .arr [.arr [.str "101".toList, .str "1".toList]]),
    ("u".toList, .int (pu + 2)), ("U".toList, .int (pu + 1)), ("pu".toList, .int pu)])])

/-- The stream thread reads the message, and the decoder queues its event. -/
def decodeLevels : List DepthAct := .receive (levelsMessage 10) :: List.replicate 8 .decoder

/-- An event is queued in the first slot, and the decoder has written one level of the next one. -/
theorem slot_ownership_twoEvents :
    ∃ σ e, Reach (depthStep (fun _ => 0)) (fun _ _ => True)
        (constructDepth (fun _ _ _ => 0) 0 (fun _ _ _ => ⟨0, 0⟩)) σ ∧
      σ.book.bufferOut = [some e] ∧ (e.levels true).length = 2 ∧ (e.levels false).length = 1 ∧
      σ.Stored e ∧ queuedSlots σ.book.bufferOut = [0] ∧
      ∃ slot write rest d, σ.decoder = .write slot (write :: rest) d ∧
        slot ∉ queuedSlots σ.book.bufferOut := by
  obtain ⟨σ, e, hrun, hqueue, hbids, hasks, hslots, slot, write, rest, d, hd⟩ :
      ∃ σ e, runFrom (depthStep (fun _ => 0))
        (constructDepth (fun _ _ _ => 0) 0 (fun _ _ _ => ⟨0, 0⟩))
        (decodeLevels ++ .receive (levelsMessage 12) :: List.replicate 4 .decoder) = some σ ∧
      σ.book.bufferOut = [some e] ∧ (e.levels true).length = 2 ∧ (e.levels false).length = 1 ∧
      queuedSlots σ.book.bufferOut = [0] ∧
      ∃ slot write rest d, σ.decoder = .write slot (write :: rest) d :=
    ⟨_, _, rfl, rfl, rfl, rfl, rfl, _, _, _, _, rfl⟩
  have hreach : Reach (depthStep (fun _ => 0)) (fun _ _ => True)
      (constructDepth (fun _ _ _ => 0) 0 (fun _ _ _ => ⟨0, 0⟩)) σ :=
    Reach.refl.of_run hrun
  obtain ⟨-, -, hstored, hwrites, -⟩ := slot_ownership _ _ _ _ hreach
  have hlive : σ.Live e := Or.inl (by rw [hqueue]; exact List.mem_singleton_self _)
  exact ⟨σ, e, hreach, hqueue, hbids, hasks, hstored e hlive, hslots, slot, write, rest, d, hd,
    (hwrites slot write rest d hd).1⟩

end AstraConnect.Orderbook
