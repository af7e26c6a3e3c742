import AstraConnect.Lib.Containers
import AstraConnect.Orderbook.PriceLevel

set_option autoImplicit false

/-! # One side of the book (`SortedBook` in `api/orderbook/topBook.hpp`)

A price becomes a tick, the tick a block id (`tick / 128`) and an offset in that block. Blocks
inside the window are reached by direct index; blocks outside it sit in `fallback`, sorted by
block id. A pointer to a block is its index in `blocks`, a level's slot its index in `entries`.

The two free lists are stacks: the array `freeBlocks[0..freeBlockCount)` is the list of its
items with the top of the stack first, and the same for `freeSlots`. Prices and ticks are
integers; only the sum in `toTick` can leave `int64_t`, and it is wrapped there.
-/

namespace AstraConnect.Orderbook

open Scan Containers

/-- Price and volume in `10^-8` units (`model/entry.hpp`). -/
structure Entry where
  price : Int
  volume : Int
  deriving DecidableEq, Repr

/-- Blocks in the window: 16384 ticks. -/
def WINDOW : Nat := 128

/-- Price levels per side. -/
def MAX_LEVELS : Nat := 8192

def MAX_BLOCKS : Nat := 1024

/-- `tick >> 7`. -/
def blockOf (tick : Int) : Int := tick >>> (7 : Nat)

/-- `tick & 127`. -/
def offsetOf (tick : Int) : Nat := (tick % 128).toNat

/-- The tick nearest to a price. The sum is an `int64_t`. -/
def toTick (tickSize price : Int) : Int :=
  (Int.bmod (price + tickSize.tdiv 2) (2 ^ 64)).tdiv tickSize

structure SortedBook (IsBid : Bool) where
  tickSize : Int
  /-- block id of `window[0]` -/
  windowBase : Int
  centred : Bool
  /-- non-null entries in `window` -/
  windowBlocks : Int
  window : Nat → Option Nat
  fallback : List Nat
  blocks : Nat → PriceLevel
  freeBlocks : List Nat
  entries : Nat → Entry
  freeSlots : List Nat

namespace SortedBook

variable {IsBid : Bool}

/-- A bid beyond the window's top, or an ask beyond its bottom, is a new best edge. -/
def beyondBestEdge (IsBid : Bool) (blockId base : Int) : Bool :=
  if IsBid then blockId ≥ base + WINDOW else blockId < base

/-- The id of the block a pointer refers to. -/
def idOf (b : SortedBook IsBid) (level : Nat) : Int := (b.blocks level).blockId

/-- The test `offset >= 0 && offset < WINDOW` on `offset = blockId - windowBase`. -/
def inWindow (b : SortedBook IsBid) (blockId : Int) : Prop :=
  0 ≤ blockId - b.windowBase ∧ blockId - b.windowBase < WINDOW

instance (b : SortedBook IsBid) (blockId : Int) : Decidable (b.inWindow blockId) :=
  inferInstanceAs (Decidable (_ ∧ _))

/-- The index in `window` of a block id inside it. -/
def windowIdx (b : SortedBook IsBid) (blockId : Int) : Nat := (blockId - b.windowBase).toNat

def fallbackFind (b : SortedBook IsBid) (blockId : Int) : Nat :=
  lowerBound b.idOf b.fallback blockId

def findBlock (b : SortedBook IsBid) (blockId : Int) : Option Nat :=
  if b.inWindow blockId then b.window (b.windowIdx blockId)
  else (b.fallback[b.fallbackFind blockId]?).filter (fun level => b.idOf level = blockId)

def place (b : SortedBook IsBid) (level : Nat) : SortedBook IsBid :=
  if b.inWindow (b.idOf level) then
    { b with
      window := Function.update b.window (b.windowIdx (b.idOf level)) (some level)
      windowBlocks := b.windowBlocks + 1 }
  else { b with fallback := b.fallback.insertIdx (b.fallbackFind (b.idOf level)) level }

/-- Moves every block to its container for the new window. Pointers only. -/
def recentre (b : SortedBook IsBid) (centreBlock : Int) : SortedBook IsBid :=
  let scratch := occupied b.window WINDOW ++ b.fallback
  let cleared : SortedBook IsBid :=
    { b with
      window := fun _ => none
      fallback := []
      windowBlocks := 0
      windowBase := centreBlock - (WINDOW / 2 : Nat)
      centred := true }
  (scratch.insertionSort (fun a c => b.idOf a ≤ b.idOf c)).foldl place cleared

/-- The start of `acquireBlock`: the block `level` leaves the free list and gets its id. -/
def takeBlock (b : SortedBook IsBid) (level : Nat) (rest : List Nat) (blockId : Int) :
    SortedBook IsBid :=
  { b with
    freeBlocks := rest
    blocks := Function.update b.blocks level { b.blocks level with blockId := blockId } }

/-- A free block, put in place for `blockId`; `none` when there is none. -/
def acquireBlock (b : SortedBook IsBid) (blockId : Int) : Option (SortedBook IsBid × Nat) :=
  match b.freeBlocks with
  | [] => none
  | level :: rest =>
      let placed := (b.takeBlock level rest blockId).place level
      -- the level must be in place before recentring, or recentre would not see it
      if !b.centred || beyondBestEdge IsBid blockId b.windowBase then
        some (placed.recentre blockId, level)
      else some (placed, level)

/-- The first half of `releaseBlock`: the pointer leaves its container. -/
def unplace (b : SortedBook IsBid) (level : Nat) : SortedBook IsBid :=
  if b.inWindow (b.idOf level) then
    { b with
      window := Function.update b.window (b.windowIdx (b.idOf level)) none
      windowBlocks := b.windowBlocks - 1 }
  else { b with fallback := b.fallback.eraseIdx (b.fallbackFind (b.idOf level)) }

/-- The block that is followed when the window has emptied. -/
def bestFallback (b : SortedBook IsBid) : Option Nat :=
  if IsBid then b.fallback.getLast? else b.fallback.head?

/-- `releaseBlock` up to the recentring. -/
def freeBlock (b : SortedBook IsBid) (level : Nat) : SortedBook IsBid :=
  { b.unplace level with freeBlocks := level :: b.freeBlocks }

def releaseBlock (b : SortedBook IsBid) (level : Nat) : SortedBook IsBid :=
  let freed := b.freeBlock level
  -- price has moved off the window entirely: follow it to the best remaining block
  match freed.bestFallback with
  | some best => if freed.windowBlocks = 0 then freed.recentre (freed.idOf best) else freed
  | none => freed

/-! ## Public operations -/

def setTickSize (b : SortedBook IsBid) (tickSize : Int) : SortedBook IsBid :=
  { b with tickSize := tickSize }

/-- Drops every level. `windowBase` stays as it was. -/
def clear (b : SortedBook IsBid) : SortedBook IsBid :=
  { b with
    blocks := fun i => { b.blocks i with bits := fun _ => 0 }
    window := fun _ => none
    fallback := []
    windowBlocks := 0
    centred := false
    freeBlocks := List.range MAX_BLOCKS
    freeSlots := List.range MAX_LEVELS }

/-- The constructor. `slots` is what the uninitialised arrays `PriceLevel::slots` hold. -/
def construct (IsBid : Bool) (slots : Nat → Nat → Nat) : SortedBook IsBid :=
  clear
    { tickSize := 0
      windowBase := 0
      centred := false
      windowBlocks := 0
      window := fun _ => none
      fallback := []
      blocks := fun i => ⟨fun _ => 0, slots i, 0⟩
      freeBlocks := []
      entries := fun _ => ⟨0, 0⟩
      freeSlots := [] }

/-- The bit of a level that exists is reset and its slot freed. -/
def resetLevel (b : SortedBook IsBid) (level offset : Nat) : SortedBook IsBid :=
  { b with
    blocks := Function.update b.blocks level ((b.blocks level).reset offset)
    freeSlots := (b.blocks level).slots offset :: b.freeSlots }

/-- The removal in `update` of a level that exists. -/
def removeLevel (b : SortedBook IsBid) (level offset : Nat) : SortedBook IsBid :=
  let removed := b.resetLevel level offset
  if (removed.blocks level).empty then removed.releaseBlock level else removed

/-- `entries[slot].assignValues(price, volume)`. -/
def assignValues (b : SortedBook IsBid) (slot : Nat) (price volume : Int) : SortedBook IsBid :=
  { b with entries := Function.update b.entries slot ⟨price, volume⟩ }

/-- The end of `update`: a free slot is put under the level's bit. Called with a slot free. -/
def addLevel (b : SortedBook IsBid) (level offset : Nat) (price volume : Int) :
    SortedBook IsBid :=
  match b.freeSlots with
  | [] => b
  | slot :: rest =>
      let block := ((b.blocks level).assignSlot offset slot).set offset
      let added : SortedBook IsBid :=
        { b with freeSlots := rest, blocks := Function.update b.blocks level block }
      added.assignValues slot price volume

/-- The block `findBlock` returned, or one acquired for `blockId`. -/
def blockFor (b : SortedBook IsBid) (blockId : Int) : Option (SortedBook IsBid × Nat) :=
  match b.findBlock blockId with
  | some level => some (b, level)
  | none => b.acquireBlock blockId

/-- The block of the level at a tick: `findBlock`, when the bit is set (`exists` in `update`). -/
def levelAt (b : SortedBook IsBid) (tick : Int) : Option Nat :=
  (b.findBlock (blockOf tick)).filter (fun level => (b.blocks level).test (offsetOf tick))

/-- Applies one absolute level from a snapshot or depth diff; volume 0 removes it. The flag is
`false` when a new level does not fit. -/
def update (b : SortedBook IsBid) (price volume : Int) : SortedBook IsBid × Bool :=
  let tick := toTick b.tickSize price
  let offset := offsetOf tick
  if volume = 0 then
    match b.levelAt tick with
    | some level => (b.removeLevel level offset, true)
    | none => (b, true)
  else
    match b.levelAt tick with
    | some level => (b.assignValues ((b.blocks level).slots offset) price volume, true)
    | none =>
        if b.freeSlots = [] then (b, false)
        else
          match b.blockFor (blockOf tick) with
          | some (b', level) => (b'.addLevel level offset price volume, true)
          | none => (b, false)

/-- The flag says whether there is a level; `out` is overwritten only then. -/
def find (b : SortedBook IsBid) (price : Int) (out : Entry) : Bool × Entry :=
  let tick := toTick b.tickSize price
  let offset := offsetOf tick
  match b.findBlock (blockOf tick) with
  | some level =>
      if (b.blocks level).test offset then (true, b.entries ((b.blocks level).slots offset))
      else (false, out)
  | none => (false, out)

/-- The blocks in the order of the three loops of `forEachBest`: the fallback splits around the
window into `[0, low)` below it and `[high, end)` above it. -/
def blockOrder (b : SortedBook IsBid) : List Nat :=
  let low := b.fallback.take (b.fallbackFind b.windowBase)
  let high := b.fallback.drop (b.fallbackFind (b.windowBase + WINDOW))
  if IsBid then high.reverse ++ (occupied b.window WINDOW).reverse ++ low.reverse
  else low ++ occupied b.window WINDOW ++ high

/-- Calls `fn` on each level, best first, until it answers `false`. -/
def forEachBest {σ : Type*} (b : SortedBook IsBid) (fn : σ → Entry → σ × Bool) (s : σ) : σ :=
  let visit := fun s slot => fn s (b.entries slot)
  (foldUntil (fun s level => (b.blocks level).forEach IsBid visit s) s b.blockOrder).1

/-- Copies up to `count` levels into `out`, best first; returns how many were written. -/
def top (b : SortedBook IsBid) (out : Nat → Entry) (count : Nat) : (Nat → Entry) × Nat :=
  if count = 0 then (out, 0) else b.forEachBest (writeUpTo count) (out, 0)

def levelCount (b : SortedBook IsBid) : Nat := MAX_LEVELS - b.freeSlots.length

end SortedBook

end AstraConnect.Orderbook
