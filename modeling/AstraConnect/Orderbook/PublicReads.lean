import AstraConnect.Orderbook.ExecutionLoop

set_option autoImplicit false

/-! # The public reads beside the update thread

A caller takes `updatingLock`, reads a side and gives the lock back, at any time. The lock says
nothing about the tick size, which the update thread stores when the exchange has answered, one
side after the other. `divisorsFrom` are the tick sizes that `toTick` divides by in a run; they
are all non-zero exactly when every `getEntryWithPrice` of a side comes after the store to that
side (`divisors_ne_zero_iff`).
-/

namespace AstraConnect.Orderbook

open Transition BookData

/-! ## The reads

A read is known by what it answers and by the tick sizes it divides by. Only the lookup of one
price divides at all. -/

def BookData.tickSizeOf (b : BookData) (isBid : Bool) : Int :=
  if isBid then b.bidBook.tickSize else b.askBook.tickSize

/-- A call of a public read. -/
inductive Read where
  | getTopBids (count : Nat)
  | getTopAsks (count : Nat)
  | getBestBid
  | getBestAsk
  | getEntryWithPrice (price : Int) (isBid : Bool)

/-- The tick sizes `toTick` is evaluated with in a read: `find` calls it once, `top` walks the
blocks. -/
def Read.divisors (b : BookData) : Read → List Int
  | .getTopBids _ => []
  | .getTopAsks _ => []
  | .getBestBid => []
  | .getBestAsk => []
  | .getEntryWithPrice _ isBid => [b.tickSizeOf isBid]

/-- What a read answers, and what it leaves in `out`; a read of one level has `out 0`. -/
def Read.answer (b : BookData) (out : Nat → Entry) : Read → (Nat → Entry) × Nat
  | .getTopBids count => b.getTopBids out count
  | .getTopAsks count => b.getTopAsks out count
  | .getBestBid => (fun _ => (b.getBestBid (out 0)).2, (b.getBestBid (out 0)).1.toNat)
  | .getBestAsk => (fun _ => (b.getBestAsk (out 0)).2, (b.getBestAsk (out 0)).1.toNat)
  | .getEntryWithPrice price isBid =>
      let r := b.getEntryWithPrice price (out 0) isBid
      (fun _ => r.2, r.1.toNat)

/-- **A read without a divisor does not see the tick sizes.** -/
theorem answer_of_no_divisor {b : BookData} {call : Read} (h : call.divisors b = [])
    (out : Nat → Entry) (bids asks : Int) :
    call.answer { b with
      bidBook := b.bidBook.setTickSize bids
      askBook := b.askBook.setTickSize asks } out = call.answer b out := by
  cases call with
  | getEntryWithPrice price isBid => cases h
  | _ => rfl

/-- The calls of `processEntry` in a step of the update thread. -/
def State.entryCalls (s : State) : List EntryCall :=
  match s.pc with
  | .applySnapshot => if s.updatingLock = none then s.toBookData.snapshotCalls else []
  | .applyFirst event => if s.updatingLock = none then s.toBookData.updateCalls event else []
  | .applyInner event => if s.updatingLock = none then s.toBookData.updateCalls event else []
  | _ => []

/-! ## The system -/

/-- An action of the book's system, or a read by the reader that holds the lock. -/
inductive ReadAct where
  | book (a : Act)
  | read (reader : Nat) (call : Read)

def readStep (s : State) : ReadAct → Option State
  | .book a => step s a
  | .read reader _ => if s.updatingLock = some reader then some s else none

/-- The tick sizes `toTick` is evaluated with in a step: `update` calls it once. -/
def stepDivisors (s : State) : ReadAct → List Int
  | .book .thread => s.entryCalls.map (fun call => call.data.tickSizeOf call.isBid)
  | .book _ => []
  | .read _ call => call.divisors s.toBookData

/-- The same, for all the steps of a run. -/
def divisorsFrom (s : State) : List ReadAct → List Int
  | [] => []
  | a :: as => stepDivisors s a ++ (readStep s a).elim [] (fun s' => divisorsFrom s' as)

/-- The update thread has stored a tick size to a side: to the bids when a positive one arrives,
to the asks with its next step. -/
def TickSizeStored (before : List ReadAct) : Bool → Prop
  | true => ∃ tickSize, 0 < tickSize ∧ .book (.exchangeInfo (some tickSize)) ∈ before
  | false =>
      ∃ earlier later tickSize, 0 < tickSize ∧ .book .thread ∈ later ∧
        before = earlier ++ .book (.exchangeInfo (some tickSize)) :: later

/-- Every `getEntryWithPrice` comes after the store to its side. -/
def ReadsAfterTickSize (before : List ReadAct) : List ReadAct → Prop
  | [] => True
  | a :: as =>
      (∀ reader price isBid, a = .read reader (.getEntryWithPrice price isBid) →
        TickSizeStored before isBid) ∧ ReadsAfterTickSize (before ++ [a]) as

theorem tickSizeStored_append_bid {before : List ReadAct} {a : ReadAct} :
    TickSizeStored (before ++ [a]) true ↔
      TickSizeStored before true ∨
        ∃ tickSize, 0 < tickSize ∧ a = .book (.exchangeInfo (some tickSize)) := by
  constructor
  · rintro ⟨tickSize, hpos, hmem⟩
    rcases List.mem_append.mp hmem with h | h
    · exact .inl ⟨tickSize, hpos, h⟩
    · exact .inr ⟨tickSize, hpos, (List.mem_singleton.mp h).symm⟩
  · rintro (⟨tickSize, hpos, h⟩ | ⟨tickSize, hpos, rfl⟩)
    · exact ⟨tickSize, hpos, List.mem_append_left _ h⟩
    · exact ⟨tickSize, hpos, List.mem_append_right _ (List.mem_singleton.mpr rfl)⟩

theorem tickSizeStored_append_ask {before : List ReadAct} {a : ReadAct} :
    TickSizeStored (before ++ [a]) false ↔
      TickSizeStored before false ∨ (a = .book .thread ∧ TickSizeStored before true) := by
  constructor
  · rintro ⟨earlier, later, tickSize, hpos, hthread, heq⟩
    -- the last action is the thread's step, or both actions lie before it
    rcases List.eq_nil_or_concat later with rfl | ⟨init, z, rfl⟩
    · cases hthread
    · rw [List.concat_eq_append, ← List.cons_append, ← List.append_assoc] at heq
      obtain ⟨rfl, hz⟩ := List.append_inj' heq rfl
      obtain rfl : a = z := List.singleton_inj.mp hz
      rw [List.concat_eq_append] at hthread
      rcases List.mem_append.mp hthread with h | h
      · exact .inl ⟨earlier, init, tickSize, hpos, h, rfl⟩
      · refine .inr ⟨(List.mem_singleton.mp h).symm, tickSize, hpos, ?_⟩
        exact List.mem_append_right _ (List.mem_cons_self ..)
  · rintro (⟨earlier, later, tickSize, hpos, hthread, rfl⟩ | ⟨rfl, tickSize, hpos, hmem⟩)
    · exact ⟨earlier, later ++ [a], tickSize, hpos, List.mem_append_left _ hthread, by simp⟩
    · obtain ⟨earlier, later, rfl⟩ := List.append_of_mem hmem
      refine ⟨earlier, later ++ [.book .thread], tickSize, hpos, ?_, by simp⟩
      exact List.mem_append_right _ (List.mem_singleton.mpr rfl)

/-! ## The tick sizes along a run

A tick size is stored once to each side and never changed again, in two steps of the thread. In
between the bids have it and the asks do not. -/

/-- The data after a step of the thread. -/
def State.dataAfter (s : State) : BookData :=
  match s.pc with
  | .setAskTickSize tickSize => { s.toBookData with askBook := s.askBook.setTickSize tickSize }
  | .applySnapshot => s.toBookData.applySnapshot
  | .applyFirst event => (s.toBookData.applyUpdate event).1
  | .applyInner event => (s.toBookData.applyUpdate event).1
  | _ => s.toBookData

theorem noUpdate_toBookData (s : State) (w : Waiter) :
    (s.noUpdate w).toBookData = s.toBookData := by
  cases w <;> rfl

theorem release_toBookData (s : State) (slot : Int) (r : Released) :
    (s.release slot r).toBookData = s.toBookData := by
  rcases r with _ | (_ | _) | (_ | _) <;> rfl

theorem threadStep_toBookData {s s' : State} (hs : s.threadStep = some s') :
    s'.toBookData = s.dataAfter := by
  unfold State.dataAfter
  cases State.threadStep_cases hs with
  | stopping hpc _ =>
      rw [hpc]
      exact noUpdate_toBookData s _
  | stopNoUpdate hpc =>
      rw [hpc]
      exact noUpdate_toBookData _ _
  | release hpc =>
      rw [hpc]
      exact release_toBookData s _ _
  | disconnected hpc _ =>
      rw [hpc]
      rfl
  | giveUp hpc _ =>
      rw [hpc]
      rfl
  | outdated hpc _ _ =>
      rw [hpc]
      rfl
  | _ => rw [‹s.pc = _›]

/-- Only a positive answer of the exchange leads to the store to the asks. -/
def Pc.storesAsk : Pc → Bool
  | .setAskTickSize _ => true
  | _ => false

/-- **Where the tick sizes come from.** Between the two stores the thread is at the second one. -/
structure TickInv (before : List ReadAct) (s : State) : Prop where
  loop : intactRule.LoopInv s
  bid : s.bidBook.tickSize ≠ 0 ↔ TickSizeStored before true
  ask : s.askBook.tickSize ≠ 0 ↔ TickSizeStored before false
  between : TickSizeStored before true → s.pc.storesAsk = true ∨ s.askBook.tickSize ≠ 0

/-- The tick sizes after a step of the thread. -/
theorem tickSize_dataAfter {s : State} (h : intactRule.LoopInv s) :
    s.dataAfter.bidBook.tickSize = s.bidBook.tickSize ∧
      (s.pc.storesAsk = true → s.dataAfter.askBook.tickSize ≠ 0) ∧
      (s.pc.storesAsk = false → s.dataAfter.askBook.tickSize = s.askBook.tickSize) := by
  have hpc := h.pc
  unfold State.dataAfter
  cases hc : s.pc with
  | setAskTickSize tickSize =>
      rw [hc] at hpc
      obtain ⟨-, -, -, -, hpos⟩ := hpc
      refine ⟨rfl, fun _ => ?_, fun hf => (by cases hf)⟩
      exact ne_of_gt hpos
  | applySnapshot =>
      rw [hc] at hpc
      obtain ⟨-, ⟨tickSize, -, hr⟩, -⟩ := hpc
      have hr' := (applySnapshot_spec hr).1
      exact ⟨hr'.bid_tickSize.trans hr.bid_tickSize.symm, fun hf => (by cases hf),
        fun _ => hr'.ask_tickSize.trans hr.ask_tickSize.symm⟩
  | applyFirst e =>
      rw [hc] at hpc
      obtain ⟨-, ⟨tickSize, -, hr⟩, -⟩ := hpc
      have hr' := (applyUpdate_spec hr e).1
      exact ⟨hr'.bid_tickSize.trans hr.bid_tickSize.symm, fun hf => (by cases hf),
        fun _ => hr'.ask_tickSize.trans hr.ask_tickSize.symm⟩
  | applyInner e =>
      rw [hc] at hpc
      obtain ⟨⟨tickSize, -, hr⟩, -⟩ := hpc
      have hr' := (applyUpdate_spec hr e).1
      exact ⟨hr'.bid_tickSize.trans hr.bid_tickSize.symm, fun hf => (by cases hf),
        fun _ => hr'.ask_tickSize.trans hr.ask_tickSize.symm⟩
  | _ => exact ⟨rfl, fun hf => (by cases hf), fun _ => rfl⟩

/-- No step of the thread divides by zero. -/
theorem stepDivisors_thread {s : State} (h : intactRule.LoopInv s) :
    0 ∉ stepDivisors s (.book .thread) := by
  -- whatever entry is handled, the tick size has been loaded by then
  have hready : ∀ call ∈ s.entryCalls, ∃ tickSize, 0 < tickSize ∧ Ready tickSize call.data := by
    have hpc := h.pc
    unfold State.entryCalls
    cases hc : s.pc with
    | applySnapshot =>
        rw [hc] at hpc
        obtain ⟨-, ⟨tickSize, hpos, hr⟩, -⟩ := hpc
        dsimp only
        split
        · exact fun call hm =>
            ⟨tickSize, hpos, snapshotCalls_ready hr.bid_tickSize hr.ask_tickSize call hm⟩
        · simp
    | applyFirst e =>
        rw [hc] at hpc
        obtain ⟨-, ⟨tickSize, hpos, hr⟩, -⟩ := hpc
        dsimp only
        split
        · exact fun call hm => ⟨tickSize, hpos, updateCalls_ready hr e call hm⟩
        · simp
    | applyInner e =>
        rw [hc] at hpc
        obtain ⟨⟨tickSize, hpos, hr⟩, -⟩ := hpc
        dsimp only
        split
        · exact fun call hm => ⟨tickSize, hpos, updateCalls_ready hr e call hm⟩
        · simp
    | _ => simp
  intro hzero
  obtain ⟨call, hm, hcall⟩ := List.mem_map.mp hzero
  obtain ⟨tickSize, hpos, hr⟩ := hready call hm
  have htick : call.data.tickSizeOf call.isBid = tickSize := by
    unfold tickSizeOf
    split
    · exact hr.bid_tickSize
    · exact hr.ask_tickSize
  rw [hcall] at htick
  exact absurd htick.symm (ne_of_gt hpos)

/-- What the exchange's answers do to the tick sizes. -/
theorem tickSize_exchangeInfo {s s' : State} {reply : Option Int}
    (hs : step s (.exchangeInfo reply) = some s') :
    s'.askBook.tickSize = s.askBook.tickSize ∧ s.pc.storesAsk = false ∧
      ((∃ tickSize, 0 < tickSize ∧ reply = some tickSize ∧ s'.bidBook.tickSize = tickSize ∧
          s'.pc.storesAsk = true) ∨
        (∀ tickSize, 0 < tickSize → reply ≠ some tickSize) ∧
          s'.bidBook.tickSize = s.bidBook.tickSize) := by
  have hload : ∀ {pc : Pc}, pc = .loadTickSize → pc.storesAsk = false := by
    rintro _ rfl
    rfl
  cases otherStep_of_step hs (by simp) with
  | infoFailed hpc => exact ⟨rfl, hload hpc, .inr ⟨by simp, rfl⟩⟩
  | infoRefused hpc hle =>
      refine ⟨rfl, hload hpc, .inr ⟨fun t hpos heq => ?_, rfl⟩⟩
      obtain rfl := Option.some.inj heq
      omega
  | infoLoaded hpc hpos => exact ⟨rfl, hload hpc, .inl ⟨_, hpos, rfl, rfl, rfl⟩⟩

/-- The other actions leave the books and the thread where they are. -/
theorem step_frame {s s' : State} {a : Act} (hs : step s a = some s') (hthread : a ≠ .thread)
    (hinfo : ∀ reply, a ≠ .exchangeInfo reply) :
    s'.bidBook = s.bidBook ∧ s'.askBook = s.askBook ∧
      (s.pc.storesAsk = true → s'.pc.storesAsk = true) := by
  have hfetch : ∀ {attempt : Nat} {q : Prop}, s.pc = .fetch attempt →
      s.pc.storesAsk = true → q := by
    intro attempt q hpc h
    rw [hpc] at h
    cases h
  cases otherStep_of_step hs hthread with
  | infoFailed => exact absurd rfl (hinfo _)
  | infoRefused => exact absurd rfl (hinfo _)
  | infoLoaded => exact absurd rfl (hinfo _)
  | fetched hpc => exact ⟨rfl, rfl, hfetch hpc⟩
  | fetchRetried hpc => exact ⟨rfl, rfl, hfetch hpc⟩
  | fetchFailed hpc => exact ⟨rfl, rfl, hfetch hpc⟩
  | _ => exact ⟨rfl, rfl, id⟩

/-- An action that neither answers the tick size request nor runs the thread stores nothing. -/
theorem tickInv_frame {before : List ReadAct} {s s' : State} {a : ReadAct} (h : TickInv before s)
    (hloop : intactRule.LoopInv s') (hthread : a ≠ .book .thread)
    (hinfo : ∀ reply, a ≠ .book (.exchangeInfo reply)) (hbid : s'.bidBook = s.bidBook)
    (hask : s'.askBook = s.askBook) (hpc : s.pc.storesAsk = true → s'.pc.storesAsk = true) :
    TickInv (before ++ [a]) s' := by
  have hb : TickSizeStored (before ++ [a]) true ↔ TickSizeStored before true := by
    rw [tickSizeStored_append_bid]
    refine or_iff_left ?_
    rintro ⟨tickSize, -, heq⟩
    exact hinfo _ heq
  have ha : TickSizeStored (before ++ [a]) false ↔ TickSizeStored before false := by
    rw [tickSizeStored_append_ask]
    exact or_iff_left (fun hc => hthread hc.1)
  refine ⟨hloop, ?_, ?_, fun hstored => ?_⟩
  · rw [hbid, hb]
    exact h.bid
  · rw [hask, ha]
    exact h.ask
  · rw [hask]
    exact (h.between (hb.mp hstored)).imp_left hpc

theorem tickInv_thread {before : List ReadAct} {s s' : State} (h : TickInv before s)
    (hs : s.threadStep = some s') : TickInv (before ++ [.book .thread]) s' := by
  obtain ⟨hbid, hstore, hkeep⟩ := tickSize_dataAfter h.loop
  rw [← threadStep_toBookData hs] at hbid hstore hkeep
  have hb : TickSizeStored (before ++ [.book .thread]) true ↔ TickSizeStored before true := by
    rw [tickSizeStored_append_bid]
    refine or_iff_left ?_
    rintro ⟨tickSize, -, heq⟩
    cases heq
  -- the asks have their tick size after the thread's step exactly when the bids had it before
  have hask : s'.askBook.tickSize ≠ 0 ↔ TickSizeStored before true := by
    cases hpc : s.pc.storesAsk with
    | true =>
        refine iff_of_true (hstore hpc) (h.bid.mp ?_)
        have hpcInv := h.loop.pc
        cases hc : s.pc <;> rw [hc] at hpc hpcInv <;> try cases hpc
        obtain ⟨-, -, -, heq, hpos⟩ := hpcInv
        rw [heq]
        exact ne_of_gt hpos
    | false =>
        rw [hkeep hpc]
        constructor
        · intro hne
          obtain ⟨earlier, later, tickSize, hpos, -, rfl⟩ := h.ask.mp hne
          exact ⟨tickSize, hpos, List.mem_append_right _ (List.mem_cons_self ..)⟩
        · intro hstored
          refine (h.between hstored).resolve_left ?_
          rw [hpc]
          exact Bool.false_ne_true
  refine ⟨LoopRule.loopInv_thread h.loop trivial hs, ?_, ?_, fun hstored => .inr ?_⟩
  · rw [hbid, hb]
    exact h.bid
  · rw [hask, tickSizeStored_append_ask]
    constructor
    · exact fun hstored => .inr ⟨rfl, hstored⟩
    · rintro (⟨earlier, later, tickSize, hpos, -, rfl⟩ | ⟨-, hstored⟩)
      · exact ⟨tickSize, hpos, List.mem_append_right _ (List.mem_cons_self ..)⟩
      · exact hstored
  · exact hask.mpr (hb.mp hstored)

theorem tickInv_exchangeInfo {before : List ReadAct} {s s' : State} {reply : Option Int}
    (h : TickInv before s) (hs : step s (.exchangeInfo reply) = some s') :
    TickInv (before ++ [.book (.exchangeInfo reply)]) s' := by
  obtain ⟨hask, hload, hreply⟩ := tickSize_exchangeInfo hs
  have hloop : intactRule.LoopInv s' := LoopRule.loopInv_step h.loop trivial hs
  have ha : TickSizeStored (before ++ [.book (.exchangeInfo reply)]) false
      ↔ TickSizeStored before false := by
    rw [tickSizeStored_append_ask]
    exact or_iff_left (fun hc => by cases hc.1)
  have hasks : s'.askBook.tickSize ≠ 0
      ↔ TickSizeStored (before ++ [.book (.exchangeInfo reply)]) false := by
    rw [hask, ha]
    exact h.ask
  rcases hreply with ⟨tickSize, hpos, rfl, hbid, hpc⟩ | ⟨hno, hbid⟩
  · refine ⟨hloop, iff_of_true ?_ ?_, hasks, fun _ => .inl hpc⟩
    · rw [hbid]
      exact ne_of_gt hpos
    · exact tickSizeStored_append_bid.mpr (.inr ⟨tickSize, hpos, rfl⟩)
  · have hb : TickSizeStored (before ++ [.book (.exchangeInfo reply)]) true
        ↔ TickSizeStored before true := by
      rw [tickSizeStored_append_bid]
      refine or_iff_left ?_
      rintro ⟨tickSize, hpos, heq⟩
      cases heq
      exact hno tickSize hpos rfl
    refine ⟨hloop, ?_, hasks, fun hstored => .inr ?_⟩
    · rw [hbid, hb]
      exact h.bid
    · rw [hask]
      refine (h.between (hb.mp hstored)).resolve_left ?_
      rw [hload]
      exact Bool.false_ne_true

/-- **One step.** -/
theorem tickInv_step {before : List ReadAct} {s s' : State} {a : ReadAct} (h : TickInv before s)
    (hs : readStep s a = some s') : TickInv (before ++ [a]) s' := by
  cases a with
  | read reader call =>
      simp only [readStep] at hs
      split at hs
      · obtain rfl := Option.some.inj hs
        exact tickInv_frame h h.loop (by simp) (by simp) rfl rfl id
      · cases hs
  | book a =>
      by_cases hthread : a = .thread
      · subst hthread
        exact tickInv_thread h hs
      by_cases hinfo : ∃ reply, a = .exchangeInfo reply
      · obtain ⟨reply, rfl⟩ := hinfo
        exact tickInv_exchangeInfo h hs
      · rw [not_exists] at hinfo
        obtain ⟨hbid, hask, hpc⟩ := step_frame hs hthread hinfo
        apply tickInv_frame h (LoopRule.loopInv_step h.loop trivial hs) _ _ hbid hask hpc
        · exact fun heq => hthread (ReadAct.book.inj heq)
        · exact fun reply heq => hinfo reply (ReadAct.book.inj heq)

/-- A step divides by zero exactly when it looks a price up before the store. -/
theorem stepDivisors_iff {before : List ReadAct} {s : State} (h : TickInv before s)
    (a : ReadAct) :
    0 ∉ stepDivisors s a ↔
      ∀ reader price isBid, a = .read reader (.getEntryWithPrice price isBid) →
        TickSizeStored before isBid := by
  cases a with
  | book a =>
      refine iff_of_true ?_ (fun _ _ _ heq => by cases heq)
      cases a with
      | thread => exact stepDivisors_thread h.loop
      | _ => exact List.not_mem_nil
  | read reader call =>
      cases call with
      | getEntryWithPrice price isBid =>
          have htick : s.tickSizeOf isBid ≠ 0 ↔ TickSizeStored before isBid := by
            cases isBid with
            | true => exact h.bid
            | false => exact h.ask
          rw [stepDivisors, Read.divisors, List.mem_singleton, ← ne_eq, ne_comm, htick]
          constructor
          · intro hstored _ _ _ heq
            cases heq
            exact hstored
          · exact fun hall => hall reader price isBid rfl
      | _ => exact iff_of_true List.not_mem_nil (fun _ _ _ heq => by cases heq)

theorem divisorsFrom_iff {before acts : List ReadAct} {s s' : State} (h : TickInv before s)
    (hrun : runFrom readStep s acts = some s') :
    0 ∉ divisorsFrom s acts ↔ ReadsAfterTickSize before acts := by
  induction acts generalizing before s with
  | nil => exact iff_of_true List.not_mem_nil trivial
  | cons a as ih =>
      rw [runFrom, Option.bind_eq_some_iff] at hrun
      obtain ⟨t, ht, hrest⟩ := hrun
      rw [divisorsFrom, ReadsAfterTickSize, ht, List.mem_append, not_or, stepDivisors_iff h a]
      exact and_congr_right (fun _ => ih (tickInv_step h ht) hrest)

theorem tickInv_construct (slots : Bool → Nat → Nat → Nat) (updateId : Int) :
    TickInv [] (construct slots updateId) := by
  refine ⟨LoopRule.reach intactRule .refl, ?_, ?_, ?_⟩
  · refine iff_of_false (fun hne => hne rfl) ?_
    rintro ⟨_, -, hmem⟩
    cases hmem
  · refine iff_of_false (fun hne => hne rfl) ?_
    rintro ⟨_, _, _, -, -, heq⟩
    simp at heq
  · rintro ⟨_, -, hmem⟩
    cases hmem

/-- **When the reads divide by zero.** In every run of the book, with any number of readers at
any time, `toTick` is evaluated with non-zero tick sizes only, exactly when every
`getEntryWithPrice` comes after the tick size was stored to its side. -/
theorem divisors_ne_zero_iff (slots : Bool → Nat → Nat → Nat) (updateId : Int)
    (acts : List ReadAct) {s : State}
    (hrun : runFrom readStep (construct slots updateId) acts = some s) :
    0 ∉ divisorsFrom (construct slots updateId) acts ↔ ReadsAfterTickSize [] acts :=
  divisorsFrom_iff (tickInv_construct slots updateId) hrun

/-- A bid looked up after the exchange has answered. -/
theorem divisors_ne_zero_iff_loaded :
    0 ∉ divisorsFrom (construct (fun _ _ _ => 0) 0)
      [.book (.exchangeInfo (some 1)), .book (.readerLock 0),
        .read 0 (.getEntryWithPrice 5 true)] := by
  refine (divisors_ne_zero_iff (fun _ _ _ => 0) 0 _ rfl).mpr ⟨?_, ?_, ?_, trivial⟩
  · intro _ _ _ heq
    cases heq
  · intro _ _ _ heq
    cases heq
  · intro _ _ _ heq
    cases heq
    exact ⟨1, by decide, List.mem_cons_self ..⟩

/-- Runs that divide by zero: one before the exchange has answered, and one after the request for
the tick size has failed and the book has stopped with an error. -/
theorem lookup_dividesByZero :
    (∃ s, runFrom readStep (construct (fun _ _ _ => 0) 0)
        [.book (.readerLock 0), .read 0 (.getEntryWithPrice 5 true)] = some s ∧
      0 ∈ divisorsFrom (construct (fun _ _ _ => 0) 0)
        [.book (.readerLock 0), .read 0 (.getEntryWithPrice 5 true)]) ∧
    ∃ s, runFrom readStep (construct (fun _ _ _ => 0) 0)
        [.book (.exchangeInfo none), .book .thread, .book .thread, .book (.readerLock 0),
          .read 0 (.getEntryWithPrice 5 false)] = some s ∧
      s.lastError = some .FETCH_FAILED ∧
      0 ∈ divisorsFrom (construct (fun _ _ _ => 0) 0)
        [.book (.exchangeInfo none), .book .thread, .book .thread, .book (.readerLock 0),
          .read 0 (.getEntryWithPrice 5 false)] :=
  ⟨⟨_, rfl, List.mem_singleton.mpr rfl⟩, _, rfl, rfl, List.mem_singleton.mpr rfl⟩

end AstraConnect.Orderbook
