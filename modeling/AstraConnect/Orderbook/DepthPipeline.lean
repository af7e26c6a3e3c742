import AstraConnect.Orderbook.Alignment
import AstraConnect.Orderbook.DepthDecoding

set_option autoImplicit false

/-! # From the messages of the stream to the book

The decoder, the slots, the queue and the update thread together: the stream thread is given any
texts, of which those that carry an event carry a genuine one, and the book that comes out at the
other end is the exchange's (`messages_matchExchange`). An event is read back from the arrays of its
slot, which the decoder has filled one entry at a time while the other thread ran.
-/

namespace AstraConnect.Orderbook

open Transition DepthDecoder BookData

/-! ## Genuine messages -/

/-- The event of a message, in a slot. -/
def depthEvent (slot : Int) (levels : Bool → List Entry) (ids : Int × Int × Int) : DepthEvent :=
  ⟨slot, levels, ids.1, ids.2.1, ids.2.2⟩

namespace Exchange

variable (E : Exchange)

/-- The levels and ids are those of a genuine event. -/
def GenuineLevels (levels : Bool → List Entry) (ids : Int × Int × Int) : Prop :=
  ∀ slot, E.GenuineEvent (depthEvent slot levels ids)

/-- A message that carries an event carries a genuine one. What a broken, oversized or foreign
message holds does not matter. -/
def GenuineMessage (m : Message) : Prop :=
  ∀ levels ids, Sent m levels ids → E.GenuineLevels levels ids

/-- The inputs of a run with a genuine exchange. -/
def GenuineInput (σ : Depth) : DepthAct → Prop
  | .receive m => E.GenuineMessage m
  | .decoder => True
  | .book a => E.Genuine σ.book a

end Exchange

/-! ## What the decoder has in hand

Between the two ends an event exists only as writes to the arrays of its slot. The invariant says
what of it they hold, at each place of the decoder. -/

/-- The message is genuine; so is what was decoded, and the arrays of the slot hold what was
written of it; so is the event that is about to be queued. -/
def DecoderInv (E : Exchange) (σ : Depth) : Decoder → Prop
  | .load m => E.GenuineMessage m
  | .sub m => E.GenuineMessage m
  | .pop m => E.GenuineMessage m
  | .write slot ws d =>
      (∀ ids, d.ids = some ids → E.GenuineLevels d.levels ids) ∧
        ∃ done arrays, d.writes = done ++ ws ∧ σ.arrays = done.foldl (assign slot) arrays
  | .put (some e) => E.GenuineEvent e
  | _ => True

variable {E : Exchange} {garbage : Nat → Int} {σ σ' : Depth}

theorem DecoderInv.step (h : DecoderInv E σ σ.decoder) (hs : σ.decoderStep garbage = some σ') :
    DecoderInv E σ' σ'.decoder := by
  cases Depth.decoderStep_cases hs with
  | noSlot hd _ => trivial
  | slotLeft hd _ =>
      rw [hd] at h
      exact h
  | sub hd =>
      rw [hd] at h
      exact h
  | @pop m slot rest hd _ =>
      rw [hd] at h
      refine ⟨fun ids hids => ?_, [], σ.arrays, rfl, rfl⟩
      exact h _ _ ((decode_ids_iff garbage m ids).mp hids)
  | @write slot side i entry rest d hd =>
      rw [hd] at h
      obtain ⟨hgenuine, done, arrays, hwrites, harrays⟩ := h
      refine ⟨hgenuine, done ++ [(side, i, entry)], arrays, ?_, ?_⟩
      · rw [hwrites, List.append_assoc]
        rfl
      · rw [List.foldl_append, ← harrays]
        rfl
  | bad hd _ => trivial
  | @good slot d ids hd hids =>
      rw [hd] at h
      obtain ⟨hgenuine, done, arrays, hwrites, harrays⟩ := h
      rw [List.append_nil] at hwrites
      -- every write is done, so the slot is read back as it was decoded
      have hlevels : (fun side => (List.range (d.levels side).length).map (σ.arrays slot side))
          = d.levels := by
        funext side
        rw [harrays, ← hwrites]
        exact writes_stored d slot arrays side
      have hevent : σ.eventAt slot (fun side => (d.levels side).length) ids
          = depthEvent slot d.levels ids := by
        unfold Depth.eventAt depthEvent
        rw [hlevels]
      show E.GenuineEvent _
      rw [hevent]
      exact hgenuine ids hids slot
  | giveBack _ => trivial
  | count _ => trivial
  | put _ _ => trivial

/-- The decoder does not see what the other thread does. -/
theorem DecoderInv.frame {p : Decoder} (h : DecoderInv E σ p) (harrays : σ'.arrays = σ.arrays) :
    DecoderInv E σ' p := by
  cases p with
  | write slot ws d =>
      unfold DecoderInv
      rw [harrays]
      exact h
  | put item =>
      cases item <;> exact h
  | _ => exact h

/-! ## The whole run -/

/-- The book has been through a run with a genuine exchange, and the decoder is in one. -/
structure PipelineInv (E : Exchange) (s₀ : State) (σ : Depth) : Prop where
  book : Reach step E.Genuine s₀ σ.book
  decoder : DecoderInv E σ σ.decoder

theorem PipelineInv.step {s₀ : State} (h : PipelineInv E s₀ σ) {a : DepthAct}
    (hok : E.GenuineInput σ a) (hs : depthStep garbage σ a = some σ') : PipelineInv E s₀ σ' := by
  cases a with
  | receive m =>
      simp only [depthStep] at hs
      split at hs
      · obtain rfl := Option.some.inj hs
        exact ⟨h.book, hok⟩
      · cases hs
  | decoder =>
      refine ⟨?_, h.decoder.step hs⟩
      have hbefore := h.decoder
      cases Depth.decoderStep_cases hs with
      | @put item hd _ =>
          rw [hd] at hbefore
          -- the event that is queued is the stream's next item
          have hgenuine : E.Genuine σ.book (.deliver item) := by
            cases item with
            | none => trivial
            | some e => exact hbefore
          exact h.book.tail hgenuine rfl
      | _ => exact h.book
  | book act =>
      replace hok : E.Genuine σ.book act := hok
      cases act with
      | deliver item => cases hs
      | thread =>
          simp only [depthStep, Depth.threadStep] at hs
          split at hs
          · rename_i slot r hpc
            split at hs
            · split at hs
              · obtain rfl := Option.some.inj hs
                exact ⟨h.book, h.decoder.frame rfl⟩
              · cases hs
            · obtain rfl := Option.some.inj hs
              refine ⟨h.book.tail hok ?_, h.decoder.frame rfl⟩
              show σ.book.threadStep = some (σ.book.release slot r)
              rw [State.threadStep, hpc]
          · obtain ⟨s', hthread, rfl⟩ := Option.map_eq_some_iff.mp hs
            exact ⟨h.book.tail hok hthread, h.decoder.frame rfl⟩
      | _ =>
          rw [depthStep_other (by simp) (by simp), Option.map_eq_some_iff] at hs
          obtain ⟨s', hact, rfl⟩ := hs
          exact ⟨h.book.tail hok hact, h.decoder.frame rfl⟩

/-- **The messages of a genuine exchange give its book.** In every run of the stream thread, the
decoder and the update thread, with any messages lost, broken or too large and any snapshots, a
book that is in sync has at every price the volume the exchange has there after `updateID`, except
for levels that the last snapshot did not reach and that have not changed since. -/
theorem messages_matchExchange {slots : Bool → Nat → Nat → Nat} {updateId : Int}
    {arrays : Int → Bool → Nat → Entry}
    (h : Reach (depthStep garbage) E.GenuineInput (constructDepth slots updateId arrays) σ)
    (hs : σ.book.pc.inSync = true) : MatchesExchange E σ.book.toBookData := by
  have hpipeline : PipelineInv E (construct slots updateId) σ := by
    apply h.invariant (I := PipelineInv E (construct slots updateId)) ⟨.refl, trivial⟩
    intro σ a σ' hi hok hs
    exact hi.step hok hs
  obtain ⟨⟨_, rfl, hr⟩, htracks⟩ :=
    LoopRule.PcInv.aligned (LoopRule.reach (exchangeRule E) hpipeline.book).pc hs
  exact htracks.matchesExchange hr

/-- The message of the event in which the bid of `oneBidExchange` arrives. -/
def oneBidMessage : Message :=
  .document (.obj [("data".toList, .obj [
    ("b".toList, .arr [.arr [.str "0.00000005".toList, .str "0.00000007".toList]]),
    ("a".toList, .arr []),
    ("u".toList, .int 11), ("U".toList, .int 10), ("pu".toList, .int 9)])])

/-- The levels that the decoder reads for the message. -/
theorem depthEvent_oneBid (slot : Int) :
    depthEvent slot (decode (fun _ => 0) oneBidMessage).levels (11, 10, 9) = oneBidEvent slot := by
  rw [depthEvent, oneBidEvent, DepthEvent.mk.injEq]
  refine ⟨rfl, ?_, rfl, rfl, rfl⟩
  funext side
  cases side with
  | false => rfl
  | true => decide +kernel

theorem genuineMessage_oneBid : oneBidExchange.GenuineMessage oneBidMessage := by
  intro levels ids hsent slot
  have hdecode := decode_of_sent (fun _ => 0) hsent
  have hlevels : levels = (decode (fun _ => 0) oneBidMessage).levels :=
    (congrArg Decoded.levels hdecode).symm
  have hids : (11, 10, 9) = ids := Option.some.inj (congrArg Decoded.ids hdecode)
  rw [hlevels, ← hids, depthEvent_oneBid]
  exact genuineEvent_oneBid slot

/-- The message arrives before the snapshot that its event straddles. -/
def oneBidRun : List DepthAct :=
  [.book (.exchangeInfo (some 1)), .book .thread, .receive oneBidMessage, .decoder, .decoder,
    .decoder, .decoder, .decoder, .decoder, .book .thread, .book .thread, .book .thread,
    .book (.depthSnapshot (.success emptyResponse)), .book .thread, .book .thread]

def afterOneBidRun : Option Depth :=
  runFrom (depthStep (fun _ => 0)) (constructDepth (fun _ _ _ => 0) 0 (fun _ _ _ => ⟨0, 0⟩))
    oneBidRun

/-- The first event is taken and starts at the snapshot. -/
theorem depthStep_takeFirst {e : DepthEvent} {rest : List OrderbookArrays}
    (hpc : σ.book.pc = .take .first) (hqueue : σ.book.bufferOut = some e :: rest)
    (hu : ¬ e.u < σ.book.updateID) (hU : e.U ≤ σ.book.updateID) :
    depthStep garbage σ (.book .thread) = some { σ with
      book := { σ.book with bufferOut := rest, pc := .applyFirst e }
      taken := σ.taken ++ [e.slot] } := by
  simp [depthStep, Depth.threadStep, Depth.takenBy, State.threadStep, State.decideFirst, hpc,
    hqueue, hu, hU]

/-- The first event fits the book. -/
theorem depthStep_applyFirst {e : DepthEvent} (hpc : σ.book.pc = .applyFirst e)
    (hlock : σ.book.updatingLock = none)
    (hfits : (σ.book.toBookData.applyUpdate e).2 = true) :
    depthStep garbage σ (.book .thread) = some { σ with
      book := { σ.book with
        toBookData := (σ.book.toBookData.applyUpdate e).1
        pc := .release e.slot (.first true) } } := by
  simp [depthStep, Depth.threadStep, Depth.takenBy, State.threadStep, hpc, hlock, hfits]

/-- The bid that has arrived in the message is in the book. -/
theorem messages_matchExchange_oneBid :
    ∃ σ, Reach (depthStep (fun _ => 0)) oneBidExchange.GenuineInput
        (constructDepth (fun _ _ _ => 0) 0 (fun _ _ _ => ⟨0, 0⟩)) σ ∧
      σ.book.pc.inSync = true ∧ MatchesExchange oneBidExchange σ.book.toBookData ∧
      σ.book.toBookData.volumeAt true 5 = 7 := by
  have hok : ∀ a ∈ oneBidRun, ∀ σ, oneBidExchange.GenuineInput σ a := by
    intro a ha σ
    simp only [oneBidRun, List.mem_cons, List.not_mem_nil, or_false] at ha
    rcases ha with rfl | rfl | rfl | rfl | rfl | rfl | rfl | rfl | rfl | rfl | rfl | rfl | rfl |
      rfl | rfl
    all_goals first
      | exact rfl
      | exact genuineMessage_oneBid
      | exact genuineSnapshot_emptyResponse
      | trivial
  have hsome : afterOneBidRun.isSome := rfl
  have hreach := Reach.refl.of_allowed hok (Option.some_get hsome).symm
  set fresh := (fetchedData (fun _ _ _ => 0) 0 1 emptyResponse).applySnapshot with hfresh
  have hdata : (afterOneBidRun.get hsome).book.toBookData = fresh := rfl
  obtain ⟨hready, -, hregistered, -, hid, -⟩ :=
    applySnapshot_spec (ready_fetchedData (fun _ _ _ => 0) 0 1 emptyResponse)
  replace hid : fresh.updateID = 10 := hid.trans (updateId_fetch _ emptyResponse)
  replace hregistered : fresh.orderbookSnapshot.registered = fun _ => [] :=
    hregistered.trans (registered_fetch _ (fun _ => Nat.zero_le _))
  -- the event is read back from the arrays of the first slot
  have hqueue : (afterOneBidRun.get hsome).book.bufferOut = [some (oneBidEvent 0)] := by
    rw [← depthEvent_oneBid]
    refine congrArg (fun levels => [some (⟨0, levels, 11, 10, 9⟩ : DepthEvent)]) ?_
    funext side
    cases side <;> rfl
  have hthread : ∀ σ, oneBidExchange.GenuineInput σ (.book .thread) := fun _ => trivial
  have htaken := hreach.tail (hthread _)
    (depthStep_takeFirst rfl hqueue (by rw [hdata, hid]; decide) (by rw [hdata, hid]; decide))
  have happlied := htaken.tail (hthread _)
    (depthStep_applyFirst rfl rfl (applyUpdate_oneBid _ 0 0))
  have hmatches := messages_matchExchange happlied rfl
  refine ⟨_, happlied, rfl, hmatches, ?_⟩
  obtain ⟨-, -, -, hsnapshot, hupdated, -⟩ := applyUpdate_spec hready (oneBidEvent 0)
  rw [if_pos (applyUpdate_oneBid _ 0 0)] at hupdated
  have hgrid := oneBidExchange.onGrid 11 true 5 (by decide)
  rcases hmatches true 5 hgrid with hvolume | ⟨-, ⟨hfull, -⟩, -⟩
  · refine hvolume.trans ?_
    show oneBidExchange.book (fresh.applyUpdate (oneBidEvent 0)).1.updateID true 5 = 7
    rw [hupdated]
    rfl
  · -- the snapshot was empty
    replace hfull : (((fresh.applyUpdate (oneBidEvent 0)).1.orderbookSnapshot.registered
      true).length = Exchange.DEPTH) := hfull
    rw [hsnapshot, hregistered] at hfull
    cases hfull

end AstraConnect.Orderbook
