import AstraConnect.Lib.Transition

set_option autoImplicit false

/-! # The write queue of a raw connection (`api/raw/rawWebsocket.hpp`)

One I/O thread runs the completions of reads and writes, the lambdas that `sendText` posts and the
posted `beginClose`, one at a time; `sendText` and `close` are called from any thread. The queue
holds the frame that is being written and those behind it. `onIoError` clears it while a write may
still be outstanding: when that write completes with success after all, its completion pops an
empty queue, and that is the only way for the queue to go wrong (`discipline_iff`).
-/

namespace AstraConnect.Raw

open Transition

abbrev Frame := List Char

/-- Where the `close()` that won the exchange of `closeCalled` is. -/
inductive Closing where
  | idle
  /-- before its store to `open` -/
  | exchanged
  /-- before its post -/
  | stored
  | posted
  /-- `beginClose` has started `async_close` and its timer -/
  | started
  deriving DecidableEq, Repr

structure RawWebsocket where
  /-- `open` -/
  isOpen : Bool
  closeCalled : Bool
  closeReported : Bool
  socketOpen : Bool
  /-- `ioc.stop()` has been called -/
  stopped : Bool
  writeQueue : List Frame
  /-- an `async_read` is outstanding -/
  reading : Bool
  /-- the number of outstanding `async_write`s -/
  writing : Nat
  /-- calls of `sendText` that have passed its tests and not posted yet -/
  sending : List Frame
  /-- lambdas of `sendText` that have not run yet -/
  posted : List Frame
  closing : Closing
  /-- history variables: `front` or `pop_front` was called on an empty queue; the frames handed
  to `async_write`; the messages whose lambda has run -/
  underflow : Bool
  handed : List Frame
  ran : List Frame

/-- How a read completes: with an error, or with a message, which `onMessage` may throw on. -/
inductive ReadResult where
  | error
  | message (isText throws : Bool)
  deriving DecidableEq, Repr

namespace RawWebsocket

def doWrite (s : RawWebsocket) : RawWebsocket :=
  match s.writeQueue with
  | [] => { s with underflow := true }
  | frame :: _ => { s with handed := s.handed ++ [frame], writing := s.writing + 1 }

/-- An unexpected end of the connection. -/
def onIoError (s : RawWebsocket) : RawWebsocket :=
  let ended := { s with isOpen := false }
  if s.closeCalled then ended
  else { ended with socketOpen := false, writeQueue := [], closeReported := true }

/-- The completion of a read. -/
def onRead (s : RawWebsocket) : ReadResult → RawWebsocket
  | .error => { s with reading := false }.onIoError
  | .message isText throws =>
      if isText && throws then { s with reading := false }.onIoError
      else if s.closeCalled then { s with reading := false }
      else s

/-- The completion of a write. -/
def onWrite (s : RawWebsocket) (success : Bool) : RawWebsocket :=
  let done := { s with writing := s.writing - 1 }
  if success then
    match s.writeQueue with
    | [] => { done with underflow := true }
    | _ :: rest =>
        let popped := { done with writeQueue := rest }
        if rest = [] then popped else popped.doWrite
  else done.onIoError

/-- The lambda of `sendText`. -/
def onSend (s : RawWebsocket) (message : Frame) : RawWebsocket :=
  let ran := { s with ran := s.ran ++ [message] }
  if s.isOpen then
    let pushed := { ran with writeQueue := s.writeQueue ++ [message] }
    if pushed.writeQueue.length = 1 then pushed.doWrite else pushed
  else ran

def beginClose (s : RawWebsocket) : RawWebsocket :=
  if s.socketOpen then { s with closing := .started } else { s with stopped := true }

end RawWebsocket

/-- What the I/O thread runs, and the steps of the callers of `sendText` and `close`. -/
inductive IoAct where
  | sendText (text : Frame)
  | post (i : Nat)
  | runSend (i : Nat)
  | readDone (result : ReadResult)
  | writeDone (success : Bool)
  | close
  | closeStore
  | closePost
  | beginClose
  /-- the completion of `async_close`, or its timer -/
  | closeDone

open RawWebsocket

def ioStep (s : RawWebsocket) : IoAct → Option RawWebsocket
  | .sendText text =>
      some (if s.isOpen && !s.closeCalled then { s with sending := s.sending ++ [text] } else s)
  | .post i =>
      s.sending[i]?.map (fun text =>
        { s with sending := s.sending.eraseIdx i, posted := s.posted ++ [text] })
  | .runSend i =>
      if s.stopped then none
      else s.posted[i]?.map (fun text => { s with posted := s.posted.eraseIdx i }.onSend text)
  | .readDone result => if s.stopped || !s.reading then none else some (s.onRead result)
  | .writeDone success => if s.stopped || s.writing = 0 then none else some (s.onWrite success)
  | .close =>
      some (if s.closeCalled then s else { s with closeCalled := true, closing := .exchanged })
  | .closeStore =>
      if s.closing = .exchanged then some { s with isOpen := false, closing := .stored } else none
  | .closePost => if s.closing = .stored then some { s with closing := .posted } else none
  | .beginClose => if s.stopped || s.closing ≠ .posted then none else some s.beginClose
  | .closeDone =>
      if s.stopped || s.closing ≠ .started then none
      else some { s with socketOpen := false, stopped := true }

/-- The connection when `connect` has returned it. -/
def connected : RawWebsocket where
  isOpen := true
  closeCalled := false
  closeReported := false
  socketOpen := true
  stopped := false
  writeQueue := []
  reading := true
  writing := 0
  sending := []
  posted := []
  closing := .idle
  underflow := false
  handed := []
  ran := []

/-! ## The discipline

The frames that were written are the first ones of those that were queued. This is kept by
`Frames`, which has the frames that have left the queue beside those in it. -/

/-- At most one write is outstanding, no access to an empty queue has been made, and the frames
written are the first of the messages, in their order. -/
structure Disciplined (s : RawWebsocket) : Prop where
  one : s.writing ≤ 1
  nonempty : s.underflow = false
  order : s.handed <+: s.ran

/-- No write completes with success once `onIoError` has dropped the connection. -/
def NoLateSuccess (s : RawWebsocket) : List IoAct → Prop
  | [] => True
  | a :: as =>
      (a = .writeDone true → s.closeReported = false) ∧
        ∀ s', ioStep s a = some s' → NoLateSuccess s' as

/-- The frames of the queue: `pushed` are all of them, `popped` those that have left it. -/
structure Frames (s : RawWebsocket) (popped pushed : List Frame) : Prop where
  queue : s.closeReported = false → pushed = popped ++ s.writeQueue
  handed : s.handed <+: pushed
  /-- the front of the queue is being written -/
  busy : s.closeReported = false → s.writing = 1 → s.handed = popped ++ s.writeQueue.take 1
  free : s.isOpen = true → s.writing = 0 → s.handed = popped
  ran : pushed <+: s.ran
  all : s.isOpen = true → pushed = s.ran

/-- **The invariant**, as long as no write has completed late. -/
structure Inv (s : RawWebsocket) : Prop where
  one : s.writing ≤ 1
  nonempty : s.underflow = false
  dropped : s.closeReported = true → s.writeQueue = [] ∧ s.isOpen = false
  busy : s.closeReported = false → s.writing = 1 → s.writeQueue ≠ []
  free : s.isOpen = true → s.writing = 0 → s.writeQueue = []
  frames : ∃ popped pushed, Frames s popped pushed

theorem Inv.disciplined {s : RawWebsocket} (h : Inv s) : Disciplined s := by
  obtain ⟨_, _, hframes⟩ := h.frames
  exact ⟨h.one, h.nonempty, hframes.handed.trans hframes.ran⟩

theorem inv_connected : Inv connected :=
  ⟨Nat.zero_le 1, rfl, fun h => (by cases h), fun _ h => (by cases h), fun _ _ => rfl,
    [], [], ⟨fun _ => rfl, List.prefix_rfl, fun _ h => (by cases h), fun _ _ => rfl,
      List.prefix_rfl, fun _ => rfl⟩⟩

/-! ## The handlers keep it

Until the queue is cleared its front is the frame that is being written. After that the completion
of that write is harmless as long as it is no success. -/

/-- Steps that touch neither the queue nor what the invariant says of it. -/
theorem Inv.of_eq {s t : RawWebsocket} (h : Inv s) (hopen : t.isOpen = true → s.isOpen = true)
    (hreported : t.closeReported = s.closeReported) (hqueue : t.writeQueue = s.writeQueue)
    (hwriting : t.writing = s.writing) (hunderflow : t.underflow = s.underflow)
    (hhanded : t.handed = s.handed) (hran : t.ran = s.ran) : Inv t := by
  obtain ⟨popped, pushed, hframes⟩ := h.frames
  refine ⟨?_, ?_, ?_, ?_, ?_, popped, pushed, ?_, ?_, ?_, ?_, ?_, ?_⟩
  · rw [hwriting]
    exact h.one
  · rw [hunderflow]
    exact h.nonempty
  · intro hr
    rw [hreported] at hr
    obtain ⟨hempty, hclosed⟩ := h.dropped hr
    refine ⟨hqueue.trans hempty, ?_⟩
    cases ht : t.isOpen with
    | false => rfl
    | true => rw [hopen ht] at hclosed; cases hclosed
  · rw [hreported, hwriting, hqueue]
    exact h.busy
  · intro ho
    rw [hwriting, hqueue]
    exact h.free (hopen ho)
  · rw [hreported, hqueue]
    exact hframes.queue
  · rw [hhanded]
    exact hframes.handed
  · rw [hreported, hwriting, hqueue, hhanded]
    exact hframes.busy
  · intro ho
    rw [hwriting, hhanded]
    exact hframes.free (hopen ho)
  · rw [hran]
    exact hframes.ran
  · intro ho
    rw [hran]
    exact hframes.all (hopen ho)

/-- The error path of a read leaves the write outstanding, the one of a write does not. -/
theorem inv_onIoError {s : RawWebsocket} (h : Inv s) {n : Nat} (hn : n = s.writing ∨ n = 0)
    (reading : Bool) : Inv { s with writing := n, reading := reading }.onIoError := by
  obtain ⟨popped, pushed, hframes⟩ := h.frames
  have hone : n ≤ 1 := by
    have := h.one
    omega
  have hsame : n = 1 → s.writing = 1 := by omega
  unfold onIoError
  dsimp only
  split
  · refine ⟨hone, h.nonempty, fun hr => ⟨(h.dropped hr).1, rfl⟩, fun hr h1 => h.busy hr (hsame h1),
      fun ho => (by cases ho), popped, pushed, hframes.queue, hframes.handed,
      fun hr h1 => hframes.busy hr (hsame h1), fun ho => (by cases ho), hframes.ran,
      fun ho => (by cases ho)⟩
  · exact ⟨hone, h.nonempty, fun _ => ⟨rfl, rfl⟩, fun hr => (by cases hr),
      fun ho => (by cases ho), popped, pushed, fun hr => (by cases hr), hframes.handed,
      fun hr => (by cases hr), fun ho => (by cases ho), hframes.ran, fun ho => (by cases ho)⟩

theorem inv_onRead {s : RawWebsocket} (h : Inv s) (result : ReadResult) :
    Inv (s.onRead result) := by
  cases result with
  | error => exact inv_onIoError h (.inl rfl) false
  | message isText throws =>
      unfold onRead
      dsimp only
      split
      · exact inv_onIoError h (.inl rfl) false
      · split
        · exact h.of_eq id rfl rfl rfl rfl rfl rfl
        · exact h

/-- The frames of `doWrite`, called with a queue that is not empty and no write outstanding. -/
theorem inv_doWrite {s : RawWebsocket} {frame : Frame} {rest popped pushed : List Frame}
    (hqueue : s.writeQueue = frame :: rest) (hwriting : s.writing = 0)
    (hreported : s.closeReported = false) (hnonempty : s.underflow = false)
    (hpushed : pushed = popped ++ s.writeQueue) (hhanded : s.handed = popped)
    (hran : pushed <+: s.ran) (hall : s.isOpen = true → pushed = s.ran) :
    Inv s.doWrite := by
  have heq : s.doWrite = { s with handed := s.handed ++ [frame], writing := s.writing + 1 } := by
    unfold doWrite
    rw [hqueue]
  rw [heq]
  refine ⟨?_, hnonempty, fun hr => ?_, fun _ _ => ?_, fun _ h0 => ?_, popped, pushed, fun _ => ?_,
    ?_, fun _ _ => ?_, fun _ h0 => ?_, hran, hall⟩
  · show s.writing + 1 ≤ 1
    omega
  · rw [show s.closeReported = true from hr] at hreported
    cases hreported
  · show s.writeQueue ≠ []
    rw [hqueue]
    exact List.cons_ne_nil _ _
  · cases h0
  · exact hpushed
  · show s.handed ++ [frame] <+: pushed
    rw [hpushed, hhanded, hqueue]
    exact ⟨rest, by simp⟩
  · show s.handed ++ [frame] = popped ++ s.writeQueue.take 1
    rw [hhanded, hqueue]
    rfl
  · cases h0

/-- The completion of a write, unless it comes late. -/
theorem inv_onWrite {s : RawWebsocket} (h : Inv s) (hwriting : s.writing ≠ 0) {success : Bool}
    (hlate : success = true → s.closeReported = false) : Inv (s.onWrite success) := by
  have hone : s.writing = 1 := by
    have := h.one
    omega
  have hzero : s.writing - 1 = 0 := by omega
  cases success with
  | false =>
      show Inv { s with writing := s.writing - 1 }.onIoError
      exact inv_onIoError h (.inr hzero) s.reading
  | true =>
      have hreported := hlate rfl
      obtain ⟨popped, pushed, hframes⟩ := h.frames
      have hpushed := hframes.queue hreported
      have hhanded := hframes.busy hreported hone
      unfold onWrite
      dsimp only
      rw [if_pos rfl]
      -- the write that completes is the one of the front of the queue
      rcases hq : s.writeQueue with - | ⟨frame, rest⟩
      · exact absurd hq (h.busy hreported hone)
      rw [hq] at hpushed hhanded
      have hsplit : pushed = popped ++ [frame] ++ rest := by
        rw [hpushed, List.append_assoc]
        rfl
      dsimp only
      split
      · rename_i hrest
        subst hrest
        refine ⟨by show s.writing - 1 ≤ 1; omega, h.nonempty, fun hr => ?_, fun _ h1 => ?_,
          fun _ _ => rfl, popped ++ [frame], pushed, fun _ => hsplit, hframes.handed,
          fun _ h1 => ?_, fun _ _ => hhanded, hframes.ran, hframes.all⟩
        · rw [show s.closeReported = true from hr] at hreported
          cases hreported
        · rw [show s.writing - 1 = 1 from h1] at hzero
          cases hzero
        · rw [show s.writing - 1 = 1 from h1] at hzero
          cases hzero
      · rename_i hrest
        obtain ⟨next, more, rfl⟩ := List.exists_cons_of_ne_nil hrest
        exact inv_doWrite rfl hzero hreported h.nonempty hsplit hhanded hframes.ran hframes.all

theorem inv_onSend {s : RawWebsocket} (h : Inv s) (message : Frame) : Inv (s.onSend message) := by
  obtain ⟨popped, pushed, hframes⟩ := h.frames
  unfold onSend
  dsimp only
  split
  · rename_i hopen
    have hreported : s.closeReported = false := by
      cases hr : s.closeReported with
      | false => rfl
      | true => rw [(h.dropped hr).2] at hopen; cases hopen
    have hall := hframes.all hopen
    have hpushed : pushed ++ [message] = popped ++ (s.writeQueue ++ [message]) := by
      rw [hframes.queue hreported, List.append_assoc]
    by_cases hempty : s.writeQueue = []
    · -- the queue was empty, so no write is outstanding
      have hzero : s.writing = 0 := by
        by_contra hne
        have hone := h.one
        exact h.busy hreported (by omega) hempty
      rw [if_pos (by rw [hempty]; rfl)]
      have hqueue : s.writeQueue ++ [message] = message :: [] := by
        rw [hempty]
        rfl
      refine inv_doWrite hqueue hzero hreported h.nonempty hpushed (hframes.free hopen hzero) ?_
        (fun _ => ?_)
      · rw [hall]
      · rw [hall]
    · have hone : s.writing = 1 := by
        have := h.one
        have hne : s.writing ≠ 0 := fun h0 => hempty (h.free hopen h0)
        omega
      obtain ⟨frame, rest, hq⟩ := List.exists_cons_of_ne_nil hempty
      have htake : (s.writeQueue ++ [message]).take 1 = s.writeQueue.take 1 := by
        rw [hq]
        rfl
      rw [if_neg (by rw [hq]; simp)]
      refine ⟨h.one, h.nonempty, fun hr => ?_, fun _ _ => ?_, fun _ h0 => ?_, popped,
        pushed ++ [message], fun _ => hpushed, ?_, fun _ _ => ?_, fun _ h0 => ?_, ?_, fun _ => ?_⟩
      · rw [show s.closeReported = true from hr] at hreported
        cases hreported
      · exact List.append_ne_nil_of_right_ne_nil _ (List.cons_ne_nil _ _)
      · rw [show s.writing = 0 from h0] at hone
        cases hone
      · exact hframes.handed.trans (List.prefix_append _ _)
      · show s.handed = popped ++ (s.writeQueue ++ [message]).take 1
        rw [htake]
        exact hframes.busy hreported hone
      · rw [show s.writing = 0 from h0] at hone
        cases hone
      · rw [hall]
      · rw [hall]
  · rename_i hopen
    refine ⟨h.one, h.nonempty, h.dropped, h.busy, h.free, popped, pushed, hframes.queue,
      hframes.handed, hframes.busy, hframes.free, ?_, fun ho => absurd ho hopen⟩
    exact hframes.ran.trans (List.prefix_append _ _)

/-- **One step**, unless it is a late success. -/
theorem inv_ioStep {s s' : RawWebsocket} {a : IoAct} (h : Inv s) (hs : ioStep s a = some s')
    (hlate : a = .writeDone true → s.closeReported = false) : Inv s' := by
  cases a with
  | sendText text =>
      obtain rfl := Option.some.inj hs
      split
      · exact h.of_eq id rfl rfl rfl rfl rfl rfl
      · exact h
  | post i =>
      obtain ⟨text, -, rfl⟩ := Option.map_eq_some_iff.mp hs
      exact h.of_eq id rfl rfl rfl rfl rfl rfl
  | runSend i =>
      simp only [ioStep] at hs
      split at hs
      · cases hs
      · obtain ⟨text, -, rfl⟩ := Option.map_eq_some_iff.mp hs
        apply inv_onSend
        exact h.of_eq id rfl rfl rfl rfl rfl rfl
  -- the completions of the I/O thread
  | readDone result =>
      simp only [ioStep] at hs
      split at hs
      · cases hs
      · obtain rfl := Option.some.inj hs
        exact inv_onRead h result
  | writeDone success =>
      simp only [ioStep] at hs
      split at hs
      · cases hs
      · rename_i hready
        obtain rfl := Option.some.inj hs
        apply inv_onWrite h
        · intro h0
          simp [h0] at hready
        · rintro rfl
          exact hlate rfl
  -- `close()` and its lambda touch the flags and the socket only
  | close =>
      obtain rfl := Option.some.inj hs
      split
      · exact h
      · exact h.of_eq id rfl rfl rfl rfl rfl rfl
  | closeStore =>
      simp only [ioStep] at hs
      split at hs
      · obtain rfl := Option.some.inj hs
        exact h.of_eq (fun ho => by cases ho) rfl rfl rfl rfl rfl rfl
      · cases hs
  | closePost =>
      simp only [ioStep] at hs
      split at hs
      · obtain rfl := Option.some.inj hs
        exact h.of_eq id rfl rfl rfl rfl rfl rfl
      · cases hs
  | beginClose =>
      simp only [ioStep] at hs
      split at hs
      · cases hs
      · obtain rfl := Option.some.inj hs
        unfold RawWebsocket.beginClose
        split
        · exact h.of_eq id rfl rfl rfl rfl rfl rfl
        · exact h.of_eq id rfl rfl rfl rfl rfl rfl
  | closeDone =>
      simp only [ioStep] at hs
      split at hs
      · cases hs
      · obtain rfl := Option.some.inj hs
        exact h.of_eq id rfl rfl rfl rfl rfl rfl

/-- A late success pops the empty queue. -/
theorem underflow_of_late {s s' : RawWebsocket} (h : Inv s) (hr : s.closeReported = true)
    (hs : ioStep s (.writeDone true) = some s') : s'.underflow = true := by
  simp only [ioStep] at hs
  split at hs
  · cases hs
  · obtain rfl := Option.some.inj hs
    simp only [onWrite, (h.dropped hr).1, if_true]

theorem disciplinedFrom_iff {s s' : RawWebsocket} {acts : List IoAct} (h : Inv s)
    (hrun : runFrom ioStep s acts = some s') :
    (∀ t ∈ statesFrom ioStep s acts, Disciplined t) ↔ NoLateSuccess s acts := by
  induction acts generalizing s with
  | nil =>
      refine iff_of_true (fun t ht => ?_) trivial
      rw [List.mem_singleton.mp ht]
      exact h.disciplined
  | cons a as ih =>
      rw [runFrom, Option.bind_eq_some_iff] at hrun
      obtain ⟨t, ht, hrest⟩ := hrun
      rw [statesFrom, NoLateSuccess, ht, List.forall_mem_cons]
      by_cases hlate : a = .writeDone true → s.closeReported = false
      · have hrec := ih (inv_ioStep h ht hlate) hrest
        constructor
        · rintro ⟨-, hall⟩
          refine ⟨hlate, fun t' ht' => ?_⟩
          obtain rfl := Option.some.inj ht'
          exact hrec.mp hall
        · rintro ⟨-, hnext⟩
          exact ⟨h.disciplined, hrec.mpr (hnext t rfl)⟩
      · refine iff_of_false (fun hall => ?_) (fun hno => hlate hno.1)
        rw [Classical.not_imp, Bool.not_eq_false] at hlate
        obtain ⟨rfl, hr⟩ := hlate
        have hdis := hall.2 t (mem_statesFrom_self as)
        have hunder := underflow_of_late h hr ht
        rw [hdis.nonempty] at hunder
        cases hunder

/-- **The write queue.** In every run of a connection, whatever the I/O thread finds to run and
whoever calls `sendText` and `close`, every state is disciplined exactly when no write completes
with success after `onIoError` has dropped the connection. -/
theorem discipline_iff (acts : List IoAct) {s : RawWebsocket}
    (hrun : runFrom ioStep connected acts = some s) :
    (∀ t ∈ statesFrom ioStep connected acts, Disciplined t) ↔ NoLateSuccess connected acts :=
  disciplinedFrom_iff inv_connected hrun

/-- A message that is written before the read fails. -/
theorem discipline_iff_oneMessage :
    ∃ s, runFrom ioStep connected
        [.sendText ['a'], .post 0, .runSend 0, .writeDone true, .readDone .error] = some s ∧
      s.handed = [['a']] ∧ Disciplined s := by
  obtain ⟨s, hrun, hmem, hhanded⟩ : ∃ s, runFrom ioStep connected
      [.sendText ['a'], .post 0, .runSend 0, .writeDone true, .readDone .error] = some s ∧
      s ∈ statesFrom ioStep connected
        [.sendText ['a'], .post 0, .runSend 0, .writeDone true, .readDone .error] ∧
      s.handed = [['a']] := ⟨_, rfl, List.mem_of_getLast? rfl, rfl⟩
  refine ⟨s, hrun, hhanded, (discipline_iff _ hrun).mpr ?_ s hmem⟩
  refine ⟨fun h => (by cases h), fun _ h1 => ?_⟩
  obtain rfl := Option.some.inj h1
  refine ⟨fun h => (by cases h), fun _ h2 => ?_⟩
  obtain rfl := Option.some.inj h2
  refine ⟨fun h => (by cases h), fun _ h3 => ?_⟩
  obtain rfl := Option.some.inj h3
  exact ⟨fun _ => rfl, fun _ _ => ⟨fun h => (by cases h), fun _ _ => trivial⟩⟩

/-- A message is being written when a read fails; the write has succeeded and its completion
runs next. -/
theorem readError_underflow :
    ∃ s, runFrom ioStep connected
        [.sendText ['a'], .post 0, .runSend 0, .readDone .error, .writeDone true] = some s ∧
      s.underflow = true ∧ ¬ Disciplined s :=
  ⟨_, rfl, rfl, fun h => absurd h.nonempty (by decide)⟩

end AstraConnect.Raw
