import AstraConnect.Raw.RawWebsocket

set_option autoImplicit false

/-! # The callbacks of a raw connection (`api/raw/rawWebsocket.hpp`)

In this model a handler of the I/O thread is cut wherever another thread can come between: at
every access to `open`, `closeCalled` and `closeReported`, and while a callback runs. A callback
may throw, and may call `close` and `sendText`; any number of other threads call them too. The
completions and the posted lambdas run in any order.
-/

namespace AstraConnect.Raw.Callbacks

open Transition

/-- Which handlers are set. -/
structure RawStreamHandlers where
  onMessage : Bool
  onClose : Bool
  deriving DecidableEq, Repr

inductive Caller (T : Type) where
  /-- from inside a callback -/
  | ioThread
  | thread (t : T)
  deriving DecidableEq, Repr

/-- Where a caller of `close` or `sendText` is. -/
inductive CallPc where
  | idle
  /-- `close` has won the exchange of `closeCalled`, before its store to `open` -/
  | closeStore
  | closePost
  /-- before it has `joinLock` -/
  | closeLock
  | closeJoin
  | closeUnlock
  /-- `sendText` has read `open`; `late` says that the connection was closed at its call -/
  | sendTest (late : Bool) (text : Frame)
  | sendPost (late : Bool) (text : Frame)
  deriving DecidableEq, Repr

/-- Where the I/O thread is. -/
inductive IoPc where
  /-- in `ioc.run()`, between two handlers -/
  | running
  | onMessage
  /-- the read has been handled, before `if(closeCalled) return; startRead();` -/
  | afterRead
  /-- in `onIoError`, before its store to `open` -/
  | errorStore
  | errorTest
  | errorDrop
  /-- in `reportClose`, before its exchange -/
  | errorReport
  | onClose
  /-- `ioc.run()` has returned -/
  | ended
  deriving DecidableEq, Repr

def IoPc.InCallback (pc : IoPc) : Prop := pc = .onMessage ∨ pc = .onClose

instance (pc : IoPc) : Decidable pc.InCallback := inferInstanceAs (Decidable (_ ∨ _))

/-- The lambdas that are posted. -/
inductive Lambda where
  | send (message : Frame)
  | beginClose
  deriving DecidableEq, Repr

/-- A run of `onIoError`: what its test of `closeCalled` has read, and whether it has called
`onClose`. -/
structure ErrorRun where
  sawClose : Bool
  calledOnClose : Bool
  deriving DecidableEq, Repr

/-- A call of `sendText` that has returned. -/
structure SendRun where
  late : Bool
  accepted : Bool
  deriving DecidableEq, Repr

structure Connection (T : Type) where
  isOpen : Bool
  closeCalled : Bool
  closeReported : Bool
  socketOpen : Bool
  /-- `ioc.stop()` has been called -/
  stopped : Bool
  /-- an `async_read` is outstanding -/
  reading : Bool
  writeQueue : List Frame
  /-- the number of outstanding `async_write`s -/
  writing : Nat
  posted : List Lambda
  /-- `async_close` and its timer are outstanding -/
  closing : Bool
  /-- the handler of `setupTimer` has not run -/
  setupWaiting : Bool
  io : IoPc
  call : Caller T → CallPc
  joinLock : Option T
  /-- `ioThread` has been joined -/
  joined : Bool
  /-- history variables: the runs of `onIoError`, the latest first; the calls of `sendText`; a
  `close()` of another thread has returned -/
  errors : List ErrorRun
  sends : List SendRun
  closeReturned : Bool

namespace Connection

variable {T : Type} [DecidableEq T]

/-- The connection when `connect` has returned it. -/
def connected : Connection T where
  isOpen := true
  closeCalled := false
  closeReported := false
  socketOpen := true
  stopped := false
  reading := true
  writeQueue := []
  writing := 0
  posted := []
  closing := false
  setupWaiting := true
  io := .running
  call := fun _ => .idle
  joinLock := none
  joined := false
  errors := []
  sends := []
  closeReturned := false

/-- The calls of `onClose`. -/
def onCloseCalls (s : Connection T) : Nat := s.errors.countP (·.calledOnClose)

/-- `ioc.run()` has nothing to wait for. -/
def NoWork (s : Connection T) : Prop :=
  s.reading = false ∧ s.writing = 0 ∧ s.posted = [] ∧ s.closing = false ∧ s.setupWaiting = false

instance (s : Connection T) : Decidable s.NoWork := inferInstanceAs (Decidable (_ ∧ _))

def setCall (s : Connection T) (c : Caller T) (pc : CallPc) : Connection T :=
  { s with call := Function.update s.call c pc }

/-- A thread can call when it is in no call; the I/O thread calls from its callbacks. -/
def CanCall (s : Connection T) (c : Caller T) : Prop :=
  s.call c = .idle ∧ (c = .ioThread → s.io.InCallback)

instance (s : Connection T) (c : Caller T) : Decidable (s.CanCall c) :=
  inferInstanceAs (Decidable (_ ∧ _))

/-- `if(onIoThread()) return;` and what follows. -/
def afterPost : Caller T → CallPc
  | .ioThread => .idle
  | .thread _ => .closeLock

def doWrite (s : Connection T) : Connection T := { s with writing := s.writing + 1 }

/-- The lambda of `sendText`. -/
def onSend (s : Connection T) (message : Frame) : Connection T :=
  if s.isOpen then
    let pushed := { s with writeQueue := s.writeQueue ++ [message] }
    if pushed.writeQueue.length = 1 then pushed.doWrite else pushed
  else s

def beginClose (s : Connection T) : Connection T :=
  if s.socketOpen then { s with closing := true } else { s with stopped := true }

def runLambda (s : Connection T) : Lambda → Connection T
  | .send message => s.onSend message
  | .beginClose => s.beginClose

/-- The completion of a write; here `pop_front` on an empty queue leaves it empty. -/
def onWrite (s : Connection T) (success : Bool) : Connection T :=
  let done := { s with writing := s.writing - 1 }
  if success then
    let popped := { done with writeQueue := s.writeQueue.tail }
    if popped.writeQueue = [] then popped else popped.doWrite
  else { done with io := .errorStore }

end Connection

inductive Act (T : Type) where
  /-- the call and its exchange of `closeCalled` -/
  | close (c : Caller T)
  | closeStore (c : Caller T)
  | closePost (c : Caller T)
  | closeLock (t : T)
  | closeJoin (t : T)
  | closeReturn (t : T)
  /-- the call and its read of `open` -/
  | sendText (c : Caller T) (text : Frame)
  | sendTest (c : Caller T)
  | sendPost (c : Caller T)
  | readError
  | readMessage (isText : Bool)
  /-- a callback ends, with an exception or not -/
  | callbackDone (throws : Bool)
  | afterRead
  | writeDone (success : Bool)
  | errorStore
  | errorTest
  | errorDrop
  | errorReport
  | runLambda (i : Nat)
  /-- the completion of `async_close`, or its timer -/
  | closeDone
  /-- the handler of `setupTimer`, which `finishSetup` has cancelled unless it had expired -/
  | setupTimer (expired : Bool)
  /-- `ioc.run()` returns: it has been stopped, or is out of work -/
  | runReturn

section Step

variable {T : Type} [DecidableEq T]

open Connection

/-- The steps of the callers. -/
def callStep (s : Connection T) : Act T → Option (Connection T)
  | .close c =>
      if s.CanCall c then
        some (if s.closeCalled then s.setCall c (afterPost c)
          else { s with closeCalled := true }.setCall c .closeStore)
      else none
  | .closeStore c =>
      if s.call c = .closeStore then
        some ({ s with isOpen := false }.setCall c .closePost)
      else none
  | .closePost c =>
      if s.call c = .closePost then
        some ({ s with posted := s.posted ++ [Lambda.beginClose] }.setCall c (afterPost c))
      else none
  | .closeLock t =>
      if s.call (.thread t) = .closeLock ∧ s.joinLock = none then
        some ({ s with joinLock := some t }.setCall (.thread t) .closeJoin)
      else none
  | .closeJoin t =>
      if s.call (.thread t) = .closeJoin ∧ (s.joined = true ∨ s.io = .ended) then
        some ({ s with joined := true }.setCall (.thread t) .closeUnlock)
      else none
  | .closeReturn t =>
      if s.call (.thread t) = .closeUnlock then
        some ({ s with joinLock := none, closeReturned := true }.setCall (.thread t) .idle)
      else none
  | .sendText c text =>
      if s.CanCall c then
        let late := s.closeCalled || !s.isOpen
        some (if s.isOpen then s.setCall c (.sendTest late text)
          else { s with sends := ⟨late, false⟩ :: s.sends })
      else none
  | .sendTest c =>
      match s.call c with
      | .sendTest late text =>
          some (if s.closeCalled then { s with sends := ⟨late, false⟩ :: s.sends }.setCall c .idle
            else s.setCall c (.sendPost late text))
      | _ => none
  | .sendPost c =>
      match s.call c with
      | .sendPost late text =>
          some ({ s with posted := s.posted ++ [Lambda.send text],
                         sends := ⟨late, true⟩ :: s.sends }.setCall c .idle)
      | _ => none
  | _ => none

/-- The steps of the I/O thread. A handler starts when no other is running. -/
def ioThreadStep (handlers : RawStreamHandlers) (s : Connection T) : Act T → Option (Connection T)
  | .readError =>
      if s.io = .running ∧ s.stopped = false ∧ s.reading = true then
        some { s with reading := false, io := .errorStore }
      else none
  | .readMessage isText =>
      if s.io = .running ∧ s.stopped = false ∧ s.reading = true then
        some { s with reading := false,
                      io := if isText && handlers.onMessage then .onMessage else .afterRead }
      else none
  | .callbackDone throws =>
      if s.call .ioThread = .idle then
        match s.io with
        | .onMessage => some { s with io := if throws then .errorStore else .afterRead }
        | .onClose => some { s with io := .running }
        | _ => none
      else none
  | .afterRead =>
      if s.io = .afterRead then
        some (if s.closeCalled then { s with io := .running }
          else { s with reading := true, io := .running })
      else none
  | .writeDone success =>
      if s.io = .running ∧ s.stopped = false ∧ s.writing ≠ 0 then some (s.onWrite success) else none
  | .errorStore =>
      if s.io = .errorStore then some { s with isOpen := false, io := .errorTest } else none
  | .errorTest =>
      if s.io = .errorTest then
        some { s with errors := ⟨s.closeCalled, false⟩ :: s.errors,
                      io := if s.closeCalled then .running else .errorDrop }
      else none
  | .errorDrop =>
      if s.io = .errorDrop then
        some { s with socketOpen := false, writeQueue := [], io := .errorReport }
      else none
  | .errorReport =>
      if s.io = .errorReport then
        some (if s.closeReported then { s with io := .running }
          else if handlers.onClose then
            { s with closeReported := true, io := .onClose,
                     errors := s.errors.modifyHead (fun e => { e with calledOnClose := true }) }
          else { s with closeReported := true, io := .running })
      else none
  | .runLambda i =>
      if s.io = .running ∧ s.stopped = false then
        s.posted[i]?.map (fun f => { s with posted := s.posted.eraseIdx i }.runLambda f)
      else none
  | .closeDone =>
      if s.io = .running ∧ s.stopped = false ∧ s.closing = true then
        some { s with socketOpen := false, closing := false, stopped := true }
      else none
  | .setupTimer expired =>
      if s.io = .running ∧ s.stopped = false ∧ s.setupWaiting = true then
        some { s with setupWaiting := false, socketOpen := s.socketOpen && !expired }
      else none
  | .runReturn =>
      if s.io = .running ∧ (s.stopped = true ∨ s.NoWork) then some { s with io := .ended } else none
  | _ => none

def step (handlers : RawStreamHandlers) (s : Connection T) (a : Act T) : Option (Connection T) :=
  (callStep s a).or (ioThreadStep handlers s a)

/-- The state without threads that has the same flags, socket, reads and writes. -/
structure Agrees (raw : RawWebsocket) (s : Connection T) : Prop where
  isOpen : raw.isOpen = s.isOpen
  closeCalled : raw.closeCalled = s.closeCalled
  closeReported : raw.closeReported = s.closeReported
  socketOpen : raw.socketOpen = s.socketOpen
  reading : raw.reading = s.reading
  writeQueue : raw.writeQueue = s.writeQueue
  writing : raw.writing = s.writing

/-- **When no other thread comes between, `onIoError` is one step.** -/
theorem onIoError_uninterrupted (handlers : RawStreamHandlers) {raw : RawWebsocket}
    {s : Connection T} (h : Agrees raw s) (hio : s.io = .errorStore) :
    ∃ acts s', runFrom (step handlers) s acts = some s' ∧ Agrees raw.onIoError s' ∧
      (s'.io = .running ∨ s'.io = .onClose) := by
  have hraw := h.closeCalled
  -- `close()` has been called before: the handler returns after its test
  by_cases hclose : s.closeCalled = true
  · refine ⟨[.errorStore, .errorTest],
      { s with isOpen := false, errors := ⟨true, false⟩ :: s.errors, io := .running }, ?_, ?_,
      Or.inl rfl⟩
    · simp [runFrom, step, callStep, ioThreadStep, hio, hclose]
    · rw [hclose] at hraw
      rw [RawWebsocket.onIoError, if_pos hraw]
      exact { h with isOpen := rfl }
  · rw [Bool.not_eq_true] at hclose
    rw [hclose] at hraw
    let dropped : Connection T :=
      { s with isOpen := false, errors := ⟨false, false⟩ :: s.errors, socketOpen := false,
               writeQueue := [], io := .errorReport }
    have hdrop : runFrom (step handlers) s [.errorStore, .errorTest, .errorDrop]
        = some dropped := by
      simp [runFrom, step, callStep, ioThreadStep, hio, hclose, dropped]
    have hreport : ∃ s', step handlers dropped .errorReport = some s' ∧
        Agrees raw.onIoError s' ∧ (s'.io = .running ∨ s'.io = .onClose) := by
      have hdropped : raw.onIoError = { raw with
          isOpen := false, socketOpen := false, writeQueue := [], closeReported := true } := by
        rw [RawWebsocket.onIoError, if_neg (by simp [hraw])]
      have hstep : step handlers dropped .errorReport =
          ioThreadStep handlers dropped .errorReport := rfl
      rw [hdropped, hstep]
      simp only [ioThreadStep, dropped, if_true]
      -- `reportClose`: the exchange is lost, or won with or without a handler
      by_cases hreported : s.closeReported = true
      · refine ⟨_, rfl, ?_, ?_⟩
        · rw [if_pos hreported]
          exact { h with isOpen := rfl, socketOpen := rfl, writeQueue := rfl,
                         closeReported := hreported.symm }
        · rw [if_pos hreported]
          exact Or.inl rfl
      · by_cases hset : handlers.onClose = true
        · refine ⟨_, rfl, ?_, ?_⟩
          · rw [if_neg hreported, if_pos hset]
            exact { h with isOpen := rfl, socketOpen := rfl, writeQueue := rfl,
                           closeReported := rfl }
          · rw [if_neg hreported, if_pos hset]
            exact Or.inr rfl
        · refine ⟨_, rfl, ?_, ?_⟩
          · rw [if_neg hreported, if_neg hset]
            exact { h with isOpen := rfl, socketOpen := rfl, writeQueue := rfl,
                           closeReported := rfl }
          · rw [if_neg hreported, if_neg hset]
            exact Or.inl rfl
    obtain ⟨s', hs', hagrees, hend⟩ := hreport
    refine ⟨[.errorStore, .errorTest, .errorDrop] ++ [.errorReport], s', ?_, hagrees, hend⟩
    rw [runFrom_append, hdrop]
    simp [runFrom, hs']

end Step

/-! ## The protocol

The invariant says of the callers what they know, of the I/O thread what it still has to do, and of
the history what the protocol asks for. -/

section Protocol

variable {T : Type} {handlers : RawStreamHandlers} {s s' : Connection T}

/-- **The callback protocol**, in a state that a run reaches. -/
structure Protocol (handlers : RawStreamHandlers) (s : Connection T) : Prop where
  /-- `onClose` is invoked at most once -/
  once : s.onCloseCalls ≤ 1
  /-- an error that finds `closeCalled` set does not invoke it -/
  expected : ∀ e ∈ s.errors, e.sawClose = true → e.calledOnClose = false
  /-- no callback runs once a `close()` of another thread has returned -/
  quiet : s.closeReturned = true → ¬ s.io.InCallback
  /-- a late `sendText` is refused -/
  refused : ∀ r ∈ s.sends, r.late = true → r.accepted = false
  /-- without `close()`, the end of the work has been reported -/
  reported : s.closeCalled = false → s.io = .ended ∨ s.io = .running ∧ s.NoWork →
    s.onCloseCalls = if handlers.onClose then 1 else 0

/-- What a caller can rely on where it is. -/
def CallOk (closeCalled joined : Bool) : CallPc → Prop
  | .idle => True
  | .closeUnlock => closeCalled = true ∧ joined = true
  | .sendTest late _ => late = true → closeCalled = true
  | .sendPost late _ => late = false
  | _ => closeCalled = true

/-- The I/O thread is in a handler after which it reads again or reports the end. -/
def IoPc.Pending (pc : IoPc) : Prop :=
  pc ∈ [IoPc.onMessage, .afterRead, .errorStore, .errorTest, .errorDrop, .errorReport]

/-- **The invariant.** -/
structure Inv (handlers : RawStreamHandlers) (s : Connection T) : Prop where
  calls : ∀ c, CallOk s.closeCalled s.joined (s.call c)
  /-- only `close()` stops the I/O thread early -/
  stopping : s.stopped = true ∨ s.closing = true ∨ .beginClose ∈ s.posted → s.closeCalled = true
  ended : s.joined = true → s.io = .ended
  returned : s.closeReturned = true → s.joined = true
  expected : ∀ e ∈ s.errors, e.sawClose = true → e.calledOnClose = false
  current : s.io = .errorDrop ∨ s.io = .errorReport → ∃ rest, s.errors = ⟨false, false⟩ :: rest
  reports : s.onCloseCalls = if s.closeReported && handlers.onClose then 1 else 0
  refused : ∀ r ∈ s.sends, r.late = true → r.accepted = false
  /-- until the end is reported, a read is outstanding or a handler is running -/
  pending : s.closeCalled = false → s.closeReported = false →
    s.reading = true ∧ s.io ≠ .ended ∨ s.io.Pending

/-! ## The handlers keep the invariant

One lemma for each handler of the I/O thread, on the state that it leaves. Most of them go on to a
handler that is still to test `closeCalled`, or return to `ioc.run()`. -/

theorem inv_connected : Inv handlers (Connection.connected : Connection T) where
  calls := fun _ => trivial
  stopping := by simp [Connection.connected]
  ended := fun h => by cases h
  returned := fun h => by cases h
  expected := fun e he => by cases he
  current := by simp [Connection.connected]
  reports := rfl
  refused := fun r hr => by cases hr
  pending := fun _ _ => Or.inl ⟨rfl, by simp [Connection.connected]⟩

/-- No handler runs after the join. -/
theorem Inv.ended_of_ne (h : Inv handlers s) (hio : s.io ≠ .ended) {p : Prop}
    (hj : s.joined = true) : p := absurd (h.ended hj) hio

/-- The I/O thread enters a handler, or goes on to one that is still to test `closeCalled`. -/
theorem inv_enter (h : Inv handlers s) (hio : s.io ≠ .ended) (reading : Bool) {pc : IoPc}
    (hpc : pc ∈ [IoPc.onMessage, .afterRead, .errorStore, .errorTest]) :
    Inv handlers { s with reading := reading, io := pc } := by
  have hcurrent : ¬ (pc = .errorDrop ∨ pc = .errorReport) := by
    rintro (rfl | rfl) <;> simp at hpc
  have hpending : pc.Pending := by
    simp only [List.mem_cons, List.not_mem_nil, or_false] at hpc
    rcases hpc with rfl | rfl | rfl | rfl <;> simp [IoPc.Pending]
  exact { h with
    ended := h.ended_of_ne hio
    current := fun hc => absurd hc hcurrent
    pending := fun _ _ => Or.inr hpending }

/-- A handler returns to `ioc.run()`. -/
theorem inv_return (h : Inv handlers s) (hio : s.io ≠ .ended)
    (hreading : s.closeCalled = false → s.closeReported = false → s.reading = true) :
    Inv handlers { s with io := .running } :=
  { h with
    ended := h.ended_of_ne hio
    current := by simp
    pending := fun hc hr => Or.inl ⟨hreading hc hr, by simp⟩ }

theorem inv_onCloseDone (h : Inv handlers s) (hio : s.io = .onClose) :
    Inv handlers { s with io := .running } := by
  apply inv_return h (by simp [hio])
  intro hc hr
  rcases h.pending hc hr with ⟨hreading, -⟩ | hp
  · exact hreading
  · simp [hio, IoPc.Pending] at hp

/-- `if(closeCalled) return; startRead();` -/
theorem inv_afterRead (h : Inv handlers s) (hio : s.io = .afterRead) :
    Inv handlers (if s.closeCalled then { s with io := .running }
      else { s with reading := true, io := .running }) := by
  by_cases hclose : s.closeCalled = true
  · rw [if_pos hclose]
    exact inv_return h (by simp [hio]) (fun hc => absurd (hclose.symm.trans hc) (by decide))
  · rw [if_neg hclose]
    have hread : Inv handlers { s with reading := true } :=
      { h with pending := fun _ _ => Or.inr (by simp [hio, IoPc.Pending]) }
    exact inv_return hread (by simp [hio]) (fun _ _ => rfl)

/-- What a lambda does is known from the invariant of what it was posted with. -/
theorem inv_runLambda (h : Inv handlers s) {i : Nat} {f : Lambda}
    (hf : s.posted[i]? = some f) :
    Inv handlers ({ s with posted := s.posted.eraseIdx i }.runLambda f) := by
  have herase : .beginClose ∈ s.posted.eraseIdx i → .beginClose ∈ s.posted :=
    fun hm => List.mem_of_mem_eraseIdx hm
  have hrest : Inv handlers { s with posted := s.posted.eraseIdx i } :=
    { h with stopping := fun hstop => h.stopping (hstop.imp_right (Or.imp_right herase)) }
  cases f with
  | send message =>
      simp only [Connection.runLambda, Connection.onSend]
      split
      · split
        · exact { hrest with }
        · exact { hrest with }
      · exact hrest
  | beginClose =>
      have hclose : s.closeCalled = true :=
        h.stopping (Or.inr (Or.inr (List.mem_of_getElem? hf)))
      simp only [Connection.runLambda, Connection.beginClose]
      split
      · exact { hrest with stopping := fun _ => hclose }
      · exact { hrest with stopping := fun _ => hclose }

theorem inv_onWrite (h : Inv handlers s) (hio : s.io = .running) (success : Bool) :
    Inv handlers (s.onWrite success) := by
  simp only [Connection.onWrite]
  split
  · split
    · exact { h with }
    · exact { h with }
  · have hdone : Inv handlers { s with writing := s.writing - 1 } := { h with }
    exact inv_enter hdone (by simp [hio]) s.reading (by simp)

/-- `onIoError` returns here when the close is expected. -/
theorem inv_errorTest (h : Inv handlers s) (hio : s.io = .errorTest) :
    Inv handlers { s with
      errors := ⟨s.closeCalled, false⟩ :: s.errors,
      io := if s.closeCalled then .running else .errorDrop } := by
  have hreports : (⟨s.closeCalled, false⟩ :: s.errors).countP (·.calledOnClose) =
      s.onCloseCalls := List.countP_cons_of_neg (by simp)
  have htested : Inv handlers { s with errors := ⟨s.closeCalled, false⟩ :: s.errors } :=
    { h with
      expected := List.forall_mem_cons.mpr ⟨fun _ => rfl, h.expected⟩
      current := by simp [hio]
      reports := hreports.trans h.reports }
  by_cases hclose : s.closeCalled = true
  · rw [if_pos hclose]
    exact inv_return htested (by simp [hio])
      (fun hc => absurd (hclose.symm.trans hc) (by decide))
  · rw [if_neg hclose]
    exact { htested with
      ended := h.ended_of_ne (by simp [hio])
      current := fun _ => ⟨s.errors, by rw [Bool.eq_false_iff.mpr hclose]⟩
      pending := fun _ _ => Or.inr (by simp [IoPc.Pending]) }

theorem inv_errorDrop (h : Inv handlers s) (hio : s.io = .errorDrop) :
    Inv handlers { s with socketOpen := false, writeQueue := [], io := .errorReport } :=
  { h with
    ended := h.ended_of_ne (by simp [hio])
    current := fun _ => h.current (Or.inl hio)
    pending := fun _ _ => Or.inr (by simp [IoPc.Pending]) }

/-- In `reportClose` the latest run of `onIoError` is the one that calls `onClose`. -/
theorem inv_errorReport (h : Inv handlers s) (hio : s.io = .errorReport) :
    Inv handlers (if s.closeReported then { s with io := .running }
      else if handlers.onClose then
        { s with closeReported := true, io := .onClose,
                 errors := s.errors.modifyHead (fun e => { e with calledOnClose := true }) }
      else { s with closeReported := true, io := .running }) := by
  have hrunning : s.io ≠ .ended := by simp [hio]
  by_cases hreported : s.closeReported = true
  · rw [if_pos hreported]
    exact inv_return h hrunning (fun _ hr => absurd (hreported.symm.trans hr) (by decide))
  · rw [if_neg hreported]
    -- the exchange has been won, so `onClose` has not been called before
    have hcount : s.onCloseCalls = 0 := by simpa [hreported] using h.reports
    by_cases hset : handlers.onClose = true
    · rw [if_pos hset]
      obtain ⟨rest, hrest⟩ := h.current (Or.inr hio)
      have hexpected := h.expected
      rw [Connection.onCloseCalls, hrest] at hcount
      rw [hrest] at hexpected
      exact { h with
        ended := h.ended_of_ne hrunning
        current := by simp
        expected := by
          rw [hrest, List.modifyHead_cons, List.forall_mem_cons]
          exact ⟨fun hfalse => absurd hfalse (by decide), (List.forall_mem_cons.mp hexpected).2⟩
        reports := by
          show (s.errors.modifyHead (fun e => { e with calledOnClose := true })).countP
            (·.calledOnClose) = _
          rw [hrest, List.modifyHead_cons, hset]
          rw [List.countP_cons_of_neg (by simp)] at hcount
          rw [List.countP_cons_of_pos (by simp), hcount]
          rfl
        pending := fun _ hr => by cases hr }
    · rw [if_neg hset]
      exact { h with
        ended := h.ended_of_ne hrunning
        current := by simp
        reports := by
          have hunset : (true && handlers.onClose) = false := by simpa using hset
          show s.onCloseCalls = if true && handlers.onClose then 1 else 0
          rw [hcount, hunset]
          rfl
        pending := fun _ hr => by cases hr }

theorem inv_closeDone (h : Inv handlers s) (hclosing : s.closing = true) :
    Inv handlers { s with socketOpen := false, closing := false, stopped := true } :=
  { h with stopping := fun _ => h.stopping (Or.inr (Or.inl hclosing)) }

/-- With a read outstanding only `close()` can have stopped the thread. -/
theorem inv_runReturn (h : Inv handlers s) (hio : s.io = .running)
    (hend : s.stopped = true ∨ s.NoWork) : Inv handlers { s with io := .ended } :=
  { h with
    ended := fun _ => rfl
    current := by simp
    pending := fun hc hr => by
      rcases h.pending hc hr with ⟨hreading, -⟩ | hp
      · rcases hend with hstop | hwork
        · exact absurd ((h.stopping (Or.inl hstop)).symm.trans hc) (by decide)
        · exact absurd (hreading.symm.trans hwork.1) (by decide)
      · simp [hio, IoPc.Pending] at hp }

theorem inv_callbackDone {throws : Bool} (h : Inv handlers s)
    (hs : ioThreadStep handlers s (.callbackDone throws : Act T) = some s') :
    Inv handlers s' := by
  simp only [ioThreadStep] at hs
  obtain ⟨-, hs⟩ := Option.ite_none_right_eq_some.mp hs
  split at hs
  · rename_i hio
    obtain rfl := Option.some.inj hs
    exact inv_enter h (by simp [hio]) s.reading (by split <;> simp)
  · rename_i hio
    obtain rfl := Option.some.inj hs
    exact inv_onCloseDone h hio
  · cases hs

/-- One case for each handler. -/
theorem inv_ioThreadStep {a : Act T} (h : Inv handlers s)
    (hs : ioThreadStep handlers s a = some s') : Inv handlers s' := by
  cases a with
  | readError =>
      obtain ⟨hio, hs⟩ := Option.ite_none_right_eq_some.mp hs
      obtain rfl := Option.some.inj hs
      exact inv_enter h (by simp [hio.1]) false (by simp)
  | readMessage isText =>
      obtain ⟨hio, hs⟩ := Option.ite_none_right_eq_some.mp hs
      obtain rfl := Option.some.inj hs
      exact inv_enter h (by simp [hio.1]) false (by split <;> simp)
  | callbackDone throws => exact inv_callbackDone h hs
  | afterRead =>
      obtain ⟨hio, hs⟩ := Option.ite_none_right_eq_some.mp hs
      obtain rfl := Option.some.inj hs
      exact inv_afterRead h hio
  | writeDone success =>
      obtain ⟨hio, hs⟩ := Option.ite_none_right_eq_some.mp hs
      obtain rfl := Option.some.inj hs
      exact inv_onWrite h hio.1 success
  | errorStore =>
      obtain ⟨hio, hs⟩ := Option.ite_none_right_eq_some.mp hs
      obtain rfl := Option.some.inj hs
      have hclosed : Inv handlers { s with isOpen := false } := { h with }
      exact inv_enter hclosed (by simp [hio]) s.reading (by simp)
  | errorTest =>
      obtain ⟨hio, hs⟩ := Option.ite_none_right_eq_some.mp hs
      obtain rfl := Option.some.inj hs
      exact inv_errorTest h hio
  | errorDrop =>
      obtain ⟨hio, hs⟩ := Option.ite_none_right_eq_some.mp hs
      obtain rfl := Option.some.inj hs
      exact inv_errorDrop h hio
  | errorReport =>
      obtain ⟨hio, hs⟩ := Option.ite_none_right_eq_some.mp hs
      obtain rfl := Option.some.inj hs
      exact inv_errorReport h hio
  | runLambda i =>
      obtain ⟨-, hs⟩ := Option.ite_none_right_eq_some.mp hs
      obtain ⟨f, hf, rfl⟩ := Option.map_eq_some_iff.mp hs
      exact inv_runLambda h hf
  | closeDone =>
      obtain ⟨hio, hs⟩ := Option.ite_none_right_eq_some.mp hs
      obtain rfl := Option.some.inj hs
      exact inv_closeDone h hio.2.2
  | setupTimer expired =>
      obtain ⟨-, hs⟩ := Option.ite_none_right_eq_some.mp hs
      obtain rfl := Option.some.inj hs
      exact { h with }
  | runReturn =>
      obtain ⟨hio, hs⟩ := Option.ite_none_right_eq_some.mp hs
      obtain rfl := Option.some.inj hs
      exact inv_runReturn h hio.1 hio.2
  | _ => cases hs

theorem Inv.protocol (h : Inv handlers s) : Protocol handlers s where
  once := by
    rw [h.reports]
    split <;> omega
  expected := h.expected
  quiet := fun hr hcallback => by
    rw [h.ended (h.returned hr)] at hcallback
    simp [IoPc.InCallback] at hcallback
  refused := h.refused
  reported := fun hc hend => by
    have hreported : s.closeReported = true := by
      by_contra hr
      rw [Bool.not_eq_true] at hr
      rcases h.pending hc hr with ⟨hreading, hrun⟩ | hp
      · rcases hend with hio | ⟨-, hwork⟩
        · exact hrun hio
        · exact absurd (hreading.symm.trans hwork.1) (by decide)
      · rcases hend with hio | ⟨hio, -⟩
        · simp [hio, IoPc.Pending] at hp
        · simp [hio, IoPc.Pending] at hp
    rw [h.reports, hreported, Bool.true_and]

/-! ## The callers keep the invariant

A caller changes what is shared and goes on to its next place. The changes keep the invariant by
themselves, and what a caller relies on is kept as long as `closeCalled` and `joined` stay set. -/

theorem CallOk.mono {closeCalled joined closeCalled' joined' : Bool} {pc : CallPc}
    (h : CallOk closeCalled joined pc) (hclose : closeCalled = true → closeCalled' = true)
    (hjoin : joined = true → joined' = true) : CallOk closeCalled' joined' pc := by
  cases pc with
  | idle => trivial
  | closeUnlock => exact ⟨hclose h.1, hjoin h.2⟩
  | sendTest late text => exact fun hl => hclose (h hl)
  | sendPost late text => exact h
  | _ => exact hclose h

theorem callOk_afterPost {joined : Bool} (c : Caller T) :
    CallOk true joined (Connection.afterPost c) := by
  cases c with
  | ioThread => trivial
  | thread t => exact rfl

theorem Inv.callOk (h : Inv handlers s) {c : Caller T} {pc : CallPc} (hc : s.call c = pc) :
    CallOk s.closeCalled s.joined pc := hc ▸ h.calls c

/-- `close` wins the exchange of `closeCalled`. -/
theorem inv_closeCalled (h : Inv handlers s) : Inv handlers { s with closeCalled := true } :=
  { h with
    calls := fun c => (h.calls c).mono (fun _ => rfl) id
    stopping := fun _ => rfl
    pending := fun hfalse => by cases hfalse }

theorem inv_post (h : Inv handlers s) {f : Lambda} (hf : f = .beginClose → s.closeCalled = true) :
    Inv handlers { s with posted := s.posted ++ [f] } :=
  { h with
    stopping := fun hstop => by
      rcases hstop with hstopped | hclosing | hposted
      · exact h.stopping (Or.inl hstopped)
      · exact h.stopping (Or.inr (Or.inl hclosing))
      · rcases List.mem_append.mp hposted with hbefore | hlast
        · exact h.stopping (Or.inr (Or.inr hbefore))
        · exact hf (List.mem_singleton.mp hlast).symm }

/-- Whoever finds the thread joined knows that an earlier join has seen it end. -/
theorem inv_join (h : Inv handlers s) (hjoin : s.joined = true ∨ s.io = .ended) :
    Inv handlers { s with joined := true } :=
  { h with
    calls := fun c => (h.calls c).mono id (fun _ => rfl)
    ended := fun _ => hjoin.elim h.ended id
    returned := fun _ => rfl }

/-- A call of `sendText` returns. -/
theorem inv_answer (h : Inv handlers s) {r : SendRun} (hr : r.late = true → r.accepted = false) :
    Inv handlers { s with sends := r :: s.sends } :=
  { h with refused := List.forall_mem_cons.mpr ⟨hr, h.refused⟩ }

variable [DecidableEq T]

/-- One caller goes on. -/
theorem callOk_update {closeCalled joined : Bool} {call : Caller T → CallPc} {c : Caller T}
    {pc : CallPc} (h : ∀ c', CallOk closeCalled joined (call c'))
    (hpc : CallOk closeCalled joined pc) (c' : Caller T) :
    CallOk closeCalled joined (Function.update call c pc c') := by
  by_cases hc : c' = c
  · subst hc
    rwa [Function.update_self]
  · rw [Function.update_of_ne hc]
    exact h c'

theorem inv_setCall (h : Inv handlers s) {c : Caller T} {pc : CallPc}
    (hpc : CallOk s.closeCalled s.joined pc) : Inv handlers (s.setCall c pc) :=
  { h with calls := callOk_update h.calls hpc }

theorem inv_close {c : Caller T} (h : Inv handlers s) :
    Inv handlers (if s.closeCalled then s.setCall c (Connection.afterPost c)
      else { s with closeCalled := true }.setCall c .closeStore) := by
  by_cases hclose : s.closeCalled = true
  · rw [if_pos hclose]
    apply inv_setCall h
    rw [hclose]
    exact callOk_afterPost c
  · rw [if_neg hclose]
    exact inv_setCall (inv_closeCalled h) rfl

theorem inv_closePost {c : Caller T} (h : Inv handlers s) (hc : s.call c = .closePost) :
    Inv handlers ({ s with posted := s.posted ++ [Lambda.beginClose] }.setCall c
      (Connection.afterPost c)) := by
  have hclose : s.closeCalled = true := h.callOk hc
  apply inv_setCall (inv_post h (fun _ => hclose))
  show CallOk s.closeCalled s.joined _
  rw [hclose]
  exact callOk_afterPost c

/-- `open` was read as true, so the call is late only if `closeCalled` is set already. -/
theorem inv_sendText {c : Caller T} (text : Frame) (h : Inv handlers s) :
    Inv handlers (if s.isOpen then s.setCall c (.sendTest (s.closeCalled || !s.isOpen) text)
      else { s with sends := ⟨s.closeCalled || !s.isOpen, false⟩ :: s.sends }) := by
  by_cases hopen : s.isOpen = true
  · rw [if_pos hopen]
    apply inv_setCall h
    simp [CallOk, hopen]
  · rw [if_neg hopen]
    exact inv_answer h (fun _ => rfl)

/-- `closeCalled` is never reset: what finds it unset was called when it was not set either. -/
theorem inv_sendTest {c : Caller T} {late : Bool} {text : Frame} (h : Inv handlers s)
    (hc : s.call c = .sendTest late text) :
    Inv handlers (if s.closeCalled then { s with sends := ⟨late, false⟩ :: s.sends }.setCall c .idle
      else s.setCall c (.sendPost late text)) := by
  have hlate : late = true → s.closeCalled = true := h.callOk hc
  by_cases hclose : s.closeCalled = true
  · rw [if_pos hclose]
    exact inv_setCall (inv_answer h (fun _ => rfl)) trivial
  · rw [if_neg hclose]
    apply inv_setCall h
    exact Bool.eq_false_iff.mpr (fun hl => hclose (hlate hl))

theorem inv_sendPost {c : Caller T} {late : Bool} {text : Frame} (h : Inv handlers s)
    (hc : s.call c = .sendPost late text) :
    Inv handlers ({ s with posted := s.posted ++ [Lambda.send text],
                           sends := ⟨late, true⟩ :: s.sends }.setCall c .idle) := by
  have hlate : late = false := h.callOk hc
  have hposted := inv_post h (f := .send text) (fun hf => by cases hf)
  have hanswered := inv_answer hposted (r := ⟨late, true⟩)
    (fun hl => absurd (hlate.symm.trans hl) (by decide))
  exact inv_setCall hanswered trivial

/-- One case for each place of a caller. -/
theorem inv_callStep {a : Act T} (h : Inv handlers s) (hs : callStep s a = some s') :
    Inv handlers s' := by
  cases a with
  | close c =>
      obtain ⟨-, hs⟩ := Option.ite_none_right_eq_some.mp hs
      obtain rfl := Option.some.inj hs
      exact inv_close h
  | closeStore c =>
      obtain ⟨hc, hs⟩ := Option.ite_none_right_eq_some.mp hs
      obtain rfl := Option.some.inj hs
      have hclose : s.closeCalled = true := h.callOk hc
      have hclosed : Inv handlers { s with isOpen := false } := { h with }
      exact inv_setCall hclosed hclose
  | closePost c =>
      obtain ⟨hc, hs⟩ := Option.ite_none_right_eq_some.mp hs
      obtain rfl := Option.some.inj hs
      exact inv_closePost h hc
  | closeLock t =>
      obtain ⟨hc, hs⟩ := Option.ite_none_right_eq_some.mp hs
      obtain rfl := Option.some.inj hs
      have hclose : s.closeCalled = true := h.callOk hc.1
      have hlocked : Inv handlers { s with joinLock := some t } := { h with }
      exact inv_setCall hlocked hclose
  | closeJoin t =>
      obtain ⟨hc, hs⟩ := Option.ite_none_right_eq_some.mp hs
      obtain rfl := Option.some.inj hs
      exact inv_setCall (inv_join h hc.2) ⟨h.callOk hc.1, rfl⟩
  | closeReturn t =>
      obtain ⟨hc, hs⟩ := Option.ite_none_right_eq_some.mp hs
      obtain rfl := Option.some.inj hs
      have hreturned : Inv handlers { s with joinLock := none, closeReturned := true } :=
        { h with returned := fun _ => (h.callOk hc).2 }
      exact inv_setCall hreturned trivial
  | sendText c text =>
      obtain ⟨-, hs⟩ := Option.ite_none_right_eq_some.mp hs
      obtain rfl := Option.some.inj hs
      exact inv_sendText text h
  | sendTest c =>
      simp only [callStep] at hs
      split at hs
      · obtain rfl := Option.some.inj hs
        exact inv_sendTest h ‹_›
      · cases hs
  | sendPost c =>
      simp only [callStep] at hs
      split at hs
      · obtain rfl := Option.some.inj hs
        exact inv_sendPost h ‹_›
      · cases hs
  | _ => cases hs

theorem inv_step {a : Act T} (h : Inv handlers s) (hs : step handlers s a = some s') :
    Inv handlers s' := by
  rcases Option.or_eq_some_iff.mp hs with hs | ⟨-, hs⟩
  · exact inv_callStep h hs
  · exact inv_ioThreadStep h hs

/-- **The callback protocol holds in every state of every run**: any handlers, any threads, any
order of completions, lambdas, callbacks and calls of `close` and `sendText`. -/
theorem callback_protocol {T : Type} [DecidableEq T] (handlers : RawStreamHandlers)
    {s : Connection T}
    (h : Reach (step handlers) (fun _ _ => True) Connection.connected s) :
    Protocol handlers s :=
  (h.invariant inv_connected (fun _ _ _ hs _ => inv_step hs)).protocol

/-- A read fails, `onClose` calls `close()` and throws, and another thread closes. -/
theorem callback_protocol_error : ∃ s : Connection Unit, s.onCloseCalls = 1 ∧
    s.closeReturned = true ∧ Protocol ⟨true, true⟩ s := by
  have hrun : ∃ s, runFrom (step ⟨true, true⟩) (Connection.connected : Connection Unit)
      [.readError, .errorStore, .errorTest, .errorDrop, .errorReport, .close .ioThread,
        .closeStore .ioThread, .closePost .ioThread, .callbackDone true, .close (.thread ()),
        .closeLock (), .runLambda 0, .runReturn, .closeJoin (), .closeReturn ()] = some s ∧
      s.onCloseCalls = 1 ∧ s.closeReturned = true := ⟨_, rfl, rfl, rfl⟩
  obtain ⟨s, hs, hcalls, hreturned⟩ := hrun
  exact ⟨s, hcalls, hreturned, callback_protocol ⟨true, true⟩ (Reach.of_run .refl hs)⟩

end Protocol

end AstraConnect.Raw.Callbacks
