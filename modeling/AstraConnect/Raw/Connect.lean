import AstraConnect.Lib.Transition
import AstraConnect.Api.FetchError
import AstraConnect.Raw.CallbackProtocol

set_option autoImplicit false

/-! # Setting up a raw connection (`api/raw/rawWebsocket.hpp`)

`connect` starts a chain of four operations, each begun by the handler of the one before, with a
timer beside them, and waits until `finishSetup` clears `connecting`. The handlers run one at a time
on the I/O thread. The timer can expire at any point, and its handler can run at any point after
that: a handler that is queued already is not stopped by `setupTimer.cancel()`, nor does it stop an
operation whose own handler is queued already. What an operation completes with is any error code
at all, so an operation that the timer has cut off is among them.
-/

namespace AstraConnect.Raw.Connect

open Transition
open Callbacks (Act Connection RawStreamHandlers)
open AstraConnect.Api (FetchError)
open AstraConnect.Order (Str to_string)

/-- `beast::error_code`: an error when its value is not zero. -/
structure ErrorCode where
  value : Int
  message : Str
  deriving DecidableEq, Repr

def ErrorCode.failed (ec : ErrorCode) : Bool := decide (ec.value ≠ 0)

/-- The operations of the setup. -/
inductive Stage where
  | resolve
  | connect
  | tlsHandshake
  | websocketHandshake
  deriving DecidableEq, Repr

/-- What the operations of a run complete with, and what their handlers read. -/
structure Answers where
  resolve : ErrorCode
  connect : ErrorCode
  /-- the code of `ERR_get_error()`, when `SSL_set_tlsext_host_name` fails -/
  sni : Option ErrorCode
  tlsHandshake : ErrorCode
  websocketHandshake : ErrorCode
  /-- `handshakeResponse.result_int()` before the websocket handshake and after it -/
  noResponse : Nat
  response : Nat
  deriving DecidableEq, Repr

/-- The wait of `setupTimer`. -/
inductive Timer where
  | waiting
  /-- its handler is queued, without an error -/
  | expired
  /-- its handler is queued with an error -/
  | cancelled
  | done
  deriving DecidableEq, Repr

/-- `setupTimer.cancel()` -/
def Timer.cancel : Timer → Timer
  | .waiting => .cancelled
  | t => t

/-- Where the I/O thread is. -/
inductive IoPc where
  /-- in `ioc.run()`, between two handlers of the setup -/
  | running
  /-- in `finishSetup`, before its store to `connecting` -/
  | storeConnecting
  | startRead
  /-- `ioc.run()` has returned after a failed setup -/
  | ended
  deriving DecidableEq, Repr

/-- Where the caller of `connect` is. -/
inductive ConnectPc where
  | spinning
  | testError
  | storeClosed
  | join
  | returned (isNull : Bool) (error : FetchError)
  deriving DecidableEq, Repr

/-- A handler of the setup that has run; `expired` says that the timer's got no error. -/
inductive Ran where
  | stage (st : Stage)
  | timer (expired : Bool)
  deriving DecidableEq, Repr

def Ran.stage? : Ran → Option Stage
  | .stage st => some st
  | .timer _ => none

structure Setup (T : Type) where
  /-- the operation that is outstanding -/
  stage : Option Stage
  timer : Timer
  setupTimedOut : Bool
  setupError : Str
  connecting : Bool
  /-- `handshakeResponse.result_int()` -/
  status : Nat
  /-- the socket, the flag and the I/O thread of a connection that is open are in `connection` -/
  socketOpen : Bool
  closeCalled : Bool
  io : IoPc
  caller : ConnectPc
  /-- from the store to `open` on -/
  connection : Option (Connection T)
  /-- history variable -/
  ran : List Ran

/-- `handshakeTimeout`, in seconds -/
def handshakeTimeout : Int := 10

/-- The `reason` of a setup that has failed. -/
def reasonOf (setupTimedOut : Bool) (status : Nat) (ec : ErrorCode) (stage : Str) : Str :=
  if setupTimedOut then
    "handshake timeout (".toList ++ to_string handshakeTimeout ++ " s) during ".toList ++ stage
  else
    stage ++ " failed: ".toList ++ ec.message ++
      (if status ≠ 0 then " (HTTP ".toList ++ to_string status ++ ")".toList else [])

namespace Setup

variable {T : Type}

/-- After `startSetup`, when the I/O thread has been started. -/
def start (env : Answers) : Setup T where
  stage := some .resolve
  timer := .waiting
  setupTimedOut := false
  setupError := []
  connecting := true
  status := env.noResponse
  socketOpen := false
  closeCalled := false
  io := .running
  caller := .spinning
  connection := none
  ran := []

/-- `finishSetup` up to its store to `connecting`. -/
def finishSetup (s : Setup T) (ec : ErrorCode) (stage : Str) : Setup T :=
  let cancelled := { s with timer := s.timer.cancel, io := .storeConnecting }
  if ec.failed then
    { cancelled with
      socketOpen := false
      setupError := reasonOf s.setupTimedOut s.status ec stage }
  else
    { cancelled with
      connection := some { (Connection.connected : Connection T) with
        setupWaiting := decide (s.timer ≠ .done)
        socketOpen := s.socketOpen } }

/-- The handlers of the four operations; `async_connect` opens the socket. -/
def onStage (env : Answers) (s : Setup T) : Stage → Setup T
  | .resolve =>
      if env.resolve.failed then s.finishSetup env.resolve "resolve".toList
      else { s with stage := some .connect, socketOpen := true }
  | .connect =>
      if env.connect.failed then s.finishSetup env.connect "connect".toList
      else
        match env.sni with
        | some code => s.finishSetup code "SNI".toList
        | none => { s with stage := some .tlsHandshake }
  | .tlsHandshake =>
      if env.tlsHandshake.failed then s.finishSetup env.tlsHandshake "TLS handshake".toList
      else { s with stage := some .websocketHandshake }
  | .websocketHandshake =>
      let answered := { s with status := env.response }
      if env.websocketHandshake.failed then
        answered.finishSetup env.websocketHandshake "websocket handshake".toList
      else answered.finishSetup env.websocketHandshake []

variable [DecidableEq T]

/-- The handler of `setupTimer`. -/
def onTimer (handlers : RawStreamHandlers) (s : Setup T) (expired : Bool) : Option (Setup T) :=
  let ran := { s with
    timer := .done
    setupTimedOut := s.setupTimedOut || expired
    ran := s.ran ++ [Ran.timer expired] }
  match s.connection with
  | none => some { ran with socketOpen := s.socketOpen && !expired }
  | some c =>
      (Callbacks.step handlers c (.setupTimer expired)).map
        (fun c' => { ran with connection := some c' })

/-- Nobody has the connection before `connect` returns it, and the I/O thread runs none of its
handlers before `finishSetup` has returned. -/
def MayRun (s : Setup T) : Act T → Prop
  | .close _ | .closeStore _ | .closePost _ | .closeLock _ | .closeJoin _ | .closeReturn _
  | .sendText _ _ | .sendTest _ | .sendPost _ => s.caller = .returned false .success
  | .setupTimer _ => False
  | _ => s.io = .running

instance (s : Setup T) (a : Act T) : Decidable (s.MayRun a) := by
  cases a <;> unfold MayRun <;> infer_instance

end Setup

open Setup

inductive SetupAct (T : Type) where
  /-- the handler of the operation that is outstanding -/
  | stageDone
  | expire
  | timerHandler
  | storeConnecting
  | startRead
  | runReturn
  /-- a read of `connecting` that finds it set, and one that does not -/
  | spin
  | leaveLoop
  | testError
  | storeClosed
  | join
  | connection (a : Act T)

def setupStep {T : Type} [DecidableEq T] (env : Answers) (handlers : RawStreamHandlers)
    (s : Setup T) : SetupAct T → Option (Setup T)
  | .stageDone =>
      match s.stage with
      | some st =>
          if s.io = .running then
            some ({ s with stage := none, ran := s.ran ++ [Ran.stage st] }.onStage env st)
          else none
      | none => none
  | .expire => if s.timer = .waiting then some { s with timer := .expired } else none
  | .timerHandler =>
      if s.io = .running ∧ (s.timer = .expired ∨ s.timer = .cancelled) then
        s.onTimer handlers (decide (s.timer = .expired))
      else none
  | .storeConnecting =>
      if s.io = .storeConnecting then
        some { s with
          connecting := false
          io := if s.connection.isSome then .startRead else .running }
      else none
  | .startRead => if s.io = .startRead then some { s with io := .running } else none
  | .runReturn =>
      if s.io = .running ∧ s.stage = none ∧ s.timer = .done ∧ s.connection.isNone then
        some { s with io := .ended }
      else none
  | .spin => if s.caller = .spinning ∧ s.connecting = true then some s else none
  | .leaveLoop =>
      if s.caller = .spinning ∧ s.connecting = false then some { s with caller := .testError }
      else none
  | .testError =>
      if s.caller = .testError then
        some { s with
          caller := if s.setupError ≠ [] then .storeClosed else .returned false .success }
      else none
  | .storeClosed =>
      if s.caller = .storeClosed then some { s with closeCalled := true, caller := .join } else none
  | .join =>
      if s.caller = .join ∧ s.io = .ended then
        some { s with caller := .returned true ⟨.BOOST_ERROR, some s.setupError⟩ }
      else none
  | .connection a =>
      match s.connection with
      | some c =>
          if s.MayRun a then
            (Callbacks.step handlers c a).map (fun c' => { s with connection := some c' })
          else none
      | none => none

/-! ## The setup as one sequence

The four operations complete one after the other, so what they complete with decides at which of
them the setup ends, and with which error. Only the timer can come in between, and only the text
depends on it. -/

structure Verdict where
  before : List Stage
  /-- the operation whose handler calls `finishSetup`, with what -/
  last : Stage
  ec : ErrorCode
  name : Str

namespace Answers

def verdict (env : Answers) : Verdict :=
  if env.resolve.failed then ⟨[], .resolve, env.resolve, "resolve".toList⟩
  else if env.connect.failed then ⟨[.resolve], .connect, env.connect, "connect".toList⟩
  else
    match env.sni with
    | some code => ⟨[.resolve], .connect, code, "SNI".toList⟩
    | none =>
        if env.tlsHandshake.failed then
          ⟨[.resolve, .connect], .tlsHandshake, env.tlsHandshake, "TLS handshake".toList⟩
        else
          ⟨[.resolve, .connect, .tlsHandshake], .websocketHandshake, env.websocketHandshake,
            if env.websocketHandshake.failed then "websocket handshake".toList else []⟩

/-- `handshakeResponse.result_int()` when the handler of `st` calls `finishSetup`. -/
def statusAt (env : Answers) (st : Stage) : Nat :=
  if st = .websocketHandshake then env.response else env.noResponse

/-- The text of the failure, by whether the timer's handler has come before it. -/
def reason (env : Answers) (timedOut : Bool) : Str :=
  reasonOf timedOut (env.statusAt env.verdict.last) env.verdict.ec env.verdict.name

/-- The operations before `st` have succeeded. -/
def Passed (env : Answers) : Stage → Prop
  | .resolve => True
  | .connect => env.resolve.failed = false
  | .tlsHandshake => env.resolve.failed = false ∧ env.connect.failed = false ∧ env.sni = none
  | .websocketHandshake =>
      env.resolve.failed = false ∧ env.connect.failed = false ∧ env.sni = none ∧
        env.tlsHandshake.failed = false

end Answers

def stagesBefore : Stage → List Stage
  | .resolve => []
  | .connect => [.resolve]
  | .tlsHandshake => [.resolve, .connect]
  | .websocketHandshake => [.resolve, .connect, .tlsHandshake]

def stagesOf (ran : List Ran) : List Stage := ran.filterMap Ran.stage?

section Handlers

variable {T : Type} {env : Answers} {s : Setup T}

theorem reasonOf_ne_nil (setupTimedOut : Bool) (status : Nat) (ec : ErrorCode) (stage : Str) :
    reasonOf setupTimedOut status ec stage ≠ [] := by
  have htimeout : "handshake timeout (".toList ≠ [] := by decide
  have hfailed : " failed: ".toList ≠ [] := by decide
  intro h
  unfold reasonOf at h
  split at h
  · simp only [List.append_eq_nil_iff] at h
    exact htimeout h.1.1.1
  · rw [List.append_eq_nil_iff, List.append_eq_nil_iff, List.append_eq_nil_iff] at h
    exact hfailed h.1.1.2

/-- A handler starts the next operation, or calls `finishSetup` with what the verdict says. -/
theorem onStage_cases {st : Stage} (hpassed : env.Passed st) (hstatus : s.status = env.noResponse) :
    (∃ next, env.Passed next ∧ stagesBefore next = stagesBefore st ++ [st] ∧ next ≠ .resolve ∧
      s.onStage env st =
        { s with stage := some next, socketOpen := s.socketOpen || decide (st = .resolve) }) ∨
    (∃ ec name, env.verdict = ⟨stagesBefore st, st, ec, name⟩ ∧
      (st = .resolve → ec.failed = true) ∧
      s.onStage env st = { s with status := env.statusAt st }.finishSetup ec name) := by
  have hsame : { s with status := env.noResponse } = s := by rw [← hstatus]
  cases st with
  | resolve =>
      cases hfailed : env.resolve.failed with
      | true =>
          refine Or.inr ⟨env.resolve, "resolve".toList, ?_, fun _ => hfailed, ?_⟩
          · rw [Answers.verdict, if_pos hfailed]
            rfl
          · rw [onStage, if_pos hfailed, Answers.statusAt, if_neg (by decide), hsame]
      | false =>
          refine Or.inl ⟨.connect, hfailed, rfl, by decide, ?_⟩
          rw [onStage, if_neg (by simp [hfailed])]
          simp
  | connect =>
      have hresolve : ¬ env.resolve.failed = true := ne_true_of_eq_false hpassed
      cases hfailed : env.connect.failed with
      | true =>
          refine Or.inr ⟨env.connect, "connect".toList, ?_, fun _ => hfailed, ?_⟩
          · rw [Answers.verdict, if_neg hresolve, if_pos hfailed]
            rfl
          · rw [onStage, if_pos hfailed, Answers.statusAt, if_neg (by decide), hsame]
      | false =>
          have hconnect : ¬ env.connect.failed = true := ne_true_of_eq_false hfailed
          cases hsni : env.sni with
          | some code =>
              refine Or.inr ⟨code, "SNI".toList, ?_, fun h => (by cases h), ?_⟩
              · rw [Answers.verdict, if_neg hresolve, if_neg hconnect, hsni]
                rfl
              · rw [onStage, if_neg hconnect, hsni, Answers.statusAt, if_neg (by decide), hsame]
          | none =>
              refine Or.inl ⟨.tlsHandshake, ⟨hpassed, hfailed, hsni⟩, rfl, by decide, ?_⟩
              rw [onStage, if_neg hconnect, hsni]
              simp
  | tlsHandshake =>
      obtain ⟨hresolve, hconnect, hsni⟩ := hpassed
      cases hfailed : env.tlsHandshake.failed with
      | true =>
          refine Or.inr ⟨env.tlsHandshake, "TLS handshake".toList, ?_, fun _ => hfailed, ?_⟩
          · rw [Answers.verdict, if_neg (ne_true_of_eq_false hresolve),
              if_neg (ne_true_of_eq_false hconnect), hsni]
            dsimp only
            rw [if_pos hfailed]
            rfl
          · rw [onStage, if_pos hfailed, Answers.statusAt, if_neg (by decide), hsame]
      | false =>
          refine Or.inl ⟨.websocketHandshake, ⟨hresolve, hconnect, hsni, hfailed⟩, rfl,
            by decide, ?_⟩
          rw [onStage, if_neg (ne_true_of_eq_false hfailed)]
          simp
  | websocketHandshake =>
      obtain ⟨hresolve, hconnect, hsni, htls⟩ := hpassed
      refine Or.inr ⟨env.websocketHandshake,
        if env.websocketHandshake.failed then "websocket handshake".toList else [], ?_,
        fun h => (by cases h), ?_⟩
      · rw [Answers.verdict, if_neg (ne_true_of_eq_false hresolve),
          if_neg (ne_true_of_eq_false hconnect), hsni]
        dsimp only
        rw [if_neg (ne_true_of_eq_false htls)]
        rfl
      · rw [onStage, Answers.statusAt, if_pos rfl]
        split <;> rfl

/-- The setup is under way, with the operation `st` outstanding. -/
structure Going (env : Answers) (s : Setup T) (st : Stage) : Prop where
  io : s.io = .running
  caller : s.caller = .spinning
  connecting : s.connecting = true
  setupError : s.setupError = []
  connection : s.connection = none
  status : s.status = env.noResponse
  passed : env.Passed st
  stages : stagesOf s.ran = stagesBefore st
  timer : s.timer ≠ .cancelled
  fired : s.timer = .done ↔ .timer true ∈ s.ran
  socket : st ≠ .resolve → s.socketOpen = false → .timer true ∈ s.ran

/-- What the caller has found where it is. -/
def Setup.CallerOk (s : Setup T) : ConnectPc → Prop
  | .spinning => True
  | .testError => s.connecting = false
  | .storeClosed => s.connecting = false ∧ s.setupError ≠ []
  | .join => s.connecting = false ∧ s.setupError ≠ [] ∧ s.closeCalled = true
  | .returned true error =>
      s.connecting = false ∧ s.setupError ≠ [] ∧ s.closeCalled = true ∧ s.io = .ended ∧
        error = ⟨.BOOST_ERROR, some s.setupError⟩
  | .returned false error => s.connecting = false ∧ s.setupError = [] ∧ error = .success

/-- The handlers that have run are those of the verdict, and left what it says. -/
def Decided (env : Answers) (s : Setup T) : Prop :=
  ∃ before after, s.ran = before ++ .stage env.verdict.last :: after ∧
    stagesOf before = env.verdict.before ∧ stagesOf after = [] ∧
    if env.verdict.ec.failed then
      s.connection = none ∧ s.setupError = env.reason (decide (.timer true ∈ before))
    else s.connection.isSome ∧ s.setupError = []

/-- `finishSetup` has been called. -/
structure Finished (env : Answers) (s : Setup T) : Prop where
  decided : Decided env s
  socket : s.connection = none → s.socketOpen = false
  timer : s.timer ≠ .waiting
  connecting : s.connecting = true ↔ s.io = .storeConnecting
  startRead : s.io = .startRead → s.connection.isSome
  ended : s.io = .ended → s.connection = none ∧ s.timer = .done
  caller : s.CallerOk s.caller

variable [DecidableEq T] {handlers : RawStreamHandlers}

/-- **The invariant.** -/
structure Inv (env : Answers) (handlers : RawStreamHandlers) (s : Setup T) : Prop where
  going : ∀ st, s.stage = some st → Going env s st
  finished : s.stage = none → Finished env s
  timedOut : s.setupTimedOut = decide (.timer true ∈ s.ran)
  /-- the timer closes the socket of an open connection only if it has expired -/
  reached : ∀ c, s.connection = some c →
    Reach (Callbacks.step handlers) (fun _ a => a = .setupTimer true → .timer true ∈ s.ran)
      Connection.connected c

/-! ## The steps keep it -/

theorem inv_start : Inv env handlers (start env : Setup T) where
  going st hst := by
    obtain rfl := Option.some.inj hst
    exact {
      io := rfl
      caller := rfl
      connecting := rfl
      setupError := rfl
      connection := rfl
      status := rfl
      passed := trivial
      stages := rfl
      timer := by simp [start]
      fired := by simp [start]
      socket := fun h => absurd rfl h }
  finished h := by cases h
  timedOut := rfl
  reached _ h := by cases h

omit [DecidableEq T] in
theorem timer_mem_concat_stage {ran : List Ran} {st : Stage} :
    Ran.timer true ∈ ran ++ [.stage st] ↔ Ran.timer true ∈ ran := by
  simp

/-- The operation has succeeded and the next one is started. -/
theorem Inv.goOn {st next : Stage} (h : Inv env handlers s) (hgoing : Going env s st)
    (hpassed : env.Passed next) (hstages : stagesBefore next = stagesBefore st ++ [st]) :
    Inv env handlers { s with
      stage := some next
      ran := s.ran ++ [Ran.stage st]
      socketOpen := s.socketOpen || decide (st = .resolve) } where
  going st' hst' := by
    obtain rfl := Option.some.inj hst'
    refine { hgoing with
      passed := hpassed
      stages := ?_
      fired := hgoing.fired.trans timer_mem_concat_stage.symm
      socket := ?_ }
    · rw [hstages, ← hgoing.stages, stagesOf, stagesOf, List.filterMap_append]
      rfl
    · intro _ hsocket
      obtain ⟨hopen, hst⟩ := Bool.or_eq_false_iff.mp hsocket
      exact timer_mem_concat_stage.mpr (hgoing.socket (of_decide_eq_false hst) hopen)
  finished hnone := by cases hnone
  timedOut := by
    rw [h.timedOut]
    exact decide_eq_decide.mpr timer_mem_concat_stage.symm
  reached c hc := by
    rw [hgoing.connection] at hc
    cases hc

/-- What `finishSetup` makes of the socket and the timer is a state of the callback protocol. -/
theorem Going.reach_connected {st : Stage} (hgoing : Going env s st) (hst : st ≠ .resolve) :
    Reach (Callbacks.step handlers) (fun _ a => a = .setupTimer true → .timer true ∈ s.ran)
      Connection.connected { (Connection.connected : Connection T) with
        setupWaiting := decide (s.timer ≠ .done)
        socketOpen := s.socketOpen } := by
  by_cases hdone : s.timer = .done
  · -- the timer's handler has run before
    have hstep : Callbacks.step handlers (Connection.connected : Connection T)
        (.setupTimer (!s.socketOpen)) = some { (Connection.connected : Connection T) with
          setupWaiting := decide (s.timer ≠ .done)
          socketOpen := s.socketOpen } := by
      rw [hdone]
      cases s.socketOpen <;> rfl
    exact Reach.refl.tail (fun _ => hgoing.fired.mp hdone) hstep
  · have hopen : s.socketOpen = true := by
      by_contra hsocket
      exact hdone (hgoing.fired.mpr (hgoing.socket hst (Bool.not_eq_true _ ▸ hsocket)))
    have hsame : { (Connection.connected : Connection T) with
        setupWaiting := decide (s.timer ≠ .done)
        socketOpen := s.socketOpen } = Connection.connected := by
      rw [hopen, decide_eq_true hdone]
      rfl
    rw [hsame]
    exact .refl

theorem Inv.finish {st : Stage} {ec : ErrorCode} {name : Str} (h : Inv env handlers s)
    (hgoing : Going env s st) (hverdict : env.verdict = ⟨stagesBefore st, st, ec, name⟩)
    (hresolve : st = .resolve → ec.failed = true) :
    Inv env handlers ({ s with
      stage := none
      ran := s.ran ++ [Ran.stage st]
      status := env.statusAt st }.finishSetup ec name) := by
  have htimer : s.timer.cancel ≠ .waiting := by cases s.timer <;> decide
  have hlast : env.verdict.last = st := by rw [hverdict]
  have hec : env.verdict.ec = ec := by rw [hverdict]
  have hbefore : stagesOf s.ran = env.verdict.before := by rw [hverdict, hgoing.stages]
  have hran : s.ran ++ [Ran.stage st] = s.ran ++ .stage env.verdict.last :: [] := by rw [hlast]
  have hreason : reasonOf s.setupTimedOut (env.statusAt st) ec name =
      env.reason (decide (Ran.timer true ∈ s.ran)) := by
    rw [Answers.reason, hlast, hec, ← h.timedOut, hverdict]
  have htimedOut : s.setupTimedOut = decide (Ran.timer true ∈ s.ran ++ [.stage st]) := by
    rw [h.timedOut]
    exact decide_eq_decide.mpr timer_mem_concat_stage.symm
  unfold finishSetup
  dsimp only
  split
  · rename_i hfailed
    refine ⟨fun _ h => (by cases h), fun _ => ?_, htimedOut, fun c hc => ?_⟩
    · refine ⟨⟨s.ran, [], hran, hbefore, rfl, ?_⟩, fun _ => rfl, htimer,
        iff_of_true hgoing.connecting rfl, fun h => (by cases h), fun h => (by cases h), ?_⟩
      · rw [hec, if_pos hfailed]
        exact ⟨hgoing.connection, hreason⟩
      · dsimp only
        rw [hgoing.caller]
        trivial
    · rw [hgoing.connection] at hc
      cases hc
  · rename_i hfailed
    refine ⟨fun _ h => (by cases h), fun _ => ?_, htimedOut, fun c hc => ?_⟩
    · refine ⟨⟨s.ran, [], hran, hbefore, rfl, ?_⟩, fun hc => (by cases hc), htimer,
        iff_of_true hgoing.connecting rfl, fun h => (by cases h), fun h => (by cases h), ?_⟩
      · rw [hec, if_neg hfailed]
        exact ⟨rfl, hgoing.setupError⟩
      · dsimp only
        rw [hgoing.caller]
        trivial
    · obtain rfl := Option.some.inj hc
      refine (hgoing.reach_connected (fun hst => hfailed (hresolve hst))).mono ?_
      exact fun _ _ hok ha => timer_mem_concat_stage.mpr (hok ha)

theorem Inv.stageDone {st : Stage} (h : Inv env handlers s) (hst : s.stage = some st) :
    Inv env handlers ({ s with stage := none, ran := s.ran ++ [Ran.stage st] }.onStage env st) := by
  have hgoing := h.going st hst
  rcases onStage_cases (s := { s with stage := none, ran := s.ran ++ [Ran.stage st] })
      hgoing.passed hgoing.status with
    ⟨next, hpassed, hstages, -, hstart⟩ | ⟨ec, name, hverdict, hresolve, hfinish⟩
  · rw [hstart]
    exact h.goOn hgoing hpassed hstages
  · rw [hfinish]
    exact h.finish hgoing hverdict hresolve

/-! ### The timer -/

omit [DecidableEq T] in
/-- Handlers that are no operation's leave the decision alone. -/
theorem Decided.mono (h : Decided env s) {t : Setup T} {more : List Ran}
    (hran : t.ran = s.ran ++ more) (hmore : stagesOf more = [])
    (herror : t.setupError = s.setupError)
    (hconnection : t.connection.isSome = s.connection.isSome) : Decided env t := by
  obtain ⟨before, after, hs, hbefore, hafter, hend⟩ := h
  refine ⟨before, after ++ more, ?_, hbefore, ?_, ?_⟩
  · rw [hran, hs, List.append_assoc, List.cons_append]
  · rw [stagesOf, List.filterMap_append]
    exact List.append_eq_nil_iff.mpr ⟨hafter, hmore⟩
  · rw [← Option.not_isSome_iff_eq_none, hconnection, herror, Option.not_isSome_iff_eq_none]
    exact hend

theorem onTimer_cases {expired : Bool} {s' : Setup T} (hs : s.onTimer handlers expired = some s') :
    (s.connection = none ∧ s' = { s with
      timer := .done
      setupTimedOut := s.setupTimedOut || expired
      socketOpen := s.socketOpen && !expired
      ran := s.ran ++ [Ran.timer expired] }) ∨
    (∃ c c', s.connection = some c ∧ Callbacks.step handlers c (.setupTimer expired) = some c' ∧
      s' = { s with
        timer := .done
        setupTimedOut := s.setupTimedOut || expired
        connection := some c'
        ran := s.ran ++ [Ran.timer expired] }) := by
  unfold Setup.onTimer at hs
  dsimp only at hs
  split at hs
  · rename_i hc
    exact Or.inl ⟨hc, (Option.some.inj hs).symm⟩
  · rename_i c hc
    obtain ⟨c', hstep, rfl⟩ := Option.map_eq_some_iff.mp hs
    exact Or.inr ⟨c, c', hc, hstep, rfl⟩

/-- A connection that is open has no operation of the setup outstanding. -/
theorem Inv.stage_of_connection (h : Inv env handlers s) {c : Connection T}
    (hc : s.connection = some c) (st : Stage) : s.stage ≠ some st := by
  intro hst
  cases hc.symm.trans (h.going st hst).connection

omit [DecidableEq T] in
theorem timedOut_concat (ran : List Ran) (expired : Bool) :
    (decide (Ran.timer true ∈ ran) || expired) =
      decide (Ran.timer true ∈ ran ++ [.timer expired]) := by
  cases expired <;> simp

theorem Inv.onTimer (h : Inv env handlers s)
    (htimer : s.timer = .expired ∨ s.timer = .cancelled) {s' : Setup T}
    (hs : s.onTimer handlers (decide (s.timer = .expired)) = some s') : Inv env handlers s' := by
  have htimedOut : (s.setupTimedOut || decide (s.timer = .expired)) =
      decide (Ran.timer true ∈ s.ran ++ [.timer (decide (s.timer = .expired))]) := by
    rw [h.timedOut, timedOut_concat]
  rcases onTimer_cases hs with ⟨hc, rfl⟩ | ⟨c, c', hc, hstep, rfl⟩
  · refine ⟨fun st hst => ?_, fun hnone => ?_, htimedOut, fun c hc' => ?_⟩
    · have hgoing := h.going st hst
      have hexpired : s.timer = .expired := htimer.resolve_right hgoing.timer
      have hmem : Ran.timer true ∈ s.ran ++ [.timer (decide (s.timer = .expired))] := by
        rw [hexpired]
        simp
      refine { hgoing with
        timer := by simp
        stages := ?_
        fired := iff_of_true rfl hmem
        socket := fun _ _ => hmem }
      rw [← hgoing.stages, stagesOf, List.filterMap_append]
      exact List.append_nil _
    · have hfinished := h.finished hnone
      exact { hfinished with
        decided := hfinished.decided.mono rfl rfl rfl rfl
        socket := fun hnone' => by
          show (s.socketOpen && _) = false
          rw [hfinished.socket hnone', Bool.false_and]
        timer := by simp
        ended := fun _ => ⟨hc, rfl⟩ }
    · cases hc.symm.trans hc'
  · refine ⟨fun st hst => absurd hst (h.stage_of_connection hc st), fun hnone => ?_, htimedOut,
      fun c₁ hc₁ => ?_⟩
    · have hfinished := h.finished hnone
      exact { hfinished with
        decided := hfinished.decided.mono rfl rfl rfl (by rw [hc]; rfl)
        socket := fun hnone' => by cases hnone'
        timer := by simp
        startRead := fun _ => rfl
        ended := fun he => by cases hc.symm.trans (hfinished.ended he).1 }
    · obtain rfl := Option.some.inj hc₁
      have hreach : Reach (Callbacks.step handlers) (fun _ a => a = .setupTimer true →
          Ran.timer true ∈ s.ran ++ [.timer (decide (s.timer = .expired))])
          Connection.connected c :=
        (h.reached c hc).mono (fun _ _ hok ha => List.mem_append_left _ (hok ha))
      refine hreach.tail (fun ha => ?_) hstep
      rw [Act.setupTimer.inj ha]
      simp

/-! ### The caller and the connection -/

/-- A step that moves only the caller. -/
theorem Inv.moveCaller (h : Inv env handlers s) (hconnecting : s.connecting = false)
    {closeCalled : Bool} {pc : ConnectPc}
    (hpc : CallerOk { s with closeCalled := closeCalled } pc) :
    Inv env handlers { s with closeCalled := closeCalled, caller := pc } := by
  refine ⟨fun st hst => ?_, fun hnone => ?_, h.timedOut, h.reached⟩
  · rw [(h.going st hst).connecting] at hconnecting
    cases hconnecting
  · have hfinished := h.finished hnone
    refine { hfinished with
      caller := ?_
      decided := hfinished.decided }
    cases pc with
    | returned isNull error => cases isNull <;> exact hpc
    | _ => exact hpc

omit [DecidableEq T] in
theorem callerOk_moveIo {pc : ConnectPc} (h : s.CallerOk pc) (hio : s.io ≠ .ended)
    {connecting : Bool} (hle : connecting = true → s.connecting = true) (io : IoPc) :
    CallerOk { s with connecting := connecting, io := io } pc := by
  have hoff : s.connecting = false → connecting = false := by
    intro hfalse
    rw [hfalse] at hle
    exact Bool.eq_false_iff.mpr (fun ht => by cases hle ht)
  cases pc with
  | spinning => trivial
  | testError => exact hoff h
  | storeClosed => exact ⟨hoff h.1, h.2⟩
  | join => exact ⟨hoff h.1, h.2⟩
  | returned isNull error =>
      cases isNull with
      | false => exact ⟨hoff h.1, h.2⟩
      | true => exact absurd h.2.2.2.1 hio

/-- A step that moves only the I/O thread, after `finishSetup` has been called. -/
theorem Inv.moveIo (h : Inv env handlers s) (hstage : ∀ st, s.stage ≠ some st)
    (hio : s.io ≠ .ended) {connecting : Bool} (hle : connecting = true → s.connecting = true)
    {io : IoPc} (hconnecting : connecting = true ↔ io = .storeConnecting)
    (hstart : io = .startRead → s.connection.isSome)
    (hended : io = .ended → s.connection = none ∧ s.timer = .done) :
    Inv env handlers { s with connecting := connecting, io := io } := by
  refine ⟨fun st hst => absurd hst (hstage st), fun hnone => ?_, h.timedOut, h.reached⟩
  have hfinished := h.finished hnone
  exact { hfinished with
    connecting := hconnecting
    startRead := hstart
    ended := hended
    caller := callerOk_moveIo hfinished.caller hio hle io }

theorem Inv.stage_of_io (h : Inv env handlers s) (hio : s.io ≠ .running) (st : Stage) :
    s.stage ≠ some st :=
  fun hst => hio (h.going st hst).io

/-- The caller has left its loop, so `finishSetup` has been called. -/
theorem Inv.finished_of_caller (h : Inv env handlers s) (hcaller : s.caller ≠ .spinning) :
    Finished env s := by
  apply h.finished
  rw [Option.eq_none_iff_forall_ne_some]
  intro st hst
  exact hcaller (h.going st hst).caller

theorem Inv.connectionStep {c c' : Connection T} {a : Act T} (h : Inv env handlers s)
    (hc : s.connection = some c) (ha : s.MayRun a) (hs : Callbacks.step handlers c a = some c') :
    Inv env handlers { s with connection := some c' } := by
  refine ⟨fun st hst => absurd hst (h.stage_of_connection hc st), fun hnone => ?_, h.timedOut,
    fun c₁ hc₁ => ?_⟩
  · have hfinished := h.finished hnone
    exact { hfinished with
      decided := hfinished.decided.mono (List.append_nil _).symm rfl rfl (by rw [hc]; rfl)
      socket := fun hnone' => by cases hnone'
      startRead := fun _ => rfl
      ended := fun he => by cases hc.symm.trans (hfinished.ended he).1 }
  · obtain rfl := Option.some.inj hc₁
    refine (h.reached c hc).tail (fun heq => ?_) hs
    rw [heq] at ha
    exact ha.elim

omit [DecidableEq T] in
theorem Decided.setupError_eq_nil_iff (h : Decided env s) :
    s.setupError = [] ↔ s.connection.isSome := by
  obtain ⟨before, after, -, -, -, hend⟩ := h
  split at hend
  · obtain ⟨hnone, herror⟩ := hend
    rw [hnone, herror]
    have hreason : env.reason (decide (Ran.timer true ∈ before)) ≠ [] :=
      reasonOf_ne_nil _ _ _ _
    exact iff_of_false hreason (by simp)
  · exact iff_of_true hend.2 hend.1

theorem Inv.step {s' : Setup T} {a : SetupAct T} (h : Inv env handlers s)
    (hs : setupStep env handlers s a = some s') : Inv env handlers s' := by
  cases a with
  | stageDone =>
      unfold setupStep at hs
      dsimp only at hs
      split at hs
      · rename_i st hst
        obtain ⟨-, hs⟩ := Option.ite_none_right_eq_some.mp hs
        obtain rfl := Option.some.inj hs
        exact h.stageDone hst
      · cases hs
  | expire =>
      obtain ⟨hwaiting, hs⟩ := Option.ite_none_right_eq_some.mp hs
      obtain rfl := Option.some.inj hs
      refine ⟨fun st hst => ?_, fun hnone => ?_, h.timedOut, h.reached⟩
      · have hgoing := h.going st hst
        have hnot : Ran.timer true ∉ s.ran := by
          rw [← hgoing.fired, hwaiting]
          decide
        exact { hgoing with
          timer := by simp
          fired := iff_of_false (by simp) hnot }
      · exact absurd hwaiting (h.finished hnone).timer
  | timerHandler =>
      obtain ⟨⟨-, htimer⟩, hs⟩ := Option.ite_none_right_eq_some.mp hs
      exact h.onTimer htimer hs
  | storeConnecting =>
      obtain ⟨hio, hs⟩ := Option.ite_none_right_eq_some.mp hs
      obtain rfl := Option.some.inj hs
      refine h.moveIo (h.stage_of_io (by rw [hio]; simp)) (by rw [hio]; simp)
        (fun hset => by cases hset) ?_ ?_ ?_
      · cases s.connection <;> simp
      · cases s.connection <;> simp
      · cases s.connection <;> simp
  | startRead =>
      obtain ⟨hio, hs⟩ := Option.ite_none_right_eq_some.mp hs
      obtain rfl := Option.some.inj hs
      have hstage := h.stage_of_io (by rw [hio]; simp)
      have hoff : s.connecting ≠ true := by
        rw [Ne, (h.finished (Option.eq_none_iff_forall_ne_some.mpr hstage)).connecting, hio]
        simp
      exact h.moveIo hstage (by rw [hio]; simp) id (iff_of_false hoff (by simp))
        (fun he => by cases he) (fun he => by cases he)
  | runReturn =>
      obtain ⟨⟨hio, hstage, hdone, hc⟩, hs⟩ := Option.ite_none_right_eq_some.mp hs
      obtain rfl := Option.some.inj hs
      have hoff : s.connecting ≠ true := by
        rw [Ne, (h.finished hstage).connecting, hio]
        simp
      exact h.moveIo (Option.eq_none_iff_forall_ne_some.mp hstage) (by rw [hio]; simp) id
        (iff_of_false hoff (by simp)) (fun he => by cases he)
        (fun _ => ⟨Option.isNone_iff_eq_none.mp hc, hdone⟩)
  | spin =>
      obtain ⟨-, hs⟩ := Option.ite_none_right_eq_some.mp hs
      exact Option.some.inj hs ▸ h
  | leaveLoop =>
      obtain ⟨⟨-, hconnecting⟩, hs⟩ := Option.ite_none_right_eq_some.mp hs
      obtain rfl := Option.some.inj hs
      exact h.moveCaller hconnecting hconnecting
  | testError =>
      obtain ⟨hcaller, hs⟩ := Option.ite_none_right_eq_some.mp hs
      obtain rfl := Option.some.inj hs
      have hok := (h.finished_of_caller (by rw [hcaller]; simp)).caller
      rw [hcaller] at hok
      refine h.moveCaller hok ?_
      split
      · rename_i herror
        exact ⟨hok, herror⟩
      · rename_i herror
        exact ⟨hok, not_not.mp herror, rfl⟩
  | storeClosed =>
      obtain ⟨hcaller, hs⟩ := Option.ite_none_right_eq_some.mp hs
      obtain rfl := Option.some.inj hs
      have hok := (h.finished_of_caller (by rw [hcaller]; simp)).caller
      rw [hcaller] at hok
      exact h.moveCaller hok.1 ⟨hok.1, hok.2, rfl⟩
  | join =>
      obtain ⟨⟨hcaller, hended⟩, hs⟩ := Option.ite_none_right_eq_some.mp hs
      obtain rfl := Option.some.inj hs
      have hok := (h.finished_of_caller (by rw [hcaller]; simp)).caller
      rw [hcaller] at hok
      exact h.moveCaller hok.1 ⟨hok.1, hok.2.1, hok.2.2, hended, rfl⟩
  | connection a =>
      unfold setupStep at hs
      dsimp only at hs
      split at hs
      · rename_i c hc
        obtain ⟨ha, hs⟩ := Option.ite_none_right_eq_some.mp hs
        obtain ⟨c', hstep, rfl⟩ := Option.map_eq_some_iff.mp hs
        exact h.connectionStep hc ha hstep
      · cases hs

theorem inv_of_reach (h : Reach (setupStep env handlers) (fun _ _ => True) (start env) s) :
    Inv env handlers s := by
  apply h.invariant inv_start
  intro s a s' hi _ hs
  exact hi.step hs

/-! ## The end of the setup

The measure counts the operations that are outstanding, the timer, the places of the caller and the
last steps of the I/O thread. -/

def Returned (s : Setup T) : Prop := ∃ isNull error, s.caller = .returned isNull error

/-- Not a read of `connecting` that goes round the loop, and not of the connection itself. -/
def SetupAct.isSetup : SetupAct T → Bool
  | .spin | .connection _ => false
  | _ => true

def stagesLeft : Option Stage → Nat
  | none => 0
  | some .resolve => 6
  | some .connect => 5
  | some .tlsHandshake => 4
  | some .websocketHandshake => 3

def Timer.left : Timer → Nat
  | .waiting => 2
  | .expired | .cancelled => 1
  | .done => 0

def ConnectPc.left : ConnectPc → Nat
  | .spinning => 4
  | .testError => 3
  | .storeClosed => 2
  | .join => 1
  | .returned _ _ => 0

/-- The steps that the I/O thread has left after the operations. -/
def ioLeft (s : Setup T) : Nat :=
  match s.io with
  | .storeConnecting => 2
  | .startRead => 1
  | .running => if s.stage.isNone && s.connection.isNone then 1 else 0
  | .ended => 0

def stepsLeft (s : Setup T) : Nat := stagesLeft s.stage + s.timer.left + ioLeft s + s.caller.left

omit [DecidableEq T] in
theorem stepsLeft_finishSetup (hstage : s.stage = none) (ec : ErrorCode) (name : Str) :
    stepsLeft (s.finishSetup ec name) ≤ s.timer.left + s.caller.left + 2 := by
  have hcancel : s.timer.cancel.left ≤ s.timer.left := by cases s.timer <;> decide
  unfold finishSetup
  dsimp only
  split
  all_goals
    show stagesLeft s.stage + s.timer.cancel.left + 2 + s.caller.left ≤ _
    rw [hstage]
    simp only [stagesLeft]
    omega

omit [DecidableEq T] in
theorem stagesLeft_next {st next : Stage} (h : stagesBefore next = stagesBefore st ++ [st]) :
    stagesLeft (some next) + 1 = stagesLeft (some st) := by
  cases st <;> cases next <;> first | rfl | cases h

theorem Inv.stepsLeft_stageDone {st : Stage} (h : Inv env handlers s) (hst : s.stage = some st) :
    stepsLeft ({ s with stage := none, ran := s.ran ++ [Ran.stage st] }.onStage env st) + 1
      ≤ stepsLeft s := by
  have hgoing := h.going st hst
  have hleft : stepsLeft s = stagesLeft (some st) + s.timer.left + s.caller.left := by
    simp [stepsLeft, ioLeft, hgoing.io, hst]
  rw [hleft]
  rcases onStage_cases (s := { s with stage := none, ran := s.ran ++ [Ran.stage st] })
      hgoing.passed hgoing.status with
    ⟨next, -, hstages, -, hstart⟩ | ⟨ec, name, -, -, hfinish⟩
  · rw [hstart, ← stagesLeft_next hstages]
    simp only [stepsLeft, ioLeft, hgoing.io, Option.isNone_some, Bool.false_and,
      Bool.false_eq_true, if_false]
    omega
  · rw [hfinish]
    have hend := stepsLeft_finishSetup (s := { s with
      stage := none
      ran := s.ran ++ [Ran.stage st]
      status := env.statusAt st }) rfl ec name
    have hthree : 3 ≤ stagesLeft (some st) := by cases st <;> decide
    dsimp only at hend ⊢
    omega

/-- **Every step of the setup brings its end nearer.** -/
theorem Inv.stepsLeft_le {s' : Setup T} {a : SetupAct T} (h : Inv env handlers s)
    (hs : setupStep env handlers s a = some s') :
    stepsLeft s' + (if a.isSetup then 1 else 0) ≤ stepsLeft s := by
  cases a with
  | stageDone =>
      unfold setupStep at hs
      dsimp only at hs
      split at hs
      · rename_i st hst
        obtain ⟨-, hs⟩ := Option.ite_none_right_eq_some.mp hs
        obtain rfl := Option.some.inj hs
        exact h.stepsLeft_stageDone hst
      · cases hs
  | expire =>
      obtain ⟨hwaiting, hs⟩ := Option.ite_none_right_eq_some.mp hs
      obtain rfl := Option.some.inj hs
      simp [stepsLeft, ioLeft, hwaiting, Timer.left, SetupAct.isSetup]
  | timerHandler =>
      obtain ⟨⟨-, htimer⟩, hs⟩ := Option.ite_none_right_eq_some.mp hs
      have hone : s.timer.left = 1 := by rcases htimer with h | h <;> rw [h] <;> rfl
      have hdone : Timer.done.left = 0 := rfl
      rcases onTimer_cases hs with ⟨hc, rfl⟩ | ⟨c, c', hc, -, rfl⟩ <;>
        simp [stepsLeft, ioLeft, hone, hdone, hc, SetupAct.isSetup]
  | storeConnecting =>
      obtain ⟨hio, hs⟩ := Option.ite_none_right_eq_some.mp hs
      obtain rfl := Option.some.inj hs
      have hstage := Option.eq_none_iff_forall_ne_some.mpr (h.stage_of_io (by rw [hio]; simp))
      cases hc : s.connection <;>
        simp [stepsLeft, ioLeft, hio, hstage, SetupAct.isSetup]
  | startRead =>
      obtain ⟨hio, hs⟩ := Option.ite_none_right_eq_some.mp hs
      obtain rfl := Option.some.inj hs
      have hstage := Option.eq_none_iff_forall_ne_some.mpr (h.stage_of_io (by rw [hio]; simp))
      have hsome := (h.finished hstage).startRead hio
      have hnone : s.connection.isNone = false := by
        rw [← Option.not_isSome, hsome]
        rfl
      simp [stepsLeft, ioLeft, hio, hnone, SetupAct.isSetup]
  | runReturn =>
      obtain ⟨⟨hio, hstage, hdone, hc⟩, hs⟩ := Option.ite_none_right_eq_some.mp hs
      obtain rfl := Option.some.inj hs
      simp [stepsLeft, ioLeft, hio, hstage, hc, SetupAct.isSetup]
  | spin =>
      obtain ⟨-, hs⟩ := Option.ite_none_right_eq_some.mp hs
      exact Option.some.inj hs ▸ le_refl _
  | leaveLoop =>
      obtain ⟨⟨hcaller, -⟩, hs⟩ := Option.ite_none_right_eq_some.mp hs
      obtain rfl := Option.some.inj hs
      simp [stepsLeft, ioLeft, hcaller, ConnectPc.left, SetupAct.isSetup]
  | testError =>
      obtain ⟨hcaller, hs⟩ := Option.ite_none_right_eq_some.mp hs
      obtain rfl := Option.some.inj hs
      by_cases herror : s.setupError = [] <;>
        simp [stepsLeft, ioLeft, hcaller, herror, ConnectPc.left, SetupAct.isSetup]
  | storeClosed =>
      obtain ⟨hcaller, hs⟩ := Option.ite_none_right_eq_some.mp hs
      obtain rfl := Option.some.inj hs
      simp [stepsLeft, ioLeft, hcaller, ConnectPc.left, SetupAct.isSetup]
  | join =>
      obtain ⟨⟨hcaller, -⟩, hs⟩ := Option.ite_none_right_eq_some.mp hs
      obtain rfl := Option.some.inj hs
      simp [stepsLeft, ioLeft, hcaller, ConnectPc.left, SetupAct.isSetup]
  | connection a =>
      unfold setupStep at hs
      dsimp only at hs
      split at hs
      · rename_i c hc
        obtain ⟨-, hs⟩ := Option.ite_none_right_eq_some.mp hs
        obtain ⟨c', -, rfl⟩ := Option.map_eq_some_iff.mp hs
        simp [stepsLeft, ioLeft, hc, SetupAct.isSetup]
      · cases hs

theorem Inv.countP_le {as : List (SetupAct T)} {s' : Setup T} (h : Inv env handlers s)
    (hrun : runFrom (setupStep env handlers) s as = some s') :
    as.countP SetupAct.isSetup + stepsLeft s' ≤ stepsLeft s :=
  countP_le_measure_of_lowers (fun _ _ _ hi hs => hi.step hs)
    (fun _ _ _ hi hs => hi.stepsLeft_le hs) h hrun

/-- Before `connect` returns, the setup has a step to take. -/
theorem Inv.progress (h : Inv env handlers s) (hret : ¬ Returned s) :
    ∃ a, SetupAct.isSetup a = true ∧ (setupStep env handlers s a).isSome := by
  cases hstage : s.stage with
  | some st =>
      refine ⟨.stageDone, rfl, ?_⟩
      simp [setupStep, hstage, (h.going st hstage).io]
  | none =>
      have hfinished := h.finished hstage
      by_cases hstore : s.io = .storeConnecting
      · exact ⟨.storeConnecting, rfl, by simp [setupStep, hstore]⟩
      · have hoff : s.connecting = false := by
          rw [← Bool.not_eq_true, hfinished.connecting]
          exact hstore
        have hcaller := hfinished.caller
        cases hpc : s.caller with
        | spinning => exact ⟨.leaveLoop, rfl, by simp [setupStep, hpc, hoff]⟩
        | testError => exact ⟨.testError, rfl, by simp [setupStep, hpc]⟩
        | storeClosed => exact ⟨.storeClosed, rfl, by simp [setupStep, hpc]⟩
        | returned isNull error => exact absurd ⟨isNull, error, hpc⟩ hret
        | join =>
            -- the caller waits for the I/O thread, which has the timer's handler left at most
            rw [hpc] at hcaller
            have hnone : s.connection = none := by
              have hiff := hfinished.decided.setupError_eq_nil_iff.not.mp hcaller.2.1
              exact Option.not_isSome_iff_eq_none.mp hiff
            cases hio : s.io with
            | storeConnecting => exact absurd hio hstore
            | startRead => exact ⟨.startRead, rfl, by simp [setupStep, hio]⟩
            | ended => exact ⟨.join, rfl, by simp [setupStep, hpc, hio]⟩
            | running =>
                cases htimer : s.timer with
                | waiting => exact absurd htimer hfinished.timer
                | done => exact ⟨.runReturn, rfl, by simp [setupStep, hio, hstage, htimer, hnone]⟩
                | expired =>
                    refine ⟨.timerHandler, rfl, ?_⟩
                    simp [setupStep, Setup.onTimer, hio, htimer, hnone]
                | cancelled =>
                    refine ⟨.timerHandler, rfl, ?_⟩
                    simp [setupStep, Setup.onTimer, hio, htimer, hnone]

/-- When `connect` has returned `nullptr`, nothing can happen any more. -/
theorem Inv.quiet (h : Inv env handlers s) {error : FetchError}
    (hret : s.caller = .returned true error) (a : SetupAct T) :
    setupStep env handlers s a = none := by
  have hfinished := h.finished_of_caller (by rw [hret]; simp)
  have hcaller := hfinished.caller
  rw [hret] at hcaller
  obtain ⟨-, -, -, hio, -⟩ := hcaller
  obtain ⟨hconnection, htimer⟩ := hfinished.ended hio
  have hstage := Option.eq_none_iff_forall_ne_some.mpr (h.stage_of_io (by rw [hio]; simp))
  cases a <;> simp [setupStep, hret, hio, hconnection, htimer, hstage]

end Handlers

section Main

variable {T : Type} [DecidableEq T] {env : Answers} {handlers : RawStreamHandlers} {s : Setup T}

/-- **What `connect` returns.** -/
theorem connect_verdict {isNull : Bool} {error : FetchError}
    (h : Reach (setupStep env handlers) (fun _ _ => True) (start env) s)
    (hret : s.caller = .returned isNull error) :
    ∃ before after, s.ran = before ++ .stage env.verdict.last :: after ∧
      stagesOf before = env.verdict.before ∧ stagesOf after = [] ∧
      if env.verdict.ec.failed then
        isNull = true ∧ error = ⟨.BOOST_ERROR, some (env.reason (decide (.timer true ∈ before)))⟩
      else isNull = false ∧ error = .success := by
  have hfinished := (inv_of_reach h).finished_of_caller (by rw [hret]; simp)
  have herror := hfinished.decided.setupError_eq_nil_iff
  have hcaller := hfinished.caller
  rw [hret] at hcaller
  obtain ⟨before, after, hran, hbefore, hafter, hend⟩ := hfinished.decided
  refine ⟨before, after, hran, hbefore, hafter, ?_⟩
  cases isNull with
  | true =>
      obtain ⟨-, hne, -, -, rfl⟩ := hcaller
      split
      · rename_i hfailed
        rw [if_pos hfailed] at hend
        exact ⟨rfl, by rw [hend.2]⟩
      · rename_i hfailed
        rw [if_neg hfailed] at hend
        exact absurd hend.2 hne
  | false =>
      obtain ⟨-, hnil, rfl⟩ := hcaller
      split
      · rename_i hfailed
        rw [if_pos hfailed] at hend
        rw [hend.1] at herror
        cases herror.mp hnil
      · exact ⟨rfl, rfl⟩

/-- What the operations of a run complete with when the TLS handshake fails. -/
def tlsFails : Answers where
  resolve := ⟨0, []⟩
  connect := ⟨0, []⟩
  sni := none
  tlsHandshake := ⟨125, "canceled".toList⟩
  websocketHandshake := ⟨0, []⟩
  noResponse := 200
  response := 101

/-- The timer expires during the TLS handshake. -/
def deadlineRun : List (SetupAct Unit) :=
  [.stageDone, .stageDone, .expire, .spin, .timerHandler, .stageDone, .storeConnecting, .leaveLoop,
    .testError, .storeClosed, .runReturn, .join]

def afterDeadline : Option (Setup Unit) :=
  runFrom (setupStep tlsFails ⟨true, true⟩) (start tlsFails) deadlineRun

def deadlineText : Str := "handshake timeout (10 s) during TLS handshake".toList

theorem connect_verdict_deadline :
    ∃ (s : Setup Unit) (before after : List Ran), s.ran = before ++ .stage .tlsHandshake :: after ∧
      stagesOf before = [.resolve, .connect] ∧
      s.caller = .returned true ⟨.BOOST_ERROR, some deadlineText⟩ ∧
      deadlineText = tlsFails.reason (decide (.timer true ∈ before)) := by
  have hsome : afterDeadline.isSome := rfl
  have hcaller : (afterDeadline.get hsome).caller =
    .returned true ⟨.BOOST_ERROR, some deadlineText⟩ := rfl
  obtain ⟨before, after, hran, hbefore, -, hend⟩ :=
    connect_verdict (Reach.refl.of_run (Option.some_get hsome).symm) hcaller
  rw [if_pos (show tlsFails.verdict.ec.failed = true from rfl)] at hend
  exact ⟨_, before, after, hran, hbefore, hcaller, Option.some.inj (FetchError.mk.inj hend.2).2⟩

/-- **What `connect` leaves behind**: nothing, with the I/O thread at its end, or a connection that
follows the callback protocol, whose socket the timer closes only if it has expired. -/
theorem connect_leaves {isNull : Bool} {error : FetchError}
    (h : Reach (setupStep env handlers) (fun _ _ => True) (start env) s)
    (hret : s.caller = .returned isNull error) :
    if isNull then
      s.io = .ended ∧ s.closeCalled = true ∧ s.socketOpen = false ∧
        ∀ a, setupStep env handlers s a = none
    else
      ∃ c, s.connection = some c ∧ Callbacks.Protocol handlers c ∧
        Reach (Callbacks.step handlers) (fun _ a => a = .setupTimer true → .timer true ∈ s.ran)
          Connection.connected c := by
  have hi := inv_of_reach h
  have hfinished := hi.finished_of_caller (by rw [hret]; simp)
  have hcaller := hfinished.caller
  rw [hret] at hcaller
  cases isNull with
  | true =>
      obtain ⟨-, -, hclosed, hio, -⟩ := hcaller
      exact ⟨hio, hclosed, hfinished.socket (hfinished.ended hio).1, fun a => hi.quiet hret a⟩
  | false =>
      have hsome := hfinished.decided.setupError_eq_nil_iff.mp hcaller.2.1
      obtain ⟨c, hc⟩ := Option.isSome_iff_exists.mp hsome
      have hreach := hi.reached c hc
      have hinv : Callbacks.Inv handlers c := by
        apply hreach.invariant Callbacks.inv_connected
        intro c a c' hinv _ hs
        exact Callbacks.inv_step hinv hs
      exact ⟨c, hc, hinv.protocol, hreach⟩

theorem connect_leaves_deadline :
    ∃ s : Setup Unit, s.io = .ended ∧ s.closeCalled = true ∧ s.socketOpen = false ∧
      ∀ a, setupStep tlsFails ⟨true, true⟩ s a = none := by
  have hsome : afterDeadline.isSome := rfl
  have hcaller : (afterDeadline.get hsome).caller =
    .returned true ⟨.BOOST_ERROR, some deadlineText⟩ := rfl
  exact ⟨_, connect_leaves (Reach.refl.of_run (Option.some_get hsome).symm) hcaller⟩

/-- **`connect` returns**, if the operations that it has started complete: its setup takes at most
twelve steps, and one of them is possible until it has returned. -/
theorem connect_returns {as : List (SetupAct T)}
    (hrun : runFrom (setupStep env handlers) (start env) as = some s) :
    as.countP SetupAct.isSetup ≤ 12 ∧
      (¬ Returned s → ∃ a, SetupAct.isSetup a = true ∧ (setupStep env handlers s a).isSome) := by
  have hi := inv_of_reach (Reach.refl.of_run hrun)
  have hstart : Inv env handlers (start env : Setup T) := inv_start
  have hcount := hstart.countP_le hrun
  have htwelve : stepsLeft (start env : Setup T) = 12 := rfl
  exact ⟨by omega, hi.progress⟩

theorem connect_returns_deadline :
    ∃ s : Setup Unit, deadlineRun.countP SetupAct.isSetup ≤ 12 ∧
      (¬ Returned s → ∃ a, SetupAct.isSetup a = true ∧
        (setupStep tlsFails ⟨true, true⟩ s a).isSome) := by
  have hsome : afterDeadline.isSome := rfl
  exact ⟨_, connect_returns (Option.some_get hsome).symm⟩

end Main

end AstraConnect.Raw.Connect
