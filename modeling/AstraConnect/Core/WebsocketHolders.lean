import AstraConnect.Core.StreamHolder

set_option autoImplicit false

/-! # Reconnects of the websocket holders (`core/streams/websocketStreamHolder.hpp`,
`core/streams/websocketAPIStreamHolder.hpp`)

Both holders keep one TLS stream for life: `ws` is constructed with the holder, and every
connection try runs on it. A holder logs the stream object of each TLS handshake it attempts. No
object is handshaken twice in exactly those runs in which at most one try gets as far as the
handshake.

One thread runs `executionLoop`; `closeConnection`, `reEstablishExecution` and the destructor are
called from others. The sleeps of a backoff may end at any time.
-/

namespace AstraConnect.Core

open Transition

/-- How one call of `setupConnection` goes: which of its stages succeed. -/
structure SetupOutcome where
  resolved : Bool
  connected : Bool
  /-- `SSL_set_tlsext_host_name` succeeds -/
  sni : Bool
  tls : Bool
  /-- the websocket handshake succeeds -/
  upgraded : Bool
  deriving DecidableEq, Repr

namespace SetupOutcome

/-- The try gets as far as the TLS handshake. -/
def reachesTls (o : SetupOutcome) : Bool := o.resolved && o.connected && o.sni

/-- Every stage throws when it fails, and a caught exception is a FAIL. -/
def status (o : SetupOutcome) : ConnectionStatus :=
  if o.reachesTls && o.tls && o.upgraded then .SUCCESS else .FAIL

end SetupOutcome

/-! ## The stream holder

The thread of `executionLoop` and one call of `reEstablishExecution` share the holder; the flags
`connectionAlive` and `running` tell each what the other has done. -/

/-- Where the thread of `executionLoop` is. -/
inductive LoopPhase where
  | start
  /-- in `exponentialBackOff`, before the test of `running` that follows a sleep of the interval -/
  | parked (interval : Int)
  /-- about to call `setupConnection` from `exponentialBackOff` -/
  | trying (interval : Int)
  | reading
  | ended
  deriving DecidableEq, Repr

/-- Where a call of `reEstablishExecution` is. -/
inductive ReEstablish where
  | idle
  | joining
  | setup
  | parked (interval : Int)
  | trying (interval : Int)
  deriving DecidableEq, Repr

structure WebsocketStreamHolder where
  /-- the TLS stream object of `ws` -/
  ws : Nat
  running : Bool
  connectionAlive : Bool
  connecting : Bool
  backoffPolicy : BackoffPolicy
  thread : LoopPhase
  caller : ReEstablish
  /-- history variable: the objects of the TLS handshakes attempted -/
  handshakes : List Nat
  deriving DecidableEq, Repr

inductive StreamAct where
  /-- `executionLoop` finds the connection alive -/
  | loopAlive
  /-- `executionLoop` sets the connection up first -/
  | loopSetup (o : SetupOutcome)
  | loopWake
  | loopTry (o : SetupOutcome)
  /-- one round of the loop; `got` when `getLatestMessage` returns a message -/
  | read (got : Bool)
  /-- the loop finds `running` cleared -/
  | leave
  | closeConnection
  | reEstablishExecution
  | joined
  | callerSetup (o : SetupOutcome)
  | callerWake
  | callerTry (o : SetupOutcome)
  | destroy
  deriving DecidableEq, Repr

/-- The connection try an action makes. -/
def StreamAct.setup? : StreamAct → Option SetupOutcome
  | .loopSetup o => some o
  | .loopTry o => some o
  | .callerSetup o => some o
  | .callerTry o => some o
  | _ => none

/-- The action attempts a TLS handshake. -/
def StreamAct.reachesTls (a : StreamAct) : Bool := a.setup?.any SetupOutcome.reachesTls

namespace WebsocketStreamHolder

/-- The object `ws` is made with the holder. -/
def construct (policy : BackoffPolicy) : WebsocketStreamHolder :=
  ⟨0, true, false, true, policy, .start, .idle, []⟩

def setupConnection (s : WebsocketStreamHolder) (o : SetupOutcome) : WebsocketStreamHolder :=
  { s with
    handshakes := s.handshakes ++ if o.reachesTls then [s.ws] else []
    connectionAlive := s.connectionAlive || decide (o.status = .SUCCESS)
    connecting := false }

def closeConnection (s : WebsocketStreamHolder) : WebsocketStreamHolder :=
  { s with connectionAlive := false, running := false }

/-- `executionLoop` after a failed try: the next sleep of its backoff, or the end of the loop. -/
def loopFailed (s : WebsocketStreamHolder) : Option Int → WebsocketStreamHolder
  | some interval => { s with thread := .parked interval }
  | none => { s with running := false, thread := .ended }

/-- `reEstablishExecution` after a failed try. -/
def callerFailed (s : WebsocketStreamHolder) : Option Int → WebsocketStreamHolder
  | some interval => { s with caller := .parked interval }
  | none => { s with running := false, caller := .idle }

/-- The end of `reEstablishExecution`: a new thread runs `executionLoop`. -/
def startThread (s : WebsocketStreamHolder) : WebsocketStreamHolder :=
  { s with thread := .start, caller := .idle }

def step (s : WebsocketStreamHolder) : StreamAct → Option WebsocketStreamHolder
  | .loopAlive =>
      if s.thread = .start ∧ s.connectionAlive then
        some { s with thread := .reading, connectionAlive := true }
      else none
  | .loopSetup o =>
      if s.thread = .start ∧ s.connectionAlive = false then
        if o.status = .SUCCESS then some { s.setupConnection o with thread := .reading }
        else some ((s.setupConnection o).loopFailed (some s.backoffPolicy.delay))
      else none
  | .loopWake =>
      match s.thread with
      | .parked interval =>
          if s.running then some { s with thread := .trying interval }
          else some (s.loopFailed none)
      | _ => none
  | .loopTry o =>
      match s.thread with
      | .trying interval =>
          if o.status = .SUCCESS then some { s.setupConnection o with thread := .reading }
          else some ((s.setupConnection o).loopFailed (s.backoffPolicy.nextInterval interval))
      | _ => none
  | .read got =>
      if s.thread = .reading then
        -- an empty message means that the connection is lost
        if got ∧ s.connectionAlive then some s
        else some ({ s with connectionAlive := false }.loopFailed (some s.backoffPolicy.delay))
      else none
  | .leave =>
      if s.thread = .reading ∧ s.running = false then some { s with thread := .ended } else none
  | .closeConnection => some s.closeConnection
  | .reEstablishExecution =>
      if s.caller = .idle then some { s.closeConnection with caller := .joining } else none
  | .joined =>
      if s.caller = .joining ∧ s.thread = .ended then
        some { s with running := true, caller := .setup }
      else none
  | .callerSetup o =>
      if s.caller = .setup then
        if o.status = .SUCCESS then some (s.setupConnection o).startThread
        else some ((s.setupConnection o).callerFailed (some s.backoffPolicy.delay))
      else none
  | .callerWake =>
      match s.caller with
      | .parked interval =>
          if s.running then some { s with caller := .trying interval }
          else some (s.callerFailed none)
      | _ => none
  | .callerTry o =>
      match s.caller with
      | .trying interval =>
          if o.status = .SUCCESS then some (s.setupConnection o).startThread
          else some ((s.setupConnection o).callerFailed (s.backoffPolicy.nextInterval interval))
      | _ => none
  | .destroy => some { s with running := false }

end WebsocketStreamHolder

/-! ## The API stream holder -/

/-- Where the constructor of `WebsocketAPIStreamHolder` is. -/
inductive ApiPhase where
  | setup
  | parked (interval : Int)
  | constructed
  deriving DecidableEq, Repr

structure WebsocketAPIStreamHolder where
  /-- the TLS stream object of `ws` -/
  ws : Nat
  connectionStatus : ConnectionStatus
  backoffPolicy : BackoffPolicy
  phase : ApiPhase
  /-- history variable: the objects of the TLS handshakes attempted -/
  handshakes : List Nat
  deriving DecidableEq, Repr

inductive ApiAct where
  | setup (o : SetupOutcome)
  /-- the next try of `exponentialBackOff` -/
  | tryAgain (o : SetupOutcome)
  | sendRequest (write read : ErrorCode)
  deriving DecidableEq, Repr

def ApiAct.setup? : ApiAct → Option SetupOutcome
  | .setup o => some o
  | .tryAgain o => some o
  | .sendRequest _ _ => none

def ApiAct.reachesTls (a : ApiAct) : Bool := a.setup?.any SetupOutcome.reachesTls

namespace WebsocketAPIStreamHolder

def construct (policy : BackoffPolicy) : WebsocketAPIStreamHolder := ⟨0, .FAIL, policy, .setup, []⟩

def setupConnection (s : WebsocketAPIStreamHolder) (o : SetupOutcome) :
    WebsocketAPIStreamHolder :=
  { s with
    handshakes := s.handshakes ++ if o.reachesTls then [s.ws] else []
    connectionStatus := o.status }

/-- A try that fails is followed by the sleep `next`, if the schedule has one. -/
def after (s : WebsocketAPIStreamHolder) (next : Option Int) : WebsocketAPIStreamHolder :=
  match s.connectionStatus, next with
  | .SUCCESS, _ => { s with phase := .constructed }
  | _, some interval => { s with phase := .parked interval }
  | _, none => { s with phase := .constructed }

def step (s : WebsocketAPIStreamHolder) : ApiAct → Option WebsocketAPIStreamHolder
  | .setup o =>
      if s.phase = .setup then some ((s.setupConnection o).after (some s.backoffPolicy.delay))
      else none
  | .tryAgain o =>
      match s.phase with
      | .parked interval =>
          some ((s.setupConnection o).after (s.backoffPolicy.nextInterval interval))
      | _ => none
  | .sendRequest write read =>
      -- a lost connection is reported and left as it is
      if s.phase = .constructed then
        some (if write ≠ 0 ∨ read ≠ 0 then { s with connectionStatus := .FAIL } else s)
      else none

end WebsocketAPIStreamHolder

/-! ## The handshakes of a run

Every step logs the one object `ws`, or nothing. A log of one object has no repetition only if it
has at most one entry. -/

section streamHolder

variable {s s' : WebsocketStreamHolder}

theorem loopFailed_ws (s : WebsocketStreamHolder) (next : Option Int) :
    (s.loopFailed next).ws = s.ws ∧ (s.loopFailed next).handshakes = s.handshakes := by
  cases next <;> exact ⟨rfl, rfl⟩

theorem callerFailed_ws (s : WebsocketStreamHolder) (next : Option Int) :
    (s.callerFailed next).ws = s.ws ∧ (s.callerFailed next).handshakes = s.handshakes := by
  cases next <;> exact ⟨rfl, rfl⟩

/-- A step other than a connection try logs nothing; a try logs the one stream object. -/
theorem streamStep_spec {a : StreamAct} (hs : s.step a = some s') :
    s'.ws = s.ws ∧
      s'.handshakes = s.handshakes ++ (if a.reachesTls then [s.ws] else []) := by
  have hquiet : s'.ws = s.ws ∧ s'.handshakes = s.handshakes → a.reachesTls = false →
      s'.ws = s.ws ∧ s'.handshakes = s.handshakes ++ (if a.reachesTls then [s.ws] else []) := by
    rintro ⟨hw, hh⟩ hno
    rw [hno, hh]
    exact ⟨hw, (List.append_nil _).symm⟩
  cases a with
  | loopAlive =>
      obtain ⟨_, hs⟩ := Option.ite_none_right_eq_some.mp hs
      obtain rfl := Option.some.inj hs
      exact hquiet ⟨rfl, rfl⟩ rfl
  -- the tries, of the loop and of the caller, shake hands on `ws` itself
  | loopSetup o =>
      obtain ⟨_, hs⟩ := Option.ite_none_right_eq_some.mp hs
      split at hs <;> obtain rfl := Option.some.inj hs <;> exact ⟨rfl, rfl⟩
  -- a backoff that is not to go on fails without a try
  | loopWake =>
      simp only [WebsocketStreamHolder.step] at hs
      split at hs
      · split at hs <;> obtain rfl := Option.some.inj hs
        · exact hquiet ⟨rfl, rfl⟩ rfl
        · exact hquiet (loopFailed_ws s none) rfl
      · cases hs
  | loopTry o =>
      simp only [WebsocketStreamHolder.step] at hs
      split at hs
      · split at hs <;> obtain rfl := Option.some.inj hs
        · exact ⟨rfl, rfl⟩
        · exact loopFailed_ws (s.setupConnection o) _
      · cases hs
  | read got =>
      obtain ⟨_, hs⟩ := Option.ite_none_right_eq_some.mp hs
      split at hs <;> obtain rfl := Option.some.inj hs <;> exact hquiet ⟨rfl, rfl⟩ rfl
  | leave =>
      obtain ⟨_, hs⟩ := Option.ite_none_right_eq_some.mp hs
      obtain rfl := Option.some.inj hs
      exact hquiet ⟨rfl, rfl⟩ rfl
  | closeConnection =>
      obtain rfl := Option.some.inj hs
      exact hquiet ⟨rfl, rfl⟩ rfl
  | reEstablishExecution =>
      obtain ⟨_, hs⟩ := Option.ite_none_right_eq_some.mp hs
      obtain rfl := Option.some.inj hs
      exact hquiet ⟨rfl, rfl⟩ rfl
  | joined =>
      obtain ⟨_, hs⟩ := Option.ite_none_right_eq_some.mp hs
      obtain rfl := Option.some.inj hs
      exact hquiet ⟨rfl, rfl⟩ rfl
  | callerSetup o =>
      obtain ⟨_, hs⟩ := Option.ite_none_right_eq_some.mp hs
      split at hs <;> obtain rfl := Option.some.inj hs <;> exact ⟨rfl, rfl⟩
  | callerWake =>
      simp only [WebsocketStreamHolder.step] at hs
      split at hs
      · split at hs <;> obtain rfl := Option.some.inj hs
        · exact hquiet ⟨rfl, rfl⟩ rfl
        · exact hquiet (callerFailed_ws s none) rfl
      · cases hs
  | callerTry o =>
      simp only [WebsocketStreamHolder.step] at hs
      split at hs
      · split at hs <;> obtain rfl := Option.some.inj hs
        · exact ⟨rfl, rfl⟩
        · exact callerFailed_ws (s.setupConnection o) _
      · cases hs
  | destroy =>
      obtain rfl := Option.some.inj hs
      exact hquiet ⟨rfl, rfl⟩ rfl

end streamHolder

theorem after_ws (s : WebsocketAPIStreamHolder) (next : Option Int) :
    (s.after next).ws = s.ws ∧ (s.after next).handshakes = s.handshakes := by
  unfold WebsocketAPIStreamHolder.after
  split <;> exact ⟨rfl, rfl⟩

theorem apiStep_spec {s s' : WebsocketAPIStreamHolder} {a : ApiAct} (hs : s.step a = some s') :
    s'.ws = s.ws ∧
      s'.handshakes = s.handshakes ++ (if a.reachesTls then [s.ws] else []) := by
  cases a with
  | setup o =>
      obtain ⟨_, hs⟩ := Option.ite_none_right_eq_some.mp hs
      obtain rfl := Option.some.inj hs
      exact after_ws (s.setupConnection o) _
  | tryAgain o =>
      simp only [WebsocketAPIStreamHolder.step] at hs
      split at hs
      · obtain rfl := Option.some.inj hs
        exact after_ws (s.setupConnection o) _
      · cases hs
  | sendRequest write read =>
      obtain ⟨_, hs⟩ := Option.ite_none_right_eq_some.mp hs
      obtain rfl := Option.some.inj hs
      have hquiet : (ApiAct.sendRequest write read).reachesTls = false := rfl
      rw [hquiet]
      split <;> exact ⟨rfl, (List.append_nil _).symm⟩

/-- The log of a run that always emits one object: no repetition means at most one handshake. -/
theorem nodup_flatMap_emits {α : Type*} (reaches : α → Bool) (as : List α) :
    (as.flatMap (fun a => if reaches a then [0] else [])).Nodup ↔ as.countP reaches ≤ 1 := by
  have hlog : as.flatMap (fun a => if reaches a then [0] else [])
      = List.replicate (as.countP reaches) 0 := by
    induction as with
    | nil => rfl
    | cons a as ih =>
        rw [List.flatMap_cons, ih, List.countP_cons]
        cases reaches a with
        | false => rfl
        | true => exact (List.replicate_succ ..).symm
  rw [hlog, List.nodup_replicate]

/-- **A websocket holder handshakes a TLS object once exactly while at most one try reaches the
handshake.** For every run of either holder: no stream object has two TLS handshakes if and only if
at most one of the connection tries of the run gets through resolve, connect and SNI. -/
theorem handshakes_fresh_iff (policy : BackoffPolicy) :
    (∀ (acts : List StreamAct) (s : WebsocketStreamHolder),
      runFrom WebsocketStreamHolder.step (.construct policy) acts = some s →
        (s.handshakes.Nodup ↔ acts.countP StreamAct.reachesTls ≤ 1)) ∧
    (∀ (acts : List ApiAct) (s : WebsocketAPIStreamHolder),
      runFrom WebsocketAPIStreamHolder.step (.construct policy) acts = some s →
        (s.handshakes.Nodup ↔ acts.countP ApiAct.reachesTls ≤ 1)) := by
  constructor
  · intro acts s hrun
    have hlog := runFrom_log (fun s : WebsocketStreamHolder => s.ws = 0)
      WebsocketStreamHolder.handshakes (fun a => if a.reachesTls then [0] else [])
      (fun s a s' hw hs => by
        obtain ⟨h1, h2⟩ := streamStep_spec hs
        rw [hw] at h1 h2
        exact ⟨h1, h2⟩) rfl hrun
    rw [hlog]
    exact nodup_flatMap_emits StreamAct.reachesTls acts
  · intro acts s hrun
    have hlog := runFrom_log (fun s : WebsocketAPIStreamHolder => s.ws = 0)
      WebsocketAPIStreamHolder.handshakes (fun a => if a.reachesTls then [0] else [])
      (fun s a s' hw hs => by
        obtain ⟨h1, h2⟩ := apiStep_spec hs
        rw [hw] at h1 h2
        exact ⟨h1, h2⟩) rfl hrun
    rw [hlog]
    exact nodup_flatMap_emits ApiAct.reachesTls acts

/-- A stream that comes up at once and is read until it is closed. -/
theorem handshakes_fresh_once :
    let up : SetupOutcome := ⟨true, true, true, true, true⟩
    let acts : List StreamAct := [.loopSetup up, .read true, .closeConnection, .leave]
    (acts.countP StreamAct.reachesTls ≤ 1) ∧
      ([0] : List Nat).Nodup := by
  intro up acts
  have hcount : acts.countP StreamAct.reachesTls ≤ 1 := by decide
  exact ⟨hcount, ((handshakes_fresh_iff .standard).1 acts
    ⟨0, false, false, false, .standard, .ended, .idle, [0]⟩ (by decide)).mpr hcount⟩

/-- A stream comes up, its connection is lost, and the backoff shakes hands on the same object. -/
theorem lostConnection_reuses_tls :
    ∃ s, runFrom WebsocketStreamHolder.step (.construct .standard)
        [.loopSetup ⟨true, true, true, true, true⟩, .read false, .loopWake,
          .loopTry ⟨true, true, true, false, false⟩] = some s ∧
      ¬ s.handshakes.Nodup :=
  ⟨⟨0, true, false, false, .standard, .parked 1000, .idle, [0, 0]⟩, by decide, by decide⟩

end AstraConnect.Core
