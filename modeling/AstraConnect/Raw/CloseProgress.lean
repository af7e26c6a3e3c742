import AstraConnect.Lib.Transition
import AstraConnect.Raw.CallbackProtocol

set_option autoImplicit false

/-! # `close()` comes to its end (`api/raw/rawWebsocket.hpp`)

`close()` posts `beginClose`, which stops the I/O thread at once or starts the closing handshake
with a timer beside it, and then joins the thread. From there on no step has to come from the
exchange: as long as a caller is in `close` or the I/O thread is in `run()`, a step is possible that
is no completion of a read or a write and no new call (`close_never_stuck`).

The I/O thread does not go on for ever either. A read that completes is not started again once
`closeCalled` is set, and what is posted later is bounded by the callers that had passed their
tests before, each of which posts once (`close_steps_bounded`).
-/

namespace AstraConnect.Raw.Callbacks

open Transition

variable {T : Type}

/-! ## What keeps the end coming

Once `closeCalled` is set, either `beginClose` has been posted or the caller that has won the
exchange is about to post it; and a caller with `joinLock` is joining or about to return. -/

/-- Waiting for `joinLock`, or holding it. -/
def CallPc.joins : CallPc → Bool
  | .closeLock => true
  | .closeJoin => true
  | .closeUnlock => true
  | _ => false

/-- About to post a lambda. -/
def CallPc.willPost : CallPc → Bool
  | .closeStore => true
  | .closePost => true
  | .sendPost _ _ => true
  | _ => false

/-- A step of `close`, or one of the I/O thread that is no completion of a read or a write; the
timer of the closing handshake completes it when the exchange does not answer. -/
def Act.isOwn : Act T → Bool
  | .close _ => false
  | .sendText _ _ => false
  | .sendTest (.thread _) => false
  | .sendPost (.thread _) => false
  | .readError => false
  | .readMessage _ => false
  | .writeDone _ => false
  | .setupTimer _ => false
  | _ => true

namespace Connection

/-- `beginClose` is posted, or has done its part. -/
def Begun (s : Connection T) : Prop :=
  .beginClose ∈ s.posted ∨ s.closing = true ∨ s.stopped = true

/-- **The invariant.** -/
structure Closing (s : Connection T) : Prop where
  begun : s.closeCalled = true →
    (∃ c, s.call c = .closeStore ∨ s.call c = .closePost) ∨ s.Begun
  lock : ∀ t, s.joinLock = some t →
    s.call (.thread t) = .closeJoin ∨ s.call (.thread t) = .closeUnlock
  ioThread : (s.call .ioThread).joins = false

variable {handlers : RawStreamHandlers} {s s' : Connection T}

theorem closing_connected : (connected : Connection T).Closing where
  begun h := by cases h
  lock t h := by cases h
  ioThread := rfl

/-! ## Steps of the I/O thread -/

/-- A lambda that has run has done its part. -/
theorem Begun.runLambda (h : s.Begun) {i : Nat} {f : Lambda} (hf : s.posted[i]? = some f) :
    ({ s with posted := s.posted.eraseIdx i }.runLambda f).Begun := by
  cases f with
  | send message =>
      have herased : { s with posted := s.posted.eraseIdx i }.Begun := by
        refine h.imp_left (fun hposted => ?_)
        obtain ⟨j, hj⟩ := List.mem_iff_getElem?.mp hposted
        refine List.mem_eraseIdx_iff_getElem?.mpr ⟨j, ?_, hj⟩
        rintro rfl
        rw [hf] at hj
        cases hj
      unfold Connection.runLambda Connection.onSend
      dsimp only
      split
      · split <;> exact herased
      · exact herased
  | beginClose =>
      unfold Connection.runLambda Connection.beginClose
      dsimp only
      split
      · exact .inr (.inl rfl)
      · exact .inr (.inr rfl)

theorem frame_runLambda (s : Connection T) (f : Lambda) :
    (s.runLambda f).call = s.call ∧ (s.runLambda f).joinLock = s.joinLock ∧
      (s.runLambda f).closeCalled = s.closeCalled := by
  cases f with
  | send message =>
      unfold Connection.runLambda Connection.onSend
      dsimp only
      split
      · split <;> exact ⟨rfl, rfl, rfl⟩
      · exact ⟨rfl, rfl, rfl⟩
  | beginClose =>
      unfold Connection.runLambda Connection.beginClose
      dsimp only
      split <;> exact ⟨rfl, rfl, rfl⟩

/-- The I/O thread leaves the callers where they are, and what has begun goes on. -/
theorem ioThreadStep_frame {a : Act T} (hs : ioThreadStep handlers s a = some s') :
    s'.call = s.call ∧ s'.joinLock = s.joinLock ∧ s'.closeCalled = s.closeCalled ∧
      (s.Begun → s'.Begun) := by
  cases a with
  | runLambda i =>
      obtain ⟨-, hs⟩ := Option.ite_none_right_eq_some.mp hs
      obtain ⟨f, hf, rfl⟩ := Option.map_eq_some_iff.mp hs
      obtain ⟨hcall, hlock, hclose⟩ := frame_runLambda { s with posted := s.posted.eraseIdx i } f
      exact ⟨hcall, hlock, hclose, fun h => h.runLambda hf⟩
  | writeDone success =>
      obtain ⟨-, hs⟩ := Option.ite_none_right_eq_some.mp hs
      obtain rfl := Option.some.inj hs
      unfold Connection.onWrite
      dsimp only
      split
      · split <;> exact ⟨rfl, rfl, rfl, id⟩
      · exact ⟨rfl, rfl, rfl, id⟩
  | callbackDone throws =>
      obtain ⟨-, hs⟩ := Option.ite_none_right_eq_some.mp hs
      split at hs
      · obtain rfl := Option.some.inj hs
        exact ⟨rfl, rfl, rfl, id⟩
      · obtain rfl := Option.some.inj hs
        exact ⟨rfl, rfl, rfl, id⟩
      · cases hs
  | afterRead =>
      obtain ⟨-, hs⟩ := Option.ite_none_right_eq_some.mp hs
      obtain rfl := Option.some.inj hs
      split <;> exact ⟨rfl, rfl, rfl, id⟩
  | errorReport =>
      obtain ⟨-, hs⟩ := Option.ite_none_right_eq_some.mp hs
      obtain rfl := Option.some.inj hs
      split
      · exact ⟨rfl, rfl, rfl, id⟩
      · split <;> exact ⟨rfl, rfl, rfl, id⟩
  | closeDone =>
      obtain ⟨-, hs⟩ := Option.ite_none_right_eq_some.mp hs
      obtain rfl := Option.some.inj hs
      exact ⟨rfl, rfl, rfl, fun _ => .inr (.inr rfl)⟩
  | readError | readMessage | errorStore | errorTest | errorDrop | setupTimer | runReturn =>
      obtain ⟨-, hs⟩ := Option.ite_none_right_eq_some.mp hs
      obtain rfl := Option.some.inj hs
      exact ⟨rfl, rfl, rfl, id⟩
  | _ => cases hs

theorem closing_ioThreadStep (h : s.Closing) {a : Act T}
    (hs : ioThreadStep handlers s a = some s') : s'.Closing := by
  obtain ⟨hcall, hlock, hclose, hbegun⟩ := ioThreadStep_frame hs
  constructor
  · rw [hcall, hclose]
    exact fun hc => (h.begun hc).imp_right hbegun
  · rw [hcall, hlock]
    exact h.lock
  · rw [hcall]
    exact h.ioThread

/-! ## Steps of the callers -/

section

variable [DecidableEq T]

/-- A caller goes on. -/
theorem closing_setCall {c : Caller T} {pc : CallPc}
    (hbegun : s.closeCalled = true → (pc = .closeStore ∨ pc = .closePost) ∨
      (∃ c', c' ≠ c ∧ (s.call c' = .closeStore ∨ s.call c' = .closePost)) ∨ s.Begun)
    (hlock : ∀ t, s.joinLock = some t → .thread t ≠ c →
      s.call (.thread t) = .closeJoin ∨ s.call (.thread t) = .closeUnlock)
    (hmine : ∀ t, s.joinLock = some t → .thread t = c → pc = .closeJoin ∨ pc = .closeUnlock)
    (hioThread : (s.call .ioThread).joins = false) (hjoins : c = .ioThread → pc.joins = false) :
    (s.setCall c pc).Closing := by
  constructor
  · intro hc
    rcases hbegun hc with hpc | ⟨c', hne, hc'⟩ | hbegun
    · refine .inl ⟨c, ?_⟩
      show Function.update s.call c pc c = _ ∨ Function.update s.call c pc c = _
      rwa [Function.update_self]
    · refine .inl ⟨c', ?_⟩
      show Function.update s.call c pc c' = _ ∨ Function.update s.call c pc c' = _
      rwa [Function.update_of_ne hne]
    · exact .inr hbegun
  · intro t ht
    show Function.update s.call c pc _ = _ ∨ Function.update s.call c pc _ = _
    by_cases hc : .thread t = c
    · rw [hc, Function.update_self]
      exact hmine t ht hc
    · rw [Function.update_of_ne hc]
      exact hlock t ht hc
  · show (Function.update s.call c pc .ioThread).joins = false
    by_cases hc : c = .ioThread
    · rw [hc, Function.update_self]
      exact hjoins hc
    · rw [Function.update_of_ne (Ne.symm hc)]
      exact hioThread

omit [DecidableEq T] in
/-- The one that posts `beginClose` is another caller, or has posted it. -/
theorem Closing.begun_of_ne (h : s.Closing) {c : Caller T} (hstore : s.call c ≠ .closeStore)
    (hpost : s.call c ≠ .closePost) (hclose : s.closeCalled = true) :
    (∃ c', c' ≠ c ∧ (s.call c' = .closeStore ∨ s.call c' = .closePost)) ∨ s.Begun := by
  refine (h.begun hclose).imp_left ?_
  rintro ⟨c', hc'⟩
  refine ⟨c', ?_, hc'⟩
  rintro rfl
  exact hc'.elim hstore hpost

omit [DecidableEq T] in
/-- Whoever is neither joining nor about to return does not hold the lock. -/
theorem Closing.not_mine (h : s.Closing) {c : Caller T} (hjoin : s.call c ≠ .closeJoin)
    (hunlock : s.call c ≠ .closeUnlock) {t : T} (ht : s.joinLock = some t) :
    .thread t ≠ c := by
  rintro rfl
  exact (h.lock t ht).elim hjoin hunlock

/-- A caller that is at no step of `close` goes on. -/
theorem Closing.setCall (h : s.Closing) {c : Caller T} {pc : CallPc}
    (hstore : s.call c ≠ .closeStore) (hpost : s.call c ≠ .closePost)
    (hjoin : s.call c ≠ .closeJoin) (hunlock : s.call c ≠ .closeUnlock)
    (hjoins : c = .ioThread → pc.joins = false) : (s.setCall c pc).Closing :=
  closing_setCall (fun hc => .inr (h.begun_of_ne hstore hpost hc)) (fun t ht _ => h.lock t ht)
    (fun _ ht hmine => absurd hmine (h.not_mine hjoin hunlock ht)) h.ioThread hjoins

omit [DecidableEq T] in
theorem joins_afterPost {c : Caller T} (hc : c = .ioThread) : (afterPost c).joins = false := by
  rw [hc]
  rfl

theorem closing_callStep (h : s.Closing) {a : Act T} (hs : callStep s a = some s') :
    s'.Closing := by
  cases a with
  | close c =>
      obtain ⟨⟨hidle, -⟩, hs⟩ := Option.ite_none_right_eq_some.mp hs
      obtain rfl := Option.some.inj hs
      split
      · apply h.setCall <;> first | (rw [hidle]; nofun) | exact joins_afterPost
      · refine closing_setCall (fun _ => .inl (.inl rfl)) (fun t ht _ => h.lock t ht)
          (fun t ht hmine => absurd hmine (h.not_mine ?_ ?_ ht)) h.ioThread (fun _ => rfl)
        · rw [hidle]
          nofun
        · rw [hidle]
          nofun
  | closeStore c =>
      obtain ⟨hstore, hs⟩ := Option.ite_none_right_eq_some.mp hs
      obtain rfl := Option.some.inj hs
      refine closing_setCall (fun _ => .inl (.inr rfl)) (fun t ht _ => h.lock t ht)
        (fun t ht hmine => absurd hmine (h.not_mine ?_ ?_ ht)) h.ioThread (fun _ => rfl)
      · rw [hstore]
        nofun
      · rw [hstore]
        nofun
  | closePost c =>
      obtain ⟨hpost, hs⟩ := Option.ite_none_right_eq_some.mp hs
      obtain rfl := Option.some.inj hs
      refine closing_setCall (fun _ => .inr (.inr (.inl ?_))) (fun t ht _ => h.lock t ht)
        (fun t ht hmine => absurd hmine (h.not_mine ?_ ?_ ht)) h.ioThread joins_afterPost
      · exact List.mem_append_right _ (List.mem_singleton_self _)
      · rw [hpost]
        nofun
      · rw [hpost]
        nofun
  | closeLock t =>
      obtain ⟨⟨hlock, hfree⟩, hs⟩ := Option.ite_none_right_eq_some.mp hs
      obtain rfl := Option.some.inj hs
      refine closing_setCall (fun hc => .inr (h.begun_of_ne ?_ ?_ hc))
        (fun t' ht' hne => absurd (congrArg Caller.thread (Option.some.inj ht').symm) hne)
        (fun _ _ _ => .inl rfl) h.ioThread nofun
      · rw [hlock]
        nofun
      · rw [hlock]
        nofun
  | closeJoin t =>
      obtain ⟨⟨hjoin, -⟩, hs⟩ := Option.ite_none_right_eq_some.mp hs
      obtain rfl := Option.some.inj hs
      refine closing_setCall (fun hc => .inr (h.begun_of_ne ?_ ?_ hc)) (fun t ht _ => h.lock t ht)
        (fun _ _ _ => .inr rfl) h.ioThread nofun
      · rw [hjoin]
        nofun
      · rw [hjoin]
        nofun
  | closeReturn t =>
      obtain ⟨hunlock, hs⟩ := Option.ite_none_right_eq_some.mp hs
      obtain rfl := Option.some.inj hs
      refine closing_setCall (fun hc => .inr (h.begun_of_ne ?_ ?_ hc)) nofun nofun h.ioThread nofun
      · rw [hunlock]
        nofun
      · rw [hunlock]
        nofun
  | sendText c text =>
      obtain ⟨⟨hidle, -⟩, hs⟩ := Option.ite_none_right_eq_some.mp hs
      obtain rfl := Option.some.inj hs
      split
      · apply h.setCall <;> first | (rw [hidle]; nofun) | exact fun _ => rfl
      · exact ⟨h.begun, h.lock, h.ioThread⟩
  | sendTest c =>
      unfold callStep at hs
      dsimp only at hs
      split at hs
      · rename_i late text hsend
        obtain rfl := Option.some.inj hs
        split
        · have hsent : { s with sends := ⟨late, false⟩ :: s.sends }.Closing :=
            ⟨h.begun, h.lock, h.ioThread⟩
          apply hsent.setCall <;> first | (dsimp only; rw [hsend]; nofun) | exact fun _ => rfl
        · apply h.setCall <;> first | (rw [hsend]; nofun) | exact fun _ => rfl
      · cases hs
  | sendPost c =>
      unfold callStep at hs
      dsimp only at hs
      split at hs
      · rename_i late text hsend
        obtain rfl := Option.some.inj hs
        have hsent : { s with
            posted := s.posted ++ [Lambda.send text]
            sends := ⟨late, true⟩ :: s.sends }.Closing :=
          ⟨fun hc => (h.begun hc).imp_right (Or.imp_left (List.mem_append_left _)), h.lock,
            h.ioThread⟩
        apply hsent.setCall <;> first | (dsimp only; rw [hsend]; nofun) | exact fun _ => rfl
      · cases hs
  | _ => cases hs

theorem closing_step (h : s.Closing) {a : Act T} (hs : step handlers s a = some s') :
    s'.Closing := by
  rcases Option.or_eq_some_iff.mp hs with hs | ⟨-, hs⟩
  · exact closing_callStep h hs
  · exact closing_ioThreadStep h hs

theorem closing_of_reach (h : Reach (step handlers) (fun _ _ => True) connected s) : s.Closing :=
  h.invariant closing_connected (fun _ _ _ hi _ hs => closing_step hi hs)

/-! ## Nobody is stuck -/

theorem isSome_step {a : Act T}
    (h : (callStep s a).isSome ∨ (ioThreadStep handlers s a).isSome) :
    (step handlers s a).isSome := by
  rw [step, Option.isSome_or, Bool.or_eq_true]
  exact h

/-- The I/O thread has a step to take. -/
theorem Closing.ioThread_goes (h : s.Closing) (hbegun : s.Begun)
    (hwinner : ¬ ∃ c, s.call c = .closeStore ∨ s.call c = .closePost) (hio : s.io ≠ .ended) :
    ∃ a : Act T, a.isOwn = true ∧ (step handlers s a).isSome := by
  have hcallback : s.io.InCallback →
      ∃ a : Act T, a.isOwn = true ∧ (step handlers s a).isSome := by
    intro hin
    have hjoins := h.ioThread
    cases hcall : s.call .ioThread with
    | idle =>
        refine ⟨.callbackDone false, rfl, isSome_step (.inr ?_)⟩
        rw [ioThreadStep, if_pos hcall]
        rcases hin with hin | hin <;> rw [hin] <;> rfl
    | closeStore => exact absurd ⟨_, .inl hcall⟩ hwinner
    | closePost => exact absurd ⟨_, .inr hcall⟩ hwinner
    | sendTest late text =>
        refine ⟨.sendTest .ioThread, rfl, isSome_step (.inl ?_)⟩
        rw [callStep, hcall]
        rfl
    | sendPost late text =>
        refine ⟨.sendPost .ioThread, rfl, isSome_step (.inl ?_)⟩
        rw [callStep, hcall]
        rfl
    | _ =>
        rw [hcall] at hjoins
        cases hjoins
  cases hpc : s.io with
  | running =>
      by_cases hstopped : s.stopped = true
      · refine ⟨.runReturn, rfl, isSome_step (.inr ?_)⟩
        rw [ioThreadStep, if_pos ⟨hpc, .inl hstopped⟩]
        rfl
      · rw [Bool.not_eq_true] at hstopped
        rcases hbegun with hposted | hclosing | hstop
        · refine ⟨.runLambda 0, rfl, isSome_step (.inr ?_)⟩
          rw [ioThreadStep, if_pos ⟨hpc, hstopped⟩, Option.isSome_map]
          rw [List.getElem?_eq_getElem (List.length_pos_of_mem hposted)]
          rfl
        · refine ⟨.closeDone, rfl, isSome_step (.inr ?_)⟩
          rw [ioThreadStep, if_pos ⟨hpc, hstopped, hclosing⟩]
          rfl
        · rw [hstopped] at hstop
          cases hstop
  | onMessage => exact hcallback (.inl hpc)
  | onClose => exact hcallback (.inr hpc)
  | afterRead =>
      refine ⟨.afterRead, rfl, isSome_step (.inr ?_)⟩
      rw [ioThreadStep, if_pos hpc]
      rfl
  | errorStore =>
      refine ⟨.errorStore, rfl, isSome_step (.inr ?_)⟩
      rw [ioThreadStep, if_pos hpc]
      rfl
  | errorTest =>
      refine ⟨.errorTest, rfl, isSome_step (.inr ?_)⟩
      rw [ioThreadStep, if_pos hpc]
      rfl
  | errorDrop =>
      refine ⟨.errorDrop, rfl, isSome_step (.inr ?_)⟩
      rw [ioThreadStep, if_pos hpc]
      rfl
  | errorReport =>
      refine ⟨.errorReport, rfl, isSome_step (.inr ?_)⟩
      rw [ioThreadStep, if_pos hpc]
      rfl
  | ended => exact absurd hpc hio

/-- Once the I/O thread has ended, a caller that joins it or waits for `joinLock` has a step to
take, or the holder of the lock has one. -/
theorem Closing.caller_goes (h : s.Closing) (hio : s.io = .ended) {t : T}
    (hjoins : (s.call (.thread t)).joins = true) :
    ∃ a : Act T, a.isOwn = true ∧ (step handlers s a).isSome := by
  have hholder : ∀ u, s.call (.thread u) = .closeJoin ∨ s.call (.thread u) = .closeUnlock →
      ∃ a : Act T, a.isOwn = true ∧ (step handlers s a).isSome := by
    rintro u (hu | hu)
    · refine ⟨.closeJoin u, rfl, isSome_step (.inl ?_)⟩
      rw [callStep, if_pos ⟨hu, .inr hio⟩]
      rfl
    · refine ⟨.closeReturn u, rfl, isSome_step (.inl ?_)⟩
      rw [callStep, if_pos hu]
      rfl
  cases hcall : s.call (.thread t) with
  | closeLock =>
      cases hlock : s.joinLock with
      | none =>
          refine ⟨.closeLock t, rfl, isSome_step (.inl ?_)⟩
          rw [callStep, if_pos ⟨hcall, hlock⟩]
          rfl
      | some u => exact hholder u (h.lock u hlock)
  | closeJoin => exact hholder t (.inl hcall)
  | closeUnlock => exact hholder t (.inr hcall)
  | _ =>
      rw [hcall] at hjoins
      cases hjoins

end

/-! ## The steps that are left

Every kind of outstanding work has a weight, and a step of the I/O thread turns it into work of
less weight. Only a post adds to it, and a caller that posts does not post again. -/

end Connection

/-- The steps until the I/O thread is back in `run()`, with one for its return. -/
def IoPc.left : IoPc → Nat
  | .ended => 0
  | .running => 1
  | .onClose => 2
  | .afterRead => 2
  | .errorReport => 3
  | .errorDrop => 4
  | .errorTest => 5
  | .errorStore => 6
  | .onMessage => 7

namespace Act

/-- A step of the I/O thread. -/
def isIo : Act T → Bool
  | .readError => true
  | .readMessage _ => true
  | .callbackDone _ => true
  | .afterRead => true
  | .writeDone _ => true
  | .errorStore => true
  | .errorTest => true
  | .errorDrop => true
  | .errorReport => true
  | .runLambda _ => true
  | .closeDone => true
  | .setupTimer _ => true
  | .runReturn => true
  | _ => false

/-- The caller that posts a lambda. -/
def poster : Act T → Option (Caller T)
  | .closePost c => some c
  | .sendPost c => some c
  | _ => none

def posts (a : Act T) : Bool := a.poster.isSome

end Act

namespace Connection

variable {handlers : RawStreamHandlers} {s s' : Connection T}

/-- What the I/O thread still has to do if nothing more is posted. -/
def stepsLeft (s : Connection T) : Nat :=
  s.io.left + (if s.reading then 7 else 0) + 6 * s.writing + s.writeQueue.length +
    8 * s.posted.length + (if s.closing then 1 else 0) + if s.setupWaiting then 1 else 0

theorem stepsLeft_doWrite (s : Connection T) : s.doWrite.stepsLeft = s.stepsLeft + 6 := by
  unfold stepsLeft doWrite
  dsimp only
  omega

/-- A lambda costs less than it does while it is posted. -/
theorem stepsLeft_runLambda (s : Connection T) (f : Lambda) :
    (s.runLambda f).stepsLeft ≤ s.stepsLeft + 7 := by
  cases f with
  | send message =>
      unfold runLambda onSend
      dsimp only
      split
      · split
        · rw [stepsLeft_doWrite, stepsLeft, stepsLeft]
          dsimp only
          rw [List.length_append, List.length_singleton]
          omega
        · rw [stepsLeft, stepsLeft]
          dsimp only
          rw [List.length_append, List.length_singleton]
          omega
      · exact Nat.le_add_right _ _
  | beginClose =>
      unfold runLambda beginClose
      dsimp only
      split
      · rw [stepsLeft, stepsLeft]
        dsimp only
        rw [if_pos rfl]
        omega
      · exact Nat.le_add_right _ _

/-- A write that completes starts the next one of the queue at most. -/
theorem stepsLeft_onWrite (hio : s.io = .running) (hwriting : s.writing ≠ 0) (success : Bool) :
    (s.onWrite success).stepsLeft + 1 ≤ s.stepsLeft := by
  have hleft : IoPc.running.left = 1 := rfl
  have herror : IoPc.errorStore.left = 6 := rfl
  unfold onWrite
  dsimp only
  split
  · split
    · rename_i hempty
      rw [stepsLeft, stepsLeft]
      dsimp only
      rw [hempty, List.length_nil]
      omega
    · rename_i hne
      rw [stepsLeft_doWrite, stepsLeft, stepsLeft]
      dsimp only at hne ⊢
      have hlength := List.length_pos_of_ne_nil hne
      rw [List.length_tail] at hlength ⊢
      omega
  · rw [stepsLeft, stepsLeft, hio, hleft]
    dsimp only
    rw [herror]
    omega

/-- **After `close()` every step of the I/O thread brings its end nearer.** -/
theorem stepsLeft_ioThreadStep (hclose : s.closeCalled = true) {a : Act T}
    (hs : ioThreadStep handlers s a = some s') : s'.stepsLeft + 1 ≤ s.stepsLeft := by
  cases a with
  | readError =>
      obtain ⟨⟨hio, -, hreading⟩, hs⟩ := Option.ite_none_right_eq_some.mp hs
      obtain rfl := Option.some.inj hs
      simp only [stepsLeft, hio, hreading, IoPc.left, if_true, Bool.false_eq_true, if_false]
      omega
  | readMessage isText =>
      obtain ⟨⟨hio, -, hreading⟩, hs⟩ := Option.ite_none_right_eq_some.mp hs
      obtain rfl := Option.some.inj hs
      have hhandler : (if isText && handlers.onMessage then IoPc.onMessage else .afterRead).left
          ≤ 7 := by split <;> decide
      simp only [stepsLeft, hio, hreading, if_true, Bool.false_eq_true, if_false]
      have hleft : IoPc.running.left = 1 := rfl
      omega
  | callbackDone throws =>
      obtain ⟨-, hs⟩ := Option.ite_none_right_eq_some.mp hs
      split at hs
      · rename_i hio
        obtain rfl := Option.some.inj hs
        have hhandled : (if throws then IoPc.errorStore else .afterRead).left ≤ 6 := by
          split <;> decide
        simp only [stepsLeft, hio]
        have hleft : IoPc.onMessage.left = 7 := rfl
        omega
      · rename_i hio
        obtain rfl := Option.some.inj hs
        simp only [stepsLeft, hio, IoPc.left]
        omega
      · cases hs
  | afterRead =>
      obtain ⟨hio, hs⟩ := Option.ite_none_right_eq_some.mp hs
      rw [if_pos hclose] at hs
      obtain rfl := Option.some.inj hs
      simp only [stepsLeft, hio, IoPc.left]
      omega
  | writeDone success =>
      obtain ⟨⟨hio, -, hwriting⟩, hs⟩ := Option.ite_none_right_eq_some.mp hs
      obtain rfl := Option.some.inj hs
      exact stepsLeft_onWrite hio hwriting success
  | errorStore =>
      obtain ⟨hio, hs⟩ := Option.ite_none_right_eq_some.mp hs
      obtain rfl := Option.some.inj hs
      simp only [stepsLeft, hio, IoPc.left]
      omega
  | errorTest =>
      obtain ⟨hio, hs⟩ := Option.ite_none_right_eq_some.mp hs
      rw [if_pos hclose] at hs
      obtain rfl := Option.some.inj hs
      simp only [stepsLeft, hio, IoPc.left]
      omega
  | errorDrop =>
      obtain ⟨hio, hs⟩ := Option.ite_none_right_eq_some.mp hs
      obtain rfl := Option.some.inj hs
      simp only [stepsLeft, hio, IoPc.left, List.length_nil]
      omega
  | errorReport =>
      obtain ⟨hio, hs⟩ := Option.ite_none_right_eq_some.mp hs
      obtain rfl := Option.some.inj hs
      split
      · simp only [stepsLeft, hio, IoPc.left]
        omega
      · split <;> simp only [stepsLeft, hio, IoPc.left] <;> omega
  | runLambda i =>
      obtain ⟨-, hs⟩ := Option.ite_none_right_eq_some.mp hs
      obtain ⟨f, hf, rfl⟩ := Option.map_eq_some_iff.mp hs
      have hle := stepsLeft_runLambda { s with posted := s.posted.eraseIdx i } f
      have hlt := (List.getElem?_eq_some_iff.mp hf).1
      have herased : ({ s with posted := s.posted.eraseIdx i } : Connection T).stepsLeft + 8 =
          s.stepsLeft := by
        simp only [stepsLeft, List.length_eraseIdx_of_lt hlt]
        omega
      omega
  | closeDone =>
      obtain ⟨⟨-, -, hclosing⟩, hs⟩ := Option.ite_none_right_eq_some.mp hs
      obtain rfl := Option.some.inj hs
      simp only [stepsLeft, hclosing, if_true, Bool.false_eq_true, if_false]
      omega
  | setupTimer expired =>
      obtain ⟨⟨-, -, hwaiting⟩, hs⟩ := Option.ite_none_right_eq_some.mp hs
      obtain rfl := Option.some.inj hs
      simp only [stepsLeft, hwaiting, if_true, Bool.false_eq_true, if_false]
      omega
  | runReturn =>
      obtain ⟨⟨hio, -⟩, hs⟩ := Option.ite_none_right_eq_some.mp hs
      obtain rfl := Option.some.inj hs
      simp only [stepsLeft, hio, IoPc.left]
      omega
  | _ => cases hs

theorem stepsLeft_concat (s : Connection T) (f : Lambda) :
    ({ s with posted := s.posted ++ [f] } : Connection T).stepsLeft = s.stepsLeft + 8 := by
  simp only [stepsLeft, List.length_append, List.length_singleton]
  omega

section

variable [DecidableEq T]

/-- The posts that a caller still has to make. -/
def postsLeft (s : Connection T) (c : Caller T) : Nat := if (s.call c).willPost then 1 else 0

/-- What a caller can do after `close()`. -/
structure CallerStep (s : Connection T) (a : Act T) (s' : Connection T) : Prop where
  isIo : a.isIo = false
  closeCalled : s'.closeCalled = true
  stepsLeft : s'.stepsLeft ≤ s.stepsLeft + if a.posts then 8 else 0
  posts : ∀ c, s'.postsLeft c + (if a.poster = some c then 1 else 0) ≤ s.postsLeft c

theorem postsLeft_setCall {c : Caller T} {pc : CallPc}
    (h : pc.willPost = true → (s.call c).willPost = true) (c' : Caller T) :
    (s.setCall c pc).postsLeft c' ≤ s.postsLeft c' := by
  show (if (Function.update s.call c pc c').willPost then 1 else 0) ≤ s.postsLeft c'
  by_cases hc : c' = c
  · rw [hc, Function.update_self]
    cases hpc : pc.willPost with
    | false => exact Nat.zero_le _
    | true =>
        rw [postsLeft, h hpc]
  · rw [Function.update_of_ne hc]
    exact le_rfl

theorem postsLeft_setCall_of_posts {c : Caller T} {pc : CallPc} (hpc : pc.willPost = false)
    (hc : (s.call c).willPost = true) (c' : Caller T) :
    (s.setCall c pc).postsLeft c' + (if some c = some c' then 1 else 0) ≤ s.postsLeft c' := by
  show (if (Function.update s.call c pc c').willPost then 1 else 0) + _ ≤ s.postsLeft c'
  by_cases heq : c' = c
  · subst heq
    rw [Function.update_self, hpc, postsLeft, hc, if_pos rfl]
    exact le_rfl
  · have hne : some c ≠ some c' := fun h => heq (Option.some.inj h).symm
    rw [Function.update_of_ne heq, if_neg hne]
    exact le_rfl

omit [DecidableEq T] in
theorem willPost_afterPost (c : Caller T) : (afterPost c).willPost = false := by
  cases c <;> rfl

theorem callerStep (hclose : s.closeCalled = true) {a : Act T} (hs : callStep s a = some s') :
    CallerStep s a s' := by
  cases a with
  | close c =>
      obtain ⟨-, hs⟩ := Option.ite_none_right_eq_some.mp hs
      rw [if_pos hclose] at hs
      obtain rfl := Option.some.inj hs
      refine ⟨rfl, hclose, le_rfl, fun c' => postsLeft_setCall ?_ c'⟩
      rw [willPost_afterPost]
      nofun
  | closeStore c =>
      obtain ⟨hc, hs⟩ := Option.ite_none_right_eq_some.mp hs
      obtain rfl := Option.some.inj hs
      refine ⟨rfl, hclose, le_rfl, fun c' => ?_⟩
      exact postsLeft_setCall (s := { s with isOpen := false }) (fun _ => by rw [hc]; rfl) c'
  | closePost c =>
      obtain ⟨hc, hs⟩ := Option.ite_none_right_eq_some.mp hs
      obtain rfl := Option.some.inj hs
      refine ⟨rfl, hclose, ?_, fun c' => ?_⟩
      · exact (stepsLeft_concat s .beginClose).le
      · exact postsLeft_setCall_of_posts (s := { s with posted := s.posted ++ [Lambda.beginClose] })
          (willPost_afterPost c) (by rw [hc]; rfl) c'
  | closeLock t =>
      obtain ⟨-, hs⟩ := Option.ite_none_right_eq_some.mp hs
      obtain rfl := Option.some.inj hs
      exact ⟨rfl, hclose, le_rfl,
        fun c' => postsLeft_setCall (s := { s with joinLock := some t }) (fun h => by cases h) c'⟩
  | closeJoin t =>
      obtain ⟨-, hs⟩ := Option.ite_none_right_eq_some.mp hs
      obtain rfl := Option.some.inj hs
      exact ⟨rfl, hclose, le_rfl,
        fun c' => postsLeft_setCall (s := { s with joined := true }) (fun h => by cases h) c'⟩
  | closeReturn t =>
      obtain ⟨-, hs⟩ := Option.ite_none_right_eq_some.mp hs
      obtain rfl := Option.some.inj hs
      exact ⟨rfl, hclose, le_rfl, fun c' =>
        postsLeft_setCall (s := { s with joinLock := none, closeReturned := true })
          (fun h => by cases h) c'⟩
  | sendText c text =>
      obtain ⟨-, hs⟩ := Option.ite_none_right_eq_some.mp hs
      obtain rfl := Option.some.inj hs
      split
      · exact ⟨rfl, hclose, le_rfl, fun c' => postsLeft_setCall (fun h => by cases h) c'⟩
      · exact ⟨rfl, hclose, le_rfl, fun _ => le_rfl⟩
  | sendTest c =>
      unfold callStep at hs
      dsimp only at hs
      split at hs
      · rename_i late text hc
        rw [if_pos hclose] at hs
        obtain rfl := Option.some.inj hs
        exact ⟨rfl, hclose, le_rfl, fun c' =>
          postsLeft_setCall (s := { s with sends := ⟨late, false⟩ :: s.sends })
            (fun h => by cases h) c'⟩
      · cases hs
  | sendPost c =>
      unfold callStep at hs
      dsimp only at hs
      split at hs
      · rename_i late text hc
        obtain rfl := Option.some.inj hs
        let posted : Connection T := { s with
          posted := s.posted ++ [Lambda.send text], sends := ⟨late, true⟩ :: s.sends }
        refine ⟨rfl, hclose, ?_, fun c' => ?_⟩
        · exact (stepsLeft_concat s (.send text)).le
        · have hmine : (posted.call c).willPost = true := by
            show (s.call c).willPost = true
            rw [hc]
            rfl
          exact postsLeft_setCall_of_posts rfl hmine c'
      · cases hs
  | _ => cases hs

omit [DecidableEq T] in
/-- A step of the I/O thread is no step of a caller. -/
theorem poster_of_ioThreadStep {a : Act T} (hs : ioThreadStep handlers s a = some s') :
    a.isIo = true ∧ a.poster = none := by
  cases a <;> first | exact ⟨rfl, rfl⟩ | cases hs

theorem closeCalled_step (hclose : s.closeCalled = true) {a : Act T}
    (hs : step handlers s a = some s') : s'.closeCalled = true := by
  rcases Option.or_eq_some_iff.mp hs with hs | ⟨-, hs⟩
  · exact (callerStep hclose hs).closeCalled
  · exact (ioThreadStep_frame hs).2.2.1.trans hclose

theorem stepsLeft_step (hclose : s.closeCalled = true) {a : Act T}
    (hs : step handlers s a = some s') :
    s'.stepsLeft + (if a.isIo then 1 else 0) ≤ s.stepsLeft + if a.posts then 8 else 0 := by
  rcases Option.or_eq_some_iff.mp hs with hs | ⟨-, hs⟩
  · have hcaller := callerStep hclose hs
    rw [hcaller.isIo]
    exact hcaller.stepsLeft
  · rw [(poster_of_ioThreadStep hs).1]
    exact (stepsLeft_ioThreadStep hclose hs).trans (Nat.le_add_right _ _)

theorem postsLeft_step (hclose : s.closeCalled = true) {a : Act T}
    (hs : step handlers s a = some s') (c : Caller T) :
    s'.postsLeft c + (if decide (a.poster = some c) then 1 else 0) ≤ s.postsLeft c := by
  rcases Option.or_eq_some_iff.mp hs with hs | ⟨-, hs⟩
  · simpa using (callerStep hclose hs).posts c
  · rw [(poster_of_ioThreadStep hs).2, postsLeft, postsLeft, (ioThreadStep_frame hs).1]
    exact le_rfl

end

end Connection

section Main

variable [DecidableEq T] {handlers : RawStreamHandlers} {s s' : Connection T}

open Connection

/-- **`close()` is never stuck.** Once it has been called, and until the I/O thread has ended and
every `close()` of another thread has returned, one of these has a step to take, whether or not the
exchange answers. A callback that runs is taken to end. -/
theorem close_never_stuck
    (h : Reach (step handlers) (fun _ _ => True) Connection.connected s)
    (hclose : s.closeCalled = true)
    (hleft : s.io ≠ .ended ∨ ∃ t, (s.call (.thread t)).joins = true) :
    ∃ a : Act T, a.isOwn = true ∧ (step handlers s a).isSome := by
  have hi := closing_of_reach h
  by_cases hwinner : ∃ c, s.call c = .closeStore ∨ s.call c = .closePost
  · obtain ⟨c, hc | hc⟩ := hwinner
    · refine ⟨.closeStore c, rfl, isSome_step (.inl ?_)⟩
      rw [callStep, if_pos hc]
      rfl
    · refine ⟨.closePost c, rfl, isSome_step (.inl ?_)⟩
      rw [callStep, if_pos hc]
      rfl
  · have hbegun := (hi.begun hclose).resolve_left hwinner
    by_cases hio : s.io = .ended
    · obtain ⟨t, ht⟩ := hleft.resolve_left (fun hne => hne hio)
      exact hi.caller_goes hio ht
    · exact hi.ioThread_goes hbegun hwinner hio

/-- The read completes with an error before the thread has seen the call. -/
def closeDuringRead : List (Act Unit) :=
  [.close (.thread ()), .readError, .closeStore (.thread ()), .closePost (.thread ()),
    .closeLock ()]

def afterClose : Option (Connection Unit) :=
  runFrom (step ⟨true, true⟩) Connection.connected closeDuringRead

theorem close_never_stuck_duringRead :
    ∃ a : Act Unit, a.isOwn = true ∧
      (step ⟨true, true⟩ (afterClose.get rfl) a).isSome := by
  have hsome : afterClose.isSome := rfl
  have hio : (afterClose.get hsome).io ≠ .ended := fun h => by cases h
  exact close_never_stuck (Reach.refl.of_run (Option.some_get hsome).symm) rfl (.inl hio)

/-- **The I/O thread comes to its end.** After `closeCalled` is set it takes no more steps than what
is outstanding, queued and posted comes to, however the steps of the threads are ordered, and each
caller posts once more at most, if it had passed its tests before. -/
theorem close_steps_bounded (hclose : s.closeCalled = true) {as : List (Act T)}
    (hrun : runFrom (step handlers) s as = some s') :
    as.countP Act.isIo + s'.stepsLeft ≤ s.stepsLeft + 8 * as.countP Act.posts ∧
      ∀ c, as.countP (fun a => decide (a.poster = some c)) ≤
        if (s.call c).willPost then 1 else 0 := by
  have hstays : ∀ (s : Connection T) (a : Act T) s', s.closeCalled = true →
      step handlers s a = some s' → s'.closeCalled = true :=
    fun _ _ _ hc hs => closeCalled_step hc hs
  refine ⟨?_, fun c => ?_⟩
  · exact countP_le_measure hstays (fun _ _ _ hc hs => stepsLeft_step hc hs) hclose hrun
  · have hle := countP_le_measure_of_lowers hstays
      (fun _ _ _ hc hs => postsLeft_step hc hs c) hclose hrun
    exact (Nat.le_add_right _ _).trans hle

/-- The rest of the run: the error is expected, and the timer of the handshake stops the thread. -/
def closeByTimer : List (Act Unit) :=
  [.errorStore, .errorTest, .runLambda 0, .closeDone, .runReturn, .closeJoin (), .closeReturn ()]

theorem close_steps_bounded_byTimer :
    closeByTimer.countP Act.isIo = 5 ∧ 5 + 1 ≤ (afterClose.get rfl).stepsLeft := by
  have hclose : (afterClose.get rfl).closeCalled = true := rfl
  have hsome : (runFrom (step ⟨true, true⟩) (afterClose.get rfl) closeByTimer).isSome := rfl
  exact ⟨rfl, (close_steps_bounded hclose (Option.some_get hsome).symm).1⟩

end Main

end AstraConnect.Raw.Callbacks
