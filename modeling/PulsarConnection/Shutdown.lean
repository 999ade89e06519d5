import Mathlib.Logic.Relation
import PulsarConnection.Writer
import PulsarConnection.Validity

/-!
# After a transport task has ended

Nothing in `ConnectionSender` reads the shared error cell: a caller's step does
the same whatever the cell holds.  A call fails when the Receiver drops its
resolver, or when one of its own channel sends fails, and a send fails exactly
when the task at the other end has ended: a post of a registration once the
Receiver has exited, an enqueue once the Writer has stopped.  From then on that
send fails for every caller, and what the task left behind stays as it was: the
Receiver's tables, and the frames handed to the sink.

So an operation started after the Writer has stopped, or one that posts a
registration started after the Receiver has exited, returns
`Err(Disconnected)` after a few steps of its own; but the cell plays no part,
and a notification started while the Writer runs returns `Ok(())` and is
written whether or not the cell is set.
-/

namespace PulsarConnection

namespace System

variable {s s' s'' : System}

/-- `s'` is reached from `s` by steps of the connection. -/
def Reaches (s s' : System) : Prop :=
  Relation.ReflTransGen (fun s s' => ∃ a, s.step a = some s') s s'

theorem Reaches.of_exec {actions : List Action} (hExec : s.exec actions = some s') :
    Reaches s s' := by
  induction actions generalizing s with
  | nil => cases hExec; exact .refl
  | cons a rest ih =>
      simp only [exec, Option.bind_eq_some] at hExec
      obtain ⟨s₁, hStep, hRest⟩ := hExec
      exact .head ⟨a, hStep⟩ (ih hRest)

end System

theorem Reachable.reaches {s s' : System} (h : Reachable s) (hReaches : s.Reaches s') :
    Reachable s' := by
  induction hReaches with
  | refl => exact h
  | tail _ hStep ih =>
      obtain ⟨a, hStep⟩ := hStep
      exact ih.step a hStep

namespace System

variable {s s' s'' : System}

/-! ## What an ended task leaves behind -/

/-- Once the Receiver has exited, no step brings it back, queues a registration
for it or changes its tables. -/
theorem step_exited {a : Action} (h : s.step a = some s') (hExited : s.phase = .exited) :
    s'.phase = .exited ∧ s'.receiver = s.receiver ∧ s'.registrations = s.registrations := by
  cases hOther : a.reachesReceiver
  · obtain ⟨hPhase, hReceiver, -, -, -, -, -, rs, -, hRegs⟩ := step_posts h hOther
    have hClosed : s.registrationsOpen = false := by simp [registrationsOpen, hExited]
    exact ⟨hPhase.trans hExited, hReceiver, by simp [hRegs, hClosed]⟩
  · cases a <;> simp only [Action.reachesReceiver, reduceCtorEq] at hOther
    · simp [step, poll, hExited] at h
    · simp only [step] at h
      split at h <;> cases h
      exact ⟨hExited, rfl, rfl⟩
    · cases h
      exact ⟨hExited, rfl, rfl⟩

theorem Reaches.exited (h : Reaches s s') (hExited : s.phase = .exited) :
    s'.phase = .exited ∧ s'.receiver = s.receiver ∧ s'.registrations = s.registrations := by
  induction h with
  | refl => exact ⟨hExited, rfl, rfl⟩
  | tail _ hStep ih =>
      obtain ⟨a, hStep⟩ := hStep
      obtain ⟨hPhase', hReceiver', hRegs'⟩ := step_exited hStep ih.1
      exact ⟨hPhase', hReceiver'.trans ih.2.1, hRegs'.trans ih.2.2⟩

theorem Reaches.stopped (h : Reaches s s') (hStopped : s.writer ≠ .running) :
    s'.writer = s.writer ∧ s'.sink = s.sink := by
  induction h with
  | refl => exact ⟨rfl, rfl⟩
  | tail _ hStep ih =>
      obtain ⟨a, hStep⟩ := hStep
      obtain ⟨hWriter', hSink'⟩ := step_stopped hStep (ih.1 ▸ hStopped)
      exact ⟨hWriter'.trans ih.1, hSink'.trans ih.2⟩

/-- Exiting drops the registrations still queued, and none is queued after. -/
def ExitedEmpty (s : System) : Prop :=
  s.phase = .exited → s.registrations = []

theorem poll_exitedEmpty (h : s.poll = some s') : s'.ExitedEmpty := by
  unfold poll at h
  intro hExited
  repeat' (first | split at h | cases h)
  all_goals first | rfl | simp_all

theorem step_exitedEmpty {a : Action} (h : s.step a = some s') (hEmpty : s.ExitedEmpty) :
    s'.ExitedEmpty := by
  intro hExited'
  by_cases hExited : s.phase = .exited
  · rw [(step_exited h hExited).2.2, hEmpty hExited]
  · cases hOther : a.reachesReceiver
    · exact absurd ((step_posts h hOther).1 ▸ hExited') hExited
    · cases a <;> simp only [Action.reachesReceiver, reduceCtorEq] at hOther
      · exact poll_exitedEmpty h hExited'
      · simp only [step] at h
        split at h <;> cases h
        exact absurd hExited' hExited
      · cases h
        exact absurd hExited' hExited

/-! ## Nothing reads the error cell

A caller's step from two states that differ only in the cell does the same
thing to everything but the cell. -/

section ErrorCell

variable {cell : SharedError}

theorem post_withError (r : Register) :
    ({ s with error := cell } : System).post r = { s.post r with error := cell } := by
  unfold post registrationsOpen
  cases r <;> split <;> rfl

theorem enqueue_withError (msg : Message) :
    ({ s with error := cell } : System).enqueue msg = { s.enqueue msg with error := cell } := by
  unfold enqueue outboundOpen
  split <;> rfl

theorem start_withError (i : Nat) (op : Operation) :
    ({ s with error := cell } : System).start i op = { s.start i op with error := cell } := by
  cases op <;> simp only [start, post_withError, enqueue_withError] <;> try rfl

/-- A call's step does not depend on the cell: from `s` and from `s` with any
other cell it is taken or not alike, and leads to the same state but for the
cell. -/
theorem advance_ignores_error (s : System) (i : Nat) (cell : SharedError) :
    ({ s with error := cell }.advance i).map (fun (t : System) => { t with error := .new }) =
      (s.advance i).map fun (t : System) => { t with error := .new } := by
  unfold advance
  dsimp only [registrationsOpen, outboundOpen]
  rcases s.calls[i]? with _ | ⟨op, stage⟩
  · rfl
  · cases stage <;> simp only [start_withError, post_withError, enqueue_withError] <;>
      first | rfl | (split <;> rfl)

end ErrorCell

/-! ## Calls started after a task has ended -/

/-- A call of `op` made now is bound to fail: the Writer has stopped, or the
Receiver has exited and `op` posts a registration. -/
def Ended (s : System) (op : Operation) : Prop :=
  s.writer ≠ .running ∨ (s.phase = .exited ∧ op.notification = none)

theorem step_ended {a : Action} {op : Operation} (h : s.step a = some s') (hEnded : s.Ended op) :
    s'.Ended op := by
  rcases hEnded with hStopped | ⟨hExited, hPosts⟩
  · exact .inl ((step_stopped h hStopped).1 ▸ hStopped)
  · exact .inr ⟨(step_exited h hExited).1, hPosts⟩

end System

/-- The stages of a call that is bound to fail, in state `s`: it never waits
on a resolver, a frame it is about to enqueue was not registered or will be
dropped, and if it has returned, it returned `Err(Disconnected)`. -/
def Stage.Doomed (s : System) : Stage → Prop
  | .awaiting | .pingAwaiting => False
  | .enqueuing _ _ posted | .pingEnqueuing posted => posted = false ∨ s.writer ≠ .running
  | .returned result => result = System.disconnected
  | _ => True

/-- How many more steps of its own a call bound to fail takes before it
returns. -/
def Stage.stepsLeft : Stage → Nat
  | .invoked => 4
  | .subscribing .. => 3
  | .posting .. => 2
  | .enqueuing .. | .pingEnqueuing _ => 1
  | _ => 0

theorem Stage.Doomed.mono {stage : Stage} {s s' : System} (h : stage.Doomed s)
    (hWriter : s.writer ≠ .running → s'.writer ≠ .running) : stage.Doomed s' := by
  cases stage <;> first | exact h | exact Or.imp_right hWriter h

theorem Stage.Doomed.eq_returned {stage : Stage} {s : System} (h : stage.Doomed s)
    (hLeft : stage.stepsLeft = 0) : stage = .returned System.disconnected := by
  cases stage <;> simp_all [Stage.Doomed, Stage.stepsLeft]

namespace System

variable {s s' s'' : System}

/-- A call that has not returned and does not wait on a resolver can always
take its next step. -/
theorem advance_isSome {i : Nat} {op : Operation} {stage : Stage}
    (hCall : s.calls[i]? = some ⟨op, stage⟩) (hLeft : stage.stepsLeft ≠ 0) :
    (s.advance i).isSome := by
  unfold advance
  simp only [hCall]
  cases stage <;> simp [Stage.stepsLeft] at hLeft ⊢
  split <;> rfl

/-- One step of a call bound to fail keeps it bound to fail and brings it
closer to returning. -/
theorem advance_doomed {i : Nat} {op : Operation} {stage : Stage}
    (hCall : s.calls[i]? = some ⟨op, stage⟩) (hEnded : s.Ended op) (hDoomed : stage.Doomed s)
    (hAdvance : s.advance i = some s') :
    ∃ stage', s'.calls[i]? = some ⟨op, stage'⟩ ∧ stage'.Doomed s' ∧
      stage'.stepsLeft < stage.stepsLeft := by
  have hWriter : s'.writer = s.writer := (advance_enqueues hAdvance).1
  have hFails : s.outboundOpen = false ∨ (s.registrationsOpen = false ∧ op.notification = none) := by
    rcases hEnded with hStopped | ⟨hExited, hPosts⟩
    · exact .inl (by simpa [outboundOpen] using hStopped)
    · exact .inr ⟨by simp [registrationsOpen, hExited], hPosts⟩
  have hUnposted : s.registrationsOpen = false ∨ s'.writer ≠ .running := by
    rcases hFails with hOut | ⟨hReg, -⟩
    · exact .inr (by simpa [outboundOpen, hWriter] using hOut)
    · exact .inl hReg
  have hCond : ∀ posted : Bool, posted = false ∨ s.writer ≠ .running →
      (posted && s.outboundOpen) = false := by
    rintro posted (rfl | hRunning)
    · rfl
    · simp [outboundOpen, hRunning]
  cases advances_of_advance hAdvance with
  | ping hOld | postRequest hOld =>
      rw [hCall] at hOld
      cases hOld
      exact ⟨_, setStage_call (by simpa using hCall) _, hUnposted, by simp [Stage.stepsLeft]⟩
  | send hOld | subscribe hOld | request hOld | postConsumer hOld | consumerRefused hOld =>
      rw [hCall] at hOld
      cases hOld
      exact ⟨_, setStage_call (by simpa [setError] using hCall) _, by simp [Stage.Doomed],
        by simp [Stage.stepsLeft]⟩
  | notify hOld hNotify =>
      rw [hCall] at hOld
      cases hOld
      have hOut : s.outboundOpen = false := hFails.resolve_right fun h => by
        rw [h.2] at hNotify
        cases hNotify
      exact ⟨_, setStage_call (by simpa using hCall) _, by simp [Stage.Doomed, hOut],
        by simp [Stage.stepsLeft]⟩
  | enqueue hOld | enqueuePing hOld =>
      rw [hCall] at hOld
      cases hOld
      have hDrop := hCond _ hDoomed
      exact ⟨_, setStage_call (by simpa using hCall) _, by simp [hDrop, Stage.Doomed],
        by simp [hDrop, Stage.stepsLeft]⟩
  | reply hOld | dropped hOld | pong hOld | pingDropped hOld =>
      rw [hCall] at hOld
      cases hOld
      exact hDoomed.elim

/-- Every step keeps a call bound to fail. -/
theorem step_doomed {a : Action} {i : Nat} {op : Operation} {stage : Stage}
    (h : s.step a = some s') (hCall : s.calls[i]? = some ⟨op, stage⟩) (hEnded : s.Ended op)
    (hDoomed : stage.Doomed s) : ∃ stage', s'.calls[i]? = some ⟨op, stage'⟩ ∧ stage'.Doomed s' := by
  by_cases hOwn : a = .advance i
  · subst hOwn
    obtain ⟨stage', hCall', hDoomed', -⟩ := advance_doomed hCall hEnded hDoomed h
    exact ⟨stage', hCall', hDoomed'⟩
  · exact ⟨stage, step_call_of_ne h hOwn hCall,
      hDoomed.mono fun hStopped => (step_stopped h hStopped).1 ▸ hStopped⟩

theorem Reaches.doomed {i : Nat} {op : Operation} {stage : Stage} (h : Reaches s s')
    (hCall : s.calls[i]? = some ⟨op, stage⟩) (hEnded : s.Ended op) (hDoomed : stage.Doomed s) :
    s'.Ended op ∧ ∃ stage', s'.calls[i]? = some ⟨op, stage'⟩ ∧ stage'.Doomed s' := by
  induction h with
  | refl => exact ⟨hEnded, stage, hCall, hDoomed⟩
  | tail _ hStep ih =>
      obtain ⟨a, hStep⟩ := hStep
      obtain ⟨hEnded', stage', hCall', hDoomed'⟩ := ih
      exact ⟨step_ended hStep hEnded', step_doomed hStep hCall' hEnded' hDoomed'⟩

/-- A call bound to fail returns `Err(Disconnected)` within `n` steps of its
own, for any `n` at least its `stepsLeft`, whatever else happens meanwhile. -/
theorem doomed_returns {i : Nat} {op : Operation} (n : Nat) :
    ∀ {s : System} {stage : Stage}, s.calls[i]? = some ⟨op, stage⟩ → s.Ended op →
      stage.Doomed s → stage.stepsLeft ≤ n →
      ∃ k ≤ n, ∃ s', s.exec (List.replicate k (.advance i)) = some s' ∧
        s'.calls[i]? = some ⟨op, .returned disconnected⟩ := by
  induction n with
  | zero =>
      intro s stage hCall _ hDoomed hLeft
      exact ⟨0, le_rfl, s, rfl, by rw [hCall, hDoomed.eq_returned (by omega)]⟩
  | succ n ih =>
      intro s stage hCall hEnded hDoomed hLeft
      by_cases hZero : stage.stepsLeft = 0
      · exact ⟨0, by omega, s, rfl, by rw [hCall, hDoomed.eq_returned hZero]⟩
      · obtain ⟨s', hAdvance⟩ := Option.isSome_iff_exists.1 (advance_isSome hCall hZero)
        obtain ⟨stage', hCall', hDoomed', hLess⟩ := advance_doomed hCall hEnded hDoomed hAdvance
        obtain ⟨k, hk, s'', hExec, hReturned⟩ :=
          ih hCall' (step_ended (show s.step (.advance i) = some s' from hAdvance) hEnded) hDoomed'
            (by omega)
        exact ⟨k + 1, by omega, s'', by simpa [List.replicate_succ, exec, step, hAdvance] using hExec,
          hReturned⟩

/-! ## Notifications while the Writer runs -/

/-- `send_flow`, `send_ack` and `send_redeliver_unacknowleged_messages` return
at their first step, with what their enqueue returned. -/
theorem advance_notify {i : Nat} {op : Operation} {frame : Message}
    (hCall : s.calls[i]? = some ⟨op, .invoked⟩) (hNotify : op.notification = some frame) :
    s.advance i = some ((s.enqueue frame).setStage i
      (.returned (if s.outboundOpen then .ok .unit else disconnected))) := by
  unfold advance
  rw [hCall]
  cases op <;> simp only [Operation.notification, reduceCtorEq, Option.some.injEq] at hNotify <;>
    subst hNotify <;> rfl

/-- While the Writer runs, a notification returns `Ok(())`, and the Writer's
next successful sends write its frame after those queued before it. -/
theorem notification_written {i : Nat} {op : Operation} {frame : Message}
    (hCall : s.calls[i]? = some ⟨op, .invoked⟩) (hNotify : op.notification = some frame)
    (hWriter : s.writer = .running) :
    ∃ s' t, s.advance i = some s' ∧ s'.calls[i]? = some ⟨op, .returned (.ok .unit)⟩ ∧
      s'.exec (List.replicate s'.outbound.length (.write none)) = some t ∧
      t.sink = s.sink ++ s.outbound ++ [frame] := by
  have hOpen : s.outboundOpen = true := by simp [outboundOpen, hWriter]
  refine ⟨_, _, advance_notify hCall hNotify, ?_,
    writes_drain _ rfl (by simp [setStage, enqueue, hOpen, hWriter]), ?_⟩
  · simp only [hOpen, if_true]
    exact setStage_call (by simpa using hCall) _
  · simp [setStage, enqueue, hOpen]

end System

theorem Reachable.exitedEmpty {s : System} (h : Reachable s) : s.ExitedEmpty := by
  induction h with
  | init => intro hExited; cases hExited
  | step a _ hStep ih => exact System.step_exitedEmpty hStep ih

theorem Stage.stepsLeft_le (stage : Stage) : stage.stepsLeft ≤ 4 := by
  cases stage <;> simp [Stage.stepsLeft]

open System in
/-- No step of a caller reads the shared error cell: from two states that
differ only in the cell, each step of a call is taken or not alike and does the
same to everything but the cell.  What makes a call fail is a send of its own
that fails because the task at the other end has ended.  An operation started
once the Writer has stopped, or one that posts a registration started once the
Receiver has exited, never waits on a resolver, can only return
`Err(Disconnected)`, and does return it within four steps of its own, whatever
the other parties do meanwhile; after the Writer has stopped, the sink never
grows again.  A notification started while the Writer runs, set cell or not,
returns `Ok(())` at once, and the Writer's next successful sends write its frame
after those queued before it. -/
theorem ended_task_fails_later_calls :
    (∀ (s : System) (i : Nat) (cell : SharedError),
      ({ s with error := cell }.advance i).map (fun (t : System) => { t with error := .new }) =
        (s.advance i).map fun (t : System) => { t with error := .new }) ∧
    (∀ {s s' : System} {i : Nat} {op : Operation}, s.calls[i]? = some ⟨op, .invoked⟩ →
      (s.writer ≠ .running ∨ (s.phase = .exited ∧ op.notification = none)) → s.Reaches s' →
      (s.writer ≠ .running → s'.sink = s.sink) ∧
      ∃ stage, s'.calls[i]? = some ⟨op, stage⟩ ∧ stage ≠ .awaiting ∧ stage ≠ .pingAwaiting ∧
        (∀ result, stage = .returned result → result = disconnected) ∧
        ∃ n ≤ 4, ∃ s'', s'.exec (List.replicate n (.advance i)) = some s'' ∧
          s''.calls[i]? = some ⟨op, .returned disconnected⟩) ∧
    (∀ {s : System} {i : Nat} {op : Operation} {frame : Message},
      s.calls[i]? = some ⟨op, .invoked⟩ → op.notification = some frame → s.writer = .running →
      ∃ s' t, s.advance i = some s' ∧ s'.calls[i]? = some ⟨op, .returned (.ok .unit)⟩ ∧
        s'.exec (List.replicate s'.outbound.length (.write none)) = some t ∧
        t.sink = s.sink ++ s.outbound ++ [frame]) := by
  refine ⟨advance_ignores_error, fun hCall hEnded hReaches => ?_, notification_written⟩
  obtain ⟨hEnded', stage, hCall', hDoomed⟩ := hReaches.doomed hCall hEnded trivial
  refine ⟨fun hStopped => (hReaches.stopped hStopped).2, stage, hCall', ?_, ?_, ?_,
    doomed_returns 4 hCall' hEnded' hDoomed stage.stepsLeft_le⟩
  · rintro rfl
    exact hDoomed
  · rintro rfl
    exact hDoomed
  · rintro result rfl
    exact hDoomed

/-- `lookup_topic` called after the inbound stream has ended. -/
def lookupInvoked : System :=
  (inboundClosed.exec [.invoke (.lookupTopic "t" false)]).getD inboundClosed

/-- `send_flow` called after the inbound stream has ended. -/
def flowInvoked : System :=
  (inboundClosed.exec [.invoke (.sendFlow 1 10)]).getD inboundClosed

/-- After the inbound stream has ended, a `lookup_topic` call returns
`Err(Disconnected)` after its own steps alone, while a `send_flow` call returns
`Ok(())` and its frame is written. -/
theorem ended_task_fails_later_calls_lookup :
    lookupInvoked.calls[0]? = some ⟨.lookupTopic "t" false, .invoked⟩ ∧
      lookupInvoked.phase = .exited ∧
      (∃ n ≤ 4, ∃ s'', lookupInvoked.exec (List.replicate n (.advance 0)) = some s'' ∧
        s''.calls[0]? = some ⟨.lookupTopic "t" false, .returned System.disconnected⟩) ∧
      flowInvoked.calls[0]? = some ⟨.sendFlow 1 10, .invoked⟩ ∧ flowInvoked.writer = .running ∧
      ∃ s' t, flowInvoked.advance 0 = some s' ∧
        s'.calls[0]? = some ⟨.sendFlow 1 10, .returned (.ok .unit)⟩ ∧
        s'.exec (List.replicate s'.outbound.length (.write none)) = some t ∧
        t.sink = flowInvoked.sink ++ flowInvoked.outbound ++ [Messages.flow 1 10] := by
  have hCall : lookupInvoked.calls[0]? = some ⟨.lookupTopic "t" false, .invoked⟩ := by decide
  have hExited : lookupInvoked.phase = .exited := by decide
  have hFlow : flowInvoked.calls[0]? = some ⟨.sendFlow 1 10, .invoked⟩ := by decide
  have hWriter : flowInvoked.writer = .running := by decide
  obtain ⟨-, -, -, -, -, -, hReturns⟩ :=
    ended_task_fails_later_calls.2.1 hCall (.inr ⟨hExited, rfl⟩) .refl
  exact ⟨hCall, hExited, hReturns, hFlow, hWriter,
    ended_task_fails_later_calls.2.2 hFlow rfl hWriter⟩

/-- `send_flow` called after the inbound stream has ended. -/
def flowAfterClose : System :=
  (inboundClosed.exec [.invoke (.sendFlow 1 10), .advance 0, .write none]).getD inboundClosed

/-- The cell is set once the inbound stream has ended, yet a `send_flow`
started afterwards returns `Ok(())` and the Writer writes its frame. -/
theorem flow_after_close_succeeds :
    inboundClosed.isValid = false ∧ inboundClosed.calls = [] ∧
      flowAfterClose.calls = [⟨.sendFlow 1 10, .returned (.ok .unit)⟩] ∧
      flowAfterClose.sink = [Messages.flow 1 10] := by
  decide

open System in
/-- A failed send takes no effect.  A post fails exactly when the Receiver has
exited; from then on every post fails, nothing is queued for the Receiver and
its tables never change.  An enqueue fails exactly when the Writer has stopped;
from then on every enqueue fails, nothing is queued on the outbound channel and
the sink never grows. -/
theorem failed_send_takes_no_effect {s s' : System} (h : Reachable s) (hReaches : s.Reaches s') :
    (s.registrationsOpen = false →
      s'.registrationsOpen = false ∧ s'.registrations = [] ∧ s'.receiver = s.receiver) ∧
    (s.outboundOpen = false → s'.outboundOpen = false ∧ s'.outbound = [] ∧ s'.sink = s.sink) := by
  have h' := h.reaches hReaches
  refine ⟨fun hClosed => ?_, fun hClosed => ?_⟩
  · have hExited : s.phase = .exited := by simpa [registrationsOpen] using hClosed
    obtain ⟨hExited', hReceiver, -⟩ := hReaches.exited hExited
    exact ⟨by simp [registrationsOpen, hExited'], h'.exitedEmpty hExited', hReceiver⟩
  · have hStopped : s.writer ≠ .running := by simpa [outboundOpen] using hClosed
    obtain ⟨hWriter, hSink⟩ := hReaches.stopped hStopped
    obtain ⟨-, hFailed, hFinished⟩ := h'.writerFifo
    refine ⟨by simpa [outboundOpen, hWriter] using hClosed, ?_, hSink⟩
    cases hState : s'.writer
    · exact absurd (hWriter ▸ hState) hStopped
    · exact (hFailed hState).2
    · exact (hFinished hState).2

/-- `lookup_topic` called after the inbound stream has ended, with the Writer
still running, and its frame written. -/
def lookupAfterClose : System :=
  (lookupInvoked.exec [.advance 0, .advance 0, .advance 0, .write none]).getD lookupInvoked

/-- Its failed post leaves nothing for the Receiver. -/
theorem failed_send_takes_no_effect_lookup :
    lookupAfterClose.registrations = [] ∧ lookupAfterClose.receiver = inboundClosed.receiver := by
  have hReach : Reachable inboundClosed := (Reachable.init 64).exec
    (show (System.init 64).exec [.push .closed, .poll, .poll, .poll] = some inboundClosed from rfl)
  have hReaches : inboundClosed.Reaches lookupAfterClose := System.Reaches.of_exec
    (show inboundClosed.exec [.invoke (.lookupTopic "t" false), .advance 0, .advance 0, .advance 0,
      .write none] = some lookupAfterClose from rfl)
  exact ((failed_send_takes_no_effect hReach hReaches).1 (by decide)).2

/-- `lookup_topic` called after a sink send has failed, with the Receiver still
running and then draining the registration. -/
def lookupAfterWriterFailure : System :=
  ((System.init 64).exec [.invoke (.sendFlow 1 10), .advance 0, .write (some (.io "reset")),
    .invoke (.lookupTopic "t" false), .advance 1, .advance 1, .advance 1, .poll, .poll]).getD
    (System.init 64)

/-- A call that returns `Err(Disconnected)` because one of its sends failed
still has the other send take effect: with only the Receiver gone its frame is
written, and with only the Writer gone its registration is installed. -/
theorem failed_call_other_send_lands :
    lookupAfterClose.calls = [⟨.lookupTopic "t" false, .returned System.disconnected⟩] ∧
      lookupAfterClose.sink = [Messages.lookupTopic "t" false 0] ∧
      (lookupAfterWriterFailure.calls[1]?).map Call.stage = some (.returned System.disconnected) ∧
      lookupAfterWriterFailure.receiver.pendingRequests.lookup (.requestId 0) = some 1 := by
  decide

end PulsarConnection
