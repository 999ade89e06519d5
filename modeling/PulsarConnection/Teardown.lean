import PulsarConnection.Shutdown

/-!
# Dropping the connection

`Drop for Connection` sends on the Receiver's shutdown channel, and dropping
the `ConnectionSender` with it drops the senders' ends of the registrations and
outbound channels.  The Receiver sees the shutdown at the start of its next
poll, or the closed registrations channel at the end of its drain, and
returns; the Writer's `rx.next()` yields `None` once the Receiver's clone of
the outbound sender is dropped with it and the channel is empty.

So the connection winds down by itself: the Receiver's polls alone bring it to
its end, within a bound set by what it still has queued, and then the Writer
empties the outbound channel and finishes.
-/

namespace PulsarConnection

namespace System

variable {s s' : System}

@[simp]
theorem dispatch_connectionAlive (s : System) (e : Event) :
    (s.dispatch e).connectionAlive = s.connectionAlive := by
  obtain ⟨_, _, _, _, _, hEq⟩ := dispatch_eq s e
  rw [hEq]

/-- How many more polls the Receiver takes, once the `Connection` is dropped,
before it exits. -/
def pollsLeft (s : System) : Nat :=
  match s.phase with
  | .idle => 1
  | .draining => s.registrations.length + 1
  | .reading => s.inbound.length + 2
  | .exited => 0

theorem pollsLeft_le (s : System) : s.pollsLeft ≤ s.registrations.length + s.inbound.length + 2 := by
  unfold pollsLeft
  split <;> omega

/-- Once the `Connection` is dropped, every poll of the Receiver brings it
closer to exiting. -/
theorem poll_pollsLeft (h : s.poll = some s') (hDropped : s.connectionAlive = false) :
    s'.connectionAlive = false ∧ s'.pollsLeft < s.pollsLeft := by
  cases polls_of_poll h with
  | wake _ hAlive | drained _ _ hAlive => exact absurd hAlive (by simp [hDropped])
  | shutdown hPhase | senderGone hPhase | fail hPhase | close hPhase =>
      exact ⟨hDropped, by simp [pollsLeft, exit, setError, hPhase]⟩
  | drain hPhase hRegs => exact ⟨by simp [hDropped], by simp [pollsLeft, hPhase, hRegs]⟩
  | read hPhase hInbound => exact ⟨by simp [hDropped], by simp [pollsLeft, hPhase, hInbound]⟩
  | readAll hPhase hInbound => exact ⟨hDropped, by simp [pollsLeft, hPhase, hInbound]⟩

theorem poll_isSome (hPhase : s.phase ≠ .exited) : s.poll.isSome := by
  unfold poll
  split
  · rfl
  · split
    · rfl
    · split <;> rfl
  · split <;> rfl
  · exact absurd ‹_› hPhase

theorem pollsLeft_eq_zero : s.pollsLeft = 0 ↔ s.phase = .exited := by
  unfold pollsLeft
  split <;> simp_all

/-- Once the `Connection` is dropped, the Receiver exits within `pollsLeft`
polls of its own, whatever it still has queued. -/
theorem polls_exit (n : Nat) : ∀ {s : System}, s.connectionAlive = false → s.pollsLeft ≤ n →
    ∃ k ≤ s.pollsLeft, ∃ s', s.exec (List.replicate k .poll) = some s' ∧ s'.phase = .exited ∧
      s'.connectionAlive = false ∧ s'.writer = s.writer := by
  induction n with
  | zero =>
      intro s hDropped hLeft
      exact ⟨0, Nat.zero_le _, s, rfl, pollsLeft_eq_zero.1 (by omega), hDropped, rfl⟩
  | succ n ih =>
      intro s hDropped hLeft
      by_cases hExited : s.phase = .exited
      · exact ⟨0, Nat.zero_le _, s, rfl, hExited, hDropped, rfl⟩
      · obtain ⟨s', hPoll⟩ := Option.isSome_iff_exists.1 (poll_isSome hExited)
        obtain ⟨hDropped', hLess⟩ := poll_pollsLeft hPoll hDropped
        obtain ⟨k, hk, s'', hExec, hEnd, hDropped'', hWriter⟩ := ih hDropped' (by omega)
        exact ⟨k + 1, by omega, s'', (exec_replicate_succ .poll k hPoll).trans hExec, hEnd,
          hDropped'', hWriter.trans (poll_enqueues hPoll).1⟩

/-- Once the Receiver has exited and the `Connection` is dropped, a running
Writer whose sends succeed hands the sink every frame still queued and then
finishes. -/
theorem writes_finish (frames : List Message) {s : System} (hOutbound : s.outbound = frames)
    (hDropped : s.connectionAlive = false) (hExited : s.phase = .exited)
    (hRunning : s.writer = .running) :
    ∃ s', s.exec (List.replicate (frames.length + 1) (.write none)) = some s' ∧
      s'.writer = .finished := by
  refine ⟨{ s with outbound := [], sink := s.sink ++ frames, writer := .finished }, ?_, rfl⟩
  rw [List.replicate_succ', exec_append, writes_drain frames hOutbound hRunning, Option.some_bind]
  simp [exec, step, write, hRunning, hDropped, hExited]

end System

open System in
/-- Once the `Connection` is dropped, its `Drop` having signalled the
Receiver's shutdown and dropped the sender's ends of the channels, the
Receiver's polls alone bring it to its end, within as many polls as it has
registrations and inbound items queued, plus two.  After that a running Writer
whose sends succeed empties the outbound channel and finishes, within one step
more than there are frames queued, and by then the sink holds every frame ever
enqueued on the connection, in order; a Writer that had stopped stays as it
was. -/
theorem drop_winds_down {s : System} (h : Reachable s) (hDropped : s.connectionAlive = false) :
    ∃ n ≤ s.registrations.length + s.inbound.length + 2, ∃ s₁,
      s.exec (List.replicate n .poll) = some s₁ ∧ s₁.phase = .exited ∧ s₁.writer = s.writer ∧
      (s.writer = .running → ∃ s₂,
        s₁.exec (List.replicate (s₁.outbound.length + 1) (.write none)) = some s₂ ∧
          s₂.writer = .finished ∧ s₂.sink = s₂.enqueued) := by
  obtain ⟨n, hn, s₁, hPolls, hExited, hDropped₁, hWriter⟩ := polls_exit s.pollsLeft hDropped le_rfl
  refine ⟨n, hn.trans (pollsLeft_le s), s₁, hPolls, hExited, hWriter, fun hRunning => ?_⟩
  obtain ⟨s₂, hWrites, hFinished⟩ :=
    writes_finish s₁.outbound rfl hDropped₁ hExited (hWriter ▸ hRunning)
  exact ⟨s₂, hWrites, hFinished, ((h.exec hPolls).exec hWrites).writerFifo.2.2 hFinished |>.1⟩

/-- A connection that enqueued one flow frame and was then dropped. -/
def flowThenDropped : System :=
  ((System.init 64).exec [.invoke (.sendFlow 1 1), .advance 0, .dropConnection]).getD
    (System.init 64)

/-- The dropped connection winds down, and its flow frame reaches the sink. -/
theorem flow_then_dropped_winds_down :
    flowThenDropped.connectionAlive = false ∧ flowThenDropped.writer = .running ∧
      ∃ s₂, flowThenDropped.Reaches s₂ ∧ s₂.writer = .finished ∧ s₂.sink = s₂.enqueued := by
  have hReach : Reachable flowThenDropped := (Reachable.init 64).exec
    (show (System.init 64).exec [.invoke (.sendFlow 1 1), .advance 0, .dropConnection] =
      some flowThenDropped from rfl)
  have hDropped : flowThenDropped.connectionAlive = false := by decide
  have hRunning : flowThenDropped.writer = .running := by decide
  obtain ⟨n, -, s₁, hPolls, -, -, hWrites⟩ := drop_winds_down hReach hDropped
  obtain ⟨s₂, hExec, hFinished, hSink⟩ := hWrites hRunning
  exact ⟨hDropped, hRunning, s₂,
    Relation.ReflTransGen.trans (System.Reaches.of_exec hPolls) (System.Reaches.of_exec hExec),
    hFinished, hSink⟩

end PulsarConnection
