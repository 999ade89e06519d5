import PulsarConnection.Steps

/-!
# The Writer forwards the outbound channel in order

The Writer task is the loop `while let Some(msg) = rx.next().await` around
`sink.send(msg)`, ending at the first failed send after recording its error.
Whatever callers and the Receiver enqueue, in whatever interleaving with the
Writer's sends, the frames handed to the sink are the enqueued ones in enqueue
order: all of them while the Writer runs, a prefix ending with the failed one
after a failure, and all of them once the channel has closed.  A failed send
drops the frames still buffered, while the Receiver keeps the resolvers of the
calls that sent them: a caller can be left waiting with nothing queued
anywhere.
-/

namespace PulsarConnection

namespace System

/-- The sink and the outbound buffer together hold exactly the enqueued
frames, in order, while the Writer runs; afterwards the buffer is gone and the
sink holds a prefix of them, all of them if the channel closed. -/
def WriterFifo (s : System) : Prop :=
  (s.writer = .running → s.sink ++ s.outbound = s.enqueued) ∧
  (s.writer = .failed → s.sink <+: s.enqueued ∧ s.outbound = []) ∧
  (s.writer = .finished → s.sink = s.enqueued ∧ s.outbound = [])

theorem init_writerFifo (usizeBits : Nat) : (init usizeBits).WriterFifo := by
  simp [WriterFifo, init]

theorem Enqueues.writerFifo {s s' : System} (h : Enqueues s s') (hFifo : s.WriterFifo) :
    s'.WriterFifo := by
  obtain ⟨hWriter, hSink, frames, hOutbound, hEnqueued, hRunning⟩ := h
  obtain ⟨hRun, hFailed, hFinished⟩ := hFifo
  rw [WriterFifo, hWriter, hSink, hOutbound, hEnqueued]
  refine ⟨fun h => by rw [← List.append_assoc, hRun h], fun h => ?_, fun h => ?_⟩
  · obtain rfl : frames = [] := hRunning.resolve_right (by simp [h])
    simpa using hFailed h
  · obtain rfl : frames = [] := hRunning.resolve_right (by simp [h])
    simpa using hFinished h

theorem write_writerFifo {s s' : System} {o : Option ConnectionError} (h : s.write o = some s')
    (hFifo : s.WriterFifo) : s'.WriterFifo := by
  have hAll := hFifo.1
  rcases write_cases h with ⟨msg, rest, hRunning, hOutbound, -, rfl⟩ |
    ⟨msg, rest, e, hRunning, hOutbound, -, rfl⟩ | ⟨hRunning, hOutbound, -, -, rfl⟩
  · rw [hOutbound] at hAll
    refine ⟨fun _ => by simpa using hAll hRunning, ?_, ?_⟩ <;> simp [hRunning]
  · rw [hOutbound] at hAll
    refine ⟨nofun, fun _ => ⟨⟨rest, by simpa using hAll hRunning⟩, rfl⟩, nofun⟩
  · rw [hOutbound, List.append_nil] at hAll
    exact ⟨nofun, nofun, fun _ => ⟨hAll hRunning, hOutbound⟩⟩

theorem step_writerFifo {s s' : System} {a : Action} (h : s.step a = some s')
    (hFifo : s.WriterFifo) : s'.WriterFifo := by
  by_cases hWrite : ∃ o, a = .write o
  · obtain ⟨o, rfl⟩ := hWrite
    exact write_writerFifo h hFifo
  · exact (step_enqueues h fun o hEq => hWrite ⟨o, hEq⟩).writerFifo hFifo

/-- Once the Writer has stopped, no step restarts it or hands the sink a frame. -/
theorem step_stopped {s s' : System} {a : Action} (h : s.step a = some s')
    (hStopped : s.writer ≠ .running) : s'.writer = s.writer ∧ s'.sink = s.sink := by
  by_cases hWrite : ∃ o, a = .write o
  · obtain ⟨o, rfl⟩ := hWrite
    rcases write_cases h with ⟨-, -, hRunning, -⟩ | ⟨-, -, -, hRunning, -⟩ | ⟨hRunning, -⟩ <;>
      exact absurd hRunning hStopped
  · obtain ⟨hWriter, hSink, -⟩ := step_enqueues h fun o hEq => hWrite ⟨o, hEq⟩
    exact ⟨hWriter, hSink⟩

/-- A running Writer whose sends succeed hands the sink every frame queued. -/
theorem writes_drain : ∀ (frames : List Message) {s : System}, s.outbound = frames →
    s.writer = .running → s.exec (List.replicate frames.length (.write none)) =
      some { s with outbound := [], sink := s.sink ++ frames }
  | [], s, hOutbound, _ => by rw [List.length_nil, List.replicate_zero, List.append_nil, ← hOutbound]; rfl
  | msg :: rest, s, hOutbound, hRunning => by
      have hWrite : s.step (.write none) = some { s with outbound := rest, sink := s.sink ++ [msg] } := by
        simp [step, write, hRunning, hOutbound]
      rw [List.length_cons, exec_replicate_succ _ _ hWrite,
        @writes_drain rest { s with outbound := rest, sink := s.sink ++ [msg] } rfl hRunning]
      simp

end System

theorem Reachable.writerFifo {s : System} (h : Reachable s) : s.WriterFifo := by
  induction h with
  | init usizeBits => exact System.init_writerFifo usizeBits
  | step a _ hStep ih => exact System.step_writerFifo hStep ih

/-- A `send_flow` and a `lookup_topic` enqueue their frames; the sink send of
the first fails. -/
def writerFailure : List System.Action :=
  [.invoke (.sendFlow 1 10), .advance 0, .invoke (.lookupTopic "t" false), .advance 1, .advance 1,
    .advance 1, .write (some (.io "reset")), .poll, .poll, .poll, .poll]

def writerFailed : System :=
  ((System.init 64).exec writerFailure).getD (System.init 64)

/-- After the Writer's failure, with nothing queued on any channel and no
request frame written to the broker, the lookup still awaits a resolver that
the running Receiver holds and nothing will complete. -/
theorem writer_failure_strands_caller :
    (System.init 64).exec writerFailure = some writerFailed ∧
    writerFailed.writer = .failed ∧ writerFailed.phase = .idle ∧
    writerFailed.outbound = [] ∧ writerFailed.registrations = [] ∧ writerFailed.inbound = [] ∧
    (∀ frame ∈ writerFailed.sink, frame.writtenKey = none) ∧
    writerFailed.calls[1]? = some ⟨.lookupTopic "t" false, .awaiting⟩ ∧
    writerFailed.responses 1 = .waiting ∧
    writerFailed.receiver.pendingRequests.lookup (.requestId 0) = some 1 ∧
    (writerFailed.step (.advance 1)).isNone := by
  refine ⟨rfl, ?_⟩
  decide

end PulsarConnection
