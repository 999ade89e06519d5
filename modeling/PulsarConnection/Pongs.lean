import PulsarConnection.Invariants

/-!
# Every ping is answered with one pong

The Receiver sends on the outbound channel in one place only: the arm of its
inbound loop for a frame whose command carries `ping`, which sends
`messages::pong()` and touches none of its tables.  Registrations, replies,
deliveries and pongs from the broker send nothing.  So over any run the frames
the Receiver sends are one `Pong` per ping frame it handled, in the order it
handled them, and while the Writer runs each of them lands on the outbound
channel.
-/

namespace PulsarConnection

/-- The frame an effect sends on the outbound channel. -/
def Effect.outboundFrame? : Effect → Option Message
  | .sendPong => some Messages.pong
  | _ => none

/-- The `Pong` the inbound loop owes for an item: one for a frame whose command
carries `ping`. -/
def Event.pongOwed : Event → Option Message
  | .frame msg => if msg.command.ping.isSome then some Messages.pong else none
  | .registration _ => none

namespace Receiver

/-- A ping frame leaves the tables as they are and sends one `Pong`. -/
theorem receive_ping (rx : Receiver) {msg : Message} (h : msg.command.ping.isSome) :
    rx.receive msg = (rx, [.sendPong]) := by
  obtain ⟨_, hPing⟩ := Option.isSome_iff_exists.1 h
  simp [receive, hPing]

theorem route_outbound (rx : Receiver) (key : RequestKey) (msg : Message) :
    (rx.route key msg).2.filterMap Effect.outboundFrame? = [] := by
  unfold route
  split <;> rfl

theorem register_outbound (rx : Receiver) (r : Register) :
    (rx.register r).2.filterMap Effect.outboundFrame? = [] := by
  cases r <;> simp only [register] <;> try split
  all_goals simp [Effect.outboundFrame?, List.filterMap_map, Function.comp_def]

/-- What one item sends on the outbound channel is the `Pong` it owes. -/
theorem handle_outbound (rx : Receiver) (e : Event) :
    (rx.handle e).2.filterMap Effect.outboundFrame? = e.pongOwed.toList := by
  cases e with
  | registration r => exact register_outbound rx r
  | frame msg =>
      simp only [handle, Event.pongOwed]
      rcases receive_cases rx msg with ⟨hPing, hEq⟩ | ⟨hPing, -, hEq⟩ | ⟨key, hKey, hEq⟩ |
          ⟨consumerId, hConsumer, hEq⟩ | ⟨hPing, -, -, hEq⟩
      · simp [hEq, hPing, Effect.outboundFrame?]
      · cases h : rx.ping <;> simp [hEq, hPing, h, Effect.outboundFrame?]
      · rw [hEq, route_outbound, (Message.resolverKey_eq_some.1 hKey).1]
        rfl
      · have hPing := (Message.consumerKey_eq_some.1 hConsumer).1
        cases h : rx.consumers.lookup consumerId <;> simp [hEq, hPing, h, Effect.outboundFrame?]
      · simp [hEq, hPing]

/-- Over any run, from any tables, the frames the Receiver sends on the
outbound channel are the `Pong`s its ping frames owe, in order. -/
theorem run_outbound (rx : Receiver) (events : List Event) :
    (rx.run events).2.filterMap Effect.outboundFrame? = events.filterMap Event.pongOwed := by
  induction events generalizing rx with
  | nil => rfl
  | cons e events ih =>
      rw [run_cons, List.filterMap_append, handle_outbound, ih, List.filterMap_cons]
      cases e.pongOwed <;> rfl

end Receiver

namespace System

/-- Carrying out effects sends their frames on the outbound channel while the
Writer runs, and drops them once it has stopped. -/
theorem foldl_apply_enqueued (effects : List Effect) (s : System) :
    (effects.foldl apply s).enqueued =
      s.enqueued ++ if s.outboundOpen then effects.filterMap Effect.outboundFrame? else [] := by
  induction effects generalizing s with
  | nil => simp
  | cons effect effects ih =>
      have hOpen : (s.apply effect).outboundOpen = s.outboundOpen := by
        cases effect <;> simp only [apply, enqueue] <;> try split
        all_goals rfl
      rw [List.foldl_cons, ih, hOpen]
      cases effect <;> cases h : s.outboundOpen <;>
        simp [apply, enqueue, h, Effect.outboundFrame?]

/-- Handling an item enqueues the `Pong` it owes, if the Writer runs, and
nothing else. -/
theorem dispatch_enqueued (s : System) (e : Event) :
    (s.dispatch e).enqueued = s.enqueued ++ if s.outboundOpen then e.pongOwed.toList else [] := by
  rw [dispatch, foldl_apply_enqueued, Receiver.handle_outbound]
  rfl

/-- Handling an item puts the `Pong` it owes on the outbound channel, if the
Writer runs, and nothing else. -/
theorem dispatch_outbound (s : System) (e : Event) :
    (s.dispatch e).outbound = s.outbound ++ if s.outboundOpen then e.pongOwed.toList else [] := by
  obtain ⟨-, -, frames, hOutbound, hEnqueued, -⟩ := dispatch_enqueues s e
  rw [hOutbound, List.append_cancel_left (hEnqueued.symm.trans (dispatch_enqueued s e))]

/-- A step of the Receiver enqueues the `Pong`s owed by the items it handles,
if the Writer runs, and nothing else. -/
theorem poll_enqueued {s s' : System} (h : s.poll = some s') :
    ∃ items, s'.processed = s.processed ++ items ∧
      s'.enqueued = s.enqueued ++ if s.outboundOpen then items.filterMap Event.pongOwed else [] := by
  cases polls_of_poll h with
  | drain | read =>
      refine ⟨[_], dispatch_processed _ _, ?_⟩
      rw [dispatch_enqueued, List.filterMap_cons, List.filterMap_nil]
      cases Event.pongOwed _ <;> rfl
  | _ => exact ⟨[], (List.append_nil _).symm, by simp [exit, setError]⟩

end System

/-- Over every run of a connection, the frames the Receiver has sent on the
outbound channel are one `Pong` for each ping frame it handled, in the order it
handled them; each step of the Receiver enqueues the `Pong`s owed by the items
it handles, while the Writer runs, and nothing else; and a ping frame leaves
the Receiver's tables as they were. -/
theorem pong_for_each_ping {s : System} (h : Reachable s) :
    s.effects.filterMap Effect.outboundFrame? = s.processed.filterMap Event.pongOwed ∧
      (∀ s', s.poll = some s' → ∃ items, s'.processed = s.processed ++ items ∧
        s'.enqueued = s.enqueued ++ if s.outboundOpen then items.filterMap Event.pongOwed else []) ∧
      ∀ msg, msg.command.ping.isSome → (s.dispatch (.frame msg)).receiver = s.receiver := by
  have hRun : Receiver.new.run s.processed = (s.receiver, s.effects) := h.receiverRun
  refine ⟨?_, fun _ => System.poll_enqueued, fun msg hPing => ?_⟩
  · rw [← Receiver.run_outbound Receiver.new s.processed, hRun]
  · simp [Receiver.handle, Receiver.receive_ping _ hPing]

/-- The broker pings a fresh connection and the Receiver reads the frame. -/
def pingAnswered : System :=
  ((System.init 64).exec [.push (.frame Messages.ping), .poll, .poll, .poll]).getD
    (System.init 64)

/-- The one ping is answered with one `Pong`, which is on the outbound channel. -/
theorem ping_answered_once :
    pingAnswered.effects.filterMap Effect.outboundFrame? = [Messages.pong] ∧
      pingAnswered.enqueued = [Messages.pong] := by
  have hReach : Reachable pingAnswered := (Reachable.init 64).exec
    (show (System.init 64).exec [.push (.frame Messages.ping), .poll, .poll, .poll] =
      some pingAnswered from rfl)
  exact ⟨(pong_for_each_ping hReach).1.trans (by decide), by decide⟩

end PulsarConnection
