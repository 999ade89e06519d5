import PulsarConnection.Messages

/-!
# The Receiver's routing tables

The Receiver task owns four tables: resolvers waiting for a correlated reply,
replies that arrived before their registration, the delivery channel of each
consumer, and the one pending ping.  Its poll loop handles two kinds of item,
a `Register` record from the registrations channel and a frame from the inbound
stream; this module gives the handling of one item as a function that returns
the new tables and what the Receiver did to channels it does not own.

Channels are named by numbers.  A oneshot resolver or a delivery sender is
moved into the record that carries it, so one name stands for one sender.
-/

namespace PulsarConnection

/-- A registration posted to the Receiver. -/
inductive Register
  | request (key : RequestKey) (resolver : Nat)
  | consumer (consumerId : UInt64) (resolver : Nat)
  | ping (resolver : Nat)
  deriving DecidableEq, Repr

/-- What handling one item does outside the Receiver's own tables. -/
inductive Effect
  /-- `resolver.send(msg)` on a request's oneshot. -/
  | respond (resolver : Nat) (msg : Message)
  /-- A request's oneshot sender dropped unsent, when `insert` replaces it. -/
  | cancel (resolver : Nat)
  /-- `consumer.unbounded_send(msg)` through the entry of `consumerId`. -/
  | deliver (consumerId : UInt64) (resolver : Nat) (msg : Message)
  /-- A consumer's delivery sender dropped, when `insert` replaces it. -/
  | release (resolver : Nat)
  /-- `sender.send(())` on the pending ping. -/
  | pong (resolver : Nat)
  /-- A pending ping's sender dropped, when a new ping replaces it. -/
  | cancelPing (resolver : Nat)
  /-- `outbound.unbounded_send(messages::pong())`. -/
  | sendPong
  deriving DecidableEq, Repr

/-- The tables of `connection::Receiver`; its channels live in the connection
state of `PulsarConnection.System`. -/
structure Receiver where
  pendingRequests : AList (fun _ : RequestKey => Nat)
  consumers : AList (fun _ : UInt64 => Nat)
  receivedMessages : AList (fun _ : RequestKey => Message)
  ping : Option Nat

namespace Receiver

/-- `Receiver::new`: all tables empty. -/
def new : Receiver :=
  ⟨∅, ∅, ∅, none⟩

/-- One `Poll::Ready(Some(register))` of the registration loop. -/
def register (rx : Receiver) : Register → Receiver × List Effect
  | .request key resolver =>
      match rx.receivedMessages.lookup key with
      | some msg =>
          ({ rx with receivedMessages := rx.receivedMessages.erase key }, [.respond resolver msg])
      | none =>
          ({ rx with pendingRequests := rx.pendingRequests.insert key resolver },
            (rx.pendingRequests.lookup key).toList.map .cancel)
  | .consumer consumerId resolver =>
      ({ rx with consumers := rx.consumers.insert consumerId resolver },
        (rx.consumers.lookup consumerId).toList.map .release)
  | .ping resolver =>
      ({ rx with ping := some resolver }, rx.ping.toList.map .cancelPing)

/-- The `RequestId` / `ProducerSend` arm: complete the waiting resolver, or
stash the reply until its registration arrives. -/
def route (rx : Receiver) (key : RequestKey) (msg : Message) : Receiver × List Effect :=
  match rx.pendingRequests.lookup key with
  | some resolver =>
      ({ rx with pendingRequests := rx.pendingRequests.erase key }, [.respond resolver msg])
  | none => ({ rx with receivedMessages := rx.receivedMessages.insert key msg }, [])

/-- One `Poll::Ready(Some(Ok(msg)))` of the inbound loop. -/
def receive (rx : Receiver) (msg : Message) : Receiver × List Effect :=
  match msg.command.ping, msg.command.pong with
  | some _, _ => (rx, [.sendPong])
  | none, some _ => ({ rx with ping := none }, rx.ping.toList.map .pong)
  | none, none =>
      match msg.requestKey with
      | some (.requestId id) => rx.route (.requestId id) msg
      | some (.producerSend producerId sequenceId) =>
          rx.route (.producerSend producerId sequenceId) msg
      | some (.consumer consumerId) =>
          (rx, (rx.consumers.lookup consumerId).toList.map (.deliver consumerId · msg))
      | none => (rx, [])

end Receiver

/-! ## What the inbound loop does with one frame -/

/-- The key under which the inbound loop completes a waiting resolver or
stashes the frame: a `RequestId` or `ProducerSend` key of a frame that carries
neither ping nor pong. -/
def Message.resolverKey (msg : Message) : Option RequestKey :=
  match msg.command.ping, msg.command.pong, msg.requestKey with
  | none, none, some (.requestId id) => some (.requestId id)
  | none, none, some (.producerSend producerId sequenceId) =>
      some (.producerSend producerId sequenceId)
  | _, _, _ => none

/-- The consumer whose delivery channel the inbound loop pushes the frame
into: a `Consumer` key of a frame that carries neither ping nor pong. -/
def Message.consumerKey (msg : Message) : Option UInt64 :=
  match msg.command.ping, msg.command.pong, msg.requestKey with
  | none, none, some (.consumer consumerId) => some consumerId
  | _, _, _ => none

theorem Message.consumerKey_eq_some {msg : Message} {consumerId : UInt64} :
    msg.consumerKey = some consumerId ↔
      msg.command.ping = none ∧ msg.command.pong = none ∧
        msg.requestKey = some (.consumer consumerId) := by
  unfold Message.consumerKey
  split <;> simp_all

theorem Message.resolverKey_eq_some {msg : Message} {key : RequestKey} :
    msg.resolverKey = some key ↔
      msg.command.ping = none ∧ msg.command.pong = none ∧ msg.requestKey = some key ∧
        ∀ consumerId, key ≠ .consumer consumerId := by
  unfold Message.resolverKey
  cases key <;> split <;> simp_all

namespace Receiver

/-- Everything `receive` can do with a frame, one case per arm of the source. -/
theorem receive_cases (rx : Receiver) (msg : Message) :
    (msg.command.ping.isSome ∧ rx.receive msg = (rx, [.sendPong])) ∨
    (msg.command.ping = none ∧ msg.command.pong.isSome ∧
      rx.receive msg = ({ rx with ping := none }, rx.ping.toList.map .pong)) ∨
    (∃ key, msg.resolverKey = some key ∧ rx.receive msg = rx.route key msg) ∨
    (∃ consumerId, msg.consumerKey = some consumerId ∧
      rx.receive msg =
        (rx, (rx.consumers.lookup consumerId).toList.map (.deliver consumerId · msg))) ∨
    (msg.command.ping = none ∧ msg.command.pong = none ∧ msg.requestKey = none ∧
      rx.receive msg = (rx, [])) := by
  unfold receive
  rcases hPing : msg.command.ping with _ | ⟨⟩
  · rcases hPong : msg.command.pong with _ | ⟨⟩
    · rcases hKey : msg.requestKey with _ | ⟨id⟩ | ⟨producerId, sequenceId⟩ | ⟨consumerId⟩
      · simp
      · exact .inr (.inr (.inl ⟨_, by simp [Message.resolverKey, hPing, hPong, hKey], rfl⟩))
      · exact .inr (.inr (.inl ⟨_, by simp [Message.resolverKey, hPing, hPong, hKey], rfl⟩))
      · exact .inr (.inr (.inr (.inl
          ⟨consumerId, by simp [Message.consumerKey, hPing, hPong, hKey], rfl⟩)))
    · simp
  · simp

end Receiver

/-- An item the Receiver takes from one of its two sources. -/
inductive Event
  | registration (r : Register)
  | frame (msg : Message)
  deriving DecidableEq, Repr

namespace Receiver

/-- Handle one item. -/
def handle (rx : Receiver) : Event → Receiver × List Effect
  | .registration r => rx.register r
  | .frame msg => rx.receive msg

/-- Handle one more item, appending what it does to what was done before. -/
def process (acc : Receiver × List Effect) (e : Event) : Receiver × List Effect :=
  ((acc.1.handle e).1, acc.2 ++ (acc.1.handle e).2)

/-- Handle items in the order the Receiver takes them. -/
def run (rx : Receiver) (events : List Event) : Receiver × List Effect :=
  events.foldl process (rx, [])

@[simp]
theorem run_nil (rx : Receiver) : rx.run [] = (rx, []) :=
  rfl

theorem foldl_process (acc : Receiver × List Effect) (events : List Event) :
    events.foldl process acc = ((acc.1.run events).1, acc.2 ++ (acc.1.run events).2) := by
  induction events generalizing acc with
  | nil => simp [run]
  | cons e events ih =>
      simp only [run, List.foldl_cons]
      rw [ih, ih (process (acc.1, []) e)]
      simp [process]

theorem run_cons (rx : Receiver) (e : Event) (events : List Event) :
    rx.run (e :: events) =
      (((rx.handle e).1.run events).1, (rx.handle e).2 ++ ((rx.handle e).1.run events).2) := by
  simp only [run, List.foldl_cons]
  rw [foldl_process]
  simp [process, run]

/-- A run splits at any point: the items after it are handled from the tables
the items before it left. -/
theorem run_append (rx : Receiver) (first second : List Event) :
    rx.run (first ++ second) =
      (((rx.run first).1.run second).1, (rx.run first).2 ++ ((rx.run first).1.run second).2) := by
  simp only [run, List.foldl_append]
  exact foldl_process _ second

@[simp]
theorem run_append_fst (rx : Receiver) (first second : List Event) :
    (rx.run (first ++ second)).1 = ((rx.run first).1.run second).1 := by
  rw [run_append]

theorem run_snoc (rx : Receiver) (events : List Event) (e : Event) :
    rx.run (events ++ [e]) = process (rx.run events) e := by
  simp only [run, List.foldl_append, List.foldl_cons, List.foldl_nil]

end Receiver

end PulsarConnection
