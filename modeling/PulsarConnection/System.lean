import PulsarConnection.Receiver
import PulsarConnection.Sender
import PulsarConnection.SharedError
import PulsarConnection.SerialId

/-!
# The connection as a system of tasks

A connection runs three kinds of task over shared channels: callers of
`ConnectionSender` operations, the Receiver and the Writer; the broker is the
peer on the other end of the socket.  Each transition below is one atomic step
of one party: a channel send, a poll of a channel, a fetch-add of the request
counter, a sink send.  Any interleaving of the parties' steps is a run.

The Receiver takes the steps of its poll exactly as written: it checks the
shutdown signal, drains the registrations channel until it is empty, then
reads inbound items until the stream is empty, and only then polls again.

Besides the state of the program, the system keeps logs that nothing in it
reads: the items the Receiver handled and what handling them did, every post
of a registration with its outcome, every frame enqueued on the outbound
channel, and every item the broker sent with the frame it answers.
-/

namespace PulsarConnection

/-- A oneshot channel as its receiving side sees it. -/
inductive Oneshot (α : Type)
  | waiting
  | sent (value : α)
  | canceled
  deriving DecidableEq, Repr

/-- An item of the inbound stream. -/
inductive Inbound
  /-- `Ready(Some(Ok(msg)))`. -/
  | frame (msg : Message)
  /-- `Ready(Some(Err(e)))`. -/
  | failure (e : ConnectionError)
  /-- `Ready(None)`: the stream has ended. -/
  | closed
  deriving DecidableEq, Repr

/-- Where the Receiver task is in its poll. -/
inductive ReceiverPhase
  /-- Between polls. -/
  | idle
  /-- In the loop over the registrations channel. -/
  | draining
  /-- In the loop over the inbound stream. -/
  | reading
  /-- The future has completed and has been dropped with everything it owned. -/
  | exited
  deriving DecidableEq, Repr

/-- Where the Writer task is. -/
inductive WriterState
  | running
  /-- A sink send failed; the task ended and dropped the outbound receiver. -/
  | failed
  /-- The outbound channel closed and was drained. -/
  | finished
  deriving DecidableEq, Repr

/-- Results of calls are compared constructor by constructor. -/
instance instDecidableEqExcept {ε α : Type} [DecidableEq ε] [DecidableEq α] :
    DecidableEq (Except ε α)
  | .error a, .error b => decidable_of_iff (a = b) ⟨congrArg _, Except.error.inj⟩
  | .ok a, .ok b => decidable_of_iff (a = b) ⟨congrArg _, Except.ok.inj⟩
  | .error _, .ok _ => isFalse fun h => Except.noConfusion h
  | .ok _, .error _ => isFalse fun h => Except.noConfusion h

/-- Where a caller is inside one operation. -/
inductive Stage
  /-- The method was called; nothing has run yet. -/
  | invoked
  /-- `subscribe` took its request id; next it posts `Register::Consumer`. -/
  | subscribing (consumerId : UInt64) (resolver : Nat) (key : RequestKey) (frame : Message)
  /-- `send_message` was entered; next it posts `Register::Request`. -/
  | posting (key : RequestKey) (frame : Message)
  /-- The registration was posted, successfully or not; next the frame is enqueued. -/
  | enqueuing (key : RequestKey) (frame : Message) (posted : Bool)
  /-- Both sends succeeded; the call awaits its resolver. -/
  | awaiting
  /-- `send_ping` posted `Register::Ping`; next it enqueues the ping frame. -/
  | pingEnqueuing (posted : Bool)
  /-- `send_ping` awaits its resolver. -/
  | pingAwaiting
  /-- The call has returned. -/
  | returned (result : Except ConnectionError Response)
  deriving DecidableEq, Repr

/-- A caller's operation and how far it has got.  Call `i` creates the oneshot
resolver named `i`. -/
structure Call where
  operation : Operation
  stage : Stage
  deriving DecidableEq, Repr

/-- The state of one connection and of the broker's view of it. -/
structure System where
  calls : List Call
  requestId : SerialId
  /-- Whether the `Connection` (and with it the `ConnectionSender`) is alive. -/
  connectionAlive : Bool
  registrations : List Register
  outbound : List Message
  inbound : List Inbound
  receiver : Receiver
  phase : ReceiverPhase
  writer : WriterState
  /-- Every frame handed to the sink, in order. -/
  sink : List Message
  error : SharedError
  responses : Nat → Oneshot Message
  pongs : Nat → Oneshot Unit
  deliveries : Nat → List Message
  /-- Log: the items the Receiver handled. -/
  processed : List Event
  /-- Log: what handling them did. -/
  effects : List Effect
  /-- Log: every post of a registration, with whether it succeeded. -/
  posts : List (Register × Bool)
  /-- Log: every frame enqueued on the outbound channel. -/
  enqueued : List Message
  /-- Log: every item the broker sent, with the index in `sink` of the frame it answers. -/
  broker : List (Option Nat × Inbound)

namespace System

/-- The connection right after `Connection::connect` spawned its tasks, on a
target whose `usize` has `usizeBits` bits. -/
def init (usizeBits : Nat) : System where
  calls := []
  requestId := SerialId.new usizeBits
  connectionAlive := true
  registrations := []
  outbound := []
  inbound := []
  receiver := Receiver.new
  phase := .idle
  writer := .running
  sink := []
  error := SharedError.new
  responses := fun _ => .waiting
  pongs := fun _ => .waiting
  deliveries := fun _ => []
  processed := []
  effects := []
  posts := []
  enqueued := []
  broker := []

/-- `Connection::is_valid`. -/
def isValid (s : System) : Bool :=
  !s.error.isSet

/-! ## Channel operations -/

/-- Whether `registrations.unbounded_send` succeeds: the Receiver, which owns
the receiving end, is still there. -/
def registrationsOpen (s : System) : Bool :=
  s.phase != .exited

/-- Whether `tx.unbounded_send` succeeds: the Writer, which owns the receiving
end, is still running. -/
def outboundOpen (s : System) : Bool :=
  s.writer == .running

/-- `registrations.unbounded_send(r)`; when it fails, the record and the
resolver it carries are dropped. -/
def post (s : System) (r : Register) : System :=
  if s.registrationsOpen then
    { s with registrations := s.registrations ++ [r], posts := s.posts ++ [(r, true)] }
  else
    match r with
    | .request _ resolver =>
        { s with responses := Function.update s.responses resolver .canceled,
                 posts := s.posts ++ [(r, false)] }
    | .ping resolver =>
        { s with pongs := Function.update s.pongs resolver .canceled,
                 posts := s.posts ++ [(r, false)] }
    | .consumer .. => { s with posts := s.posts ++ [(r, false)] }

/-- `tx.unbounded_send(msg)`; when it fails, the frame is dropped. -/
def enqueue (s : System) (msg : Message) : System :=
  if s.outboundOpen then
    { s with outbound := s.outbound ++ [msg], enqueued := s.enqueued ++ [msg] }
  else
    s

/-- Move call `i` to another stage. -/
def setStage (s : System) (i : Nat) (stage : Stage) : System :=
  { s with calls := s.calls.modify (fun call => { call with stage }) i }

/-- Record an error in the shared cell. -/
def setError (s : System) (e : ConnectionError) : System :=
  { s with error := s.error.set e }

/-- `Err(ConnectionError::Disconnected)`. -/
def disconnected : Except ConnectionError Response :=
  .error .disconnected

/-! ## Callers -/

/-- The first step of an operation. -/
def start (s : System) (i : Nat) : Operation → System
  | .sendPing => (s.post (.ping i)).setStage i (.pingEnqueuing s.registrationsOpen)
  | .send producerId producerName sequenceId message =>
      s.setStage i (.posting (.producerSend producerId sequenceId)
        (Messages.send producerId producerName sequenceId message))
  | .subscribe resolver topic subscription subType consumerId consumerName =>
      { s with requestId := s.requestId.get.2 }.setStage i
        (.subscribing consumerId resolver (.requestId s.requestId.get.1)
          (Messages.subscribe topic subscription subType consumerId s.requestId.get.1
            consumerName))
  | op =>
      match op.notification, op.request s.requestId.get.1 with
      | some frame, _ =>
          (s.enqueue frame).setStage i
            (.returned (if s.outboundOpen then .ok .unit else disconnected))
      | none, some (key, frame) =>
          { s with requestId := s.requestId.get.2 }.setStage i (.posting key frame)
      | none, none => s

/-- Call `i` takes its next step, if it can. -/
def advance (s : System) (i : Nat) : Option System :=
  match s.calls[i]? with
  | none => none
  | some call =>
      match call.stage with
      | .invoked => some (s.start i call.operation)
      | .subscribing consumerId resolver key frame =>
          if s.registrationsOpen then
            some ((s.post (.consumer consumerId resolver)).setStage i (.posting key frame))
          else
            some (((s.post (.consumer consumerId resolver)).setError .disconnected).setStage i
              (.returned disconnected))
      | .posting key frame =>
          some ((s.post (.request key i)).setStage i (.enqueuing key frame s.registrationsOpen))
      | .enqueuing _ frame posted =>
          some ((s.enqueue frame).setStage i
            (if posted && s.outboundOpen then .awaiting else .returned disconnected))
      | .awaiting =>
          match s.responses i with
          | .sent msg => some (s.setStage i (.returned (extractMessage msg call.operation.extract)))
          | .canceled => some ((s.setError .disconnected).setStage i (.returned disconnected))
          | .waiting => none
      | .pingEnqueuing posted =>
          some ((s.enqueue Messages.ping).setStage i
            (if posted && s.outboundOpen then .pingAwaiting else .returned disconnected))
      | .pingAwaiting =>
          match s.pongs i with
          | .sent () => some (s.setStage i (.returned (.ok .unit)))
          | .canceled => some (s.setStage i (.returned disconnected))
          | .waiting => none
      | .returned _ => none

/-! ## The Receiver -/

/-- Carry out one thing the Receiver did outside its tables. -/
def apply (s : System) : Effect → System
  | .respond resolver msg => { s with responses := Function.update s.responses resolver (.sent msg) }
  | .cancel resolver => { s with responses := Function.update s.responses resolver .canceled }
  | .deliver _ resolver msg =>
      { s with deliveries := Function.update s.deliveries resolver (s.deliveries resolver ++ [msg]) }
  | .release _ => s
  | .pong resolver => { s with pongs := Function.update s.pongs resolver (.sent ()) }
  | .cancelPing resolver => { s with pongs := Function.update s.pongs resolver .canceled }
  | .sendPong => s.enqueue Messages.pong

/-- The Receiver handles one item. -/
def dispatch (s : System) (e : Event) : System :=
  (s.receiver.handle e).2.foldl apply
    { s with receiver := (s.receiver.handle e).1, processed := s.processed ++ [e],
             effects := s.effects ++ (s.receiver.handle e).2 }

/-- The request resolvers the Receiver owns, queued or waiting. -/
def heldResolvers (s : System) : List Nat :=
  s.registrations.filterMap (fun | .request _ resolver => some resolver | _ => none) ++
    s.receiver.pendingRequests.entries.map (·.2)

/-- The ping resolvers the Receiver owns, queued or pending. -/
def heldPings (s : System) : List Nat :=
  s.registrations.filterMap (fun | .ping resolver => some resolver | _ => none) ++
    s.receiver.ping.toList

/-- The Receiver's future completes and is dropped: every resolver it owns is
cancelled, and so are the registrations still queued for it. -/
def exit (s : System) : System :=
  { s with
    phase := .exited
    registrations := []
    responses := fun r => if r ∈ s.heldResolvers then .canceled else s.responses r
    pongs := fun r => if r ∈ s.heldPings then .canceled else s.pongs r }

/-- The Receiver takes the next step of its poll. -/
def poll (s : System) : Option System :=
  match s.phase with
  | .idle => some (if s.connectionAlive then { s with phase := .draining } else s.exit)
  | .draining =>
      match s.registrations with
      | r :: rest => some ({ s with registrations := rest }.dispatch (.registration r))
      | [] =>
          if s.connectionAlive then some { s with phase := .reading }
          else some (s.setError .disconnected).exit
  | .reading =>
      match s.inbound with
      | .frame msg :: rest => some ({ s with inbound := rest }.dispatch (.frame msg))
      | .failure e :: rest => some ({ s with inbound := rest }.setError e).exit
      | .closed :: rest => some ({ s with inbound := rest }.setError .disconnected).exit
      | [] => some { s with phase := .idle }
  | .exited => none

/-! ## The Writer -/

/-- The Writer takes its next step; `outcome` is what the sink send returns. -/
def write (s : System) (outcome : Option ConnectionError) : Option System :=
  match s.writer, s.outbound with
  | .running, msg :: rest =>
      match outcome with
      | none => some { s with outbound := rest, sink := s.sink ++ [msg] }
      | some e =>
          some { s with outbound := [], sink := s.sink ++ [msg], writer := .failed,
                        error := s.error.set e }
  | .running, [] =>
      if !s.connectionAlive && s.phase = .exited then some { s with writer := .finished }
      else none
  | _, _ => none

/-! ## Steps -/

/-- One step of one party. -/
inductive Action
  /-- A caller invokes an operation; it becomes call number `calls.length`. -/
  | invoke (op : Operation)
  /-- Call `i` takes its next step. -/
  | advance (i : Nat)
  /-- The Receiver takes the next step of its poll. -/
  | poll
  /-- The Writer takes its next step; the sink send fails with `some e`. -/
  | write (outcome : Option ConnectionError)
  /-- The broker answers the frame at index `i` of the sink with `reply`. -/
  | answer (i : Nat) (reply : Message)
  /-- The broker sends an item of its own. -/
  | push (item : Inbound)
  /-- `Connection::error()`. -/
  | takeError
  /-- The `Connection` is dropped, which borrows of its sender rule out while
  a call is in progress. -/
  | dropConnection
  deriving DecidableEq, Repr

/-- Whether a call has returned. -/
def Call.isReturned (call : Call) : Bool :=
  match call.stage with
  | .returned _ => true
  | _ => false

/-- The effect of one step, if the party can take it. -/
def step (s : System) : Action → Option System
  | .invoke op =>
      if s.connectionAlive then some { s with calls := s.calls ++ [⟨op, .invoked⟩] } else none
  | .advance i => s.advance i
  | .poll => s.poll
  | .write outcome => s.write outcome
  | .answer i reply =>
      if i < s.sink.length then
        some { s with inbound := s.inbound ++ [.frame reply],
                      broker := s.broker ++ [(some i, .frame reply)] }
      else none
  | .push item => some { s with inbound := s.inbound ++ [item], broker := s.broker ++ [(none, item)] }
  | .takeError => some { s with error := s.error.remove.2 }
  | .dropConnection =>
      if s.connectionAlive && s.calls.all Call.isReturned then
        some { s with connectionAlive := false }
      else none

/-- Run a schedule of steps. -/
def exec (s : System) : List Action → Option System
  | [] => some s
  | a :: rest => (s.step a).bind fun s' => s'.exec rest

theorem exec_replicate_succ {s s' : System} (a : Action) (n : Nat) (h : s.step a = some s') :
    s.exec (List.replicate (n + 1) a) = s'.exec (List.replicate n a) := by
  simp [List.replicate_succ, exec, h]

theorem exec_append (s : System) (first second : List Action) :
    s.exec (first ++ second) = (s.exec first).bind fun s' => s'.exec second := by
  induction first generalizing s with
  | nil => rfl
  | cons a rest ih =>
      show ((s.step a).bind fun s' => s'.exec (rest ++ second)) =
        ((s.step a).bind fun s' => s'.exec rest).bind _
      simp only [ih, Option.bind_assoc]

end System

/-- The states a connection reaches from its start by some schedule. -/
inductive Reachable : System → Prop
  | init (usizeBits : Nat) : Reachable (System.init usizeBits)
  | step {s s' : System} (a : System.Action) : Reachable s → s.step a = some s' → Reachable s'

/-! ## Replies that overtake registrations

A caller posts its registration before it enqueues its frame, but `poll` reads
the registrations channel only at its start: while the Receiver is in its
inbound loop, the frame can be written, answered and read before the
registration.  For a correlated reply the stash absorbs this; for a `Pong` and
for a consumer delivery it does not: the pong finds no ping to complete and
the delivery finds no consumer entry.  Two schedules on a 64-bit target show
it. -/

/-- A ping whose pong arrives while the Receiver is in its inbound loop. -/
def pingRace : List System.Action :=
  [.poll, .poll, .invoke .sendPing, .advance 0, .advance 0, .write none,
    .push (.frame Messages.pong), .poll, .poll, .poll, .poll, .poll, .poll]

def pingRaced : System :=
  ((System.init 64).exec pingRace).getD (System.init 64)

/-- A `Message` delivery for consumer 3. -/
def consumerDelivery : Message :=
  { command := { message := some ⟨3, ⟨0, 0⟩⟩ } }

/-- A subscription of consumer 3 whose first delivery, sent after the broker
received the `Subscribe` frame, arrives while the Receiver is in its inbound
loop. -/
def subscribeRace : List System.Action :=
  [.poll, .poll, .invoke (.subscribe 5 "t" "s" 0 3 none), .advance 0, .advance 0, .advance 0,
    .advance 0, .write none, .push (.frame consumerDelivery), .poll, .poll, .poll, .poll, .poll]

def subscribeRaced : System :=
  ((System.init 64).exec subscribeRace).getD (System.init 64)

/-- The pong of a `send_ping` is processed before its `Register::Ping`, so the
call waits with its resolver in the ping slot although every channel is empty;
and the first delivery of a subscription is processed before its
`Register::Consumer` and dropped. -/
theorem reply_overtakes_registration :
    (System.init 64).exec pingRace = some pingRaced ∧
    pingRaced.processed = [.frame Messages.pong, .registration (.ping 0)] ∧
    pingRaced.calls = [⟨.sendPing, .pingAwaiting⟩] ∧ pingRaced.pongs 0 = .waiting ∧
    pingRaced.receiver.ping = some 0 ∧ pingRaced.registrations = [] ∧
    pingRaced.inbound = [] ∧ pingRaced.outbound = [] ∧
    (System.init 64).exec subscribeRace = some subscribeRaced ∧
    subscribeRaced.sink.length = 1 ∧
    subscribeRaced.processed = [.frame consumerDelivery, .registration (.consumer 3 5),
      .registration (.request (.requestId 0) 0)] ∧
    subscribeRaced.deliveries 5 = [] := by
  refine ⟨rfl, ?_, ?_, ?_, ?_, ?_, ?_, ?_, rfl, ?_⟩ <;> decide

end PulsarConnection
