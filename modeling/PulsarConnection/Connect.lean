import PulsarConnection.AddressLookup
import PulsarConnection.System

/-!
# Setting a connection up

`Connection::connect` sends the `CONNECT` frame that `messages::connect`
builds, reads the broker's first answer, and only on a `Connected` command
splits the stream, spawns the Receiver and the Writer, and hands back a
`ConnectionSender` with a fresh `SerialId` and an empty error cell.  An answer
that carries `error` is reported as a `PulsarError` whatever else it carries;
any other answer without `connected` is `Unexpected`; a failed stream yields
its error and an ended one `Disconnected`.  Both executors' `spawn` hand the
future to their runtime and return `Ok(())`, so the `Shutdown` arms are never
taken.
-/

namespace PulsarConnection

/-- `Executor::spawn`: `tokio::task::spawn` and `async_std::task::spawn` take
the future and return `Ok(())`. -/
def spawn : ExecutorKind → Except Unit Unit
  | .tokio => .ok ()
  | .asyncStd => .ok ()

/-- What `Connection::connect` makes of `stream.next().await`, the broker's
first answer to the `CONNECT` frame. -/
def handshake : Option (Except ConnectionError Message) → Except ConnectionError Unit
  | some (.ok msg) =>
      match msg.command.error with
      | some error => .error (.pulsarError error.error (some error.message))
      | none =>
          match msg.command.connected with
          | some () => .ok ()
          | none => .error (.unexpected msg.command)
  | some (.error e) => .error e
  | none => .error .disconnected

/-- `Connection::connect` on a target whose `usize` has `usizeBits` bits:
`send` is what the sink makes of the `CONNECT` frame and `answer` what the
stream yields next.  On success the connection is in the state right after
both tasks were spawned. -/
def connect (executor : ExecutorKind) (usizeBits : Nat) (auth : Option Authentication)
    (proxyToBrokerUrl : Option String) (send : Message → Except ConnectionError Unit)
    (answer : Option (Except ConnectionError Message)) : Except ConnectionError System := do
  send (Messages.connect auth proxyToBrokerUrl)
  handshake answer
  match spawn executor with
  | .error () => .error .shutdown
  | .ok () =>
      match spawn executor with
      | .error () => .error .shutdown
      | .ok () => .ok (System.init usizeBits)

/-- The handshake succeeds exactly on a frame that carries `connected` and no
`error`. -/
theorem handshake_eq_ok {answer : Option (Except ConnectionError Message)} :
    handshake answer = .ok () ↔
      ∃ msg, answer = some (.ok msg) ∧ msg.command.error = none ∧ msg.command.connected = some () := by
  rcases answer with _ | e | msg
  · simp [handshake]
  · simp [handshake]
  · cases hError : msg.command.error <;> cases hConnected : msg.command.connected <;>
      simp [handshake, hError, hConnected]

/-- The spawns never fail, so `Connection::connect` is the `CONNECT` send and
the handshake, followed by the initial state of the connection. -/
theorem connect_eq (executor : ExecutorKind) (usizeBits : Nat) (auth : Option Authentication)
    (proxyToBrokerUrl : Option String) (send : Message → Except ConnectionError Unit)
    (answer : Option (Except ConnectionError Message)) :
    connect executor usizeBits auth proxyToBrokerUrl send answer =
      (send (Messages.connect auth proxyToBrokerUrl) *> handshake answer).map
        fun _ => System.init usizeBits := by
  unfold connect
  cases executor <;> cases send (Messages.connect auth proxyToBrokerUrl) <;>
    cases handshake answer <;> rfl

/-- `Connection::connect` hands back a connection exactly when the `CONNECT`
frame was sent and the handshake succeeded, and then it is the initial state. -/
theorem connect_eq_ok {executor : ExecutorKind} {usizeBits : Nat} {auth : Option Authentication}
    {proxyToBrokerUrl : Option String} {send : Message → Except ConnectionError Unit}
    {answer : Option (Except ConnectionError Message)} {s : System} :
    connect executor usizeBits auth proxyToBrokerUrl send answer = .ok s ↔
      send (Messages.connect auth proxyToBrokerUrl) = .ok () ∧ handshake answer = .ok () ∧
        s = System.init usizeBits := by
  rw [connect_eq]
  cases send (Messages.connect auth proxyToBrokerUrl) <;> cases handshake answer <;>
    simp [SeqRight.seqRight, Except.map, Except.bind, eq_comm]

/-- Every connection `Connection::connect` hands back starts where the
connection system starts, so every law of the system holds over its runs. -/
theorem connect_reachable {executor : ExecutorKind} {usizeBits : Nat}
    {auth : Option Authentication} {proxyToBrokerUrl : Option String}
    {send : Message → Except ConnectionError Unit} {answer : Option (Except ConnectionError Message)}
    {s : System} (h : connect executor usizeBits auth proxyToBrokerUrl send answer = .ok s) :
    Reachable s :=
  (connect_eq_ok.1 h).2.2 ▸ .init usizeBits

end PulsarConnection
