import PulsarConnection.System

/-!
# The transitions of a caller and of the Receiver

`System.advance` and `System.poll` each take one of a few arms, depending on
the stage of the call or the phase of the Receiver and on the channels.  The
relations below list those arms as named constructors, each with the guard
under which it is taken and the state it leads to, and every step of the
functions is one of them.  Invariants are proved by a case per constructor
instead of by unfolding the functions again.
-/

namespace PulsarConnection

namespace System

/-- The steps call `i` can take, one constructor per arm of `advance` (the
first step, `start`, split by operation). -/
inductive Advances (s : System) (i : Nat) : System → Prop
  | ping : s.calls[i]? = some ⟨.sendPing, .invoked⟩ →
      Advances s i ((s.post (.ping i)).setStage i (.pingEnqueuing s.registrationsOpen))
  | send {producerId : UInt64} {producerName : String} {sequenceId : UInt64}
      {message : ProducerMessage} :
      s.calls[i]? = some ⟨.send producerId producerName sequenceId message, .invoked⟩ →
      Advances s i (s.setStage i (.posting (.producerSend producerId sequenceId)
        (Messages.send producerId producerName sequenceId message)))
  | subscribe {resolver : Nat} {topic subscription : String} {subType : Int}
      {consumerId : UInt64} {consumerName : Option String} :
      s.calls[i]? =
        some ⟨.subscribe resolver topic subscription subType consumerId consumerName, .invoked⟩ →
      Advances s i ({ s with requestId := s.requestId.get.2 }.setStage i
        (.subscribing consumerId resolver (.requestId s.requestId.get.1)
          (Messages.subscribe topic subscription subType consumerId s.requestId.get.1
            consumerName)))
  | notify {op : Operation} {frame : Message} : s.calls[i]? = some ⟨op, .invoked⟩ →
      op.notification = some frame →
      Advances s i ((s.enqueue frame).setStage i
        (.returned (if s.outboundOpen then .ok .unit else disconnected)))
  | request {op : Operation} {key : RequestKey} {frame : Message} :
      s.calls[i]? = some ⟨op, .invoked⟩ → op.request s.requestId.get.1 = some (key, frame) →
      Advances s i ({ s with requestId := s.requestId.get.2 }.setStage i (.posting key frame))
  | postConsumer {op : Operation} {consumerId : UInt64} {resolver : Nat} {key : RequestKey}
      {frame : Message} : s.calls[i]? = some ⟨op, .subscribing consumerId resolver key frame⟩ →
      s.registrationsOpen →
      Advances s i ((s.post (.consumer consumerId resolver)).setStage i (.posting key frame))
  | consumerRefused {op : Operation} {consumerId : UInt64} {resolver : Nat} {key : RequestKey}
      {frame : Message} : s.calls[i]? = some ⟨op, .subscribing consumerId resolver key frame⟩ →
      s.registrationsOpen = false →
      Advances s i (((s.post (.consumer consumerId resolver)).setError .disconnected).setStage i
        (.returned disconnected))
  | postRequest {op : Operation} {key : RequestKey} {frame : Message} :
      s.calls[i]? = some ⟨op, .posting key frame⟩ →
      Advances s i ((s.post (.request key i)).setStage i
        (.enqueuing key frame s.registrationsOpen))
  | enqueue {op : Operation} {key : RequestKey} {frame : Message} {posted : Bool} :
      s.calls[i]? = some ⟨op, .enqueuing key frame posted⟩ →
      Advances s i ((s.enqueue frame).setStage i
        (if posted && s.outboundOpen then .awaiting else .returned disconnected))
  | reply {op : Operation} {msg : Message} : s.calls[i]? = some ⟨op, .awaiting⟩ →
      s.responses i = .sent msg →
      Advances s i (s.setStage i (.returned (extractMessage msg op.extract)))
  | dropped {op : Operation} : s.calls[i]? = some ⟨op, .awaiting⟩ →
      s.responses i = .canceled →
      Advances s i ((s.setError .disconnected).setStage i (.returned disconnected))
  | enqueuePing {op : Operation} {posted : Bool} : s.calls[i]? = some ⟨op, .pingEnqueuing posted⟩ →
      Advances s i ((s.enqueue Messages.ping).setStage i
        (if posted && s.outboundOpen then .pingAwaiting else .returned disconnected))
  | pong {op : Operation} : s.calls[i]? = some ⟨op, .pingAwaiting⟩ → s.pongs i = .sent () →
      Advances s i (s.setStage i (.returned (.ok .unit)))
  | pingDropped {op : Operation} : s.calls[i]? = some ⟨op, .pingAwaiting⟩ →
      s.pongs i = .canceled → Advances s i (s.setStage i (.returned disconnected))

/-- Every step of a call is one of the arms of `Advances`. -/
theorem advances_of_advance {s s' : System} {i : Nat} (h : s.advance i = some s') :
    Advances s i s' := by
  unfold advance at h
  split at h
  · cases h
  · rename_i call hCall
    obtain ⟨op, stage⟩ := call
    cases stage with
    | invoked =>
        cases h
        cases op with
        | sendPing => exact .ping hCall
        | send => exact .send hCall
        | subscribe => exact .subscribe hCall
        | sendFlow | sendAck | sendRedeliverUnacknowlegedMessages => exact .notify hCall rfl
        | _ => exact .request hCall rfl
    | subscribing =>
        simp only at h
        split at h <;> cases h
        · exact .postConsumer hCall ‹_›
        · exact .consumerRefused hCall (Bool.eq_false_iff.2 ‹_›)
    | posting => cases h; exact .postRequest hCall
    | enqueuing => cases h; exact .enqueue hCall
    | awaiting =>
        simp only at h
        split at h <;> cases h
        · exact .reply hCall ‹_›
        · exact .dropped hCall ‹_›
    | pingEnqueuing => cases h; exact .enqueuePing hCall
    | pingAwaiting =>
        simp only at h
        split at h <;> cases h
        · exact .pong hCall ‹_›
        · exact .pingDropped hCall ‹_›
    | returned => cases h

/-- A relation that composes and that relates a state to its image under each
helper a call's step is made of (a post, an enqueue, a record in the error
cell, a fetch of a request id, and a move of call `i` to another stage) relates
the states before and after every step of call `i`. -/
theorem Advances.of_helpers {R : System → System → Prop} {i : Nat} {s s' : System}
    (hTrans : ∀ {t t' t''}, R t t' → R t' t'' → R t t'') (hPost : ∀ t r, R t (t.post r))
    (hEnqueue : ∀ t msg, R t (t.enqueue msg)) (hError : ∀ t e, R t (t.setError e))
    (hRequestId : ∀ t, R t { t with requestId := t.requestId.get.2 })
    (hStage : ∀ t stage, R t (t.setStage i stage)) (h : Advances s i s') : R s s' := by
  cases h with
  | ping | postConsumer | postRequest => exact hTrans (hPost _ _) (hStage _ _)
  | consumerRefused => exact hTrans (hTrans (hPost _ _) (hError _ _)) (hStage _ _)
  | notify | enqueue | enqueuePing => exact hTrans (hEnqueue _ _) (hStage _ _)
  | dropped => exact hTrans (hError _ _) (hStage _ _)
  | subscribe | request => exact hTrans (hRequestId _) (hStage _ _)
  | send | reply | pong | pingDropped => exact hStage _ _

/-- The steps of the Receiver's poll, one constructor per arm of `poll`. -/
inductive Polls (s : System) : System → Prop
  | wake : s.phase = .idle → s.connectionAlive → Polls s { s with phase := .draining }
  | shutdown : s.phase = .idle → s.connectionAlive = false → Polls s s.exit
  | drain {r : Register} {rest : List Register} : s.phase = .draining →
      s.registrations = r :: rest →
      Polls s ({ s with registrations := rest }.dispatch (.registration r))
  | drained : s.phase = .draining → s.registrations = [] → s.connectionAlive →
      Polls s { s with phase := .reading }
  | senderGone : s.phase = .draining → s.registrations = [] → s.connectionAlive = false →
      Polls s (s.setError .disconnected).exit
  | read {msg : Message} {rest : List Inbound} : s.phase = .reading →
      s.inbound = .frame msg :: rest → Polls s ({ s with inbound := rest }.dispatch (.frame msg))
  | fail {e : ConnectionError} {rest : List Inbound} : s.phase = .reading →
      s.inbound = .failure e :: rest → Polls s ({ s with inbound := rest }.setError e).exit
  | close {rest : List Inbound} : s.phase = .reading → s.inbound = .closed :: rest →
      Polls s ({ s with inbound := rest }.setError .disconnected).exit
  | readAll : s.phase = .reading → s.inbound = [] → Polls s { s with phase := .idle }

/-- Every step of the Receiver is one of the arms of `Polls`. -/
theorem polls_of_poll {s s' : System} (h : s.poll = some s') : Polls s s' := by
  unfold poll at h
  split at h
  · rename_i hPhase
    cases h
    split
    · exact .wake hPhase ‹_›
    · exact .shutdown hPhase (Bool.eq_false_iff.2 ‹_›)
  · rename_i hPhase
    split at h
    · cases h
      exact .drain hPhase ‹_›
    · split at h <;> cases h
      · exact .drained hPhase ‹_› ‹_›
      · exact .senderGone hPhase ‹_› (Bool.eq_false_iff.2 ‹_›)
  · rename_i hPhase
    split at h <;> cases h
    · exact .read hPhase ‹_›
    · exact .fail hPhase ‹_›
    · exact .close hPhase ‹_›
    · exact .readAll hPhase ‹_›
  · cases h

end System

end PulsarConnection
