import Mathlib.Data.List.AList

/-!
# Frames, correlation keys and errors

A `Message` is one protocol frame: a `BaseCommand` whose optional fields say
which commands it carries.  Only the fields that the connection core builds or
reads are kept, each with the identifiers it carries; the frame payload is
forwarded unchanged and never inspected, so it is left out.

Several fields may be set at once, as in the protobuf type, and the Receiver's
routing depends on the order in which it tests them.  `Message.requestKey` is
the correlation key by which inbound frames are routed.
-/

namespace PulsarConnection

/-! ## Commands -/

structure MessageIdData where
  ledgerId : UInt64
  entryId : UInt64
  deriving DecidableEq, Repr

structure CommandConnect where
  authMethodName : Option String
  authData : Option (List UInt8)
  proxyToBrokerUrl : Option String
  clientVersion : String
  protocolVersion : Option Int
  deriving DecidableEq, Repr

structure CommandError where
  requestId : UInt64
  error : Int
  message : String
  deriving DecidableEq, Repr

structure CommandSend where
  producerId : UInt64
  sequenceId : UInt64
  numMessages : Option Int
  deriving DecidableEq, Repr

structure CommandSendReceipt where
  producerId : UInt64
  sequenceId : UInt64
  deriving DecidableEq, Repr

structure CommandLookupTopic where
  topic : String
  requestId : UInt64
  authoritative : Option Bool
  deriving DecidableEq, Repr

structure CommandLookupTopicResponse where
  requestId : UInt64
  deriving DecidableEq, Repr

structure CommandPartitionedTopicMetadata where
  topic : String
  requestId : UInt64
  deriving DecidableEq, Repr

structure CommandPartitionedTopicMetadataResponse where
  requestId : UInt64
  deriving DecidableEq, Repr

structure CommandProducer where
  topic : String
  producerId : UInt64
  requestId : UInt64
  producerName : Option String
  deriving DecidableEq, Repr

structure CommandProducerSuccess where
  requestId : UInt64
  producerName : String
  deriving DecidableEq, Repr

structure CommandGetTopicsOfNamespace where
  requestId : UInt64
  namespaceName : String
  mode : Option Int
  deriving DecidableEq, Repr

structure CommandGetTopicsOfNamespaceResponse where
  requestId : UInt64
  topics : List String
  deriving DecidableEq, Repr

structure CommandCloseProducer where
  producerId : UInt64
  requestId : UInt64
  deriving DecidableEq, Repr

structure CommandCloseConsumer where
  consumerId : UInt64
  requestId : UInt64
  deriving DecidableEq, Repr

structure CommandSubscribe where
  topic : String
  subscription : String
  subType : Int
  consumerId : UInt64
  requestId : UInt64
  consumerName : Option String
  deriving DecidableEq, Repr

structure CommandSuccess where
  requestId : UInt64
  deriving DecidableEq, Repr

structure CommandFlow where
  consumerId : UInt64
  messagePermits : UInt32
  deriving DecidableEq, Repr

structure CommandAck where
  consumerId : UInt64
  ackType : Int
  messageId : List MessageIdData
  deriving DecidableEq, Repr

structure CommandRedeliverUnacknowledgedMessages where
  consumerId : UInt64
  messageIds : List MessageIdData
  deriving DecidableEq, Repr

structure CommandMessage where
  consumerId : UInt64
  messageId : MessageIdData
  deriving DecidableEq, Repr

structure CommandActiveConsumerChange where
  consumerId : UInt64
  isActive : Option Bool
  deriving DecidableEq, Repr

structure CommandReachedEndOfTopic where
  consumerId : UInt64
  deriving DecidableEq, Repr

/-- The fields of the protocol's `BaseCommand` that the connection core uses;
`ping`, `pong` and `connected` carry no data it reads. -/
structure BaseCommand where
  connect : Option CommandConnect := none
  connected : Option Unit := none
  ping : Option Unit := none
  pong : Option Unit := none
  error : Option CommandError := none
  send : Option CommandSend := none
  sendReceipt : Option CommandSendReceipt := none
  lookupTopic : Option CommandLookupTopic := none
  lookupTopicResponse : Option CommandLookupTopicResponse := none
  partitionMetadata : Option CommandPartitionedTopicMetadata := none
  partitionMetadataResponse : Option CommandPartitionedTopicMetadataResponse := none
  producer : Option CommandProducer := none
  producerSuccess : Option CommandProducerSuccess := none
  getTopicsOfNamespace : Option CommandGetTopicsOfNamespace := none
  getTopicsOfNamespaceResponse : Option CommandGetTopicsOfNamespaceResponse := none
  closeProducer : Option CommandCloseProducer := none
  closeConsumer : Option CommandCloseConsumer := none
  subscribe : Option CommandSubscribe := none
  success : Option CommandSuccess := none
  flow : Option CommandFlow := none
  ack : Option CommandAck := none
  redeliverUnacknowledgedMessages : Option CommandRedeliverUnacknowledgedMessages := none
  message : Option CommandMessage := none
  activeConsumerChange : Option CommandActiveConsumerChange := none
  reachedEndOfTopic : Option CommandReachedEndOfTopic := none
  deriving DecidableEq, Repr

/-- An in-memory protocol frame. -/
structure Message where
  command : BaseCommand
  deriving DecidableEq, Repr

/-! ## Correlation keys -/

/-- The discriminant by which inbound frames are matched to their waiters. -/
inductive RequestKey
  | requestId (id : UInt64)
  | producerSend (producerId sequenceId : UInt64)
  | consumer (consumerId : UInt64)
  deriving DecidableEq, Repr

/-- Modelled from the spec: the request id of `Message::request_key`
(`message.rs` is not under src/), for the commands that carry a `request_id`.
`CloseConsumer` is not among them: it is a consumer-facing delivery. -/
def BaseCommand.requestId (command : BaseCommand) : Option UInt64 :=
  (command.subscribe.map (·.requestId)) <|>
  (command.partitionMetadata.map (·.requestId)) <|>
  (command.partitionMetadataResponse.map (·.requestId)) <|>
  (command.lookupTopic.map (·.requestId)) <|>
  (command.lookupTopicResponse.map (·.requestId)) <|>
  (command.producer.map (·.requestId)) <|>
  (command.producerSuccess.map (·.requestId)) <|>
  (command.closeProducer.map (·.requestId)) <|>
  (command.success.map (·.requestId)) <|>
  (command.error.map (·.requestId)) <|>
  (command.getTopicsOfNamespace.map (·.requestId)) <|>
  (command.getTopicsOfNamespaceResponse.map (·.requestId))

/-- Modelled from the spec: the consumer id of a consumer-facing delivery
(`Message`, `ActiveConsumerChange`, `ReachedEndOfTopic`, `CloseConsumer`). -/
def BaseCommand.deliveryConsumerId (command : BaseCommand) : Option UInt64 :=
  (command.activeConsumerChange.map (·.consumerId)) <|>
  (command.message.map (·.consumerId)) <|>
  (command.closeConsumer.map (·.consumerId)) <|>
  (command.reachedEndOfTopic.map (·.consumerId))

/-- Modelled from the spec: `Message::request_key`.  A command carrying a
`request_id` is keyed by it, a `SendReceipt` by its producer and sequence ids,
a consumer-facing delivery by its consumer id; any other frame has no key. -/
def Message.requestKey (msg : Message) : Option RequestKey :=
  (msg.command.requestId.map .requestId) <|>
  (msg.command.sendReceipt.map fun receipt =>
    .producerSend receipt.producerId receipt.sequenceId) <|>
  (msg.command.deliveryConsumerId.map .consumer)

/-! ## Errors -/

/-- Modelled from the spec: `ConnectionError` of `error.rs` (not under src/).
A server error keeps the raw code that `server_error` decodes, and an
unexpected frame the command whose debug text the source formats. -/
inductive ConnectionError
  | io (description : String)
  | disconnected
  | pulsarError (serverError : Int) (message : Option String)
  | unexpected (command : BaseCommand)
  | unexpectedResponse (command : BaseCommand)
  | notFound
  | shutdown
  | tls (description : String)
  deriving DecidableEq, Repr

/-- A correlated reply is rejected when it carries a server error, and
otherwise yields what the operation's extractor finds in it. -/
def extractMessage {α : Type} (message : Message) (extract : Message → Option α) :
    Except ConnectionError α :=
  match message.command.error with
  | some e => .error (.pulsarError e.error (some e.message))
  | none =>
      match extract message with
      | some extracted => .ok extracted
      | none => .error (.unexpectedResponse message.command)

/-- `extract_message` returns only what the reply itself determines: a server
error, the extracted field, or the reply's own command as unexpected. -/
theorem extractMessage_cases {α : Type} (message : Message) (extract : Message → Option α) :
    (∃ e, message.command.error = some e ∧
        extractMessage message extract = .error (.pulsarError e.error (some e.message))) ∨
      (message.command.error = none ∧ ∃ extracted, extract message = some extracted ∧
        extractMessage message extract = .ok extracted) ∨
      (message.command.error = none ∧ extract message = none ∧
        extractMessage message extract = .error (.unexpectedResponse message.command)) := by
  unfold extractMessage
  cases hError : message.command.error with
  | some e => exact .inl ⟨e, rfl, rfl⟩
  | none =>
      cases hExtract : extract message with
      | some extracted => exact .inr (.inl ⟨rfl, extracted, rfl, rfl⟩)
      | none => exact .inr (.inr ⟨rfl, rfl, rfl⟩)

end PulsarConnection
