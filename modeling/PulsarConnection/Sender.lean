import PulsarConnection.Messages

/-!
# The operations of `ConnectionSender`

One constructor per public operation, with its arguments.  The request and
response operations differ only in the frame they build, the key they register
and the field they extract from the reply; these are given here once, and the
common `send_message` procedure is a transition of the connection system.
-/

namespace PulsarConnection

/-- A call of one `ConnectionSender` method. -/
inductive Operation
  | send (producerId : UInt64) (producerName : String) (sequenceId : UInt64)
      (message : ProducerMessage)
  | sendPing
  | lookupTopic (topic : String) (authoritative : Bool)
  | lookupPartitionedTopic (topic : String)
  | createProducer (topic : String) (producerId : UInt64) (producerName : Option String)
  | getTopicsOfNamespace (namespaceName : String) (mode : Int)
  | closeProducer (producerId : UInt64)
  /-- `resolver` is the delivery sender handed to the Receiver for the consumer. -/
  | subscribe (resolver : Nat) (topic subscription : String) (subType : Int)
      (consumerId : UInt64) (consumerName : Option String)
  | sendFlow (consumerId : UInt64) (messagePermits : UInt32)
  | sendAck (consumerId : UInt64) (messageIds : List MessageIdData) (cumulative : Bool)
  | sendRedeliverUnacknowlegedMessages (consumerId : UInt64) (messageIds : List MessageIdData)
  | closeConsumer (consumerId : UInt64)
  deriving DecidableEq, Repr

/-- What an operation returns on success. -/
inductive Response
  | sendReceipt (receipt : CommandSendReceipt)
  | lookupTopicResponse (response : CommandLookupTopicResponse)
  | partitionMetadataResponse (response : CommandPartitionedTopicMetadataResponse)
  | producerSuccess (response : CommandProducerSuccess)
  | getTopicsOfNamespaceResponse (response : CommandGetTopicsOfNamespaceResponse)
  | success (response : CommandSuccess)
  /-- The `()` of `send_ping` and of the fire-and-forget operations. -/
  | unit
  deriving DecidableEq, Repr

namespace Operation

/-- The extractor each request/response operation passes to `send_message`. -/
def extract : Operation → Message → Option Response
  | .send .., resp => resp.command.sendReceipt.map .sendReceipt
  | .lookupTopic .., resp => resp.command.lookupTopicResponse.map .lookupTopicResponse
  | .lookupPartitionedTopic .., resp =>
      resp.command.partitionMetadataResponse.map .partitionMetadataResponse
  | .createProducer .., resp => resp.command.producerSuccess.map .producerSuccess
  | .getTopicsOfNamespace .., resp =>
      resp.command.getTopicsOfNamespaceResponse.map .getTopicsOfNamespaceResponse
  | .closeProducer .., resp => resp.command.success.map .success
  | .subscribe .., resp => resp.command.success.map .success
  | .closeConsumer .., resp => resp.command.success.map .success
  | _, _ => none

/-- The key and frame an operation hands to `send_message`, given the request
id it took from `SerialId::get` (`send` takes none). -/
def request (requestId : UInt64) : Operation → Option (RequestKey × Message)
  | .send producerId producerName sequenceId message =>
      some (.producerSend producerId sequenceId,
        Messages.send producerId producerName sequenceId message)
  | .lookupTopic topic authoritative =>
      some (.requestId requestId, Messages.lookupTopic topic authoritative requestId)
  | .lookupPartitionedTopic topic =>
      some (.requestId requestId, Messages.lookupPartitionedTopic topic requestId)
  | .createProducer topic producerId producerName =>
      some (.requestId requestId,
        Messages.createProducer topic producerName producerId requestId)
  | .getTopicsOfNamespace namespaceName mode =>
      some (.requestId requestId, Messages.getTopicsOfNamespace requestId namespaceName mode)
  | .closeProducer producerId =>
      some (.requestId requestId, Messages.closeProducer producerId requestId)
  | .subscribe _ topic subscription subType consumerId consumerName =>
      some (.requestId requestId,
        Messages.subscribe topic subscription subType consumerId requestId consumerName)
  | .closeConsumer consumerId =>
      some (.requestId requestId, Messages.closeConsumer consumerId requestId)
  | _ => none

/-- The frame of a fire-and-forget operation. -/
def notification : Operation → Option Message
  | .sendFlow consumerId messagePermits => some (Messages.flow consumerId messagePermits)
  | .sendAck consumerId messageIds cumulative => some (Messages.ack consumerId messageIds cumulative)
  | .sendRedeliverUnacknowlegedMessages consumerId messageIds =>
      some (Messages.redeliverUnacknowlegedMessages consumerId messageIds)
  | _ => none

/-- Every request/response operation writes into its frame the ids of the key
it registers, so the broker's reply is correlated with that key. -/
theorem request_writtenKey {op : Operation} {requestId : UInt64} {key : RequestKey}
    {frame : Message} (h : op.request requestId = some (key, frame)) :
    frame.writtenKey = some key := by
  cases op <;> simp only [request, Option.some.injEq, Prod.mk.injEq, reduceCtorEq] at h <;>
    obtain ⟨rfl, rfl⟩ := h <;> rfl

/-- A fire-and-forget frame is not a request: the broker answers nothing. -/
theorem notification_writtenKey {op : Operation} {frame : Message}
    (h : op.notification = some frame) : frame.writtenKey = none := by
  cases op <;> simp only [notification, Option.some.injEq, reduceCtorEq] at h <;> subst h <;> rfl

end Operation

end PulsarConnection
