import PulsarConnection.Message

/-!
# Frames built by the connection

The builders of the source's `messages` module.  Each request builder writes
the identifiers it is given into its command; `Message.writtenKey` reads them
back the way the broker does when it correlates its reply, so that every
operation's pairing of registered key and written ids can be checked.
-/

namespace PulsarConnection

/-- The part of `producer::ProducerMessage` that the `Send` command reads; the
rest goes into the payload, which the connection core never inspects. -/
structure ProducerMessage where
  numMessagesInBatch : Option Int
  deriving DecidableEq, Repr

/-- Authentication parameters. -/
structure Authentication where
  name : String
  data : List UInt8
  deriving DecidableEq, Repr

namespace Messages

def connect (auth : Option Authentication) (proxyToBrokerUrl : Option String) : Message :=
  { command :=
      { connect := some
          { authMethodName := auth.map (·.name)
            authData := auth.map (·.data)
            proxyToBrokerUrl := proxyToBrokerUrl
            clientVersion := "2.0.1-incubating"
            protocolVersion := some 12 } } }

def ping : Message :=
  { command := { ping := some () } }

def pong : Message :=
  { command := { pong := some () } }

def createProducer (topic : String) (producerName : Option String) (producerId requestId : UInt64) :
    Message :=
  { command := { producer := some { topic, producerId, requestId, producerName } } }

def getTopicsOfNamespace (requestId : UInt64) (namespaceName : String) (mode : Int) : Message :=
  { command := { getTopicsOfNamespace := some { requestId, namespaceName, mode := some mode } } }

/-- The producer name goes into the payload metadata, which is not modelled. -/
def send (producerId : UInt64) (_producerName : String) (sequenceId : UInt64)
    (message : ProducerMessage) : Message :=
  { command :=
      { send := some { producerId, sequenceId, numMessages := message.numMessagesInBatch } } }

def lookupTopic (topic : String) (authoritative : Bool) (requestId : UInt64) : Message :=
  { command :=
      { lookupTopic := some { topic, requestId, authoritative := some authoritative } } }

def lookupPartitionedTopic (topic : String) (requestId : UInt64) : Message :=
  { command := { partitionMetadata := some { topic, requestId } } }

def closeProducer (producerId requestId : UInt64) : Message :=
  { command := { closeProducer := some { producerId, requestId } } }

def subscribe (topic subscription : String) (subType : Int) (consumerId requestId : UInt64)
    (consumerName : Option String) : Message :=
  { command :=
      { subscribe := some { topic, subscription, subType, consumerId, requestId, consumerName } } }

def flow (consumerId : UInt64) (messagePermits : UInt32) : Message :=
  { command := { flow := some { consumerId, messagePermits } } }

/-- `AckType::Cumulative` is `1` and `AckType::Individual` is `0`. -/
def ack (consumerId : UInt64) (messageId : List MessageIdData) (cumulative : Bool) : Message :=
  { command :=
      { ack := some { consumerId, ackType := if cumulative then 1 else 0, messageId } } }

def redeliverUnacknowlegedMessages (consumerId : UInt64) (messageIds : List MessageIdData) :
    Message :=
  { command := { redeliverUnacknowledgedMessages := some { consumerId, messageIds } } }

def closeConsumer (consumerId requestId : UInt64) : Message :=
  { command := { closeConsumer := some { consumerId, requestId } } }

end Messages

/-- The correlation key the broker reads from a request frame: the
`request_id` written in a request command, or the producer and sequence ids
written in a `Send`. -/
def Message.writtenKey (frame : Message) : Option RequestKey :=
  (frame.command.lookupTopic.map fun command => .requestId command.requestId) <|>
  (frame.command.partitionMetadata.map fun command => .requestId command.requestId) <|>
  (frame.command.producer.map fun command => .requestId command.requestId) <|>
  (frame.command.getTopicsOfNamespace.map fun command => .requestId command.requestId) <|>
  (frame.command.closeProducer.map fun command => .requestId command.requestId) <|>
  (frame.command.subscribe.map fun command => .requestId command.requestId) <|>
  (frame.command.closeConsumer.map fun command => .requestId command.requestId) <|>
  (frame.command.send.map fun send => .producerSend send.producerId send.sequenceId)

/-- A frame the Receiver answers or consumes as keep-alive traffic before it
looks at the frame's key. -/
def Message.isKeepAlive (msg : Message) : Bool :=
  msg.command.ping.isSome || msg.command.pong.isSome

end PulsarConnection
