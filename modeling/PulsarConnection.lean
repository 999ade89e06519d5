import PulsarConnection.Message
import PulsarConnection.Messages
import PulsarConnection.SharedError
import PulsarConnection.SerialId
import PulsarConnection.AddressLookup
import PulsarConnection.Receiver
import PulsarConnection.Routing
import PulsarConnection.Rendezvous
import PulsarConnection.Sender
import PulsarConnection.System
import PulsarConnection.Connect
import PulsarConnection.Steps
import PulsarConnection.Writer
import PulsarConnection.Validity
import PulsarConnection.Shutdown
import PulsarConnection.Teardown
import PulsarConnection.Transitions
import PulsarConnection.Resolution
import PulsarConnection.Invariants
import PulsarConnection.CallerErrors
import PulsarConnection.Accounting
import PulsarConnection.Correlation
import PulsarConnection.Pongs
import PulsarConnection.RequestIds
import PulsarConnection.Pings
import PulsarConnection.Progress
import PulsarConnection.Returns
import PulsarConnection.PingProgress
import PulsarConnection.Deliveries
