import Autobahn.Foundation.Containers
import Autobahn.Foundation.Machine
import Autobahn.Foundation.Partial
import Autobahn.Session.ReceiveLoop
import Autobahn.Session.Reordering
import Autobahn.Session.LostConnection
import Autobahn.Session.Joining
import Autobahn.Session.Farewell
import Autobahn.Session.Delivery
import Autobahn.Session.Waiting
import Autobahn.Session.Wire
import Autobahn.Session.Isolation
import Autobahn.Session.Limits
import Autobahn.Session.Network
import Autobahn.Session.Lookup
import Autobahn.Session.Failures
import Autobahn.Session.ErrorText
import Autobahn.Session.CallResult
import Autobahn.Session.Outgoing
import Autobahn.Session.Reporting
import Autobahn.Session.RefusedTransport
import Autobahn.Session.Callbacks
import Autobahn.Acs.Announcer
import Autobahn.Session.PubSub
import Autobahn.Acs.Discovery
import Autobahn.Acs.InterfaceChangeNotifier
import Autobahn.Session.Refinement
import Autobahn.Session.Providing
import Autobahn.Session.Stopping
import Autobahn.Session.CallOutcomes
import Autobahn.Session.Arguments
import Autobahn.Session.OctetStreams
