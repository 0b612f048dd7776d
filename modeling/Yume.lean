import Yume.Session.TokenLoss
import Yume.Session.OpenPeer
import Yume.Session.Targets
import Yume.SystemResolver
import Yume.Ytp.Open
import Yume.Ytp.Capabilities
import Yume.Crypto.Canonical
import Yume.Session.WriteGaps
import Yume.Session.Fairness
import Yume.Session.RekeyReserve
import Yume.Session.Obligations
import Yume.Session.Delivery
import Yume.Admission.Replay
import Yume.Admission.ServerName
import Yume.Admission.Path
import Yume.Ytp.KeySchedule
import Yume.Circuit.Relay
import Yume.Stealth.WebSocketRoundTrip
import Yume.CircuitPool.Settling
import Yume.CircuitNode.Extension
import Yume.CircuitClient.Writes
import Yume.CircuitNode.Bounds
import Yume.Circuit.Nonces
import Yume.CircuitClient.WindowRuns
import Yume.RouteBridge.Faithful
import Yume.DeviceNat.Table
import Yume.Egress.Policy
import Yume.History.Listing
import Yume.AcceptScheduler
import Yume.EndpointTraffic
import Yume.ClientRoutes
import Yume.PlainHttpGuard
import Yume.NativeRun
import Yume.CircuitNode.Paths
