import Tollgate.Main
import Tollgate.Rsa.Generation
import Tollgate.Tunnel.Pipe
import Tollgate.Proofs.Admission.Gate
import Tollgate.Proofs.Admission.Guard
import Tollgate.Proofs.Proxy.AdminRoute
import Tollgate.Proofs.Key.Freshness
import Tollgate.Proofs.Key.Safety
import Tollgate.Proofs.Admission.Interleaving
import Tollgate.Proofs.Admission.Finality
import Tollgate.Proofs.Key.Burst
import Tollgate.Proofs.Key.Economy
import Tollgate.Proofs.Key.Publication
import Tollgate.Proofs.Admission.Acceptance
import Tollgate.Proofs.Admission.Revocation
import Tollgate.Proofs.Proxy.Router
import Tollgate.Proofs.Control.Strangers
import Tollgate.Proofs.Control.Atomicity
import Tollgate.Proofs.Fleet.Log
import Tollgate.Proofs.Proxy.Farewell
import Tollgate.Proofs.Control.KeyPaths
import Tollgate.Proofs.Control.BrokenFetches
import Tollgate.Proofs.Admission.OwnTokens
import Tollgate.Proofs.Admission.Bypass
import Tollgate.Proofs.Proxy.ControlUrl
import Tollgate.Proofs.Proxy.Replication
import Tollgate.Proofs.Token.RoundTrip
import Tollgate.Proofs.Tunnel.Integrity
import Tollgate.Proofs.Tunnel.Lifecycle
import Tollgate.Proofs.Token.Minted
import Tollgate.Proofs.Fleet.Withdrawal
import Tollgate.Proofs.Control.Registration
import Tollgate.Proofs.Control.FleetLog
import Tollgate.Proofs.Control.Stay
import Tollgate.Proofs.Control.Interruptions
import Tollgate.Proofs.Control.Dates
import Tollgate.Proofs.Control.Redaction
import Tollgate.Proofs.Token.Form
import Tollgate.Proofs.Token.Numeric
import Tollgate.Proofs.Control.AdminSecret
import Tollgate.Proofs.Fleet.Glances
import Tollgate.Proofs.Tunnel.Address
import Tollgate.Proofs.Token.Signed
import Tollgate.Proofs.Key.Expiry
