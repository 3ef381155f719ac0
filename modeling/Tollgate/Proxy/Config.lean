import Tollgate.Admission.Gate
import Tollgate.Admission.Guard
import Tollgate.Fleet.Server
import Tollgate.SocketAddress
import Tollgate.Time

/-! # Settings of a proxy

* `ControlLink` — where the control server is, and the secret shared with it;
* `ProxyConfig` — what a proxy is told;
* `ProxyConfig.validate` — the first setting that makes no sense;
* `ProxyConfig.gateConfig`, `ProxyConfig.adminGuard` — what follows from the settings.
-/

namespace Tollgate

structure ControlLink where
  url : String
  sharedSecret : String
  deriving DecidableEq, Repr, Inhabited

namespace ControlLink

/-- The scheme of the URL: what stands before the first `://`, if that occurs. -/
def schemeOf? : List Char → Option (List Char)
  | [] => none
  | ':' :: '/' :: '/' :: _ => some []
  | c :: cs => (schemeOf? cs).map (c :: ·)

def scheme? (l : ControlLink) : Option String := (schemeOf? l.url.toList).map String.ofList

def describe (l : ControlLink) : String :=
  "ControlConfig \x7b url: " ++ quoted l.url ++ ", shared_secret: \"<redacted>\" \x7d"

end ControlLink

/-- The record of a proxy that is told nothing about itself. -/
def ProxyServer.unnamed : ProxyServer :=
  { proxyUrl := "https://proxy.example.com", city := "Unknown", country := "Unknown"
    supportsTcp := true }

structure ProxyConfig where
  /-- The control server; without one the proxy stands alone. -/
  control : Option ControlLink := none
  server : ProxyServer := .unnamed
  /-- Where operators can revoke tokens; without an address nowhere. -/
  adminAddress : Option SocketAddress := none
  adminSecret : Option String := none
  /-- Whether a control server without encryption and an open admin route are tolerated. -/
  insecure : Bool := false
  allowUnsigned : Bool := false
  /-- Capabilities that every token has to carry. -/
  required : List Capability := [.connectTcp]
  /-- How often the revoked tokens are fetched. -/
  syncInterval : Span := .ofSeconds 1800
  /-- How long a target may take to answer. -/
  dialTimeout : Span := .ofSeconds 10
  deriving DecidableEq, Repr, Inhabited

/-- Which setting of a proxy makes no sense. -/
inductive ProxyFault where
  | insecureControlUrl (url : String)
  | invalidControlUrl (url : String)
  | emptySharedSecret
  | adminSecretRequired
  | emptyAdminSecret
  | noKeySource
  | invalidSyncInterval
  | invalidServer (fault : ServerFault)
  deriving DecidableEq, Repr

def ProxyFault.message : ProxyFault → String
  | .insecureControlUrl url =>
    "Control server URL must use https:// unless insecure mode is enabled: " ++ url
  | .invalidControlUrl url => "Control server URL is not a valid URL: " ++ url
  | .emptySharedSecret => "Control server shared secret must not be empty"
  | .adminSecretRequired =>
    "Admin listener requires an admin secret unless insecure mode is enabled"
  | .emptyAdminSecret => "Admin secret must not be empty"
  | .noKeySource => "No control server configured; tokens could never be verified"
  | .invalidSyncInterval => "Revocation sync interval must be greater than zero"
  | .invalidServer fault => "Invalid registration record: " ++ fault.message

namespace ProxyConfig

/-- The URL of the control server has a scheme that may be used. -/
def validateUrl (insecure : Bool) (l : ControlLink) : Except ProxyFault Unit :=
  match l.scheme? with
  | none => .error (.invalidControlUrl l.url)
  | some scheme =>
    if scheme = "https" then .ok ()
    else if scheme = "http" then
      if insecure then .ok () else .error (.insecureControlUrl l.url)
    else .error (.invalidControlUrl l.url)

def validateServer (s : ProxyServer) : Except ProxyFault Unit :=
  match s.validate with
  | .ok () => .ok ()
  | .error e => .error (.invalidServer e)

/-- The settings around the control server make sense.  What only concerns the control server
    is not looked at where there is none. -/
def validateControl (c : ProxyConfig) : Except ProxyFault Unit :=
  match c.control with
  -- Without a control server only unsigned tokens can be checked.
  | none => if c.allowUnsigned then .ok () else .error .noKeySource
  | some link => do
    validateUrl c.insecure link
    if link.sharedSecret.isEmpty then .error .emptySharedSecret
    else if c.syncInterval.nanos = 0 then .error .invalidSyncInterval
    else validateServer c.server

/-- The admin route is not open by accident. -/
def validateAdmin (c : ProxyConfig) : Except ProxyFault Unit :=
  match c.adminAddress, c.adminSecret with
  | none, _ => .ok ()
  | some _, some secret => if secret.isEmpty then .error .emptyAdminSecret else .ok ()
  | some _, none => if c.insecure then .ok () else .error .adminSecretRequired

/-- The first setting that makes no sense. -/
def validate (c : ProxyConfig) : Except ProxyFault Unit := do
  c.validateControl
  c.validateAdmin

def gateConfig (c : ProxyConfig) : GateConfig :=
  { required := c.required, allowUnsigned := c.allowUnsigned }

def adminGuard (c : ProxyConfig) : AdminGuard := ⟨c.adminSecret⟩

end ProxyConfig

end Tollgate
