import Tollgate.Binary64
import Tollgate.Cli.Arguments
import Tollgate.Cli.Failure
import Tollgate.Control.Config
import Tollgate.Power
import Tollgate.Proxy.Config

/-! # Commands

The program runs a control server or a proxy, or makes a token for development.

* `Command` — what is to be done;
* `Command.read` — the command that arguments and environment ask for;
* `ControlCommand.settings` — the settings in it, if its numbers are spans of time.
-/

namespace Tollgate.Cli

/-! ## Values -/

def digitsNumber? (cs : List Char) : Option Nat :=
  if cs.isEmpty || !cs.all Char.isDigit then none
  else some (cs.foldl (fun n d => n * 10 + (d.toNat - 48)) 0)

def int64? (s : String) : Option Int := do
  let z : Int ← match s.toList with
    | '+' :: ds => (digitsNumber? ds).map Int.ofNat
    | '-' :: ds => (digitsNumber? ds).map fun n => -Int.ofNat n
    | ds => (digitsNumber? ds).map Int.ofNat
  if -twoTo 63 ≤ z ∧ z < twoTo 63 then some z else none

def nat64? (s : String) : Option Nat := do
  let n ← match s.toList with
    | '+' :: ds => digitsNumber? ds
    | ds => digitsNumber? ds
  if n < twoTo 64 then some n else none

def truth? (s : String) : Option Bool :=
  match s with
  | "true" => some true
  | "false" => some false
  | _ => none

/-- A path: any text but the empty one. -/
def path? (s : String) : Option String := if s.isEmpty then none else some s

/-- What was given, and where else to look. -/
structure Source where
  env : Environment
  given : Given

namespace Source

def optional {α : Type} (s : Source) (decode : String → Option α) (o : OptionSpec) :
    Except Halt (Option α) :=
  match Arguments.texts s.env s.given o with
  | [] => .ok none
  | text :: _ =>
    match decode text with
    | some a => .ok (some a)
    | none => .error .usage

def value {α : Type} (s : Source) (decode : String → Option α) (o : OptionSpec) :
    Except Halt α :=
  match s.optional decode o with
  | .ok (some a) => .ok a
  | .ok none => .error .usage
  | .error e => .error e

def capabilities (s : Source) (o : OptionSpec) : List Capability :=
  (Arguments.texts s.env s.given o).map Capability.mk

def flag (s : Source) (o : OptionSpec) : Except Halt Bool := Arguments.isSet s.env s.given o

end Source

def verbose : OptionSpec := { name := "verbose", short := some 'v', kind := .flag }

/-! ## The control server -/

structure ControlCommand where
  bind : SocketAddress
  adminSecret : Option String
  issuer : String
  /-- Seconds. -/
  tokenValidity : Int
  tokenCapabilities : List Capability
  keyValidityHours : Int
  keyGraceHours : Int
  /-- Seconds. -/
  serverTtl : Option Int
  deriving DecidableEq, Repr

namespace ControlCommand

def bindOption : OptionSpec :=
  { name := "bind", env := some "WAYPOST_CONTROL_BIND", default := some "127.0.0.1:8080" }

def adminSecretOption : OptionSpec :=
  { name := "admin-secret", env := some "WAYPOST_ADMIN_SECRET" }

def issuerOption : OptionSpec :=
  { name := "issuer", env := some "WAYPOST_ISSUER", default := some "waypost-control" }

def tokenValidityOption : OptionSpec :=
  { name := "token-validity", env := some "WAYPOST_TOKEN_VALIDITY", default := some "3600" }

def tokenCapabilitiesOption : OptionSpec :=
  { name := "token-capabilities", kind := .many
    env := some "WAYPOST_TOKEN_CAPABILITIES", default := some "connect-tcp" }

def keyValidityOption : OptionSpec :=
  { name := "key-validity-hours", env := some "WAYPOST_KEY_VALIDITY_HOURS"
    default := some "24" }

/-- How long a key is published after it has ceased to sign. -/
def keyGraceOption : OptionSpec :=
  { name := "key-grace-hours", env := some "WAYPOST_KEY_GRACE_HOURS", default := some "25" }

def serverTtlOption : OptionSpec :=
  { name := "server-ttl", env := some "WAYPOST_SERVER_TTL" }

def options : List OptionSpec :=
  [verbose, bindOption, adminSecretOption, issuerOption, tokenValidityOption,
    tokenCapabilitiesOption, keyValidityOption, keyGraceOption, serverTtlOption]

def read (s : Source) : Except Halt ControlCommand := do
  return {
    bind := ← s.value SocketAddress.ofText? bindOption
    adminSecret := ← s.optional some adminSecretOption
    issuer := ← s.value some issuerOption
    tokenValidity := ← s.value int64? tokenValidityOption
    tokenCapabilities := s.capabilities tokenCapabilitiesOption
    keyValidityHours := ← s.value int64? keyValidityOption
    keyGraceHours := ← s.value int64? keyGraceOption
    serverTtl := ← s.optional int64? serverTtlOption }

/-- A span, or the failure of a number that is none. -/
def spanOr (name : String) : Option Span → Except Failure Span
  | some span => .ok span
  | none => .error ⟨name ++ " is out of range", []⟩

/-- The settings, if all numbers are spans of time. -/
def settings (c : ControlCommand) : Except Failure (ControlConfig × AuthorityConfig) := do
  let keyValidity ← spanOr "Key validity" (Span.ofHours? c.keyValidityHours)
  let gracePeriod ← spanOr "Key grace period" (Span.ofHours? c.keyGraceHours)
  let tokenValidity ← spanOr "Token validity" (Span.ofSeconds? c.tokenValidity)
  let serverTtl ← match c.serverTtl with
    | none => .ok none
    | some seconds => some <$> spanOr "Server TTL" (Span.ofSeconds? seconds)
  return ({ adminSecret := c.adminSecret, tokenValidity
            tokenCapabilities := c.tokenCapabilities, serverTtl },
    { issuer := c.issuer, keyValidity, gracePeriod })

end ControlCommand

/-! ## The proxy -/

structure ProxyCommand where
  listen : SocketAddress
  config : ProxyConfig
  deriving DecidableEq, Repr

namespace ProxyCommand

def listenOption : OptionSpec :=
  { name := "listen", env := some "WAYPOST_LISTEN", default := some "0.0.0.0:8443" }

def controlUrlOption : OptionSpec :=
  { name := "control-url", env := some "WAYPOST_CONTROL_URL" }

def sharedSecretOption : OptionSpec :=
  { name := "shared-secret", env := some "WAYPOST_CONTROL_SECRET", default := some "" }

def proxyUrlOption : OptionSpec :=
  { name := "proxy-url", env := some "WAYPOST_PROXY_URL"
    default := some "https://proxy.example.com" }

def latitudeOption : OptionSpec :=
  { name := "latitude", kind := .hyphenated, env := some "WAYPOST_LATITUDE"
    default := some "0" }

def longitudeOption : OptionSpec :=
  { name := "longitude", kind := .hyphenated, env := some "WAYPOST_LONGITUDE"
    default := some "0" }

def cityOption : OptionSpec :=
  { name := "city", env := some "WAYPOST_CITY", default := some "Unknown" }

def countryOption : OptionSpec :=
  { name := "country", env := some "WAYPOST_COUNTRY", default := some "Unknown" }

def supportsTcpOption : OptionSpec :=
  { name := "supports-connect-tcp", env := some "WAYPOST_SUPPORTS_CONNECT_TCP"
    default := some "true" }

def supportsUdpOption : OptionSpec :=
  { name := "supports-connect-udp", env := some "WAYPOST_SUPPORTS_CONNECT_UDP"
    default := some "false" }

def supportsIpOption : OptionSpec :=
  { name := "supports-connect-ip", env := some "WAYPOST_SUPPORTS_CONNECT_IP"
    default := some "false" }

/-- Capabilities that every token has to carry. -/
def requiredOption : OptionSpec :=
  { name := "required-capabilities", kind := .many
    env := some "WAYPOST_REQUIRED_CAPABILITIES", default := some "connect-tcp" }

def adminAddressOption : OptionSpec :=
  { name := "admin-addr", env := some "WAYPOST_ADMIN_ADDR" }

def adminSecretOption : OptionSpec :=
  { name := "admin-secret", env := some "WAYPOST_ADMIN_SECRET" }

def insecureOption : OptionSpec :=
  { name := "insecure", kind := .flag, env := some "WAYPOST_INSECURE" }

def allowUnsignedOption : OptionSpec :=
  { name := "allow-unsigned", kind := .flag, env := some "WAYPOST_ALLOW_UNSIGNED" }

/-- Seconds between two fetches of revoked tokens. -/
def revocationSyncOption : OptionSpec :=
  { name := "revocation-sync", env := some "WAYPOST_REVOCATION_SYNC"
    default := some "1800" }

/-- Seconds that a target may take to answer. -/
def dialTimeoutOption : OptionSpec :=
  { name := "dial-timeout", env := some "WAYPOST_DIAL_TIMEOUT", default := some "10" }

def options : List OptionSpec :=
  [verbose, listenOption, controlUrlOption, sharedSecretOption, proxyUrlOption, latitudeOption,
    longitudeOption, cityOption, countryOption, supportsTcpOption, supportsUdpOption,
    supportsIpOption, requiredOption, adminAddressOption, adminSecretOption, insecureOption,
    allowUnsignedOption, revocationSyncOption, dialTimeoutOption]

def readServer (s : Source) : Except Halt ProxyServer := do
  return {
    proxyUrl := ← s.value some proxyUrlOption
    latitude := ← s.value Binary64.ofText? latitudeOption
    longitude := ← s.value Binary64.ofText? longitudeOption
    city := ← s.value some cityOption
    country := ← s.value some countryOption
    supportsTcp := ← s.value truth? supportsTcpOption
    supportsUdp := ← s.value truth? supportsUdpOption
    supportsIp := ← s.value truth? supportsIpOption }

/-- The command that was asked for.  A shared secret alone makes no control server. -/
def read (s : Source) : Except Halt ProxyCommand := do
  let url ← s.optional some controlUrlOption
  let sharedSecret ← s.value some sharedSecretOption
  let seconds ← s.value nat64? revocationSyncOption
  let timeout ← s.value nat64? dialTimeoutOption
  return {
    listen := ← s.value SocketAddress.ofText? listenOption
    config := {
      control := url.map fun url => ⟨url, sharedSecret⟩
      server := ← readServer s
      adminAddress := ← s.optional SocketAddress.ofText? adminAddressOption
      adminSecret := ← s.optional some adminSecretOption
      insecure := ← s.flag insecureOption
      allowUnsigned := ← s.flag allowUnsignedOption
      required := s.capabilities requiredOption
      syncInterval := .ofSeconds seconds
      dialTimeout := .ofSeconds timeout } }

end ProxyCommand

/-! ## Tokens for development -/

structure TokenCommand where
  insecure : Bool
  capabilities : List Capability
  hours : Int
  issuer : String
  tokenId : Option TokenId
  /-- The file for the public key. -/
  output : Option String
  tokenOnly : Bool
  deriving DecidableEq, Repr

namespace TokenCommand

def insecureOption : OptionSpec := { name := "insecure", kind := .flag }

def capabilitiesOption : OptionSpec :=
  { name := "capabilities", kind := .many, default := some "connect-tcp" }

def hoursOption : OptionSpec := { name := "hours", default := some "24" }

def issuerOption : OptionSpec := { name := "issuer", default := some "waypost-dev" }

def tokenIdOption : OptionSpec := { name := "jti" }

def outputOption : OptionSpec := { name := "output", short := some 'o' }

def tokenOnlyOption : OptionSpec := { name := "token-only", kind := .flag }

def options : List OptionSpec :=
  [verbose, insecureOption, capabilitiesOption, hoursOption, issuerOption, tokenIdOption,
    outputOption, tokenOnlyOption]

def read (s : Source) : Except Halt TokenCommand := do
  return {
    insecure := ← s.flag insecureOption
    capabilities := s.capabilities capabilitiesOption
    hours := ← s.value int64? hoursOption
    issuer := ← s.value some issuerOption
    tokenId := ← s.optional (fun text => some ⟨text⟩) tokenIdOption
    output := ← s.optional path? outputOption
    tokenOnly := ← s.flag tokenOnlyOption }

end TokenCommand

/-! ## All commands -/

inductive Command where
  | control (command : ControlCommand)
  | proxy (command : ProxyCommand)
  | token (command : TokenCommand)
  deriving Repr

namespace Command

def readNamed (env : Environment) (name : String) (args : List String) : Except Halt Command :=
  match name with
  | "control" => do
    let given ← Arguments.read ControlCommand.options args
    return .control (← ControlCommand.read ⟨env, given⟩)
  | "proxy" => do
    let given ← Arguments.read ProxyCommand.options args
    return .proxy (← ProxyCommand.read ⟨env, given⟩)
  | "token" => do
    let given ← Arguments.read TokenCommand.options args
    return .token (← TokenCommand.read ⟨env, given⟩)
  | "help" => .error .help
  | _ => .error .usage

/-- Read a cluster of short options before the name of a command; tells whether verbosity was
    asked for. -/
def readCluster (seen : Bool) : List Char → Except Halt Bool
  | [] => .ok seen
  | 'v' :: rest => if seen then .error .usage else readCluster true rest
  | 'V' :: _ => .error .version
  | 'h' :: _ => .error .help
  | _ => .error .usage

/-- The command that arguments and environment ask for, after verbosity was asked for or
    not. -/
def readFrom (env : Environment) (seen : Bool) : List String → Except Halt Command
  | [] => .error .usage
  | "--version" :: _ => .error .version
  | "--help" :: _ => .error .help
  | "--verbose" :: rest => if seen then .error .usage else readFrom env true rest
  | arg :: rest =>
    match arg.toList with
    | '-' :: c :: cluster =>
      match readCluster seen (c :: cluster) with
      | .ok seen => readFrom env seen rest
      | .error e => .error e
    | _ => readNamed env arg rest

def read (env : Environment) (args : List String) : Except Halt Command := readFrom env false args

end Command

end Tollgate.Cli
