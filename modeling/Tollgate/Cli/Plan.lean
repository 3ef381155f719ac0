import Tollgate.Cli.Command
import Tollgate.Control.Server
import Tollgate.Proxy.Node

/-! # What a command does

A command is worked out as far as it goes without the system around it.  What remains is at
most one thing to ask of the system, and what to do about each answer.

* `Result` — how the program ends: its status and what it prints;
* `Plan` — the end, or what has to be asked of the system before it;
* `plan` — what the program does for given arguments;
* `environmentNames`, `needsKey` — what has to be known before.
-/

namespace Tollgate.Cli

structure Result where
  status : Nat
  stdout : String := ""
  stderr : String := ""
  deriving DecidableEq, Repr

namespace Result

def printed (stdout : String) : Result := ⟨0, stdout, ""⟩

def failed (f : Failure) : Result := ⟨1, "", f.report⟩

/-- The lines that were printed; an end of line at the very end starts no further one. -/
def lines (r : Result) : List String :=
  let lines := r.stdout.splitOn "\n"
  if lines.getLast? = some "" then lines.dropLast else lines

end Result

inductive Service where
  | control (server : ControlServer)
  | proxy (node : ProxyNode)

/-- What a program asks of the system before it ends. -/
inductive Plan where
  | finish (result : Result)
  /-- To write a file; `next` is told why that failed, if it did. -/
  | writeFile (path content : String) (next : Option String → Result)
  /-- To listen; `failed` is told why that failed.  If it succeeds, the service goes on. -/
  | listen (address : SocketAddress) (service : Service) (failed : String → Result)

/-! ## Tokens for development -/

def linesText (lines : List String) : String := String.join (lines.map (· ++ "\n"))

def commaList : List String → String
  | [] => ""
  | [name] => name
  | name :: rest => name ++ ", " ++ commaList rest

namespace TokenCommand

/-- How long the token is valid: a positive span whose end can be named. -/
def validity (c : TokenCommand) (now : Instant) : Except Failure Span :=
  match (Span.ofHours? c.hours).filter (0 < ·.nanos) with
  | none => .error ⟨"Token validity must be a positive number of hours", []⟩
  | some span =>
    match now.add? span with
    | none => .error ⟨"Token validity is out of range", []⟩
    | some _ => .ok span

def claims (c : TokenCommand) (now : Instant) (draw : TokenId) (span : Span) : Claims :=
  let minted := (Claims.mint c.issuer span now draw).withCapabilities c.capabilities
  match c.tokenId with
  | some id => minted.withTokenId (some id)
  | none => minted

def expiryText (seconds : Int) : String :=
  match Instant.ofSeconds? seconds with
  | some t => (Civil.ofSeconds t.seconds).spaced
  | none => decimalText seconds

def details (c : TokenCommand) (claims : Claims) (token : String) : List String :=
  ["", if c.insecure then "Unsigned token (alg: none), accepted only with --allow-unsigned:"
        else "Signed token (RS256):", token, "", "Token details:"]
    ++ (claims.tokenId.map fun id => "  - jti: " ++ id.text).toList
    ++ ["  - Expires at: " ++ expiryText claims.expires,
        "  - Capabilities: " ++ commaList (c.capabilities.map Capability.name), ""]

/-- What is printed in the end, after lines about the key. -/
def print (c : TokenCommand) (claims : Claims) (token : String) (about : List String) : Result :=
  .printed (linesText (if c.tokenOnly then [token] else about ++ c.details claims token))

/-- The end of a command whose token is signed, after lines about the key. -/
def signed (c : TokenCommand) (claims : Claims) (key : SigningKey) (about : List String) :
    Result :=
  match key.sign claims with
  | .ok token => c.print claims token.toTextLossy about
  | .error e => .failed ⟨"Failed to sign token", [e.message]⟩

def planSigned (c : TokenCommand) (claims : Claims) (key : SigningKey) : Plan :=
  match key.publicPem with
  | .error e => .finish (.failed ⟨"Failed to encode public key", [e.message]⟩)
  | .ok pem =>
    match c.output with
    | none => .finish (c.signed claims key ["Public key (kid " ++ key.keyId.text ++ "):", pem])
    | some path =>
      .writeFile path pem fun
        | none => c.signed claims key ["Public key written to " ++ path]
        | some reason => .failed ⟨"Failed to write public key to " ++ path, [reason]⟩

def plan (c : TokenCommand) (now : Instant) (draw : TokenId) (fresh : NewKey) : Plan :=
  match c.validity now with
  | .error e => .finish (.failed e)
  | .ok span =>
    let claims := c.claims now draw span
    if c.insecure then .finish (c.print claims claims.encodeUnsigned.toTextLossy [])
    else
      match AuthorityConfig.newKey { keyValidity := span } now fresh with
      | .error e => .finish (.failed ⟨"Failed to generate signing key", [e.message]⟩)
      | .ok key => c.planSigned claims key

end TokenCommand

/-! ## Services -/

def ControlCommand.plan (c : ControlCommand) (now : Instant) : Plan :=
  match c.settings with
  | .error e => .finish (.failed e)
  | .ok (config, authority) =>
    match config.validate authority now with
    | .error e => .finish (.failed ⟨"Invalid control server configuration", [e.message]⟩)
    | .ok () =>
      .listen c.bind (.control (.start config authority)) fun reason =>
        .failed ⟨"Control server failed", [reason]⟩

def proxyCauses (f : ProxyFault) : List String :=
  match f with
  | .invalidServer fault => [f.message, fault.message]
  | _ => [f.message]

def ProxyCommand.plan (c : ProxyCommand) : Plan :=
  match ProxyNode.ofConfig c.config with
  | .error e => .finish (.failed ⟨"Invalid proxy configuration", proxyCauses e⟩)
  | .ok node =>
    .listen c.listen (.proxy node) fun reason =>
      .failed ⟨"Proxy failed", [(SystemFault.mk reason).message, reason]⟩

/-! ## The program -/

def versionText : String := "waypost 0.1.0\n"

def usageText : String :=
  linesText
    ["Usage: waypost [OPTIONS] <COMMAND>", "", "Commands:",
      "  control  Run the control server", "  proxy    Run a proxy node",
      "  token    Mint a development token", "", "Options:",
      "  -v, --verbose  Enable verbose logging", "  -h, --help     Print help",
      "  -V, --version  Print version"]

def Halt.result : Halt → Result
  | .usage => ⟨2, "", usageText⟩
  | .help => .printed usageText
  | .version => .printed versionText

def Command.plan (c : Command) (now : Instant) (draw : TokenId) (fresh : NewKey) : Plan :=
  match c with
  | .control command => command.plan now
  | .proxy command => command.plan
  | .token command => command.plan now draw fresh

/-- Whether the program needs a new signing key for given arguments. -/
def needsKey (env : Environment) (args : List String) : Bool :=
  match Command.read env args with
  | .ok (.token command) => !command.insecure
  | _ => false

def environmentNames : List String :=
  (ControlCommand.options ++ ProxyCommand.options ++ TokenCommand.options).filterMap (·.env)

/-- What the program does for given arguments.  `draw` and `fresh` are used if a token or a key
    has to be made. -/
def plan (env : Environment) (args : List String) (now : Instant) (draw : TokenId)
    (fresh : NewKey) : Plan :=
  match Command.read env args with
  | .error halt => .finish halt.result
  | .ok command => command.plan now draw fresh

end Tollgate.Cli
