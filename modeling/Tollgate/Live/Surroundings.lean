import Std.Time.DateTime.Timestamp
import Tollgate.Cli.SystemReason
import Tollgate.Control.Server
import Tollgate.Rsa.Generation

/-! # Time, chance and the reasons of the system

What the rest of the program takes as arguments is obtained here.

* `now` — the time;
* `drawTokenId`, `drawKey`, `drawFor` — what chance supplies;
* `reasonOf` — the reason that the system gave.
-/

namespace Tollgate.Live

def now : IO Instant := do
  let t ← Std.Time.Timestamp.now
  return ⟨t.toNanosecondsSinceUnixEpoch.toInt⟩

/-! ## Chance -/

def drawOctets (count : USize) : IO Octets := do
  return (← IO.getRandomBytes count).toList

def drawWord : IO UInt64 := do
  return UInt64.ofNat (Octets.toNat (← drawOctets 8))

def drawTokenId : IO TokenId := return .ofDraw (← drawWord)

/-- The bits of each of the two primes of a key. -/
def primeBits : Nat := 1024

def drawKey (needed : Bool) : IO NewKey := do
  if !needed then return .error "no key was asked for"
  let first := Octets.toNat (← drawOctets 128)
  let second := Octets.toNat (← drawOctets 128)
  let keyId := KeyId.ofDraw (← drawWord)
  match Rsa.generate? primeBits first second with
  | some secret => return .ok (keyId, secret)
  | none => return .error "no prime was found"

/-- What chance supplies to a request, with a key if one is needed. -/
def drawFor (needsKey : Bool) : IO Draws := do
  return ⟨← drawKey needsKey, ← drawTokenId, .ofDraw (← drawOctets 32)⟩

/-! ## Reasons -/

/-- The number of a reason, which sockets give with the opposite sign. -/
def reasonNumber (code : UInt32) : Nat :=
  if code.toNat < twoTo 31 then code.toNat else twoTo 32 - code.toNat

def reasonOf (e : IO.Error) : String :=
  let shown (code : UInt32) (details : String) := Cli.systemReason (reasonNumber code) details
  match e with
  | .alreadyExists _ code details => shown code details
  | .otherError code details => shown code details
  | .resourceBusy code details => shown code details
  | .resourceVanished code details => shown code details
  | .unsupportedOperation code details => shown code details
  | .hardwareFault code details => shown code details
  | .unsatisfiedConstraints code details => shown code details
  | .illegalOperation code details => shown code details
  | .protocolError code details => shown code details
  | .timeExpired code details => shown code details
  | .interrupted _ code details => shown code details
  | .noFileOrDirectory _ code details => shown code details
  | .invalidArgument _ code details => shown code details
  | .permissionDenied _ code details => shown code details
  | .resourceExhausted _ code details => shown code details
  | .inappropriateType _ code details => shown code details
  | .noSuchThing _ code details => shown code details
  | .unexpectedEof => "unexpected end of file"
  | .userError message => message

end Tollgate.Live
