import Tollgate.Fleet.Server
import Tollgate.Key.Published

/-! # The fleet store

Registrations of proxies by their URL, and published keys by their identifier.  Both may
have an end; what has ended is dropped when a listing is made, and not before.

* `Lasting` — a value with its end;
* `FleetStore.addServer`, `FleetStore.servers`, `FleetStore.removeServer` — registrations;
* `FleetStore.putKey`, `FleetStore.activeKeys` — keys.
-/

namespace Tollgate

structure Lasting (α : Type) where
  value : α
  endsAt : Option Instant
  deriving Repr

namespace Lasting

variable {α : Type}

/-- A value that lasts for a span from now on, or for ever. -/
def since (now : Instant) (ttl : Option Span) (value : α) : Lasting α :=
  ⟨value, ttl.map now.add⟩

def isLive (e : Lasting α) (now : Instant) : Bool :=
  match e.endsAt with
  | none => true
  | some t => now.nanos < t.nanos

end Lasting

structure Registration where
  server : ProxyServer
  token : RemovalToken
  deriving DecidableEq, Repr

inductive StoreFault where
  | unavailable (reason : String)
  /-- The key would have ended already. -/
  | rejected (key : KeyId)
  deriving DecidableEq, Repr

def StoreFault.message : StoreFault → String
  | .unavailable reason => "Key store unavailable: " ++ reason
  | .rejected key => "Rejected key record: key " ++ key.text ++ " would expire immediately"

/-- Registrations by URL and keys by identifier, in the order of their names. -/
structure FleetStore where
  registrations : List (String × Lasting Registration) := []
  keys : List (KeyId × Lasting PublishedKey) := []
  deriving Repr, Inhabited

namespace FleetStore

/-- Register a proxy; an earlier registration of the same URL is replaced. -/
def addServer (f : FleetStore) (now : Instant) (r : Registration) (ttl : Option Span) :
    FleetStore :=
  { f with
    registrations :=
      Sorted.insert r.server.proxyUrl (Lasting.since now ttl r) f.registrations }

def purge (f : FleetStore) (now : Instant) : FleetStore :=
  { f with registrations := f.registrations.filter fun e => e.2.isLive now }

/-- The proxies that are registered, in the order of their URLs. -/
def listing (f : FleetStore) : List ProxyServer := f.registrations.map fun e => e.2.value.server

/-- The proxies that are registered now; ended registrations are dropped. -/
def servers (f : FleetStore) (now : Instant) : List ProxyServer × FleetStore :=
  ((f.purge now).listing, f.purge now)

def owner? (f : FleetStore) (t : RemovalToken) : Option String :=
  (f.registrations.find? fun e => e.2.value.token = t).map (·.1)

/-- Take a registration back, also one that has ended but was not dropped yet.  Tells
    whether there was one. -/
def removeServer (f : FleetStore) (t : RemovalToken) : Bool × FleetStore :=
  match f.owner? t with
  | some url => (true, { f with registrations := Sorted.erase url f.registrations })
  | none => (false, f)

def putKey (f : FleetStore) (now : Instant) (k : PublishedKey) (ttl : Span) :
    Except StoreFault FleetStore :=
  -- Such a key would have ended as soon as it was kept.
  if ttl.nanos ≤ 0 then .error (.rejected k.keyId)
  else .ok { f with keys := Sorted.insert k.keyId (Lasting.since now (some ttl) k) f.keys }

/-- The keys that are kept now, in the order of their identifiers; ended ones are
    dropped. -/
def activeKeys (f : FleetStore) (now : Instant) : List PublishedKey × FleetStore :=
  let live := f.keys.filter fun e => e.2.isLive now
  (live.map fun e => e.2.value, { f with keys := live })

end FleetStore

end Tollgate
