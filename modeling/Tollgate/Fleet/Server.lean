import Tollgate.Base64
import Tollgate.Json.Field

/-! # Registration records of proxies

* `ProxyServer` — what is published about a proxy;
* `ProxyServer.read`, `ProxyServer.render` — the record as JSON; absent members are empty,
  zero or false;
* `ProxyServer.validate` — the first thing that is wrong with a record;
* `RemovalToken` — the secret by which a registration can be taken back.
-/

namespace Tollgate

structure ProxyServer where
  proxyUrl : String := ""
  latitude : Binary64 := .zero
  longitude : Binary64 := .zero
  city : String := ""
  country : String := ""
  supportsTcp : Bool := false
  supportsUdp : Bool := false
  supportsIp : Bool := false
  deriving DecidableEq, Repr, Inhabited

inductive ServerFault where
  | missingProxyUrl
  | latitudeOutOfRange
  | longitudeOutOfRange
  | missingCity
  | missingCountry
  | noConnectSupport
  deriving DecidableEq, Repr

def ServerFault.message : ServerFault → String
  | .missingProxyUrl => "proxyUrl is required"
  | .latitudeOutOfRange => "latitude must be between -90 and 90"
  | .longitudeOutOfRange => "longitude must be between -180 and 180"
  | .missingCity => "city is required"
  | .missingCountry => "country is required"
  | .noConnectSupport => "at least one connection type must be supported"

namespace ProxyServer

/-- The first thing that is wrong with a record. -/
def validate (s : ProxyServer) : Except ServerFault Unit :=
  if s.proxyUrl.isEmpty then .error .missingProxyUrl
  else if !s.latitude.between (-90) 90 then .error .latitudeOutOfRange
  else if !s.longitude.between (-180) 180 then .error .longitudeOutOfRange
  else if s.city.isEmpty then .error .missingCity
  else if s.country.isEmpty then .error .missingCountry
  else if !(s.supportsTcp || s.supportsUdp || s.supportsIp) then .error .noConnectSupport
  else .ok ()

/-! ## JSON -/

structure Draft where
  proxyUrl : Option String := none
  latitude : Option Binary64 := none
  longitude : Option Binary64 := none
  city : Option String := none
  country : Option String := none
  supportsTcp : Option Bool := none
  supportsUdp : Option Bool := none
  supportsIp : Option Bool := none

def readMember (rounds : Nat) (d : Draft) (name : String) : Json.Reader Draft :=
  match name with
  | "proxyUrl" => Json.unlessSeen d.proxyUrl name
      (Json.into (fun v => { d with proxyUrl := some v }) (Json.readString rounds))
  | "latitude" => Json.unlessSeen d.latitude name
      (Json.into (fun v => { d with latitude := some v }) (Json.readFloat rounds))
  | "longitude" => Json.unlessSeen d.longitude name
      (Json.into (fun v => { d with longitude := some v }) (Json.readFloat rounds))
  | "city" => Json.unlessSeen d.city name
      (Json.into (fun v => { d with city := some v }) (Json.readString rounds))
  | "country" => Json.unlessSeen d.country name
      (Json.into (fun v => { d with country := some v }) (Json.readString rounds))
  | "supportsConnectTcp" => Json.unlessSeen d.supportsTcp name
      (Json.into (fun v => { d with supportsTcp := some v }) (Json.readTruth rounds))
  | "supportsConnectUdp" => Json.unlessSeen d.supportsUdp name
      (Json.into (fun v => { d with supportsUdp := some v }) (Json.readTruth rounds))
  | "supportsConnectIp" => Json.unlessSeen d.supportsIp name
      (Json.into (fun v => { d with supportsIp := some v }) (Json.readTruth rounds))
  | _ => Json.ignore d rounds

def ofDraft (d : Draft) : ProxyServer :=
  { proxyUrl := d.proxyUrl.getD ""
    latitude := d.latitude.getD .zero
    longitude := d.longitude.getD .zero
    city := d.city.getD ""
    country := d.country.getD ""
    supportsTcp := d.supportsTcp.getD false
    supportsUdp := d.supportsUdp.getD false
    supportsIp := d.supportsIp.getD false }

/-- Read a record written as an object, after its opening brace. -/
def readObject (rounds : Nat) : Json.Reader ProxyServer :=
  Json.into ofDraft (Json.members (readMember rounds) rounds true {})

/-- Read a record written as a list, after its opening bracket. -/
def readFields (rounds : Nat) : Json.Reader ProxyServer := fun s => do
  let (proxyUrl, s) ← Json.nextFieldOr 0 "" (Json.readString rounds) s
  let (latitude, s) ← Json.nextFieldOr 1 .zero (Json.readFloat rounds) s
  let (longitude, s) ← Json.nextFieldOr 2 .zero (Json.readFloat rounds) s
  let (city, s) ← Json.nextFieldOr 3 "" (Json.readString rounds) s
  let (country, s) ← Json.nextFieldOr 4 "" (Json.readString rounds) s
  let (supportsTcp, s) ← Json.nextFieldOr 5 false (Json.readTruth rounds) s
  let (supportsUdp, s) ← Json.nextFieldOr 6 false (Json.readTruth rounds) s
  let (supportsIp, s) ← Json.nextFieldOr 7 false (Json.readTruth rounds) s
  return (⟨proxyUrl, latitude, longitude, city, country, supportsTcp, supportsUdp, supportsIp⟩, s)

def read (rounds : Nat) : Json.Reader ProxyServer :=
  Json.readRecord "struct ProxyServer" (readObject rounds) (readFields rounds) rounds

def decode (s : Octets) : Except Json.Fault ProxyServer := Json.document read s

def render (s : ProxyServer) : Octets :=
  Json.renderMembers
    [("proxyUrl", Json.renderText s.proxyUrl),
      ("latitude", (Json.Number.float s.latitude).render),
      ("longitude", (Json.Number.float s.longitude).render),
      ("city", Json.renderText s.city), ("country", Json.renderText s.country),
      ("supportsConnectTcp", Json.renderBool s.supportsTcp),
      ("supportsConnectUdp", Json.renderBool s.supportsUdp),
      ("supportsConnectIp", Json.renderBool s.supportsIp)]

end ProxyServer

/-! ## Removal tokens -/

/-- The secret by which a registration can be taken back. -/
structure RemovalToken where
  text : String
  deriving DecidableEq, Repr, Inhabited

namespace RemovalToken

/-- The token of 32 random octets. -/
def ofDraw (draw : Octets) : RemovalToken :=
  ⟨(Base64.encode .urlSafe .required draw).toTextLossy⟩

def describe (_ : RemovalToken) : String := "RevocationToken(<redacted>)"

end RemovalToken

end Tollgate
