import Tollgate.Proofs.Control.Atomicity
import Tollgate.Proofs.Control.FleetLog
import Tollgate.Proofs.Control.Registration
import Tollgate.Proofs.Control.RevokedList
import Tollgate.Proofs.Control.Strangers
import Tollgate.Proofs.Fleet.Withdrawal
import Tollgate.Proofs.Proxy.AdminRoute

/-! # The stay of a proxy at its control server

A proxy whose settings were checked registers with its control server and takes that back at the
end.  The two undo each other, whatever the control server was asked before, in between and besides
(`Stay.Occurs.reversible`): the record arrives as it was sent and passes the same check again, the
store shows it for as long as it is current, the token that came back is understood in the path of
the removal, and what is shown after the removal is what there would be without the proxy, save for
an earlier record of its URL.

The store of the control server is a digest of its log, with the proxy's enrolment somewhere in the
middle.  All that is said about what is shown comes from there.
-/

namespace Tollgate

/-! ## Requests of a client -/

/-- A request is how the question of a client comes in.  What else is in its head is left open; the
    guard is asked about that. -/
structure Request.Brings (request : Request) (client : ControlClient) (q : Question) : Prop where
  method : request.method = (client.request q).method
  path : request.target.path = q.path
  body : ∀ body, (client.request q).body = some body →
    request.headers.first? "content-type" = some (Octets.ofString "application/json") ∧
      request.body = body

/-- A guard admits a client with its secret, if header lines can carry that secret. -/
theorem ControlClient.check_of_sent {client : ControlClient} {q : Question} {g : AdminGuard}
    {h : Headers} (needed : q.needsSecret = true)
    (own : ∀ secret, g.secret = some secret → secret = client.sharedSecret)
    (readable : ∀ b ∈ Octets.ofString client.sharedSecret, isReadableOctet b = true)
    (carried : h.first? "authorization" =
      (client.request q).authorization.map Octets.ofString) : g.check h = .ok () := by
  obtain ⟨_ | secret⟩ := g
  · rfl
  · obtain rfl := own secret rfl
    have mark : ∀ b ∈ Octets.ofString "Bearer ", isReadableOctet b = true := by decide +kernel
    apply AdminGuard.check_eq_ok_iff.mpr
    rw [Headers.ShowSecret, carried, ControlClient.request, needed]
    refine readable?_eq_some_iff.mpr ⟨rfl, fun b member => ?_⟩
    rw [Octets.ofString_append] at member
    rcases List.mem_append.mp member with ofMark | ofSecret
    · exact mark b ofMark
    · exact readable b ofSecret

theorem Request.Brings.jsonBody {request : Request} {client : ControlClient} {server : ProxyServer}
    (brings : request.Brings client (.register server)) (short : server.render.length ≤ bodyLimit)
    (latitude : server.latitude.ReadsBack) (longitude : server.longitude.ReadsBack) :
    request.jsonBody ProxyServer.read = .ok server := by
  obtain ⟨kind, body⟩ := brings.body server.render rfl
  have json : request.saysJson = true := by
    rw [Request.saysJson, kind]
    decide +kernel
  rw [Request.jsonBody_eq_ok_iff, body]
  exact ⟨json, short, (ProxyServer.reads_render latitude longitude).document⟩

theorem Request.Brings.admits {request : Request} {client : ControlClient} {q : Question}
    {s : ControlServer} {endpoint : Endpoint} (brings : request.Brings client q)
    (checked : s.guard.check request.headers = .ok ())
    (asks : q.method = endpoint.method ∧ q.path = endpoint.path) : s.Admits request endpoint :=
  ⟨⟨brings.method.trans asks.1, brings.path.trans asks.2⟩, checked⟩

/-! ## Single calls -/

namespace ControlServer

variable {s : ControlServer} {call : Call}

def shown (s : ControlServer) (now : Instant) : List ProxyServer := (s.fleet.servers now).1

theorem answer_of_admits_register {server : ProxyServer} (admitted : s.Admits call.request .register)
    (decoded : call.request.jsonBody ProxyServer.read = .ok server)
    (valid : server.validate = .ok ()) :
    s.answer call =
      (Response.json 200
        (Json.renderMembers [("revocationToken", Json.renderText call.draws.removal.text)]),
      s.withFleet
        (s.fleet.addServer call.now ⟨server, call.draws.removal⟩ s.config.serverTtl)) := by
  rw [answer_of_route (route_of_admits admitted rfl rfl) admitted.1.1]
  simp only [perform, register, decoded, valid]

theorem fleetEvent?_of_admits_register {server : ProxyServer}
    (admitted : s.Admits call.request .register)
    (decoded : call.request.jsonBody ProxyServer.read = .ok server)
    (valid : server.validate = .ok ()) :
    s.fleetEvent? call =
      some ⟨call.now, .add ⟨server, call.draws.removal⟩ s.config.serverTtl⟩ := by
  have routed := route_of_admits admitted rfl rfl
  simp only [fleetEvent?, fleetCall?, routed, decoded, valid, Option.map_some]

theorem fleetEvent?_of_asks_servers (asks : call.request.Asks .servers) :
    s.fleetEvent? call = some ⟨call.now, .list⟩ := by
  simp only [fleetEvent?, fleetCall?, route_of_asks_servers asks, Option.map_some]

/-- A removal of what is registered is done. -/
theorem answer_of_admits_deregister {token : RemovalToken} (travels : token.Travels)
    (admitted : s.Admits call.request (.deregister token.text))
    (known : (s.fleet.removeServer token).1 = true) :
    s.answer call = (Response.empty 200, s.withFleet (s.fleet.removeServer token).2) := by
  rw [answer_of_route (route_of_admits admitted travels.endpoint rfl) admitted.1.1]
  simp only [perform, deregister, travels.decoded]
  cases outcome : s.fleet.removeServer token with
  | mk removed fleet =>
    obtain rfl : removed = true := by rw [← known, outcome]
    rfl

/-- Whom the guard does not admit is not told anything about a record. -/
theorem status_of_refused_register {fault : GuardFault} (asks : call.request.Asks .register)
    (refused : s.guard.check call.request.headers = .error fault) :
    (s.answer call).1.status = 401 := by
  have routed : s.route call.request = .error fault.response := by
    have served : Endpoint.ofPath? Endpoint.register.path = some .register := rfl
    simp [route, asks.1, asks.2, served, Endpoint.isPublic, AdminGuard.protect, refused, takesMethod]
  simp only [answer, serve, routed, Response.sentTo]
  split <;> rfl

end ControlServer

/-! ## The stay -/

/-- A proxy and a control server: the settings of the one, the other as it was when it had no
    registrations, what it was asked since, and the call in which the proxy registers. -/
structure Stay where
  config : ProxyConfig
  link : ControlLink
  control : ControlServer
  earlier : List ControlServer.Call
  registering : ControlServer.Call
  draw : Octets

namespace Stay

def client (stay : Stay) : ControlClient := .ofUrl stay.link.url stay.link.sharedSecret

def token (stay : Stay) : RemovalToken := .ofDraw stay.draw

def enrolment (stay : Stay) : Enrolment where
  now := stay.registering.now
  registration := ⟨stay.config.server, stay.token⟩
  ttl := stay.control.config.serverTtl

def found (stay : Stay) : ControlServer := stay.control.after stay.earlier

def later (stay : Stay) (between : List ControlServer.Call) : ControlServer :=
  (stay.found.answer stay.registering).2.after between

/-- The proxy may be sent out with its settings, and its request comes in. -/
structure Occurs (stay : Stay) : Prop where
  accepted : stay.config.validate = .ok ()
  controlled : stay.config.control = some stay.link
  short : stay.config.server.render.length ≤ bodyLimit
  latitude : stay.config.server.latitude.ReadsBack
  longitude : stay.config.server.longitude.ReadsBack
  store : stay.control.authority.store = FleetStore.keyStore
  empty : stay.control.fleet.registrations = []
  sent : stay.registering.request.Brings stay.client (.register stay.config.server)
  random : stay.draw.length = 32
  drawn : stay.registering.draws.removal = stay.token

/-- The proxy was told the admin secret of the control server, if that has one, and header lines can
    carry it. -/
structure KnowsSecret (stay : Stay) : Prop where
  own : ∀ secret, stay.control.config.adminSecret = some secret → secret = stay.link.sharedSecret
  readable : ∀ b ∈ Octets.ofString stay.link.sharedSecret, isReadableOctet b = true

/-- After further calls the registration is current: none of them replaced it, used its token, or
    found it ended.  No two registrations have got one token. -/
structure Current (stay : Stay) (between : List ControlServer.Call) : Prop where
  kept : ∀ e ∈ stay.control.fleetLog between, ¬e.Ends stay.enrolment ∧ ¬e.Drops stay.enrolment
  distinct : (FleetLog.tokens
    (stay.control.fleetLog (stay.earlier ++ stay.registering :: between))).Nodup

/-- A call in which the proxy takes its registration back, and that the guard admits. -/
def Leaves (stay : Stay) (leaving : ControlServer.Call) : Prop :=
  leaving.request.Brings stay.client (.deregister stay.token) ∧
    stay.control.guard.check leaving.request.headers = .ok ()

/-- The registration can be seen while it is current, and it can be undone. -/
structure Reversible (stay : Stay) : Prop where
  registered : readRemovalToken (stay.found.answer stay.registering).1.delivered = .ok stay.token
  told : ∀ (s : ControlServer) (call : ControlServer.Call), call.request.Asks .servers →
    (s.answer call).1 = Response.json 200
      (ControlServer.listing "servers" ((s.shown call.now).map ProxyServer.render))
  listed : ∀ between, stay.Current between → ∀ now, stay.enrolment.LivesAt now →
    ((stay.later between).shown now).filter (·.proxyUrl = stay.config.server.proxyUrl) =
      [stay.config.server]
  ended : ∀ between, stay.Current between → ∀ now, ¬stay.enrolment.LivesAt now →
    ((stay.later between).shown now).filter (·.proxyUrl = stay.config.server.proxyUrl) = []
  removed : ∀ between leaving, stay.Current between → stay.Leaves leaving →
    readRemoved ((stay.later between).answer leaving).1.delivered = .ok ()
  /-- What is left is what the other calls alone would have led to, save for the URL. -/
  undone : ∀ between leaving, stay.Current between → stay.Leaves leaving → ∀ now,
    ((stay.later between).answer leaving).2.shown now =
      ((stay.found.after between).shown now).filter (·.proxyUrl ≠ stay.config.server.proxyUrl)
  /-- If there were only listings in between, and no other registration ended meanwhile, then all
      is as it was when the proxy came, save for its URL. -/
  restored : ∀ between leaving, stay.Current between → stay.Leaves leaving → ∀ now,
    (∀ e ∈ stay.control.fleetLog between, e.call = .list ∧ e.now.nanos ≤ now.nanos) →
    stay.registering.now.nanos ≤ now.nanos →
    (∀ server ∈ stay.found.shown stay.registering.now,
      server.proxyUrl ≠ stay.config.server.proxyUrl → server ∈ stay.found.shown now) →
    ((stay.later between).answer leaving).2.shown now =
      (stay.found.shown stay.registering.now).filter
        (·.proxyUrl ≠ stay.config.server.proxyUrl)
  travels : ∀ draw : Octets, draw.length = 32 → (RemovalToken.ofDraw draw).Travels

variable {stay : Stay} {between : List ControlServer.Call} {leaving : ControlServer.Call}

theorem settings_found (stay : Stay) : stay.control.SameSettings stay.found :=
  stay.control.after_settings stay.earlier

theorem later_eq (stay : Stay) (between : List ControlServer.Call) :
    stay.later between = stay.control.after (stay.earlier ++ stay.registering :: between) := by
  rw [ControlServer.after_append]
  rfl

/-- Three servers of a stay: as the proxy finds it, after further calls without the proxy, and after
    the same calls with it.  Their stores are digests of logs that differ in its enrolment. -/
structure Course (stay : Stay) (found without later : ControlServer) (before after : FleetLog) :
    Prop where
  settings : stay.control.SameSettings later
  found : found.fleet.Digests before
  without : without.fleet.Digests (before ++ after)
  later : later.fleet.Digests (before ++ stay.enrolment.event :: after)
  kept : ∀ e ∈ after, ¬e.Ends stay.enrolment ∧ ¬e.Drops stay.enrolment

namespace Course

variable {found without later : ControlServer} {before after : FleetLog} {now : Instant}

/-- The tokens of the log with the registration are distinct, and so are those of its parts. -/
theorem of_distinct
    (distinct : (FleetLog.tokens (before ++ stay.enrolment.event :: after)).Nodup)
    (settings : stay.control.SameSettings later)
    (digests : (FleetLog.tokens before).Nodup → found.fleet.Digests before)
    (digests' : (FleetLog.tokens (before ++ after)).Nodup →
      without.fleet.Digests (before ++ after))
    (whole : later.fleet.Digests (before ++ stay.enrolment.event :: after))
    (kept : ∀ e ∈ after, ¬e.Ends stay.enrolment ∧ ¬e.Drops stay.enrolment) :
    stay.Course found without later before after := by
  have behind : List.Sublist (before ++ after) (before ++ stay.enrolment.event :: after) :=
    (List.Sublist.refl before).append (List.sublist_cons_self _ after)
  have first := FleetLog.nodup_tokens_of_sublist distinct (List.sublist_append_left before _)
  have others := FleetLog.nodup_tokens_of_sublist distinct behind
  exact ⟨settings, digests first, digests' others, whole, kept⟩

theorem stores (course : stay.Course found without later before after) :
    FleetLog.Stores (before ++ stay.enrolment.event :: after) stay.enrolment :=
  ⟨_, _, rfl, course.kept⟩

theorem listed (course : stay.Course found without later before after)
    (lives : stay.enrolment.LivesAt now) :
    (later.shown now).filter (·.proxyUrl = stay.config.server.proxyUrl) = [stay.config.server] :=
  course.later.filter_of_lives course.stores lives

theorem ended (course : stay.Course found without later before after)
    (lapsed : ¬stay.enrolment.LivesAt now) :
    (later.shown now).filter (·.proxyUrl = stay.config.server.proxyUrl) = [] :=
  course.later.filter_of_ended course.stores lapsed

theorem admits_leaving (course : stay.Course found without later before after)
    (leaves : stay.Leaves leaving) : later.Admits leaving.request (.deregister stay.token.text) :=
  (ControlServer.admits_iff_of_settings course.settings).mpr (leaves.1.admits leaves.2 ⟨rfl, rfl⟩)

section Leaving

variable (course : stay.Course found without later before after) (random : stay.draw.length = 32)
  (leaves : stay.Leaves leaving)
include course random leaves

/-- The removal is done, and takes the registration out of the store. -/
theorem answer_leaving :
    later.answer leaving =
      (Response.empty 200, later.withFleet (later.fleet.removeServer stay.token).2) := by
  have travels : stay.token.Travels :=
    RemovalToken.travels_ofDraw (List.ne_nil_of_length_eq_add_one random)
  exact ControlServer.answer_of_admits_deregister travels (course.admits_leaving leaves)
    (course.later.known course.stores)

theorem undone (now : Instant) :
    (later.answer leaving).2.shown now =
      (without.shown now).filter (·.proxyUrl ≠ stay.config.server.proxyUrl) := by
  rw [answer_leaving course random leaves]
  exact course.later.servers_removeServer course.without course.stores

theorem restored (listings : ∀ e ∈ after, e.call = .list ∧ e.now.nanos ≤ now.nanos)
    (order : stay.registering.now.nanos ≤ now.nanos)
    (lasting : ∀ server ∈ found.shown stay.registering.now,
      server.proxyUrl ≠ stay.config.server.proxyUrl → server ∈ found.shown now) :
    (later.answer leaving).2.shown now =
      (found.shown stay.registering.now).filter
        (·.proxyUrl ≠ stay.config.server.proxyUrl) := by
  rw [undone course random leaves]
  have same : without.shown now = found.shown now :=
    course.found.servers_of_listings course.without listings
  rw [same]
  exact course.found.filter_of_lasting order fun server member other =>
    lasting server member (of_decide_eq_true other)

end Leaving

end Course

namespace Occurs

/-- The record passes the check of the control server, because it passed that of the proxy. -/
theorem valid (occurs : stay.Occurs) : stay.config.server.validate = .ok () := by
  obtain ⟨checked, -⟩ := ProxyConfig.validate_eq_ok_iff.mp occurs.accepted
  rw [ProxyConfig.validateControl, occurs.controlled] at checked
  cases url : ProxyConfig.validateUrl stay.config.insecure stay.link with
  | error fault => simp [url, bind, Except.bind] at checked
  | ok _ =>
    simp only [url, bind, Except.bind] at checked
    split at checked
    · contradiction
    · split at checked
      · contradiction
      · unfold ProxyConfig.validateServer at checked
        split at checked
        · next valid => exact valid
        · contradiction

theorem decoded (occurs : stay.Occurs) :
    stay.registering.request.jsonBody ProxyServer.read = .ok stay.config.server :=
  occurs.sent.jsonBody occurs.short occurs.latitude occurs.longitude

theorem digests (occurs : stay.Occurs) {calls : List ControlServer.Call}
    (distinct : (FleetLog.tokens (stay.control.fleetLog calls)).Nodup) :
    (stay.control.after calls).fleet.Digests (stay.control.fleetLog calls) := by
  rw [← List.nil_append (stay.control.fleetLog calls)] at distinct ⊢
  exact ControlServer.digests_after occurs.store (FleetStore.digests_nil occurs.empty) distinct

section Checked

variable (occurs : stay.Occurs)
  (checked : stay.control.guard.check stay.registering.request.headers = .ok ())
include occurs checked

theorem admits {s : ControlServer} (same : stay.control.SameSettings s) :
    s.Admits stay.registering.request .register :=
  (ControlServer.admits_iff_of_settings same).mpr (occurs.sent.admits checked ⟨rfl, rfl⟩)

theorem answer_registering {s : ControlServer} (same : stay.control.SameSettings s) :
    (s.answer stay.registering).1 = Response.json 200
      (Json.renderMembers [("revocationToken", Json.renderText stay.token.text)]) := by
  rw [ControlServer.answer_of_admits_register (admits occurs checked same) occurs.decoded
    occurs.valid, occurs.drawn]

theorem fleetEvent?_registering :
    stay.control.fleetEvent? stay.registering = some stay.enrolment.event := by
  rw [ControlServer.fleetEvent?_of_admits_register (admits occurs checked (.refl _)) occurs.decoded
    occurs.valid, occurs.drawn]
  rfl

/-- The log of a control server at which a proxy stays. -/
theorem fleetLog_eq (between : List ControlServer.Call) :
    stay.control.fleetLog (stay.earlier ++ stay.registering :: between) =
      stay.control.fleetLog stay.earlier ++
        stay.enrolment.event :: stay.control.fleetLog between := by
  rw [ControlServer.fleetLog_append]
  congr 1
  rw [ControlServer.fleetLog, List.filterMap_cons, fleetEvent?_registering occurs checked]
  rfl

theorem course (current : stay.Current between) :
    stay.Course stay.found (stay.found.after between) (stay.later between)
      (stay.control.fleetLog stay.earlier) (stay.control.fleetLog between) := by
  have log := fleetLog_eq occurs checked between
  refine .of_distinct (log ▸ current.distinct) ?settings occurs.digests ?without ?later current.kept
  case settings =>
    rw [later_eq]
    exact stay.control.after_settings _
  case without =>
    rw [found, ← ControlServer.after_append, ← ControlServer.fleetLog_append]
    exact occurs.digests
  case later =>
    rw [← log, later_eq]
    exact occurs.digests current.distinct

theorem reversible_of_checked : stay.Reversible where
  registered := by
    rw [answer_registering occurs checked stay.settings_found]
    exact readRemovalToken_given stay.token
  told := by
    intro s call asks
    rw [ControlServer.answer_of_asks_servers asks]
    rfl
  listed := fun between current now lives => (course occurs checked current).listed lives
  ended := fun between current now lapsed => (course occurs checked current).ended lapsed
  removed := by
    intro between leaving current leaves
    rw [(course occurs checked current).answer_leaving occurs.random leaves]
    rfl
  undone := fun between leaving current leaves =>
    (course occurs checked current).undone occurs.random leaves
  restored := fun between leaving current leaves now listings order lasting =>
    (course occurs checked current).restored occurs.random leaves listings order lasting
  travels := fun draw length =>
    RemovalToken.travels_ofDraw (List.ne_nil_of_length_eq_add_one length)

end Checked

/-- The guard comes before the record: who is turned away is told 401, and all others 200. -/
theorem status_registering (occurs : stay.Occurs) {s : ControlServer}
    (same : stay.control.SameSettings s) : (s.answer stay.registering).1.status ≠ 400 := by
  cases checked : stay.control.guard.check stay.registering.request.headers with
  | ok _ =>
    rw [answer_registering occurs checked same]
    exact (by decide : 200 ≠ 400)
  | error fault =>
    have refused : s.guard.check stay.registering.request.headers = .error fault := by
      rw [ControlServer.guard, same.config]
      exact checked
    rw [ControlServer.status_of_refused_register ⟨occurs.sent.method, occurs.sent.path⟩ refused]
    decide

/-- Whatever a control server was asked before, it does not find fault with the record of a proxy
    whose settings were checked.  A proxy that knows the secret is admitted with the line that it
    sends.  And if it is admitted, then registering and taking that back undo each other.  All calls
    are answered here; for calls that break off see `reversible_left`. -/
theorem reversible (occurs : stay.Occurs) :
    (stay.found.answer stay.registering).1.status ≠ 400 ∧
      (stay.KnowsSecret → ∀ q h, q.needsSecret = true →
        h.first? "authorization" = (stay.client.request q).authorization.map Octets.ofString →
        stay.control.guard.check h = .ok ()) ∧
      (stay.control.guard.check stay.registering.request.headers = .ok () → stay.Reversible) := by
  refine ⟨occurs.status_registering stay.settings_found, fun knows q h needed carried => ?_,
    reversible_of_checked occurs⟩
  have own : ∀ secret, stay.control.guard.secret = some secret →
      secret = stay.client.sharedSecret := knows.own
  exact ControlClient.check_of_sent needed own knows.readable carried

end Occurs

def calling (second : Int) (removal : RemovalToken) (method path : String) (body : Octets) :
    ControlServer.Call where
  now := .ofSeconds second
  draws := ⟨.error "no key", ⟨"1"⟩, removal⟩
  request := ⟨method, ⟨none, path⟩, [("content-type", Octets.ofString "application/json"),
    ("authorization", Octets.ofString "Bearer s")], body⟩

def bernese : ProxyServer where
  proxyUrl := "https://bern.example"
  latitude := .finite false ⟨6544293208522752, -47⟩
  longitude := .finite false ⟨8162774324609024, -50⟩
  city := "Bern"
  country := "CH"
  supportsTcp := true

/-- It comes back to a control server that has an earlier record of it, and another proxy. -/
def homecoming : Stay where
  config := { control := some ⟨"https://control.example/", "s"⟩, server := bernese }
  link := ⟨"https://control.example/", "s"⟩
  control := .start { adminSecret := some "s", serverTtl := some (.ofSeconds 60) } {}
  earlier :=
    [calling 0 ⟨"first"⟩ "POST" "/api/v1/server" { bernese with city := "Biel" }.render,
      calling 1 ⟨"second"⟩ "POST" "/api/v1/server"
        { bernese with proxyUrl := "https://a.example" }.render]
  registering := calling 30 (.ofDraw (List.replicate 32 7)) "POST" "/api/v1/server" bernese.render
  draw := List.replicate 32 7

def looking : ControlServer.Call := calling 40 ⟨"third"⟩ "GET" "/api/v1/servers" []

def departing : ControlServer.Call :=
  calling 50 ⟨"fourth"⟩ "DELETE" (Question.deregister homecoming.token).path []

theorem occurs_homecoming : homecoming.Occurs where
  accepted := by
    cases checked : homecoming.config.validate with
    | ok _ => rfl
    | error fault =>
      have passes : homecoming.config.validate.toBool = true := by decide +kernel
      simp [checked, Except.toBool] at passes
  controlled := rfl
  short := by decide +kernel
  latitude := by
    have written : (Json.Number.float bernese.latitude).render = Octets.ofString "46.5" := by
      decide +kernel
    have value : Json.Numeral.value? ⟨false, [4, 6], [5], 0, false⟩ =
        some (.float bernese.latitude) := by decide +kernel
    exact Binary64.readsBack_of_numeral written rfl rfl value
  longitude := by
    have written : (Json.Number.float bernese.longitude).render = Octets.ofString "7.25" := by
      decide +kernel
    have value : Json.Numeral.value? ⟨false, [7], [2, 5], 0, false⟩ =
        some (.float bernese.longitude) := by decide +kernel
    exact Binary64.readsBack_of_numeral written rfl rfl value
  store := rfl
  empty := rfl
  sent := ⟨rfl, rfl, fun body sent => ⟨rfl, Option.some.inj sent⟩⟩
  random := rfl
  drawn := rfl

theorem current_homecoming : homecoming.Current [looking] where
  kept := by
    intro e member
    have event : homecoming.control.fleetEvent? looking = some ⟨.ofSeconds 40, .list⟩ :=
      ControlServer.fleetEvent?_of_asks_servers ⟨rfl, rfl⟩
    simp only [ControlServer.fleetLog, List.filterMap_cons, event, List.filterMap_nil,
      List.mem_singleton] at member
    subst member
    refine ⟨id, not_not_intro fun span ending => ?_⟩
    cases ending
    decide
  distinct := by decide +kernel

theorem knowsSecret_homecoming : homecoming.KnowsSecret where
  own := fun secret own => (Option.some.inj own).symm
  readable := by decide +kernel

theorem reversible_homecoming :
    homecoming.Occurs ∧ homecoming.KnowsSecret ∧ homecoming.Current [looking] ∧
      homecoming.Leaves departing ∧
      (homecoming.found.answer homecoming.registering).1.status ≠ 400 ∧
      ((homecoming.later [looking]).shown (.ofSeconds 50)).filter
        (·.proxyUrl = "https://bern.example") = [bernese] ∧
      (((homecoming.later [looking]).answer departing).2.shown (.ofSeconds 50)).map (·.proxyUrl) =
        ["https://a.example"] := by
  obtain ⟨status, admitted, reversible⟩ := occurs_homecoming.reversible
  have checked := admitted knowsSecret_homecoming (.register bernese)
    homecoming.registering.request.headers rfl rfl
  -- The removal shows the secret too, so the guard lets it through.
  have leaves : homecoming.Leaves departing := by
    refine ⟨⟨rfl, rfl, fun body sent => ?_⟩, ?_⟩
    · contradiction
    · exact admitted knowsSecret_homecoming (.deregister homecoming.token) _ rfl rfl
  have reversible := reversible checked
  refine ⟨occurs_homecoming, knowsSecret_homecoming, current_homecoming, leaves, status, ?_, ?_⟩
  · apply reversible.listed [looking] current_homecoming
    intro span ending
    cases ending
    decide
  · rw [reversible.undone [looking] departing current_homecoming leaves]
    decide +kernel

end Stay

end Tollgate
