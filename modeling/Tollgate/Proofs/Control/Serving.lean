import Tollgate.Proofs.Key.Listing

/-! # A control server and its keys

Whatever is asked of a control server, its authority stays well kept (`serve_wellKept`).  So whoever
asks for the published keys is shown some (`exists_shows`): the refusal for a server without keys is
never given.
-/

namespace Tollgate

/-! ## Asking the control server for keys -/

def Request.AsksForKeys (r : Request) : Prop :=
  r.method = Question.publishedKeys.method ∧ r.target.path = Question.publishedKeys.path

def Response.delivered (r : Response) : Transport := .ok ⟨r.status, r.body⟩

namespace ControlServer

variable {s : ControlServer} {c : AuthorityConfig} {now : Instant} {d : Draws} {request : Request}

theorem route_of_asksForKeys (asks : request.AsksForKeys) : s.route request = .ok .keySet := by
  unfold route
  rw [asks.1, asks.2]
  rfl

theorem serve_of_asksForKeys (asks : request.AsksForKeys) :
    s.serve now d request = s.keySet now d := by
  have whole : ∀ r : Response, r.sentTo request = r := by
    intro r
    unfold Response.sentTo
    rw [asks.1]
    rfl
  simp only [serve, route_of_asksForKeys asks, whole]
  rfl

theorem keySet_of_publishableKeys {records : List PublishedKey} {authority : Authority FleetStore}
    (listed : s.authority.publishableKeys now d.key = (.ok records, authority))
    (nonempty : records ≠ []) :
    s.keySet now d =
      (Response.json 200 (listing "keys" (records.map PublishedKey.render)),
        { s with authority }) := by
  unfold keySet
  rw [listed]
  cases records with
  | nil => contradiction
  | cons => rfl

/-! ## Any request -/

theorem keySet_authority (s : ControlServer) (now : Instant) (d : Draws) :
    (s.keySet now d).2.authority =
      (s.authority.visit ⟨now, d.key, d.tokenId, .publishableKeys⟩).2 := by
  simp only [keySet, Authority.visit, Authority.perform]
  generalize s.authority.publishableKeys now d.key = outcome
  obtain ⟨result, authority⟩ := outcome
  cases result with
  | error => rfl
  | ok records => cases records <;> rfl

theorem issue_authority (s : ControlServer) (now : Instant) (d : Draws) :
    (s.issue now d).2.authority =
      (s.authority.visit
        ⟨now, d.key, d.tokenId, .token s.config.tokenValidity s.config.tokenCapabilities⟩).2 := by
  simp only [issue, Authority.visit, Authority.perform]
  generalize s.authority.issueToken now d.key d.tokenId s.config.tokenValidity
    s.config.tokenCapabilities = outcome
  obtain ⟨result, authority⟩ := outcome
  cases result <;> rfl

/-- Registrations have nothing to do with keys. -/
theorem wellKept_withFleet {f : FleetStore} (kept : s.authority.WellKept c now)
    (keys : f.keys = s.fleet.keys) : (s.withFleet f).authority.WellKept c now :=
  kept.congr rfl rfl keys rfl

theorem register_wellKept (kept : s.authority.WellKept c now) (d : Draws) (request : Request) :
    (s.register now d request).2.authority.WellKept c now := by
  unfold register
  split
  · exact kept
  · split
    · exact kept
    · exact wellKept_withFleet kept rfl

theorem deregister_wellKept (kept : s.authority.WellKept c now) (segment : String) :
    (s.deregister segment).2.authority.WellKept c now := by
  unfold deregister FleetStore.removeServer
  split
  · exact kept
  · split
    · next found =>
      split at found
      · cases found
        exact wellKept_withFleet kept rfl
      · cases found
    · exact kept

theorem perform_wellKept (kept : s.authority.WellKept c now)
    (dated : Instant.inRange now.nanos = true) (named : d.key.Named) (request : Request)
    (endpoint : Endpoint) : (s.perform now d request endpoint).2.authority.WellKept c now := by
  cases endpoint with
  | keySet =>
    rw [perform, keySet_authority]
    exact kept.visit dated named
  | token =>
    rw [perform, issue_authority]
    exact kept.visit dated named
  | health | catalog | revoked | revoke => exact kept
  | servers => exact wellKept_withFleet kept rfl
  | register => exact register_wellKept kept d request
  | deregister segment => exact deregister_wellKept kept segment

theorem serve_wellKept (kept : s.authority.WellKept c now)
    (dated : Instant.inRange now.nanos = true) (named : d.key.Named) (request : Request) :
    (s.serve now d request).2.authority.WellKept c now := by
  unfold serve
  split
  · exact kept
  · exact perform_wellKept kept dated named request _

/-! ## What is published -/

/-- What is shown to whoever asks a control server for its keys: records in the strict order of
    their identifiers, and the current key among them. -/
structure Shows (s : ControlServer) (now : Instant) (d : Draws) (request : Request)
    (key : SigningKey) (records : List PublishedKey) : Prop where
  current : (s.authority.currentKey now d.key).1 = .ok key
  listed : (s.authority.publishableKeys now d.key).1 = .ok records
  response : (s.serve now d request).1 =
    Response.json 200 (listing "keys" (records.map PublishedKey.render))
  read : readKeys (s.serve now d request).1.delivered = .ok records
  nonempty : records ≠ []
  increasing : records.Pairwise fun k l => k.keyId < l.keyId
  mem : key.published ∈ records

theorem exists_shows (kept : s.authority.WellKept c now)
    (dated : Instant.inRange now.nanos = true) (named : d.key.Named) (asks : request.AsksForKeys) :
    ∃ key records, s.Shows now d request key records := by
  obtain ⟨key, records, authority, publishes⟩ := kept.publishes dated named
  have nonempty : records ≠ [] := List.ne_nil_of_mem publishes.mem
  have served : (s.serve now d request).1 =
      Response.json 200 (listing "keys" (records.map PublishedKey.render)) := by
    rw [serve_of_asksForKeys asks, keySet_of_publishableKeys publishes.listed nonempty]
  refine ⟨key, records, publishes.current, congrArg Prod.fst publishes.listed, served, ?_, nonempty,
    publishes.increasing, publishes.mem⟩
  rw [served]
  exact readKeys_listing publishes.readable

end ControlServer

end Tollgate
