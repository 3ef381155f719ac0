import Tollgate.Proofs.Control.Attempts

/-! # Removal tokens stay secret

A server is redacted when the removal tokens of its registrations are blanked out.  Only taking a
registration back looks at these tokens: whatever else is asked of a redacted server it answers as
the server itself does, and what the two turn into has one redaction again (`agree_meet`).  Two
servers that differ in their removal tokens alone have one redaction, and so nobody can tell them
apart without a `DELETE`.
-/

namespace Tollgate

/-! ## Blanked tokens -/

def Lasting.map {α β : Type} (f : α → β) (e : Lasting α) : Lasting β := ⟨f e.value, e.endsAt⟩

def Registration.redacted (r : Registration) : Registration := { r with token := ⟨""⟩ }

def FleetStore.redacted (f : FleetStore) : FleetStore :=
  { f with registrations := f.registrations.map (Prod.map id (Lasting.map Registration.redacted)) }

def Authority.redacted (a : Authority FleetStore) : Authority FleetStore :=
  { a with stored := a.stored.redacted }

def ControlServer.redacted (s : ControlServer) : ControlServer :=
  { s with authority := s.authority.redacted }

/-! ## The store -/

namespace FleetStore

variable {f : FleetStore} {now : Instant}

@[simp] theorem redacted_redacted (f : FleetStore) : f.redacted.redacted = f.redacted := by
  simp only [redacted, List.map_map]
  rfl

theorem redacted_addServer (f : FleetStore) (now : Instant) (r : Registration) (ttl : Option Span) :
    (f.redacted.addServer now r ttl).redacted = (f.addServer now r ttl).redacted := by
  have same := congrArg FleetStore.registrations (redacted_redacted f)
  simp only [redacted] at same
  simp only [addServer, redacted, Sorted.map_insert, same]

theorem servers_redacted (f : FleetStore) (now : Instant) :
    f.redacted.servers now = ((f.servers now).1, (f.servers now).2.redacted) := by
  have purged : f.redacted.purge now = (f.purge now).redacted := by
    simp only [purge, redacted, List.filter_map]
    rfl
  rw [servers, purged]
  simp only [servers, listing, redacted, List.map_map]
  rfl

theorem putKey_redacted (f : FleetStore) (now : Instant) (k : PublishedKey) (ttl : Span) :
    f.redacted.putKey now k ttl = (f.putKey now k ttl).map redacted := by
  simp only [putKey]
  split <;> rfl

theorem activeKeys_redacted (f : FleetStore) (now : Instant) :
    f.redacted.activeKeys now = ((f.activeKeys now).1, (f.activeKeys now).2.redacted) :=
  rfl

end FleetStore

/-! ## The authority -/

namespace Authority

variable {a : Authority FleetStore}

theorem rotate_redacted (store : a.store = FleetStore.keyStore) (now : Instant) (fresh : NewKey) :
    a.redacted.rotate now fresh = ((a.rotate now fresh).1, (a.rotate now fresh).2.redacted) := by
  cases made : a.config.newKey now fresh with
  | error fault => simp only [rotate, redacted, made]
  | ok key =>
    simp only [rotate, redacted, made, store, FleetStore.keyStore, FleetStore.putKey_redacted]
    cases a.stored.putKey now key.published a.config.keyLifetime <;> rfl

theorem currentKey_redacted (store : a.store = FleetStore.keyStore) (now : Instant)
    (fresh : NewKey) :
    a.redacted.currentKey now fresh =
      ((a.currentKey now fresh).1, (a.currentKey now fresh).2.redacted) := by
  have same : a.redacted.current = a.current := rfl
  rw [currentKey_eq, currentKey_eq, same]
  cases a.current.live? now with
  | some key => rfl
  | none => exact rotate_redacted store now fresh

theorem issueToken_redacted (store : a.store = FleetStore.keyStore) (now : Instant)
    (fresh : NewKey) (id : TokenId) (validity : Span) (capabilities : List Capability) :
    a.redacted.issueToken now fresh id validity capabilities =
      ((a.issueToken now fresh id validity capabilities).1,
        (a.issueToken now fresh id validity capabilities).2.redacted) := by
  simp only [issueToken, currentKey_redacted store]
  generalize a.currentKey now fresh = outcome
  obtain ⟨result, a'⟩ := outcome
  cases result with
  | error fault => rfl
  | ok key =>
    simp only [redacted]
    split <;> rfl

theorem publishableKeys_redacted (store : a.store = FleetStore.keyStore) (now : Instant)
    (fresh : NewKey) :
    a.redacted.publishableKeys now fresh =
      ((a.publishableKeys now fresh).1, (a.publishableKeys now fresh).2.redacted) := by
  have store' := (a.currentKey_store now fresh).trans store
  simp only [publishableKeys, currentKey_redacted store]
  generalize a.currentKey now fresh = outcome at store'
  obtain ⟨result, a'⟩ := outcome
  cases result with
  | error fault => rfl
  | ok key =>
    simp only at store'
    simp only [redacted, store', FleetStore.keyStore, FleetStore.activeKeys_redacted]

end Authority

/-! ## Operations -/

namespace ControlServer

variable {s s' : ControlServer} {call : Call}

@[simp] theorem redacted_redacted (s : ControlServer) : s.redacted.redacted = s.redacted := by
  simp only [redacted, Authority.redacted, FleetStore.redacted_redacted]

/-- Two outcomes show the same, and leave servers that differ in removal tokens at most. -/
def Agree {α : Type} (x y : α × ControlServer) : Prop :=
  x.1 = y.1 ∧ x.2.redacted = y.2.redacted

theorem agree_of_eq {α : Type} {x y : α × ControlServer} (same : x = (y.1, y.2.redacted)) :
    Agree x y := by
  subst same
  exact ⟨rfl, y.2.redacted_redacted⟩

theorem agree_keySet (store : s.authority.store = FleetStore.keyStore) (now : Instant) (d : Draws) :
    Agree (s.redacted.keySet now d) (s.keySet now d) := by
  apply agree_of_eq
  simp only [keySet, redacted, Authority.publishableKeys_redacted store]
  generalize s.authority.publishableKeys now d.key = outcome
  obtain ⟨result, authority⟩ := outcome
  cases result with
  | error fault => rfl
  | ok keys => cases keys <;> rfl

theorem agree_issue (store : s.authority.store = FleetStore.keyStore) (now : Instant) (d : Draws) :
    Agree (s.redacted.issue now d) (s.issue now d) := by
  apply agree_of_eq
  simp only [issue, redacted, Authority.issueToken_redacted store]
  generalize s.authority.issueToken now d.key d.tokenId s.config.tokenValidity
    s.config.tokenCapabilities = outcome
  obtain ⟨result, authority⟩ := outcome
  cases result <;> rfl

theorem agree_servers (s : ControlServer) (now : Instant) :
    Agree (s.redacted.servers now) (s.servers now) := by
  apply agree_of_eq
  have same : s.redacted.fleet = s.fleet.redacted := rfl
  rw [servers, same, FleetStore.servers_redacted]
  rfl

theorem agree_register (s : ControlServer) (now : Instant) (d : Draws) (request : Request) :
    Agree (s.redacted.register now d request) (s.register now d request) := by
  simp only [register]
  cases request.jsonBody ProxyServer.read with
  | error fault => exact agree_of_eq rfl
  | ok server =>
    cases valid : server.validate with
    | error fault =>
      simp only [valid]
      exact agree_of_eq rfl
    | ok =>
      -- The new token is there in both, and is blanked out with the old ones.
      have added := s.fleet.redacted_addServer now ⟨server, d.removal⟩ s.config.serverTtl
      simp only [valid]
      exact ⟨rfl, congrArg (fun f => { s with authority := { s.authority with stored := f } }) added⟩

/-- Whatever the operation, unless it takes a registration back. -/
theorem agree_perform (store : s.authority.store = FleetStore.keyStore) (now : Instant) (d : Draws)
    (request : Request) {endpoint : Endpoint} (other : ∀ segment, endpoint ≠ .deregister segment) :
    Agree (s.redacted.perform now d request endpoint) (s.perform now d request endpoint) := by
  cases endpoint with
  | health | catalog | revoked | revoke => exact agree_of_eq rfl
  | keySet => exact agree_keySet store now d
  | token => exact agree_issue store now d
  | servers => exact agree_servers s now
  | register => exact agree_register s now d request
  | deregister segment => exact absurd rfl (other segment)

/-! ## Requests -/

theorem endpoint_ne_deregister {request : Request} {endpoint : Endpoint}
    (routed : s.route request = .ok endpoint) (other : request.method ≠ "DELETE")
    (segment : String) : endpoint ≠ .deregister segment := by
  rintro rfl
  exact other (eq_of_takesMethod (endpoint_of_route routed).2 (by decide))

theorem agree_serve (store : s.authority.store = FleetStore.keyStore) (now : Instant) (d : Draws)
    {request : Request} (other : request.method ≠ "DELETE") :
    Agree (s.redacted.serve now d request) (s.serve now d request) := by
  have same : s.redacted.route request = s.route request := rfl
  simp only [serve, same]
  cases routed : s.route request with
  | error refusal => exact agree_of_eq rfl
  | ok endpoint =>
    have performed := agree_perform store now d request (endpoint_ne_deregister routed other)
    exact ⟨congrArg (·.sentTo request) performed.1, performed.2⟩

theorem breaksOff?_redacted (store : s.authority.store = FleetStore.keyStore) (now : Instant)
    (d : Draws) (request : Request) (endpoint : Endpoint) :
    s.redacted.breaksOff? now d request endpoint =
      (s.breaksOff? now d request endpoint).map redacted := by
  have lacks : s.redacted.authority.lacksDates now d.key = s.authority.lacksDates now d.key := rfl
  cases endpoint with
  | health | servers | catalog | deregister | revoked | revoke => rfl
  | keySet =>
    simp only [breaksOff?, lacks]
    split <;> rfl
  | register =>
    simp only [breaksOff?]
    split
    · rfl
    · rw [apply_ite (Option.map redacted)]
      rfl
  | token =>
    simp only [breaksOff?, lacks]
    split
    · rfl
    · -- The key is made before the date of the token is looked at, and making it takes no notice
      -- of what was redacted.
      simp only [redacted, Authority.currentKey_redacted store]
      generalize s.authority.currentKey now d.key = outcome
      obtain ⟨result, authority⟩ := outcome
      cases result with
      | error fault => rfl
      | ok key =>
        rw [apply_ite (Option.map redacted)]
        rfl

theorem interrupted?_redacted (store : s.authority.store = FleetStore.keyStore) (now : Instant)
    (d : Draws) (request : Request) :
    s.redacted.interrupted? now d request = (s.interrupted? now d request).map redacted := by
  have same : s.redacted.route request = s.route request := rfl
  simp only [interrupted?, same]
  cases s.route request with
  | error refusal => rfl
  | ok endpoint => exact breaksOff?_redacted store now d request endpoint

theorem agree_meet (store : s.authority.store = FleetStore.keyStore)
    (other : call.request.method ≠ "DELETE") : Agree (s.redacted.meet call) (s.meet call) := by
  have broken := interrupted?_redacted store call.now call.draws call.request
  cases whole : s.interrupted? call.now call.draws call.request with
  | none =>
    rw [whole, Option.map_none] at broken
    rw [meet_of_uninterrupted whole, meet_of_uninterrupted broken]
    have served := agree_serve store call.now call.draws other
    exact ⟨congrArg some served.1, served.2⟩
  | some left =>
    rw [whole, Option.map_some] at broken
    rw [meet_of_interrupted whole, meet_of_interrupted broken]
    exact agree_of_eq rfl

/-! ## Two servers -/

def Alike (s s' : ControlServer) : Prop := s.redacted = s'.redacted

theorem Alike.meet (alike : s.Alike s') (store : s.authority.store = FleetStore.keyStore)
    (other : call.request.method ≠ "DELETE") : Agree (s.meet call) (s'.meet call) := by
  have store' : s'.authority.store = FleetStore.keyStore := by
    rw [← store]
    exact congrArg (·.authority.store) alike.symm
  have first := agree_meet store other
  have second := agree_meet store' other
  rw [alike] at first
  exact ⟨first.1.symm.trans second.1, first.2.symm.trans second.2⟩

theorem Alike.outcomes (alike : s.Alike s') (store : s.authority.store = FleetStore.keyStore)
    {calls : List Call} (others : ∀ call ∈ calls, call.request.method ≠ "DELETE") :
    s.outcomes calls = s'.outcomes calls ∧ (s.left calls).Alike (s'.left calls) := by
  induction calls generalizing s s' with
  | nil => exact ⟨rfl, alike⟩
  | cons call calls ih =>
    obtain ⟨other, later⟩ := List.forall_mem_cons.mp others
    obtain ⟨shown, left⟩ := alike.meet store other
    have rest := ih left ((s.meet_settings call).store.trans store) later
    exact ⟨by rw [ControlServer.outcomes, ControlServer.outcomes, shown, rest.1], rest.2⟩

/-- Removal tokens never leak: calls with any method but `DELETE` come out the same on two servers
    that differ in their removal tokens, and leave them different in their removal tokens at most,
    each call alone and one after the other. -/
theorem removal_tokens_never_leak (store : s.authority.store = FleetStore.keyStore)
    (alike : s.Alike s') :
    (∀ call : Call, call.request.method ≠ "DELETE" →
      (s.meet call).1 = (s'.meet call).1 ∧ (s.meet call).2.Alike (s'.meet call).2) ∧
    ∀ calls : List Call, (∀ call ∈ calls, call.request.method ≠ "DELETE") →
      s.outcomes calls = s'.outcomes calls ∧ (s.left calls).Alike (s'.left calls) :=
  ⟨fun _ other => alike.meet store other, fun _ others => alike.outcomes store others⟩

def guarding (token : RemovalToken) : ControlServer :=
  (start {} {}).withFleet
    (({} : FleetStore).addServer (.ofSeconds 0) ⟨{ proxyUrl := "https://proxy.example" }, token⟩ none)

/-- Two servers that list the same are told apart by whoever knows one of the tokens. -/
theorem removal_tokens_never_leak_listed :
    let listing : Call :=
      ⟨.ofSeconds 1, ⟨.error "no key", ⟨"1"⟩, ⟨"r"⟩⟩, ⟨"GET", ⟨none, "/api/v1/servers"⟩, [], []⟩⟩
    let removal : Call := { listing with
      request := ⟨"DELETE", ⟨none, "/api/v1/server/first"⟩, [], []⟩ }
    ((guarding ⟨"first"⟩).meet removal).1 ≠ ((guarding ⟨"second"⟩).meet removal).1 ∧
      (guarding ⟨"first"⟩).Alike (guarding ⟨"second"⟩) ∧
      ((guarding ⟨"first"⟩).meet listing).1 = ((guarding ⟨"second"⟩).meet listing).1 ∧
      (guarding ⟨"first"⟩).outcomes [listing, listing] =
        (guarding ⟨"second"⟩).outcomes [listing, listing] := by
  intro listing removal
  have unlike : ((guarding ⟨"first"⟩).meet removal).1 ≠ ((guarding ⟨"second"⟩).meet removal).1 := by
    decide +kernel
  have alike : (guarding ⟨"first"⟩).Alike (guarding ⟨"second"⟩) := rfl
  obtain ⟨single, several⟩ := removal_tokens_never_leak rfl alike
  exact ⟨unlike, alike, (single listing (by decide)).1,
    (several [listing, listing] (by decide)).1⟩

end ControlServer

end Tollgate
