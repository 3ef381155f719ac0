import Tollgate.Proofs.Control.Attempts

/-! # Requests are atomic

A request is answered as a whole or not at all, and it touches one thing that the server holds: the
revoked tokens or one registration (`ControlServer.Atomic`).  That taking a registration back touches
no other one needs an invariant, `ControlServer.Sound`: the store is tidy and its tokens are among
those that were given out, of which no two are equal.  The invariant also has that every record in
the store was checked, so that a listing shows no other.
-/

namespace Tollgate

instance (r : Request) (endpoint : Endpoint) : Decidable (r.Asks endpoint) :=
  inferInstanceAs (Decidable (_ ∧ _))

namespace ControlServer

variable {s s' : ControlServer} {call : Call} {tokens : List RemovalToken}

/-! ## Tokens that were given out -/

def handed? (s : ControlServer) (call : Call) : Option RemovalToken :=
  if call.request.Asks .register ∧ (s.answer call).1.isSuccess = true then some call.draws.removal
  else none

def handedOut (s : ControlServer) : List Call → List RemovalToken
  | [] => []
  | call :: rest => (s.handed? call).toList ++ (s.answer call).2.handedOut rest

/-! ## The invariant -/

structure Sound (s : ControlServer) (tokens : List RemovalToken) : Prop where
  store : s.authority.store = FleetStore.keyStore
  tidy : s.fleet.Tidy
  issued : ∀ e ∈ s.fleet.registrations, e.2.value.token ∈ tokens
  valid : ∀ e ∈ s.fleet.registrations, e.2.value.server.validate = .ok ()

theorem sound_of_empty (store : s.authority.store = FleetStore.keyStore)
    (empty : s.fleet.registrations = []) : s.Sound [] where
  store := store
  tidy := FleetStore.tidy_of_empty empty
  issued := by simp [empty]
  valid := by simp [empty]

theorem Sound.of_subset (sound : s.Sound tokens) (store : s'.authority.store = FleetStore.keyStore)
    (tidy : s'.fleet.Tidy) (subset : ∀ e ∈ s'.fleet.registrations, e ∈ s.fleet.registrations)
    (more : List RemovalToken) : s'.Sound (tokens ++ more) where
  store := store
  tidy := tidy
  issued := fun e member => List.mem_append_left more (sound.issued e (subset e member))
  valid := fun e member => sound.valid e (subset e member)

/-- One call keeps the invariant, if the token that it gives out is new. -/
theorem Sound.answer (sound : s.Sound tokens)
    (fresh : ∀ token, s.handed? call = some token → token ∉ tokens) :
    (s.answer call).2.Sound (tokens ++ (s.handed? call).toList) := by
  have change := change_answer sound.store call
  have store := (s.answer_settings call).store.trans sound.store
  have handed : call.request.Asks .register → (s.answer call).1.isSuccess = true →
      s.handed? call = some call.draws.removal := fun asks answered => if_pos ⟨asks, answered⟩
  generalize s.answer call = outcome at change store handed
  obtain ⟨response, s'⟩ := outcome
  cases change with
  | none asks revoked registrations =>
    refine sound.of_subset store (sound.tidy.of_sublist ?_) (fun e member => ?_) _
    · exact registrations ▸ .refl _
    · exact registrations ▸ member
  | listed asks =>
    exact sound.of_subset store sound.tidy.purge
      (fun e member => (FleetStore.mem_purge.mp member).1) _
  | removed asks decoded known =>
    exact sound.of_subset store sound.tidy.removeServer
      (fun e member => ((FleetStore.mem_removeServer sound.tidy).mp member).1) _
  | revoked asks decoded => exact sound.of_subset store sound.tidy (fun e member => member) _
  | @registered server asks decoded valid =>
    have given := handed asks rfl
    -- Tokens in the store were given out before, and this one was not.
    have unknown : ∀ e ∈ s.fleet.registrations, e.2.value.token ≠ call.draws.removal :=
      fun e member same => fresh _ given (same ▸ sound.issued e member)
    rw [given]
    refine ⟨store, sound.tidy.addServer unknown, fun e member => ?_, fun e member => ?_⟩
    · obtain rfl | ⟨earlier, -⟩ := (FleetStore.mem_addServer sound.tidy).mp member
      · exact List.mem_append_right _ List.mem_cons_self
      · exact List.mem_append_left _ (sound.issued e earlier)
    · obtain rfl | ⟨earlier, -⟩ := (FleetStore.mem_addServer sound.tidy).mp member
      · exact valid
      · exact sound.valid e earlier

theorem notMem_of_handed {handed? : Option RemovalToken} {later : List RemovalToken}
    (distinct : (tokens ++ handed?.toList ++ later).Nodup) :
    ∀ token, handed? = some token → token ∉ tokens := by
  rintro token rfl known
  have apart := (List.nodup_append.mp (List.nodup_append.mp distinct).1).2.2
  exact apart token known token (by simp) rfl

theorem Sound.after {calls : List Call} (sound : s.Sound tokens)
    (distinct : (tokens ++ s.handedOut calls).Nodup) :
    (s.after calls).Sound (tokens ++ s.handedOut calls) := by
  induction calls generalizing s tokens with
  | nil =>
    rw [handedOut, List.append_nil]
    exact sound
  | cons call rest ih =>
    rw [handedOut, ← List.append_assoc] at distinct ⊢
    exact ih (sound.answer (notMem_of_handed distinct)) distinct

/-! ## The change that a request makes -/

theorem method_of_takesGet {r : Request} {endpoint : Endpoint}
    (asks : takesMethod "GET" r.method = true) (names : r.Asks endpoint) :
    endpoint.method = "GET" := by
  rw [names.1] at asks
  cases endpoint with
  | register | revoke | deregister => contradiction
  | keySet | health | token | servers | catalog | revoked => rfl

namespace Change

variable {response : Response}

theorem of_refused (change : s.Change call response s') (refused : response.isSuccess = false) :
    s'.revoked = s.revoked ∧ s'.fleet.registrations = s.fleet.registrations := by
  cases change with
  | none asks revoked registrations => exact ⟨revoked, registrations⟩
  | listed =>
    rw [Response.isSuccess_sentTo] at refused
    contradiction
  | registered | removed | revoked => contradiction

theorem of_revoke (change : s.Change call response s') (names : call.request.Asks .revoke)
    (answered : response.isSuccess = true) :
    ∃ id, call.request.jsonBody RevokeRequest.read = .ok ⟨some id⟩ ∧
      s' = { s with revoked := (s.revoked.revoke id).2 } := by
  cases change with
  | revoked asks decoded => exact ⟨_, decoded, rfl⟩
  | none asks => exact absurd (method_of_takesGet (asks answered) names) (by decide)
  | listed asks => exact absurd (method_of_takesGet asks names) (by decide)
  | registered asks => exact absurd (asks.2.symm.trans names.2) (by decide)
  | removed asks => exact absurd (asks.1.symm.trans names.1) (by simp [Endpoint.method])

theorem of_register (change : s.Change call response s') (names : call.request.Asks .register)
    (answered : response.isSuccess = true) :
    ∃ server, call.request.jsonBody ProxyServer.read = .ok server ∧
      response = Response.json 200
        (Json.renderMembers [("revocationToken", Json.renderText call.draws.removal.text)]) ∧
      s' = s.withFleet
        (s.fleet.addServer call.now ⟨server, call.draws.removal⟩ s.config.serverTtl) := by
  cases change with
  | registered asks decoded valid => exact ⟨_, decoded, rfl, rfl⟩
  | none asks => exact absurd (method_of_takesGet (asks answered) names) (by decide)
  | listed asks => exact absurd (method_of_takesGet asks names) (by decide)
  | revoked asks => exact absurd (asks.2.symm.trans names.2) (by decide)
  | removed asks => exact absurd (asks.1.symm.trans names.1) (by simp [Endpoint.method])

theorem of_delete (change : s.Change call response s') (deletes : call.request.method = "DELETE")
    (answered : response.isSuccess = true) :
    ∃ segment token, call.request.Asks (.deregister segment) ∧
      Octets.toText? (percentDecode (Octets.ofString segment)) = some token ∧
      (s.fleet.removeServer ⟨token⟩).1 = true ∧
      s' = s.withFleet (s.fleet.removeServer ⟨token⟩).2 := by
  have other : takesMethod "GET" call.request.method = false := by
    rw [deletes]
    decide
  cases change with
  | removed asks decoded known => exact ⟨_, _, asks, decoded, known, rfl⟩
  | none asks => exact absurd ((asks answered).symm.trans other) (by decide)
  | listed asks => exact absurd (asks.symm.trans other) (by decide)
  | registered asks => exact absurd (asks.1.symm.trans deletes) (by decide)
  | revoked asks => exact absurd (asks.1.symm.trans deletes) (by decide)

theorem of_other (change : s.Change call response s') (revoke : ¬call.request.Asks .revoke)
    (register : ¬call.request.Asks .register) (delete : call.request.method ≠ "DELETE") :
    s'.revoked = s.revoked ∧ (s'.fleet.registrations = s.fleet.registrations ∨
      s'.fleet.registrations = (s.fleet.purge call.now).registrations) := by
  cases change with
  | none asks revoked registrations => exact ⟨revoked, .inl registrations⟩
  | listed asks => exact ⟨rfl, .inr rfl⟩
  | registered asks => contradiction
  | removed asks => exact absurd asks.1 delete
  | revoked asks => contradiction

end Change

/-! ## What one request touches -/

/-- A call changes what it says it changes, and nothing else. -/
structure Atomic (s : ControlServer) (call : Call) : Prop where
  refused : (s.answer call).1.isSuccess = false →
    (s.answer call).2.revoked = s.revoked ∧
      (s.answer call).2.fleet.registrations = s.fleet.registrations
  revokes : call.request.Asks .revoke → (s.answer call).1.isSuccess = true →
    ∃ id, call.request.jsonBody RevokeRequest.read = .ok ⟨some id⟩ ∧
      (∀ x, x ∈ (s.answer call).2.revoked.ids ↔ x = id ∨ x ∈ s.revoked.ids) ∧
      (s.answer call).2.fleet.registrations = s.fleet.registrations
  registers : call.request.Asks .register → (s.answer call).1.isSuccess = true →
    ∃ server, call.request.jsonBody ProxyServer.read = .ok server ∧
      (s.answer call).1 = Response.json 200
        (Json.renderMembers [("revocationToken", Json.renderText call.draws.removal.text)]) ∧
      (∀ e, e ∈ (s.answer call).2.fleet.registrations ↔
        e = (server.proxyUrl,
          Lasting.since call.now s.config.serverTtl ⟨server, call.draws.removal⟩) ∨
        e ∈ s.fleet.registrations ∧ e.1 ≠ server.proxyUrl) ∧
      (s.answer call).2.revoked = s.revoked
  removes : call.request.method = "DELETE" → (s.answer call).1.isSuccess = true →
    ∃ segment token, call.request.Asks (.deregister segment) ∧
      Octets.toText? (percentDecode (Octets.ofString segment)) = some token ∧
      (∃ owner ∈ s.fleet.registrations, owner.2.value.token = ⟨token⟩ ∧
        ∀ e, e ∈ (s.answer call).2.fleet.registrations ↔ e ∈ s.fleet.registrations ∧ e ≠ owner) ∧
      (s.answer call).2.revoked = s.revoked
  /-- Other calls touch at most registrations that have ended. -/
  spares : ¬call.request.Asks .revoke → ¬call.request.Asks .register →
    call.request.method ≠ "DELETE" →
    (s.answer call).2.revoked = s.revoked ∧
      (∀ e ∈ (s.answer call).2.fleet.registrations, e ∈ s.fleet.registrations) ∧
      ∀ e ∈ s.fleet.registrations, e.2.isLive call.now = true →
        e ∈ (s.answer call).2.fleet.registrations

theorem Sound.atomic (sound : s.Sound tokens) (call : Call) : s.Atomic call where
  refused := (change_answer sound.store call).of_refused
  revokes := by
    intro names answered
    obtain ⟨id, decoded, changed⟩ := (change_answer sound.store call).of_revoke names answered
    rw [changed]
    exact ⟨id, decoded, fun x => RevokedSet.mem_revoke, rfl⟩
  registers := by
    intro names answered
    obtain ⟨server, decoded, response, changed⟩ :=
      (change_answer sound.store call).of_register names answered
    rw [changed]
    exact ⟨server, decoded, response, fun e => FleetStore.mem_addServer sound.tidy, rfl⟩
  removes := by
    intro deletes answered
    obtain ⟨segment, token, asks, decoded, known, changed⟩ :=
      (change_answer sound.store call).of_delete deletes answered
    rw [changed]
    exact ⟨segment, token, asks, decoded, FleetStore.exists_owner sound.tidy known, rfl⟩
  spares := by
    intro revoke register delete
    obtain ⟨revoked, same | purged⟩ :=
      (change_answer sound.store call).of_other revoke register delete
    · rw [same]
      exact ⟨revoked, fun e member => member, fun e member live => member⟩
    · rw [purged]
      exact ⟨revoked, fun e member => (FleetStore.mem_purge.mp member).1,
        fun e member live => FleetStore.mem_purge.mpr ⟨member, live⟩⟩

/-! ## What a listing shows -/

theorem route_of_asks_servers (asks : call.request.Asks .servers) :
    s.route call.request = .ok .servers := by
  rw [route, asks.2, asks.1]
  rfl

theorem answer_of_asks_servers (asks : call.request.Asks .servers) :
    s.answer call = s.servers call.now :=
  answer_of_route (route_of_asks_servers asks) asks.1

theorem Sound.lists_valid (sound : s.Sound tokens) (asks : call.request.Asks .servers) :
    ∃ servers : List ProxyServer,
      (s.answer call).1 = Response.json 200 (listing "servers" (servers.map ProxyServer.render)) ∧
      ∀ server ∈ servers, server.validate = .ok () := by
  rw [answer_of_asks_servers asks]
  refine ⟨(s.fleet.purge call.now).listing, rfl, fun server member => ?_⟩
  obtain ⟨e, stored, rfl⟩ := List.mem_map.mp member
  exact sound.valid e (FleetStore.mem_purge.mp stored).1

/-- Every request is atomic in every state that requests can lead to from a server without
    registrations, if no removal token is given out twice, and a listing shows valid records only.
    All of the requests are answered here; for those that break off see `atomic_left`. -/
theorem atomic_after {calls : List Call} (store : s.authority.store = FleetStore.keyStore)
    (empty : s.fleet.registrations = []) (distinct : (s.handedOut calls).Nodup) (call : Call) :
    (s.after calls).Atomic call ∧
      (call.request.Asks .servers → ∃ servers : List ProxyServer,
        ((s.after calls).answer call).1 =
          Response.json 200 (listing "servers" (servers.map ProxyServer.render)) ∧
        ∀ server ∈ servers, server.validate = .ok ()) := by
  have sound : (s.after calls).Sound ([] ++ s.handedOut calls) :=
    (sound_of_empty store empty).after distinct
  exact ⟨sound.atomic call, sound.lists_valid⟩

def Call.ofJson (second : Int) (removal method path body : String) : Call where
  now := .ofSeconds second
  draws := ⟨.error "no key", ⟨"1"⟩, ⟨removal⟩⟩
  request := ⟨method, ⟨none, path⟩, [("content-type", Octets.ofString "application/json")],
    Octets.ofString body⟩

/-- A proxy registers, another one forgets to say where it is, and a token is revoked. -/
def morning : List Call :=
  [.ofJson 1 "first" "POST" "/api/v1/server"
      ("\x7b\"proxyUrl\":\"https://a\",\"city\":\"Bern\",\"country\":\"CH\"," ++
        "\"supportsConnectTcp\":true\x7d"),
    .ofJson 2 "second" "POST" "/api/v1/server" "\x7b\"proxyUrl\":\"https://b\"\x7d",
    .ofJson 3 "third" "POST" "/api/v1/revoke" "\x7b\"jti\":7\x7d"]

theorem atomic_after_morning :
    let s := start {} {}
    let leave := Call.ofJson 4 "fourth" "DELETE" "/api/v1/server/first" ""
    s.handedOut morning = [⟨"first"⟩] ∧ ((s.after morning).answer leave).1.isSuccess = true ∧
      (s.after morning).Atomic leave := by
  intro s leave
  have handed : s.handedOut morning = [⟨"first"⟩] := by decide +kernel
  refine ⟨handed, by decide +kernel, ?_⟩
  exact (atomic_after rfl rfl (by simp [handed]) leave).1

/-! ## Requests that break off -/

/-- What breaks off gives out nothing. -/
def given? (s : ControlServer) (call : Call) : Option RemovalToken :=
  if (s.meet call).1.isSome then s.handed? call else none

def givenOut (s : ControlServer) : List Call → List RemovalToken
  | [] => []
  | call :: rest => (s.given? call).toList ++ (s.meet call).2.givenOut rest

theorem Sound.meet (sound : s.Sound tokens)
    (fresh : ∀ token, s.given? call = some token → token ∉ tokens) :
    (s.meet call).2.Sound (tokens ++ (s.given? call).toList) := by
  cases met : (s.meet call).1 with
  | none =>
    obtain ⟨-, same⟩ := meet_of_broken sound.store met
    have store := (s.meet_settings call).store.trans sound.store
    exact sound.of_subset store (sound.tidy.of_sublist (same ▸ .refl _))
      (fun e member => same ▸ member) _
  | some response =>
    have given : s.given? call = s.handed? call := by rw [given?, met, Option.isSome_some, if_pos rfl]
    rw [given] at fresh ⊢
    rw [meet_of_answered met]
    exact sound.answer fresh

theorem Sound.left {calls : List Call} (sound : s.Sound tokens)
    (distinct : (tokens ++ s.givenOut calls).Nodup) :
    (s.left calls).Sound (tokens ++ s.givenOut calls) := by
  induction calls generalizing s tokens with
  | nil =>
    rw [givenOut, List.append_nil]
    exact sound
  | cons call rest ih =>
    rw [givenOut, ← List.append_assoc] at distinct ⊢
    exact ih (sound.meet (notMem_of_handed distinct)) distinct

theorem meet_of_asks_servers (asks : call.request.Asks .servers) :
    s.meet call = (some (s.servers call.now).1, (s.servers call.now).2) := by
  have whole : s.interrupted? call.now call.draws call.request = none := by
    simp only [interrupted?, route_of_asks_servers asks, breaksOff?]
  rw [meet_of_uninterrupted whole, answer_of_asks_servers asks]

/-- Requests may break off, the last one and those before it.  Whoever is answered is answered as a
    whole, nothing is left of a request that breaks off but a key, and listings are answered. -/
theorem atomic_left {calls : List Call} (store : s.authority.store = FleetStore.keyStore)
    (empty : s.fleet.registrations = []) (distinct : (s.givenOut calls).Nodup) (call : Call) :
    ((s.left calls).meet call =
        (some ((s.left calls).answer call).1, ((s.left calls).answer call).2) ∧
        (s.left calls).Atomic call ∨
      ((s.left calls).meet call).1 = none ∧
        ((s.left calls).meet call).2.revoked = (s.left calls).revoked ∧
        ((s.left calls).meet call).2.fleet.registrations = (s.left calls).fleet.registrations) ∧
      (call.request.Asks .servers → ∃ servers : List ProxyServer,
        ((s.left calls).meet call).1 =
          some (Response.json 200 (listing "servers" (servers.map ProxyServer.render))) ∧
        ∀ server ∈ servers, server.validate = .ok ()) := by
  have sound : (s.left calls).Sound ([] ++ s.givenOut calls) :=
    (sound_of_empty store empty).left distinct
  refine ⟨?_, fun asks => ?_⟩
  · cases met : ((s.left calls).meet call).1 with
    | none => exact .inr ⟨rfl, meet_of_broken sound.store met⟩
    | some response => exact .inl ⟨meet_of_answered met, sound.atomic call⟩
  · obtain ⟨servers, shown, valid⟩ := sound.lists_valid asks
    rw [answer_of_asks_servers asks] at shown
    exact ⟨servers, by rw [meet_of_asks_servers asks, shown], valid⟩

end ControlServer

end Tollgate
