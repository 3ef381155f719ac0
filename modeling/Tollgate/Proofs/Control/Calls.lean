import Tollgate.Proofs.Control.Serving
import Tollgate.Proofs.Fleet.Registrations

/-! # What one request does

A request that a control server answers changes at most one of the things it holds.  The ways are
listed once, in `ControlServer.Change`, and `ControlServer.change_answer` finds the way of every
request; what follows about requests is a case analysis over the list.  Keys do not matter here: the
authority keeps its keys beside the registrations and leaves these alone.
-/

namespace Tollgate

/-! ## Keys beside registrations -/

namespace Authority

variable {a : Authority FleetStore} {now : Instant} {fresh : NewKey}

theorem registrations_rotate (store : a.store = FleetStore.keyStore) :
    (a.rotate now fresh).2.stored.registrations = a.stored.registrations := by
  cases made : a.config.newKey now fresh with
  | error fault => simp only [rotate, made]
  | ok key =>
    by_cases ended : a.config.keyLifetime.nanos ≤ 0
    · simp only [rotate, made, store, FleetStore.keyStore, FleetStore.putKey, ended, if_true]
    · simp only [rotate, made, store, FleetStore.keyStore, FleetStore.putKey, ended, if_false]

theorem registrations_currentKey (store : a.store = FleetStore.keyStore) (now : Instant)
    (fresh : NewKey) :
    (a.currentKey now fresh).2.stored.registrations = a.stored.registrations := by
  rw [currentKey_eq]
  cases a.current.live? now with
  | some key => rfl
  | none => exact registrations_rotate store

theorem registrations_visit (store : a.store = FleetStore.keyStore) (v : Visit) :
    (a.visit v).2.stored.registrations = a.stored.registrations := by
  have same := registrations_currentKey store v.now v.fresh
  have store' := (a.currentKey_store v.now v.fresh).trans store
  rw [visit, perform_snd]
  generalize a.currentKey v.now v.fresh = outcome at same store'
  obtain ⟨result, a'⟩ := outcome
  simp only at same store'
  cases v.errand with
  | currentKey | token => exact same
  | publishableKeys =>
    cases result with
    | error fault => exact same
    | ok key => simpa only [store', FleetStore.keyStore, FleetStore.activeKeys] using same

end Authority

/-! ## Paths and methods -/

def Endpoint.path : Endpoint → String
  | .keySet => "/.well-known/jwks.json"
  | .health => "/api/v1/health"
  | .token => "/api/v1/token"
  | .servers => "/api/v1/servers"
  | .catalog => "/api/openapi.json"
  | .register => "/api/v1/server"
  | .deregister segment => removalPath ++ segment
  | .revoked => "/api/v1/revoked"
  | .revoke => "/api/v1/revoke"

def Request.Asks (r : Request) (endpoint : Endpoint) : Prop :=
  r.method = endpoint.method ∧ r.target.path = endpoint.path

namespace Endpoint

theorem afterStart?_eq_some {start cs rest : List Char} (found : afterStart? start cs = some rest) :
    cs = start ++ rest := by
  induction start generalizing cs with
  | nil => exact Option.some.inj found
  | cons a start ih =>
    cases cs with
    | nil => contradiction
    | cons c cs =>
      simp only [afterStart?] at found
      split at found
      next same =>
        rw [same, ih found, List.cons_append]
      next => contradiction

theorem path_of_removalSegment? {path segment : String}
    (found : removalSegment? path = some segment) : path = removalPath ++ segment := by
  simp only [removalSegment?] at found
  split at found
  next rest after =>
    split at found
    next => contradiction
    next =>
      obtain rfl := Option.some.inj found
      rw [← String.ofList_toList (s := path), afterStart?_eq_some after, String.ofList_append,
        String.ofList_toList]
  next => contradiction

theorem path_of_ofPath? {path : String} {endpoint : Endpoint}
    (served : ofPath? path = some endpoint) : path = endpoint.path := by
  simp only [ofPath?] at served
  split at served
  -- The last alternative has a path of its own for each removal token.
  case h_9 =>
    obtain ⟨segment, found, rfl⟩ := Option.map_eq_some_iff.mp served
    exact path_of_removalSegment? found
  all_goals
    cases served
    rfl

end Endpoint

theorem eq_of_takesMethod {served requested : String} (taken : takesMethod served requested = true)
    (other : served ≠ "GET") : requested = served := by
  simpa [takesMethod, other] using taken

@[simp] theorem Response.isSuccess_sentTo (response : Response) (request : Request) :
    (response.sentTo request).isSuccess = response.isSuccess := by
  simp only [sentTo]
  split <;> rfl

theorem Response.sentTo_of_ne_head {response : Response} {request : Request}
    (whole : request.method ≠ "HEAD") : response.sentTo request = response :=
  if_neg whole

/-! ## Calls -/

namespace ControlServer

/-- A request with the time at which it is answered and what chance supplies. -/
structure Call where
  now : Instant
  draws : Draws
  request : Request

def answer (s : ControlServer) (call : Call) : Response × ControlServer :=
  s.serve call.now call.draws call.request

def after (s : ControlServer) (calls : List Call) : ControlServer :=
  calls.foldl (fun s call => (s.answer call).2) s

/-- What a call can do to the registrations and to the revoked tokens, with the response to it. -/
inductive Change (s : ControlServer) (call : Call) : Response → ControlServer → Prop
  /-- Both stay; a success is one of those who only ask. -/
  | none {response : Response} {s' : ControlServer}
      (asks : response.isSuccess = true → takesMethod "GET" call.request.method = true)
      (revoked : s'.revoked = s.revoked)
      (registrations : s'.fleet.registrations = s.fleet.registrations) : Change s call response s'
  | listed (asks : takesMethod "GET" call.request.method = true) :
      Change s call
        ((Response.json 200 (listing "servers" ((s.fleet.purge call.now).listing.map
          ProxyServer.render))).sentTo call.request)
        (s.withFleet (s.fleet.purge call.now))
  | registered {server : ProxyServer} (asks : call.request.Asks .register)
      (decoded : call.request.jsonBody ProxyServer.read = .ok server)
      (valid : server.validate = .ok ()) :
      Change s call
        (Response.json 200
          (Json.renderMembers [("revocationToken", Json.renderText call.draws.removal.text)]))
        (s.withFleet (s.fleet.addServer call.now ⟨server, call.draws.removal⟩ s.config.serverTtl))
  | removed {segment token : String} (asks : call.request.Asks (.deregister segment))
      (decoded : Octets.toText? (percentDecode (Octets.ofString segment)) = some token)
      (known : (s.fleet.removeServer ⟨token⟩).1 = true) :
      Change s call (Response.empty 200) (s.withFleet (s.fleet.removeServer ⟨token⟩).2)
  | revoked {id : TokenId} (asks : call.request.Asks .revoke)
      (decoded : call.request.jsonBody RevokeRequest.read = .ok ⟨some id⟩) :
      Change s call revokedResponse { s with revoked := (s.revoked.revoke id).2 }

variable {s : ControlServer} {call : Call} {request : Request} {endpoint : Endpoint}
  {response : Response}

theorem endpoint_of_route (routed : s.route request = .ok endpoint) :
    Endpoint.ofPath? request.target.path = some endpoint ∧
      takesMethod endpoint.method request.method = true := by
  simp only [route] at routed
  split at routed
  next => split at routed <;> contradiction
  next endpoint' served =>
    split at routed
    next =>
      split at routed
      next taken =>
        cases routed
        exact ⟨served, taken⟩
      next => contradiction
    next =>
      split at routed
      next admitted =>
        cases routed
        refine ⟨served, ?_⟩
        -- The guard looks at the method only once the secret was shown.
        simp only [AdminGuard.protect] at admitted
        split at admitted
        next =>
          split at admitted
          next taken => exact taken
          next => contradiction
        next => contradiction
      next => contradiction

theorem isSuccess_of_route (refused : s.route request = .error response) :
    response.isSuccess = false := by
  simp only [route] at refused
  split at refused
  next => split at refused <;> cases refused <;> rfl
  next =>
    split at refused
    next =>
      split at refused <;> cases refused
      rfl
    next =>
      split at refused
      next => cases refused
      next response' guarded =>
        cases refused
        simp only [AdminGuard.protect] at guarded
        split at guarded
        next =>
          split at guarded <;> cases guarded
          rfl
        next =>
          split at guarded <;> cases guarded <;> rfl

/-- Whoever asks with the method of an endpoint gets all of its answer. -/
theorem answer_of_route (routed : s.route call.request = .ok endpoint)
    (named : call.request.method = endpoint.method) :
    s.answer call = s.perform call.now call.draws call.request endpoint := by
  have whole : call.request.method ≠ "HEAD" := by
    rw [named]
    cases endpoint <;> simp [Endpoint.method]
  simp only [answer, serve, routed, Response.sentTo_of_ne_head whole]

theorem keySet_revoked (s : ControlServer) (now : Instant) (d : Draws) :
    (s.keySet now d).2.revoked = s.revoked := by
  simp only [keySet]
  split <;> rfl

theorem issue_revoked (s : ControlServer) (now : Instant) (d : Draws) :
    (s.issue now d).2.revoked = s.revoked := by
  simp only [issue]
  split <;> rfl

/-- What did not succeed changes nothing. -/
theorem Change.failed (failed : response.isSuccess = false) : s.Change call response s :=
  .none (fun succeeded => absurd (succeeded.symm.trans failed) (by decide)) rfl rfl

theorem change_register (asks : call.request.Asks .register) :
    s.Change call (s.register call.now call.draws call.request).1
      (s.register call.now call.draws call.request).2 := by
  simp only [register]
  cases decoded : call.request.jsonBody ProxyServer.read with
  | error fault => exact .failed rfl
  | ok server =>
    cases valid : server.validate with
    | error fault => simpa only [valid] using .failed rfl
    | ok => simpa only [valid] using .registered asks decoded valid

theorem change_deregister {segment : String} (asks : call.request.Asks (.deregister segment)) :
    s.Change call (s.deregister segment).1 (s.deregister segment).2 := by
  simp only [deregister]
  cases decoded : Octets.toText? (percentDecode (Octets.ofString segment)) with
  | none => exact .failed rfl
  | some token =>
    have removed := Change.removed (s := s) asks decoded
    cases outcome : s.fleet.removeServer ⟨token⟩ with
    | mk known fleet =>
      rw [outcome] at removed
      cases known with
      | false => simpa only [outcome] using .failed rfl
      | true => simpa only [outcome] using removed rfl

theorem change_revoke (asks : call.request.Asks .revoke) :
    s.Change call (Tollgate.revoke s.revoked call.request).1
      { s with revoked := (Tollgate.revoke s.revoked call.request).2 } := by
  simp only [Tollgate.revoke]
  cases decoded : call.request.jsonBody RevokeRequest.read with
  | error fault => exact .failed rfl
  | ok body =>
    obtain ⟨_ | id⟩ := body
    · exact .failed rfl
    · exact .revoked asks decoded

theorem change_answer (store : s.authority.store = FleetStore.keyStore) (call : Call) :
    s.Change call (s.answer call).1 (s.answer call).2 := by
  cases routed : s.route call.request with
  | error refusal =>
    simp only [answer, serve, routed]
    exact .failed (by rw [Response.isSuccess_sentTo, isSuccess_of_route routed])
  | ok endpoint =>
    obtain ⟨served, taken⟩ := endpoint_of_route routed
    have path := Endpoint.path_of_ofPath? served
    -- Whoever changes something does not ask for the head alone.
    have asks : endpoint.method ≠ "GET" → call.request.Asks endpoint := fun other =>
      ⟨eq_of_takesMethod taken other, path⟩
    have whole : ∀ response : Response, endpoint.method ≠ "GET" → endpoint.method ≠ "HEAD" →
        response.sentTo call.request = response := fun response other head =>
      Response.sentTo_of_ne_head ((asks other).1 ▸ head)
    simp only [answer, serve, routed]
    cases endpoint with
    | keySet =>
      refine .none (fun _ => taken) (keySet_revoked s _ _) ?_
      rw [perform, fleet, keySet_authority]
      exact Authority.registrations_visit store _
    | token =>
      refine .none (fun _ => taken) (issue_revoked s _ _) ?_
      rw [perform, fleet, issue_authority]
      exact Authority.registrations_visit store _
    | health | catalog | revoked => exact .none (fun _ => taken) rfl rfl
    | servers => exact .listed taken
    | register =>
      rw [whole _ (by decide) (by decide)]
      exact change_register (asks (by decide))
    | deregister segment =>
      rw [whole _ (by simp [Endpoint.method]) (by simp [Endpoint.method])]
      exact change_deregister (asks (by simp [Endpoint.method]))
    | revoke =>
      rw [whole _ (by decide) (by decide)]
      exact change_revoke (asks (by decide))

/-! ## What no call changes -/

/-- No setting differs, and keys are kept in the same way. -/
structure SameSettings (s s' : ControlServer) : Prop where
  config : s'.config = s.config
  store : s'.authority.store = s.authority.store
  authority : s'.authority.config = s.authority.config

theorem SameSettings.refl (s : ControlServer) : s.SameSettings s := ⟨rfl, rfl, rfl⟩

theorem SameSettings.trans {s s' s'' : ControlServer} (first : s.SameSettings s')
    (second : s'.SameSettings s'') : s.SameSettings s'' :=
  ⟨second.config.trans first.config, second.store.trans first.store,
    second.authority.trans first.authority⟩

/-- Who comes to the authority leaves it with its settings. -/
theorem SameSettings.of_visit {s' : ControlServer} {v : Visit} (config : s'.config = s.config)
    (visited : s'.authority = (s.authority.visit v).2) : s.SameSettings s' :=
  ⟨config, visited ▸ s.authority.visit_store v, visited ▸ s.authority.visit_config v⟩

theorem perform_settings (s : ControlServer) (now : Instant) (d : Draws) (request : Request)
    (endpoint : Endpoint) : s.SameSettings (s.perform now d request endpoint).2 := by
  cases endpoint with
  | health | catalog | revoked | servers | revoke => exact ⟨rfl, rfl, rfl⟩
  | keySet =>
    refine .of_visit ?_ (keySet_authority s now d)
    simp only [perform, keySet]
    split <;> rfl
  | token =>
    refine .of_visit ?_ (issue_authority s now d)
    simp only [perform, issue]
    split <;> rfl
  | register =>
    simp only [perform, register]
    split
    · exact .refl s
    · split <;> exact ⟨rfl, rfl, rfl⟩
  | deregister segment =>
    simp only [perform, deregister]
    split
    · exact .refl s
    · split <;> exact ⟨rfl, rfl, rfl⟩

theorem answer_settings (s : ControlServer) (call : Call) : s.SameSettings (s.answer call).2 := by
  simp only [answer, serve]
  split
  · exact .refl s
  · exact s.perform_settings _ _ _ _

theorem after_append (s : ControlServer) (calls later : List Call) :
    s.after (calls ++ later) = (s.after calls).after later :=
  List.foldl_append

theorem after_settings (s : ControlServer) (calls : List Call) :
    s.SameSettings (s.after calls) := by
  induction calls generalizing s with
  | nil => exact .refl s
  | cons call rest ih => exact (s.answer_settings call).trans (ih (s.answer call).2)

end ControlServer

end Tollgate
