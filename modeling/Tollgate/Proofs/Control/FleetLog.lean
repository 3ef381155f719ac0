import Tollgate.Proofs.Control.Attempts
import Tollgate.Proofs.Fleet.Log

/-! # What a control server asks of its store

Some requests ask something of the fleet store: a listing, an addition, a removal.  Who is answered
does not depend on what was asked before, so that it can be said beforehand what a request asks for
(`ControlServer.fleetEvent?`), and requests that come one after the other have a log
(`ControlServer.fleetLog`).  The store of a control server is a digest of that log
(`ControlServer.digests_after`): keys are kept in the same place, but nothing else is done to
registrations.  Where calls break off, it is a digest of the calls that were completed
(`ControlServer.digests_left`).
-/

namespace Tollgate

namespace ControlServer

variable {s : ControlServer} {call : Call}

def fleetCall? (s : ControlServer) (call : Call) : Option FleetCall :=
  match s.route call.request with
  | .ok .servers => some .list
  | .ok .register =>
    match call.request.jsonBody ProxyServer.read with
    | .ok server =>
      match server.validate with
      | .ok () => some (.add ⟨server, call.draws.removal⟩ s.config.serverTtl)
      | .error _ => none
    | .error _ => none
  | .ok (.deregister segment) =>
    (Octets.toText? (percentDecode (Octets.ofString segment))).map fun token => .remove ⟨token⟩
  | _ => none

def fleetEvent? (s : ControlServer) (call : Call) : Option FleetEvent :=
  (s.fleetCall? call).map (⟨call.now, ·⟩)

def fleetLog (s : ControlServer) (calls : List Call) : FleetLog := calls.filterMap s.fleetEvent?

theorem fleetLog_append (s : ControlServer) (calls later : List Call) :
    s.fleetLog (calls ++ later) = s.fleetLog calls ++ s.fleetLog later :=
  List.filterMap_append

/-! ## The server and its store -/

theorem registrations_answer (store : s.authority.store = FleetStore.keyStore) (call : Call) :
    (s.answer call).2.fleet.registrations =
      (s.fleet.replay (s.fleetEvent? call).toList).registrations := by
  simp only [answer, serve, fleetEvent?, fleetCall?]
  cases routed : s.route call.request with
  | error refusal => rfl
  | ok endpoint =>
    cases endpoint with
    | health | catalog | revoked | revoke | servers => rfl
    | keySet =>
      simp only [perform, fleet, keySet_authority]
      exact Authority.registrations_visit store _
    | token =>
      simp only [perform, fleet, issue_authority]
      exact Authority.registrations_visit store _
    | register =>
      simp only [perform, register]
      cases decoded : call.request.jsonBody ProxyServer.read with
      | error fault => rfl
      | ok server => cases valid : server.validate <;> simp only [valid] <;> rfl
    | deregister segment =>
      simp only [perform, deregister]
      cases decoded : Octets.toText? (percentDecode (Octets.ofString segment)) with
      | none => rfl
      | some token =>
        -- A token that is not known leaves the store alone, whatever the response is.
        have removed : s.fleet.replay [⟨call.now, .remove ⟨token⟩⟩] =
            (s.fleet.removeServer ⟨token⟩).2 := rfl
        simp only [Option.map_some, Option.toList_some, removed]
        cases found : s.fleet.owner? ⟨token⟩ with
        | none => simp only [FleetStore.removeServer, found]
        | some url =>
          simp only [FleetStore.removeServer, found]
          rfl

theorem fleetEvent?_of_settings {s' : ControlServer} (same : s.SameSettings s') :
    s'.fleetEvent? = s.fleetEvent? := by
  funext other
  simp only [fleetEvent?, fleetCall?, route, guard, same.config]

end ControlServer

theorem FleetStore.Digests.congr {f f' : FleetStore} {log : FleetLog} (digests : f.Digests log)
    (same : f'.registrations = f.registrations) : f'.Digests log where
  tidy := digests.tidy.of_sublist (same ▸ .refl _)
  mem_iff := by
    rw [same]
    exact digests.mem_iff

namespace ControlServer

variable {s : ControlServer} {log : FleetLog}

theorem fleetLog_singleton (s : ControlServer) (call : Call) :
    s.fleetLog [call] = (s.fleetEvent? call).toList := by
  rw [fleetLog]
  cases event : s.fleetEvent? call <;> simp [event]

theorem digests_answer (store : s.authority.store = FleetStore.keyStore)
    (digests : s.fleet.Digests log) (call : Call)
    (distinct : (FleetLog.tokens (log ++ s.fleetLog [call])).Nodup) :
    (s.answer call).2.fleet.Digests (log ++ s.fleetLog [call]) := by
  refine (digests.replay distinct).congr ?_
  rw [fleetLog_singleton]
  exact registrations_answer store call

/-- A store that was a digest of a log is one after calls as well, of the log with what they ask of
    the store. -/
theorem digests_after {calls : List Call} (store : s.authority.store = FleetStore.keyStore)
    (digests : s.fleet.Digests log) (distinct : (FleetLog.tokens (log ++ s.fleetLog calls)).Nodup) :
    (s.after calls).fleet.Digests (log ++ s.fleetLog calls) := by
  induction calls generalizing s log with
  | nil =>
    rw [fleetLog, List.filterMap_nil, List.append_nil]
    exact digests
  | cons call rest ih =>
    have split : s.fleetLog (call :: rest) =
        s.fleetLog [call] ++ (s.answer call).2.fleetLog rest := by
      rw [fleetLog, fleetLog, fleetLog, fleetEvent?_of_settings (s.answer_settings call),
        ← List.filterMap_append]
      rfl
    rw [split, ← List.append_assoc] at distinct ⊢
    have first := FleetLog.nodup_tokens_of_sublist distinct (List.sublist_append_left _ _)
    exact ih ((s.answer_settings call).store.trans store) (digests_answer store digests call first)
      distinct

/-! ## Calls that break off -/

theorem breaksOff_of_fleetEvent? {call : Call} {e : FleetEvent}
    (event : s.fleetEvent? call = some e) :
    e.breaksOff = (s.interrupted? call.now call.draws call.request).isSome := by
  simp only [fleetEvent?, fleetCall?] at event
  cases routed : s.route call.request with
  | error refusal => simp [routed] at event
  | ok endpoint =>
    simp only [interrupted?, routed]
    cases endpoint with
    | health | catalog | revoked | revoke | keySet | token => simp [routed] at event
    | servers =>
      simp only [routed, Option.map_some, Option.some.injEq] at event
      subst event
      rfl
    | deregister segment =>
      simp only [routed, Option.map_map, Option.map_eq_some_iff] at event
      obtain ⟨token, -, rfl⟩ := event
      rfl
    -- Only a registration is both in the log and bound to a date.
    | register =>
      cases decoded : call.request.jsonBody ProxyServer.read with
      | error fault => simp [routed, decoded] at event
      | ok server =>
        cases valid : server.validate with
        | error fault => simp [routed, decoded, valid] at event
        | ok =>
          simp only [routed, decoded, valid, Option.map_some, Option.some.injEq] at event
          subst event
          simp only [breaksOff?, decoded, valid, FleetEvent.breaksOff]
          cases s.config.serverTtl.any fun ttl => (call.now.add? ttl).isNone <;> rfl

theorem registrations_meet (store : s.authority.store = FleetStore.keyStore) (call : Call) :
    (s.meet call).2.fleet.registrations =
      (s.fleet.replay (s.fleetLog [call]).completed).registrations := by
  have breaks : ∀ e ∈ s.fleetEvent? call,
      e.breaksOff = (s.interrupted? call.now call.draws call.request).isSome :=
    fun e event => breaksOff_of_fleetEvent? event
  rw [fleetLog_singleton]
  cases broken : s.interrupted? call.now call.draws call.request with
  | none =>
    rw [meet_of_uninterrupted broken, registrations_answer store call]
    cases event : s.fleetEvent? call with
    | none => rfl
    | some e => simp [FleetLog.completed, breaks e event, broken]
  | some s' =>
    have unanswered : (s.meet call).1 = none := by rw [meet_of_interrupted broken]
    rw [(meet_of_broken store unanswered).2]
    cases event : s.fleetEvent? call with
    | none => rfl
    | some e => simp [FleetLog.completed, breaks e event, broken, FleetStore.replay]

/-- With calls among them that break off, the log has those that are completed. -/
theorem digests_left {calls : List Call} (store : s.authority.store = FleetStore.keyStore)
    (digests : s.fleet.Digests log)
    (distinct : (FleetLog.tokens (log ++ (s.fleetLog calls).completed)).Nodup) :
    (s.left calls).fleet.Digests (log ++ (s.fleetLog calls).completed) := by
  induction calls generalizing s log with
  | nil =>
    rw [fleetLog, List.filterMap_nil, FleetLog.completed, List.filter_nil, List.append_nil]
    exact digests
  | cons call rest ih =>
    have settings := s.meet_settings call
    have split : (s.fleetLog (call :: rest)).completed =
        (s.fleetLog [call]).completed ++ ((s.meet call).2.fleetLog rest).completed := by
      rw [fleetLog, fleetLog, fleetLog, fleetEvent?_of_settings settings, FleetLog.completed,
        FleetLog.completed, FleetLog.completed, ← List.filter_append, ← List.filterMap_append]
      rfl
    rw [split, ← List.append_assoc] at distinct ⊢
    have first := FleetLog.nodup_tokens_of_sublist distinct (List.sublist_append_left _ _)
    exact ih (settings.store.trans store)
      ((digests.replay first).congr (registrations_meet store call)) distinct

end ControlServer

end Tollgate
