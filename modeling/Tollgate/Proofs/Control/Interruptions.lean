import Tollgate.Proofs.Control.Stay

/-! # A stay among calls that break off

A proxy registers with a control server and takes that back, and any of the calls before, in between
and besides may break off.  Its own registration may break off as well, if its end is no date that
can be named, and then nothing was done.  The removal never does.

The stores are digests of the calls that were completed, so that the servers of such a stay are again
those of a `Stay.Course`: `Stay.Occurs.course_left`.
-/

namespace Tollgate

theorem ControlServer.meet_of_admits_deregister {s : ControlServer} {call : Call} {segment : String}
    (admitted : s.Admits call.request (.deregister segment))
    (served : Endpoint.ofPath? (Endpoint.deregister segment).path = some (.deregister segment)) :
    s.meet call = (some (s.answer call).1, (s.answer call).2) := by
  apply meet_of_uninterrupted
  simp only [interrupted?, route_of_admits admitted served rfl, breaksOff?]

namespace Stay

def foundLeft (stay : Stay) : ControlServer := stay.control.left stay.earlier

def laterLeft (stay : Stay) (between : List ControlServer.Call) : ControlServer :=
  (stay.foundLeft.meet stay.registering).2.left between

/-- The registration was completed, and no completed call replaced it, used its token, or found it
    ended. -/
structure CurrentLeft (stay : Stay) (between : List ControlServer.Call) : Prop where
  completed : stay.enrolment.event.breaksOff = false
  kept : ∀ e ∈ (stay.control.fleetLog between).completed,
    ¬e.Ends stay.enrolment ∧ ¬e.Drops stay.enrolment
  distinct : (FleetLog.tokens
    (stay.control.fleetLog (stay.earlier ++ stay.registering :: between)).completed).Nodup

/-- What `Reversible` says, of calls that may break off. -/
structure ReversibleLeft (stay : Stay) : Prop where
  registered : stay.enrolment.event.breaksOff = false →
    ∃ response, (stay.foundLeft.meet stay.registering).1 = some response ∧
      readRemovalToken response.delivered = .ok stay.token
  brokenOff : stay.enrolment.event.breaksOff = true →
    stay.foundLeft.meet stay.registering = (none, stay.foundLeft)
  told : ∀ (s : ControlServer) (call : ControlServer.Call), call.request.Asks .servers →
    (s.meet call).1 = some (Response.json 200
      (ControlServer.listing "servers" ((s.shown call.now).map ProxyServer.render)))
  listed : ∀ between, stay.CurrentLeft between → ∀ now, stay.enrolment.LivesAt now →
    ((stay.laterLeft between).shown now).filter (·.proxyUrl = stay.config.server.proxyUrl) =
      [stay.config.server]
  ended : ∀ between, stay.CurrentLeft between → ∀ now, ¬stay.enrolment.LivesAt now →
    ((stay.laterLeft between).shown now).filter (·.proxyUrl = stay.config.server.proxyUrl) = []
  removed : ∀ between leaving, stay.CurrentLeft between → stay.Leaves leaving →
    ∃ response, ((stay.laterLeft between).meet leaving).1 = some response ∧
      readRemoved response.delivered = .ok ()
  undone : ∀ between leaving, stay.CurrentLeft between → stay.Leaves leaving → ∀ now,
    ((stay.laterLeft between).meet leaving).2.shown now =
      ((stay.foundLeft.left between).shown now).filter
        (·.proxyUrl ≠ stay.config.server.proxyUrl)
  restored : ∀ between leaving, stay.CurrentLeft between → stay.Leaves leaving → ∀ now,
    (∀ e ∈ (stay.control.fleetLog between).completed,
      e.call = .list ∧ e.now.nanos ≤ now.nanos) →
    stay.registering.now.nanos ≤ now.nanos →
    (∀ server ∈ stay.foundLeft.shown stay.registering.now,
      server.proxyUrl ≠ stay.config.server.proxyUrl → server ∈ stay.foundLeft.shown now) →
    ((stay.laterLeft between).meet leaving).2.shown now =
      (stay.foundLeft.shown stay.registering.now).filter
        (·.proxyUrl ≠ stay.config.server.proxyUrl)

variable {stay : Stay} {between : List ControlServer.Call} {leaving : ControlServer.Call}

/-- Calls that break off can only help a registration to stay. -/
theorem Current.left (current : stay.Current between)
    (completed : stay.enrolment.event.breaksOff = false) : stay.CurrentLeft between where
  completed := completed
  kept e member := current.kept e (List.mem_filter.mp member).1
  distinct := FleetLog.nodup_tokens_of_sublist current.distinct List.filter_sublist

theorem settings_foundLeft (stay : Stay) : stay.control.SameSettings stay.foundLeft :=
  stay.control.left_settings stay.earlier

theorem laterLeft_eq (stay : Stay) (between : List ControlServer.Call) :
    stay.laterLeft between = stay.control.left (stay.earlier ++ stay.registering :: between) := by
  rw [ControlServer.left_append]
  rfl

theorem Course.meet_leaving {found without later : ControlServer} {before after : FleetLog}
    (course : stay.Course found without later before after) (random : stay.draw.length = 32)
    (leaves : stay.Leaves leaving) :
    later.meet leaving = (some (later.answer leaving).1, (later.answer leaving).2) :=
  ControlServer.meet_of_admits_deregister (course.admits_leaving leaves)
    (RemovalToken.travels_ofDraw (List.ne_nil_of_length_eq_add_one random)).endpoint

namespace Occurs

theorem digests_left (occurs : stay.Occurs) {calls : List ControlServer.Call}
    (distinct : (FleetLog.tokens (stay.control.fleetLog calls).completed).Nodup) :
    (stay.control.left calls).fleet.Digests (stay.control.fleetLog calls).completed := by
  rw [← List.nil_append (stay.control.fleetLog calls).completed] at distinct ⊢
  exact ControlServer.digests_left occurs.store (FleetStore.digests_nil occurs.empty) distinct

section Checked

variable (occurs : stay.Occurs)
  (checked : stay.control.guard.check stay.registering.request.headers = .ok ())
include occurs checked

theorem completed_fleetLog_eq (completed : stay.enrolment.event.breaksOff = false)
    (between : List ControlServer.Call) :
    (stay.control.fleetLog (stay.earlier ++ stay.registering :: between)).completed =
      (stay.control.fleetLog stay.earlier).completed ++
        stay.enrolment.event :: (stay.control.fleetLog between).completed := by
  rw [fleetLog_eq occurs checked, FleetLog.completed_append]
  congr 1
  exact List.filter_cons_of_pos (by rw [completed]; rfl)

theorem course_left (current : stay.CurrentLeft between) :
    stay.Course stay.foundLeft (stay.foundLeft.left between) (stay.laterLeft between)
      (stay.control.fleetLog stay.earlier).completed (stay.control.fleetLog between).completed := by
  have log := completed_fleetLog_eq occurs checked current.completed between
  refine .of_distinct (log ▸ current.distinct) ?settings occurs.digests_left ?without ?later
    current.kept
  case settings =>
    rw [laterLeft_eq]
    exact stay.control.left_settings _
  case without =>
    rw [foundLeft, ← ControlServer.left_append, ← FleetLog.completed_append,
      ← ControlServer.fleetLog_append]
    exact occurs.digests_left
  case later =>
    rw [← log, laterLeft_eq]
    exact occurs.digests_left current.distinct

/-- The registration is answered or breaks off with its enrolment, wherever it is made. -/
theorem isSome_interrupted?_registering :
    (stay.foundLeft.interrupted? stay.registering.now stay.registering.draws
      stay.registering.request).isSome = stay.enrolment.event.breaksOff := by
  refine (ControlServer.breaksOff_of_fleetEvent? ?_).symm
  rw [ControlServer.fleetEvent?_of_settings stay.settings_foundLeft]
  exact fleetEvent?_registering occurs checked

theorem reversible_left_of_checked : stay.ReversibleLeft where
  registered := by
    intro completed
    have whole := isSome_interrupted?_registering occurs checked
    rw [completed, Option.isSome_eq_false_iff, Option.isNone_iff_eq_none] at whole
    refine ⟨_, congrArg Prod.fst (ControlServer.meet_of_uninterrupted whole), ?_⟩
    rw [answer_registering occurs checked stay.settings_foundLeft]
    exact readRemovalToken_given stay.token
  brokenOff := by
    intro breaks
    have broken := isSome_interrupted?_registering occurs checked
    rw [breaks, Option.isSome_iff_exists] at broken
    obtain ⟨left, broken⟩ := broken
    -- Only a request for a token leaves more behind, and this one registers a server.
    obtain rfl | ⟨token, -⟩ := ControlServer.eq_of_interrupted broken
    · exact ControlServer.meet_of_interrupted broken
    · have routed := ControlServer.route_of_admits
        (admits occurs checked stay.settings_foundLeft) rfl rfl
      rw [routed] at token
      contradiction
  told := by
    intro s call asks
    rw [ControlServer.meet_of_asks_servers asks]
    rfl
  listed := fun between current now lives => (course_left occurs checked current).listed lives
  ended := fun between current now lapsed => (course_left occurs checked current).ended lapsed
  removed := by
    intro between leaving current leaves
    have course := course_left occurs checked current
    rw [course.meet_leaving occurs.random leaves, course.answer_leaving occurs.random leaves]
    exact ⟨_, rfl, rfl⟩
  undone := by
    intro between leaving current leaves now
    have course := course_left occurs checked current
    rw [course.meet_leaving occurs.random leaves]
    exact course.undone occurs.random leaves now
  restored := by
    intro between leaving current leaves now listings order lasting
    have course := course_left occurs checked current
    rw [course.meet_leaving occurs.random leaves]
    exact course.restored occurs.random leaves listings order lasting

end Checked

/-- What `reversible` says of calls that are answered holds with calls among them that break off:
    the control server does not find fault with the record, and if the proxy is admitted, then
    registering and taking that back undo each other. -/
theorem reversible_left (occurs : stay.Occurs) :
    (∀ response, (stay.foundLeft.meet stay.registering).1 = some response →
      response.status ≠ 400) ∧
      (stay.control.guard.check stay.registering.request.headers = .ok () →
        stay.ReversibleLeft) := by
  refine ⟨fun response answered => ?_, reversible_left_of_checked occurs⟩
  rw [ControlServer.meet_of_answered answered] at answered
  obtain rfl := Option.some.inj answered
  exact occurs.status_registering stay.settings_foundLeft

end Occurs

end Stay

end Tollgate
