import Tollgate.Proofs.Admission.Revocation
import Tollgate.Proofs.Control.Calls

/-! # The list of revoked tokens on its way

Whatever the revocation route takes for an identifier, the reader of the list at the other end takes
as well: it is not empty (`RevokeRequest.named_of_document`), and that is all that is asked of a
string.  So a control server, however many requests it has answered, lists exactly what was revoked
there, and the list can be read (`ControlServer.readRevoked_answer`).
-/

namespace Tollgate

/-! ## What the route takes for an identifier -/

namespace RevokeRequest

theorem named_of_readTokenId {n : Nat} {s rest : Octets} {id : TokenId}
    (read : readTokenId n s = .ok (some id, rest)) : id.text ≠ "" := by
  obtain ⟨value, -, named⟩ := Json.into_eq_ok_iff.mp read
  exact ne_empty_of_judgeIdentifier (tokenIdOf?_eq_some_iff.mp named.symm)

theorem named_of_document {body : Octets} {id : TokenId}
    (decoded : Json.document RevokeRequest.read body = .ok ⟨some id⟩) : id.text ≠ "" := by
  obtain ⟨rest, read, -⟩ := Json.document_eq_ok_iff.mp decoded
  obtain ⟨t, u, object | list⟩ := Json.of_readRecord read
  · obtain ⟨last, found, same⟩ := Json.into_eq_ok_iff.mp object
    -- Whatever was seen so far, an identifier among it is not empty.
    have named : ∀ id, last.join = some id → id.text ≠ "" := by
      refine Json.members_keep (P := fun seen => ∀ id, seen.join = some id → id.text ≠ "")
        (fun state name s state' rest before member => ?_) found (by simp)
      unfold readMember at member
      split at member
      · obtain ⟨-, value⟩ := Json.unlessSeen_eq_ok_iff.mp member
        obtain ⟨x, found, rfl⟩ := Json.into_eq_ok_iff.mp value
        rintro id rfl
        exact named_of_readTokenId found
      · rwa [Json.eq_of_ignore member]
    exact named id (by simpa using same.symm)
  · obtain ⟨x, found, same⟩ := Json.into_eq_ok_iff.mp list
    obtain rfl : some id = x := by simpa using same
    unfold Json.nextFieldOr at found
    split at found
    · contradiction
    · cases found
    · exact named_of_readTokenId found

end RevokeRequest

/-! ## What is revoked -/

namespace ControlServer

def Admits (s : ControlServer) (request : Request) (endpoint : Endpoint) : Prop :=
  request.Asks endpoint ∧ s.guard.check request.headers = .ok ()

def Registers (s : ControlServer) (call : Call) (id : TokenId) : Prop :=
  s.Admits call.request .revoke ∧ call.request.jsonBody RevokeRequest.read = .ok ⟨some id⟩

variable {s : ControlServer} {request : Request} {endpoint : Endpoint} {call : Call} {id : TokenId}

theorem route_of_admits (admitted : s.Admits request endpoint)
    (served : Endpoint.ofPath? endpoint.path = some endpoint) (guarded : endpoint.isPublic = false) :
    s.route request = .ok endpoint := by
  obtain ⟨⟨method, path⟩, checked⟩ := admitted
  have passed : s.guard.protect endpoint.method request = .ok () := by
    simp [AdminGuard.protect, checked, takesMethod, method]
  simp only [route, path, served, guarded, Bool.false_eq_true, if_false, passed]

theorem admits_of_route (routed : s.route request = .ok endpoint)
    (guarded : endpoint.isPublic = false) (changes : endpoint.method ≠ "GET") :
    s.Admits request endpoint := by
  obtain ⟨served, taken⟩ := endpoint_of_route routed
  refine ⟨⟨eq_of_takesMethod taken changes, Endpoint.path_of_ofPath? served⟩, ?_⟩
  simp only [route, served, guarded, Bool.false_eq_true, if_false] at routed
  split at routed
  · next passed =>
    unfold AdminGuard.protect at passed
    split at passed
    · next checked => exact checked
    · contradiction
  · contradiction

theorem perform_revoked (other : endpoint ≠ .revoke) (now : Instant) (d : Draws) :
    (s.perform now d request endpoint).2.revoked = s.revoked := by
  cases endpoint with
  | health | catalog | revoked | servers => rfl
  | keySet => exact s.keySet_revoked now d
  | token => exact s.issue_revoked now d
  | register =>
    simp only [perform, register]
    split
    · rfl
    · split <;> rfl
  | deregister segment =>
    simp only [perform, deregister]
    split
    · rfl
    · split <;> rfl
  | revoke => exact absurd rfl other

/-- An answer revokes what the call registers, and nothing else. -/
theorem mem_revoked_answer :
    id ∈ (s.answer call).2.revoked.ids ↔ s.Registers call id ∨ id ∈ s.revoked.ids := by
  by_cases routed : s.route call.request = .ok .revoke
  · have admitted : s.Admits call.request .revoke := admits_of_route routed rfl (by decide)
    simp only [answer, serve, routed, perform, Tollgate.revoke, Registers, admitted, true_and]
    split
    · next fault failed => simp [failed]
    · next none => simp [none]
    · next id' named => simp [named, RevokedSet.mem_revoke, eq_comm]
  · have same : (s.answer call).2.revoked = s.revoked := by
      simp only [answer, serve]
      split
      · rfl
      · next endpoint found =>
        exact perform_revoked (fun revoke => routed (revoke ▸ found)) _ _
    have unregistered : ¬s.Registers call id :=
      fun registers => routed (route_of_admits registers.1 rfl rfl)
    simp [same, unregistered]

/-- Whom the guard admits does not depend on what was asked before. -/
theorem admits_iff_of_settings {s' : ControlServer} (same : s.SameSettings s') :
    s'.Admits request endpoint ↔ s.Admits request endpoint := by
  rw [Admits, Admits, guard, guard, same.config]

theorem registers_answer_iff {other : Call} :
    (s.answer other).2.Registers call id ↔ s.Registers call id := by
  simp only [Registers, Admits, guard, (s.answer_settings other).config]

theorem mem_revoked_after {calls : List Call} :
    id ∈ (s.after calls).revoked.ids ↔
      (∃ call ∈ calls, s.Registers call id) ∨ id ∈ s.revoked.ids := by
  induction calls generalizing s with
  | nil => simp [after]
  | cons call calls ih =>
    have first : (s.after (call :: calls)) = ((s.answer call).2.after calls) := rfl
    simp only [first, ih, registers_answer_iff, mem_revoked_answer, List.mem_cons,
      exists_eq_or_imp]
    rw [or_left_comm, or_assoc]

theorem mem_revoked_after_start {config : ControlConfig} {authority : AuthorityConfig}
    {calls : List Call} :
    id ∈ ((start config authority).after calls).revoked.ids ↔
      ∃ call ∈ calls, (start config authority).Registers call id := by
  rw [mem_revoked_after]
  exact or_iff_left List.not_mem_nil

theorem named_of_registers (registers : s.Registers call id) : id.text ≠ "" :=
  RevokeRequest.named_of_document (Request.jsonBody_eq_ok_iff.mp registers.2).2.2

/-! ## The list -/

/-- A list of identifiers is read as it was written. -/
theorem readRevoked_listing {ids : List TokenId} (named : ∀ id ∈ ids, id.text ≠ "") :
    readRevoked (.ok ⟨200, listing "revoked" (ids.map TokenId.render)⟩) = .ok ids := by
  have items : Json.Reads (fun n => Json.readList (TokenId.read n) n)
      (Json.renderItems (ids.map TokenId.render)) ids :=
    Json.reads_renderItems (fun id member => TokenId.reads_render (named id member))
      fun id _ => ⟨34, _, rfl, rfl, by decide⟩
  exact readDone_eq_ok_iff.mpr ⟨rfl, (reads_onlyMember items).document⟩

theorem answer_of_admits_revoked (admitted : s.Admits call.request .revoked) :
    s.answer call = (s.revokedList, s) :=
  answer_of_route (route_of_admits admitted rfl rfl) admitted.1.1

/-- A control server lists what it has revoked, if all of that has names. -/
theorem readRevoked_answer (named : ∀ id ∈ s.revoked.ids, id.text ≠ "")
    (admitted : s.Admits call.request .revoked) :
    readRevoked (s.answer call).1.delivered = .ok s.revoked.ids := by
  rw [answer_of_admits_revoked admitted]
  exact readRevoked_listing named

end ControlServer

end Tollgate
