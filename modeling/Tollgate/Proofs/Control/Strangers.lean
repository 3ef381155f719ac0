import Tollgate.Proofs.Admission.Guard
import Tollgate.Proofs.Control.Calls
import Tollgate.Proofs.Http.Readable

/-! # What strangers can do at a control server

A stranger is somebody whose request does not show the admin secret.  Outside the public paths the
guard speaks before anything else, so that a stranger is answered by the guard alone: the answer
says which header line is wrong and which method the path takes, and nothing of what the server
holds (`ControlServer.serve_of_stranger`).

From this follow `ControlServer.strangers_learn_nothing`, about two servers with one secret, and
`ControlServer.after_filter`, about a run: without the calls of strangers it ends as with them.
-/

namespace Tollgate

/-! ## Showing the secret -/

/-- The first authorization line of a request reads as the word `Bearer`, a space and a secret. -/
def Headers.ShowSecret (h : Headers) (secret : String) : Prop :=
  (h.first? "authorization").bind readable? = some ("Bearer " ++ secret)

instance (h : Headers) (secret : String) : Decidable (h.ShowSecret secret) :=
  inferInstanceAs (Decidable (_ = _))

theorem AdminGuard.check_eq_ok_iff {secret : String} {h : Headers} :
    AdminGuard.check ⟨some secret⟩ h = .ok () ↔ h.ShowSecret secret := by
  have mark : Octets.ofString ("Bearer " ++ secret) = bearerMark ++ Octets.ofString secret :=
    Octets.ofString_append _ _
  rw [Headers.ShowSecret, Option.bind_eq_some_iff]
  simp only [readable?_eq_some_iff, mark]
  constructor
  · intro admitted
    have first : h.first? "authorization" = some (bearerMark ++ Octets.ofString secret) :=
      bear_of_check admitted
    refine ⟨_, first, rfl, ?_⟩
    simp only [check, first] at admitted
    split at admitted
    next => contradiction
    next readable =>
      simp only [Bool.not_eq_true', Bool.not_eq_false] at readable
      exact List.all_eq_true.mp readable
  · rintro ⟨value, first, rfl, readable⟩
    have all : (bearerMark ++ Octets.ofString secret).all isReadableOctet = true :=
      List.all_eq_true.mpr readable
    have marked : bearerMark.isPrefixOf (bearerMark ++ Octets.ofString secret) = true :=
      List.isPrefixOf_iff_prefix.mpr (List.prefix_append _ _)
    simp only [check, first, all, marked, Bool.not_true, Bool.false_eq_true, if_false,
      List.drop_left, if_true]

/-! ## Public paths -/

namespace Endpoint

def publicPaths : List String :=
  ["/.well-known/jwks.json", "/api/v1/health", "/api/v1/token", "/api/v1/servers",
    "/api/openapi.json"]

theorem path_mem_publicPaths {endpoint : Endpoint} (isPublic : endpoint.isPublic = true) :
    endpoint.path ∈ publicPaths := by
  cases endpoint with
  | keySet | health | token | servers | catalog => simp [publicPaths, path]
  | register | deregister | revoked | revoke => contradiction

end Endpoint

/-! ## The answer to a stranger -/

def GuardFault.answer (fault : GuardFault) (request : Request) : Response :=
  match Endpoint.ofPath? request.target.path with
  | none => fault.response
  | some endpoint =>
    if takesMethod endpoint.method request.method then fault.response
    else fault.response.withHeader "allow" (allowedMethods endpoint.method)

namespace ControlServer

variable {s s' : ControlServer} {secret : String} {request : Request}

theorem route_of_fault {fault : GuardFault}
    (hidden : request.target.path ∉ Endpoint.publicPaths)
    (refused : s.guard.check request.headers = .error fault) :
    s.route request = .error (fault.answer request) := by
  cases served : Endpoint.ofPath? request.target.path with
  | none => simp only [route, GuardFault.answer, served, refused]
  | some endpoint =>
    have guarded : endpoint.isPublic = false := by
      apply Bool.eq_false_iff.mpr
      intro isPublic
      exact hidden (Endpoint.path_of_ofPath? served ▸ Endpoint.path_mem_publicPaths isPublic)
    simp only [route, GuardFault.answer, served, guarded, AdminGuard.protect, refused,
      Bool.false_eq_true, if_false]

theorem serve_of_stranger (kept : s.config.adminSecret = some secret)
    (stranger : ¬request.headers.ShowSecret secret)
    (hidden : request.target.path ∉ Endpoint.publicPaths) :
    ∃ fault, AdminGuard.check ⟨some secret⟩ request.headers = .error fault ∧
      ∀ now d, s.serve now d request = ((fault.answer request).sentTo request, s) := by
  cases checked : AdminGuard.check ⟨some secret⟩ request.headers with
  | ok => exact absurd (AdminGuard.check_eq_ok_iff.mp checked) stranger
  | error fault =>
    have refused : s.guard.check request.headers = .error fault := by
      rw [guard, kept, checked]
    refine ⟨fault, rfl, fun now d => ?_⟩
    rw [serve, route_of_fault hidden refused]

/-- Outside the public paths a stranger gets the same answer from any two servers with the same
    admin secret, whatever they hold, whenever they are asked and whatever chance supplies, and
    leaves both as they are. -/
theorem strangers_learn_nothing (kept : s.config.adminSecret = some secret)
    (kept' : s'.config.adminSecret = some secret) (stranger : ¬request.headers.ShowSecret secret)
    (hidden : request.target.path ∉ Endpoint.publicPaths) (now now' : Instant) (d d' : Draws) :
    (s.serve now d request).1 = (s'.serve now' d' request).1 ∧
      (s.serve now d request).2 = s ∧ (s'.serve now' d' request).2 = s' := by
  obtain ⟨fault, refused, served⟩ := serve_of_stranger kept stranger hidden
  obtain ⟨fault', refused', served'⟩ := serve_of_stranger kept' stranger hidden
  obtain rfl : fault = fault' := Except.error.inj (refused.symm.trans refused')
  rw [served now d, served' now' d']
  exact ⟨rfl, rfl, rfl⟩

def locked (ids : List TokenId) : ControlServer :=
  { start { adminSecret := some "open sesame" } {} with revoked := (RevokedSet.empty.extend ids).2 }

/-- The list of revoked tokens is kept from somebody who misspells the secret. -/
theorem strangers_learn_nothing_locked :
    let request : Request := ⟨"GET", ⟨none, "/api/v1/revoked"⟩,
      [("authorization", Octets.ofString "Bearer open Sesame")], []⟩
    let d : Draws := ⟨.error "no key", ⟨"1"⟩, ⟨"r"⟩⟩
    (locked []).revokedList ≠ (locked [⟨"7"⟩]).revokedList ∧
      ((locked []).serve (.ofSeconds 0) d request).1 =
        ((locked [⟨"7"⟩]).serve (.ofSeconds 1) d request).1 ∧
      ((locked []).serve (.ofSeconds 0) d request).1.status = 401 := by
  intro request d
  refine ⟨by decide, ?_, by decide⟩
  exact (strangers_learn_nothing rfl rfl (by decide) (by decide) _ _ d d).1

/-! ## Runs -/

def Call.IsStray (secret : String) (call : Call) : Prop :=
  ¬call.request.headers.ShowSecret secret ∧ call.request.target.path ∉ Endpoint.publicPaths

instance (secret : String) (call : Call) : Decidable (call.IsStray secret) :=
  inferInstanceAs (Decidable (_ ∧ _))

/-- Strangers leave no trace: what a server holds in the end is what the calls of the others have
    made of it. -/
theorem after_filter (kept : s.config.adminSecret = some secret) (calls : List Call) :
    s.after calls = s.after (calls.filter fun call => ¬call.IsStray secret) := by
  induction calls generalizing s with
  | nil => rfl
  | cons call rest ih =>
    have kept' : (s.answer call).2.config.adminSecret = some secret := by
      rw [(s.answer_settings call).config, kept]
    by_cases stray : call.IsStray secret
    · obtain ⟨fault, -, served⟩ := serve_of_stranger kept stray.1 stray.2
      have unmoved : (s.answer call).2 = s := by rw [answer, served]
      rw [List.filter_cons_of_neg (by simpa using stray), ← ih kept, after, List.foldl_cons,
        unmoved, after]
    · rw [List.filter_cons_of_pos (by simpa using stray)]
      exact ih kept'

end ControlServer

end Tollgate
