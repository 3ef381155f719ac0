import Tollgate.Admission.Revocation

/-! # What the admin guard keeps out

Behind a guard with a secret nothing is revoked by a request that does not carry exactly that
secret: `serveAdmin_of_stranger` for one request, `foldl_serveAdmin_filter` for all that come to
the route one after the other, among requests that do carry it.
-/

namespace Tollgate

/-- The first authorization line of a request is the mark followed by a secret. -/
def Headers.Bear (h : Headers) (secret : String) : Prop :=
  h.first? "authorization" = some (bearerMark ++ Octets.ofString secret)

instance (h : Headers) (secret : String) : Decidable (h.Bear secret) :=
  inferInstanceAs (Decidable (_ = _))

namespace AdminGuard

theorem bear_of_check {secret : String} {h : Headers}
    (admitted : AdminGuard.check ⟨some secret⟩ h = .ok ()) : h.Bear secret := by
  unfold AdminGuard.check at admitted
  cases first : h.first? "authorization" with
  | none => simp [first] at admitted
  | some value =>
    simp only [first] at admitted
    split at admitted
    · contradiction
    · split at admitted
      · contradiction
      · next marked =>
        split at admitted
        · next same =>
          have marked : bearerMark <+: value := by simpa using marked
          obtain ⟨rest, rfl⟩ := marked
          rw [List.drop_left] at same
          rw [Headers.Bear, first, same]
        · contradiction

/-- The guard lets nobody without the secret through, whatever the method. -/
theorem protect_ne_ok {secret served : String} {request : Request}
    (stranger : ¬request.headers.Bear secret) :
    AdminGuard.protect ⟨some secret⟩ served request ≠ .ok () := by
  intro admitted
  unfold AdminGuard.protect at admitted
  split at admitted
  · next checked => exact stranger (bear_of_check checked)
  · contradiction

end AdminGuard

theorem serveAdmin_of_stranger {secret : String} {request : Request}
    (stranger : ¬request.headers.Bear secret) (r : RevokedSet) :
    (serveAdmin ⟨some secret⟩ r request).2 = r := by
  unfold serveAdmin answerAdmin
  split
  · next answer r' answered =>
    split at answered
    · split at answered
      · next admitted => exact absurd admitted (AdminGuard.protect_ne_ok stranger)
      · cases answered
        rfl
    · cases answered
      rfl

/-- Requests of strangers leave no trace: what is revoked in the end is what the others revoked. -/
theorem foldl_serveAdmin_filter (secret : String) (requests : List Request) (r : RevokedSet) :
    requests.foldl (fun r request => (serveAdmin ⟨some secret⟩ r request).2) r =
      (requests.filter fun request => request.headers.Bear secret).foldl
        (fun r request => (serveAdmin ⟨some secret⟩ r request).2) r := by
  induction requests generalizing r with
  | nil => rfl
  | cons request rest ih =>
    by_cases bears : request.headers.Bear secret
    · simp only [List.foldl_cons, bears, decide_true, List.filter_cons_of_pos, ih]
    · simp only [List.foldl_cons, bears, decide_false, Bool.false_eq_true, not_false_eq_true,
        List.filter_cons_of_neg, serveAdmin_of_stranger bears, ih]

end Tollgate
