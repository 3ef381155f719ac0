import Tollgate.Token.Compact

/-! # What a verified token has shown

Each of the functions that judge a token is characterised by what has to hold for it to answer
claims:

* `UnverifiedToken.unexpiredClaims_eq_ok_iff` — the payload decodes, and its end is still to come;
* `UnverifiedToken.verify_eq_ok_iff` — besides, an accepted algorithm and a right signature;
* `UnverifiedToken.unsignedClaims_eq_ok_iff` — besides, the word of the header that there is none;
* `Claims.grants_iff` — which values of a claim grant a capability.
-/

namespace Tollgate

/-! ## Algorithms -/

def acceptedAlgorithms : List (String × Rsa.Digest) :=
  [("RS256", .sha256), ("RS384", .sha384), ("RS512", .sha512)]

theorem acceptedAlgorithm?_eq_some_iff {name : String} {digest : Rsa.Digest} :
    acceptedAlgorithm? name = some digest ↔ (name, digest) ∈ acceptedAlgorithms := by
  simp only [acceptedAlgorithms, List.mem_cons, Prod.mk.injEq, List.not_mem_nil, or_false]
  constructor
  · intro accepted
    unfold acceptedAlgorithm? at accepted
    split at accepted <;> simp_all
  · rintro (⟨rfl, rfl⟩ | ⟨rfl, rfl⟩ | ⟨rfl, rfl⟩) <;> rfl

/-- A header that names an accepted algorithm does not say that the token is unsigned. -/
theorem TokenHeader.isUnsigned_eq_false {header : TokenHeader} {digest : Rsa.Digest}
    (accepted : (header.algorithm, digest) ∈ acceptedAlgorithms) : header.isUnsigned = false := by
  simp only [acceptedAlgorithms, List.mem_cons, Prod.mk.injEq, List.not_mem_nil,
    or_false] at accepted
  unfold TokenHeader.isUnsigned
  rcases accepted with ⟨name, -⟩ | ⟨name, -⟩ | ⟨name, -⟩ <;> rw [name] <;> decide

/-! ## Claims -/

namespace UnverifiedToken

theorem claims_eq_ok_iff {t : UnverifiedToken} {claims : Claims} :
    t.claims = .ok claims ↔ Claims.decode t.payload = .ok claims := by
  unfold UnverifiedToken.claims
  split <;> simp_all

theorem unexpiredClaims_eq_ok_iff {t : UnverifiedToken} {now : Instant} {claims : Claims} :
    t.unexpiredClaims now = .ok claims ↔
      Claims.decode t.payload = .ok claims ∧ now.seconds < claims.expires := by
  rw [← claims_eq_ok_iff]
  unfold unexpiredClaims
  cases read : t.claims with
  | error fault => simp
  | ok c =>
    by_cases expired : c.isExpired now = true
    · have ended : c.expires ≤ now.seconds := by simpa [Claims.isExpired] using expired
      simp only [expired, if_true, reduceCtorEq, Except.ok.injEq, false_iff, not_and]
      rintro rfl
      omega
    · have lasting : now.seconds < c.expires := by simpa [Claims.isExpired] using expired
      simp only [expired, Bool.false_eq_true, if_false, Except.ok.injEq]
      constructor
      · rintro rfl
        exact ⟨rfl, lasting⟩
      · exact fun same => same.1

/-- A signature was checked under the key, over the first two segments, with the digest of the
    algorithm that the header names. -/
def SignedUnder (t : UnverifiedToken) (key : Rsa.PublicKey) : Prop :=
  ∃ digest signature, (t.header.algorithm, digest) ∈ acceptedAlgorithms ∧
    Base64.decode .urlSafe .absent t.signature = .ok signature ∧
    key.accepts digest t.signingInput signature = true

theorem verify_eq_ok_iff {t : UnverifiedToken} {key : Rsa.PublicKey} {now : Instant}
    {claims : Claims} :
    t.verify key now = .ok claims ↔ t.SignedUnder key ∧ t.unexpiredClaims now = .ok claims := by
  unfold verify SignedUnder
  simp only [← acceptedAlgorithm?_eq_some_iff]
  cases algorithm : acceptedAlgorithm? t.header.algorithm with
  | none => simp
  | some digest =>
    cases decoded : Base64.decode .urlSafe .absent t.signature with
    | error fault => simp
    | ok signature =>
      by_cases accepted : key.accepts digest t.signingInput signature = true
      · simp [accepted]
      · simp [accepted]

/-- A right signature does not help claims that cannot be decoded. -/
theorem verify_of_undecodable {t : UnverifiedToken} {key : Rsa.PublicKey} {fault : Json.Fault}
    (signed : t.SignedUnder key) (undecodable : Claims.decode t.payload = .error fault)
    (now : Instant) :
    t.verify key now = .error (.invalidClaims fault) := by
  obtain ⟨digest, signature, algorithm, decoded, accepted⟩ := signed
  rw [← acceptedAlgorithm?_eq_some_iff] at algorithm
  simp only [verify, algorithm, decoded, accepted, if_true, unexpiredClaims, claims, undecodable]

theorem unsignedClaims_eq_ok_iff {t : UnverifiedToken} {now : Instant} {claims : Claims} :
    t.unsignedClaims now = .ok claims ↔
      t.header.isUnsigned = true ∧ t.unexpiredClaims now = .ok claims := by
  unfold unsignedClaims
  by_cases unsigned : t.header.isUnsigned = true <;> simp [unsigned]

end UnverifiedToken

/-! ## Capabilities -/

/-- The claims hold a capability: under its name stands `true`, or the text `true`. -/
def Claims.Holds (c : Claims) (capability : Capability) : Prop :=
  Sorted.find? capability.name c.extra = some (.bool true) ∨
    Sorted.find? capability.name c.extra = some (.text "true")

theorem Claims.grants_iff {c : Claims} {capability : Capability} :
    c.grants capability = true ↔ c.Holds capability := by
  unfold Claims.grants Claims.Holds
  split
  · next flag found => simp [found]
  · next text found => simp [found]
  · next notFlag notText =>
    simp only [Bool.false_eq_true, false_iff, not_or]
    exact ⟨notFlag true, notText "true"⟩

end Tollgate
