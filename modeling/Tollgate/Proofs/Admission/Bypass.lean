import Tollgate.Proofs.Admission.Acceptance
import Tollgate.Proofs.Admission.OwnTokens

/-! # What the gate does with unsigned tokens allowed

A gate may be told to accept tokens that say they are unsigned.  `GateConfig.bypass_confined` states
that this is all it is told.  Two gates that differ in nothing else treat every token alike that
does not say so, and so do their caches and their sources of keys, also when any number of
admissions are under way at the same time.  And a gate that was not told accepts nothing but the
three signing algorithms by their exact names.

The comparison is one of two runs with the same moves.  `AdmissionRun.step_allowing` makes one move
on both sides: the gate is asked whether unsigned tokens are allowed in `GateConfig.present` and
nowhere else, so that only requests that have not been presented matter.
-/

namespace Tollgate

def GateConfig.allowing (g : GateConfig) (unsigned : Bool) : GateConfig :=
  { g with allowUnsigned := unsigned }

namespace GateConfig

/-- No token in the header says that it is unsigned: its algorithm is not `none`, in whatever
    letters. -/
def ShowsAlgorithm (g : GateConfig) (h : Headers) : Prop :=
  ∀ token, g.Carries h token → equalIgnoringCase token.header.algorithm "none" = false

def Signs (algorithm : String) : Prop :=
  algorithm = "RS256" ∨ algorithm = "RS384" ∨ algorithm = "RS512"

variable {g : GateConfig} {h : Headers}

/-! ## One request -/

theorem extract_allowing (unsigned : Bool) : (g.allowing unsigned).extract h = g.extract h := rfl

theorem judge_allowing (unsigned : Bool) :
    (g.allowing unsigned).judge = g.judge := rfl

theorem judgeSigned_allowing (unsigned : Bool) :
    (g.allowing unsigned).judgeSigned = g.judgeSigned := rfl

theorem present_allowing (shown : g.ShowsAlgorithm h) (unsigned : Bool) (now : Instant) :
    (g.allowing unsigned).present h now = g.present h now := by
  cases extracted : g.extract h with
  | error refusal => simp only [present, extract_allowing, extracted]
  | ok raw =>
    cases parsed : UnverifiedToken.parse (Octets.ofString raw) with
    | error fault => simp only [present, extract_allowing, extracted, parsed]
    | ok token =>
      have named : token.header.isUnsigned = false :=
        shown token (carries_iff.mpr ⟨raw, extracted, parsed⟩)
      simp only [present, extract_allowing, extracted, parsed, named, Bool.and_false]

theorem authorize_allowing (shown : g.ShowsAlgorithm h) (unsigned : Bool) (cache : KeyCache)
    (r : RevokedSet) (now : Instant) (answer : KeyAnswer) :
    (g.allowing unsigned).authorize h cache r now answer = g.authorize h cache r now answer := by
  unfold authorize
  rw [present_allowing shown, judge_allowing, judgeSigned_allowing]

theorem signs_of_verify {token : UnverifiedToken} {key : Rsa.PublicKey} {now : Instant}
    {claims : Claims} (verified : token.verify key now = .ok claims) :
    Signs token.header.algorithm := by
  obtain ⟨⟨digest, _, accepted, _⟩, _⟩ := UnverifiedToken.verify_eq_ok_iff.mp verified
  simp only [acceptedAlgorithms, List.mem_cons, Prod.mk.injEq, List.not_mem_nil,
    or_false] at accepted
  obtain ⟨name, _⟩ | ⟨name, _⟩ | ⟨name, _⟩ := accepted
  · exact .inl name
  · exact .inr (.inl name)
  · exact .inr (.inr name)

theorem signs_of_authorize {cache : KeyCache} {r : RevokedSet} {now : Instant} {answer : KeyAnswer}
    {admitted : AuthorizedToken}
    (accepted : ((g.allowing false).authorize h cache r now answer).1 = .ok admitted) :
    ∃ token, g.Carries h token ∧ Signs token.header.algorithm := by
  unfold authorize at accepted
  split at accepted
  · contradiction
  · next token claims presented =>
    -- A gate that was not told to does not present a token as unsigned.
    obtain ⟨_, bypass, _⟩ := present_eq_unsigned_iff.mp presented
    cases bypass
  · next token id presented =>
    obtain ⟨carried, _, _⟩ := present_eq_signed_iff.mp presented
    obtain ⟨key, claims, _, verified, _⟩ := judgeSigned_eq_ok_iff.mp accepted
    exact ⟨token, carried, signs_of_verify verified⟩

end GateConfig

/-! ## Requests under way at the same time -/

namespace AdmissionRun

def allowing (r : AdmissionRun) (unsigned : Bool) : AdmissionRun :=
  { r with gate := r.gate.allowing unsigned }

def ShowAlgorithms (r : AdmissionRun) : Prop :=
  ∀ a ∈ r.admissions, r.gate.ShowsAlgorithm a.headers

variable {r r' : AdmissionRun} {m : AdmissionMove}

/-- Both gates make the same move, and come to the same place. -/
theorem Change.allowing (change : r.Change m r') (shown : r.ShowAlgorithms) (unsigned : Bool) :
    (r.allowing unsigned).Change m (r'.allowing unsigned) := by
  have presented : ∀ {i : Nat} {h : Headers} {now : Instant},
      r.admissions[i]? = some ⟨h, .arrived⟩ →
        (r.gate.allowing unsigned).present h now = r.gate.present h now :=
    fun present => GateConfig.present_allowing (shown _ (List.mem_of_getElem? present)) unsigned _
  cases change with
  | refuse present refused => exact .refuse present ((presented present).trans refused)
  | waive present shown => exact .waive present ((presented present).trans shown)
  | seek present shown => exact .seek present ((presented present).trans shown)
  | lookup moved => exact .lookup moved
  | verify present resolved => exact .verify present resolved
  | check present => exact .check present
  | revoke => exact .revoke

theorem advance_allowing (shown : r.ShowAlgorithms) (unsigned : Bool) (m : AdmissionMove) :
    (r.allowing unsigned).advance m = (r.advance m).allowing unsigned := by
  cases made : r.step m with
  | some r' =>
    have moved := step_of_change ((change_of_step made).allowing shown unsigned)
    simp only [advance, made, moved, Option.getD_some]
  | none =>
    -- A move that only the other gate can make would take this one along.
    cases made' : (r.allowing unsigned).step m with
    | none => simp only [advance, made, made', Option.getD_none]
    | some r' =>
      have back := step_of_change ((change_of_step made').allowing shown r.gate.allowUnsigned)
      cases made.symm.trans back

/-- The requests stay those that arrived. -/
theorem ShowAlgorithms.advance (shown : r.ShowAlgorithms) (m : AdmissionMove) :
    (r.advance m).ShowAlgorithms := by
  obtain change | same := r.change_or_advance_eq m
  · intro a member
    rw [change.gate_eq]
    obtain ⟨i, present⟩ := List.getElem?_of_mem member
    obtain ⟨old, before, _⟩ := change.genuine present
    exact shown ⟨a.headers, old⟩ (List.mem_of_getElem? before)
  · rwa [same]

end AdmissionRun

namespace AdmissionSchedule

def allowing (s : AdmissionSchedule) (unsigned : Bool) : AdmissionSchedule :=
  { s with gate := s.gate.allowing unsigned }

variable {s : AdmissionSchedule}

theorem showAlgorithms (shown : ∀ h ∈ s.requests, s.gate.ShowsAlgorithm h) (n : Nat) :
    (s.moment n).ShowAlgorithms := by
  induction n with
  | zero =>
    intro a member
    obtain ⟨h, among, rfl⟩ := List.mem_map.mp member
    exact shown h among
  | succ n ih =>
    rw [moment_succ]
    exact ih.advance _

theorem moment_allowing (shown : ∀ h ∈ s.requests, s.gate.ShowsAlgorithm h) (unsigned : Bool)
    (n : Nat) : (s.allowing unsigned).moment n = (s.moment n).allowing unsigned := by
  induction n with
  | zero => rfl
  | succ n ih =>
    rw [moment_succ, moment_succ, ih]
    exact AdmissionRun.advance_allowing (showAlgorithms shown n) unsigned _

theorem signs_of_returned {i n : Nat} {admitted : AuthorizedToken}
    (returned : (s.allowing false).Returned i n (.ok admitted)) :
    ∃ h token, s.requests[i]? = some h ∧ s.gate.Carries h token ∧
      GateConfig.Signs token.header.algorithm := by
  obtain ⟨h, requested, _, _, _, _, _, _, _, accepted⟩ := accepted_of_returned returned
  obtain ⟨token, carried, signed⟩ := GateConfig.signs_of_authorize (accepted (.ok []))
  exact ⟨h, token, requested, carried, signed⟩

end AdmissionSchedule

/-! ## The bypass is confined -/

/-- Whether unsigned tokens are accepted makes no difference to a request whose token does not say
    that it is unsigned: not to the verdict, not to the cache, and not to whether keys are fetched;
    nor to any number of such requests under way at the same time.  And where they are not accepted,
    every token that is let through names one of the three signing algorithms, by its exact name. -/
theorem GateConfig.bypass_confined (g : GateConfig) :
    (∀ h, g.ShowsAlgorithm h → ∀ cache r now answer,
      (g.allowing true).authorize h cache r now answer =
        (g.allowing false).authorize h cache r now answer) ∧
    (∀ s : AdmissionSchedule, s.gate = g → (∀ h ∈ s.requests, g.ShowsAlgorithm h) → ∀ n,
      ((s.allowing true).moment n).admissions = ((s.allowing false).moment n).admissions ∧
      ((s.allowing true).moment n).lookups = ((s.allowing false).moment n).lookups ∧
      ((s.allowing true).moment n).revoked = ((s.allowing false).moment n).revoked) ∧
    (∀ h cache r now answer admitted,
      ((g.allowing false).authorize h cache r now answer).1 = .ok admitted →
        ∃ token, g.Carries h token ∧ Signs token.header.algorithm) ∧
    ∀ s : AdmissionSchedule, s.gate = g → ∀ i n admitted,
      (s.allowing false).Returned i n (.ok admitted) →
        ∃ h token, s.requests[i]? = some h ∧ g.Carries h token ∧
          Signs token.header.algorithm := by
  refine ⟨fun h shown cache r now answer => ?_, ?_, fun h cache r now answer admitted accepted =>
    signs_of_authorize accepted, ?_⟩
  · rw [authorize_allowing shown, authorize_allowing shown]
  · rintro s rfl shown n
    rw [s.moment_allowing shown, s.moment_allowing shown]
    exact ⟨rfl, rfl, rfl⟩
  · rintro s rfl i n admitted returned
    exact AdmissionSchedule.signs_of_returned returned

def hmacRequest : Headers :=
  [("proxy-authorization",
    Octets.ofString "Bearer eyJhbGciOiJIUzI1NiIsImtpZCI6ImEifQ.e30.AA")]

theorem showsAlgorithm_hmacRequest : GateConfig.ShowsAlgorithm {} hmacRequest := by
  intro token carried
  obtain ⟨raw, extracted, parsed⟩ := GateConfig.carries_iff.mp carried
  cases extracted
  cases parsed
  rfl

/-- Keys are fetched for it, and it is refused, with unsigned tokens allowed or not. -/
def hmacAlone : AdmissionSchedule where
  gate := {}
  cache := .empty
  revoked := .empty
  requests := [hmacRequest]
  moves n := (AdmissionRun.aloneMoves (.ofSeconds 0)
    (.ok [(⟨"a"⟩, Rsa.sampleKey.toPublic)])).getD n (.check 0)

theorem GateConfig.bypass_confined_hmac :
    (∀ cache r now answer,
      (GateConfig.allowing {} true).authorize hmacRequest cache r now answer =
        (GateConfig.allowing {} false).authorize hmacRequest cache r now answer) ∧
    (hmacAlone.allowing true).Returned 0 5
      (.error (.invalidToken (.rejected (.unsupportedAlgorithm "HS256")))) ∧
    (∀ n, ((hmacAlone.allowing true).moment n).lookups =
      ((hmacAlone.allowing false).moment n).lookups) ∧
    ∃ token : Octets, ∃ admitted cache answer,
      ((GateConfig.allowing {} false).authorize
        [("proxy-authorization", Octets.ofString "Bearer " ++ token)] cache .empty (.ofSeconds 1)
        answer).1 = .ok admitted ∧
      ∃ t, GateConfig.Carries {} [("proxy-authorization", Octets.ofString "Bearer " ++ token)] t ∧
        Signs t.header.algorithm := by
  obtain ⟨alike, alikeTogether, strict, -⟩ := bypass_confined {}
  refine ⟨alike _ showsAlgorithm_hmacRequest, ⟨_, rfl⟩, fun n => ?_, ?_⟩
  · have shown : ∀ h ∈ hmacAlone.requests, GateConfig.ShowsAlgorithm {} h := by
      intro h member
      obtain rfl := List.mem_singleton.mp member
      exact showsAlgorithm_hmacRequest
    exact (alikeTogether hmacAlone rfl shown n).2.1
  · -- A token that was issued and signed passes the gate without the bypass as well.
    obtain ⟨token, occurs⟩ := Showing.occurs_immediate [.connectTcp] Rsa.maySign_sampleKey
      Rsa.genuine_sampleKey.vouches
    have unknown : ∀ capability ∈ [Capability.connectTcp], capability.name ∉ Claims.knownNames := by
      decide
    have passed := occurs.admitted unknown
    rw [Showing.verdict, OwnGate.authorize_eq, occurs.genuine_shown.gate] at passed
    exact ⟨token, _, _, _, passed, strict _ _ _ _ _ _ passed⟩

end Tollgate
