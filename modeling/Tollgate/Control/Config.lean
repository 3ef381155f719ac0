import Tollgate.Key.Authority

/-! # Settings of the control server

* `ControlConfig` — what a control server is told, beside the settings of its authority;
* `ControlConfig.validate` — the first setting that makes no sense: every span has to be
  positive (the grace period may be zero) and has to end at a date that can be named.
-/

namespace Tollgate

structure ControlConfig where
  /-- The secret of operators; without one the admin routes are open. -/
  adminSecret : Option String := none
  tokenValidity : Span := .ofHours 1
  tokenCapabilities : List Capability := [.connectTcp]
  /-- How long a registration lasts unless it is renewed; without a span it lasts for ever. -/
  serverTtl : Option Span := none
  deriving DecidableEq, Repr, Inhabited

/-- A span that has to end at a date that can be named. -/
inductive Lifetime where
  | token
  | key
  | registration
  deriving DecidableEq, Repr

def Lifetime.describe : Lifetime → String
  | .token => "token validity"
  | .key => "key validity plus grace period"
  | .registration => "server TTL"

/-- Which setting of a control server makes no sense. -/
inductive ControlFault where
  | emptyAdminSecret
  | tokenValidity
  | keyValidity
  | gracePeriod
  | serverTtl
  | outOfRange (lifetime : Lifetime)
  deriving DecidableEq, Repr

def ControlFault.message : ControlFault → String
  | .emptyAdminSecret => "Admin secret must not be empty"
  | .tokenValidity => "Token validity must be positive"
  | .keyValidity => "Signing key validity must be positive"
  | .gracePeriod => "Key grace period must not be negative"
  | .serverTtl => "Server registration TTL must be positive"
  | .outOfRange lifetime => lifetime.describe ++ " is out of range"

/-- A span from now on ends at a date that can be named. -/
def checkReach (now : Instant) (lifetime : Lifetime) (span : Span) : Except ControlFault Unit :=
  match now.add? span with
  | some _ => .ok ()
  | none => .error (.outOfRange lifetime)

namespace AuthorityConfig

/-- The settings of the authority make sense. -/
def validate (a : AuthorityConfig) (now : Instant) : Except ControlFault Unit :=
  if a.keyValidity.nanos ≤ 0 then .error .keyValidity
  else if a.gracePeriod.nanos < 0 then .error .gracePeriod
  else
    match a.keyValidity.add? a.gracePeriod with
    | none => .error (.outOfRange .key)
    | some lifetime => checkReach now .key lifetime

end AuthorityConfig

namespace ControlConfig

def validateTokens (c : ControlConfig) (now : Instant) : Except ControlFault Unit :=
  if c.tokenValidity.nanos ≤ 0 then .error .tokenValidity
  else checkReach now .token c.tokenValidity

def validateRegistrations (c : ControlConfig) (now : Instant) : Except ControlFault Unit :=
  match c.serverTtl with
  | none => .ok ()
  | some ttl =>
    if ttl.nanos ≤ 0 then .error .serverTtl else checkReach now .registration ttl

/-- The first setting that makes no sense, of the control server and of its authority. -/
def validate (c : ControlConfig) (a : AuthorityConfig) (now : Instant) :
    Except ControlFault Unit :=
  if c.adminSecret = some "" then .error .emptyAdminSecret
  else do
    c.validateTokens now
    a.validate now
    c.validateRegistrations now

end ControlConfig

/-! ## Which settings make sense -/

theorem checkReach_eq_ok_iff {now : Instant} {lifetime : Lifetime} {span : Span} :
    checkReach now lifetime span = .ok () ↔ Instant.inRange (now.nanos + span.nanos) = true := by
  unfold checkReach Instant.add?
  split <;> simp_all

theorem AuthorityConfig.validate_eq_ok_iff {a : AuthorityConfig} {now : Instant} :
    a.validate now = .ok () ↔
      0 < a.keyValidity.nanos ∧ 0 ≤ a.gracePeriod.nanos ∧
        Span.inRange (a.keyValidity.nanos + a.gracePeriod.nanos) = true ∧
        Instant.inRange (now.nanos + a.keyLifetime.nanos) = true := by
  unfold AuthorityConfig.validate
  split
  · next nonpositive => simp [Int.not_lt.mpr nonpositive]
  · next positive =>
    split
    · next negative => simp [Int.not_le.mpr negative]
    · next nonnegative =>
      rw [Int.not_le] at positive
      rw [Int.not_lt] at nonnegative
      unfold Span.add?
      by_cases fits : Span.inRange (a.keyValidity.nanos + a.gracePeriod.nanos) = true
      · simp [fits, positive, nonnegative, checkReach_eq_ok_iff, AuthorityConfig.keyLifetime]
      · simp [fits]

namespace ControlConfig

theorem validateTokens_eq_ok_iff {c : ControlConfig} {now : Instant} :
    c.validateTokens now = .ok () ↔
      0 < c.tokenValidity.nanos ∧ Instant.inRange (now.nanos + c.tokenValidity.nanos) = true := by
  unfold validateTokens
  split
  · next nonpositive => simp [Int.not_lt.mpr nonpositive]
  · next positive => simp [Int.not_le.mp positive, checkReach_eq_ok_iff]

theorem validateRegistrations_eq_ok_iff {c : ControlConfig} {now : Instant} :
    c.validateRegistrations now = .ok () ↔
      ∀ ttl, c.serverTtl = some ttl →
        0 < ttl.nanos ∧ Instant.inRange (now.nanos + ttl.nanos) = true := by
  unfold validateRegistrations
  cases c.serverTtl with
  | none => simp
  | some ttl =>
    by_cases nonpositive : ttl.nanos ≤ 0
    · simp [nonpositive, Int.not_lt.mpr nonpositive]
    · simp [nonpositive, Int.not_le.mp nonpositive, checkReach_eq_ok_iff]

theorem validate_eq_ok_iff {c : ControlConfig} {a : AuthorityConfig} {now : Instant} :
    c.validate a now = .ok () ↔
      c.adminSecret ≠ some "" ∧ c.validateTokens now = .ok () ∧ a.validate now = .ok () ∧
        c.validateRegistrations now = .ok () := by
  unfold validate
  by_cases empty : c.adminSecret = some ""
  · simp [empty]
  · simp only [empty, if_false, ne_eq, not_false_eq_true, true_and]
    cases c.validateTokens now with
    | error fault => simp [bind, Except.bind]
    | ok =>
      cases a.validate now with
      | error fault => simp [bind, Except.bind]
      | ok => simp [bind, Except.bind]

/-- Settings that make sense at some time made sense before: what ends at a date that can be named
    would have ended earlier. -/
theorem validate_earlier {c : ControlConfig} {a : AuthorityConfig} {now earlier : Instant}
    (valid : c.validate a now = .ok ()) (order : earlier.nanos ≤ now.nanos)
    (named : Instant.inRange earlier.nanos = true) : c.validate a earlier = .ok () := by
  have reach : ∀ span : Int, 0 ≤ span → Instant.inRange (now.nanos + span) = true →
      Instant.inRange (earlier.nanos + span) = true := by
    intro span nonnegative reached
    rw [Instant.inRange_iff] at named reached ⊢
    omega
  obtain ⟨secret, tokens, authority, registrations⟩ := validate_eq_ok_iff.mp valid
  rw [validateTokens_eq_ok_iff] at tokens
  rw [AuthorityConfig.validate_eq_ok_iff] at authority
  rw [validateRegistrations_eq_ok_iff] at registrations
  refine validate_eq_ok_iff.mpr ⟨secret, ?_, ?_, ?_⟩
  · exact validateTokens_eq_ok_iff.mpr ⟨tokens.1, reach _ (by omega) tokens.2⟩
  · refine AuthorityConfig.validate_eq_ok_iff.mpr ⟨authority.1, authority.2.1, authority.2.2.1, ?_⟩
    refine reach _ ?_ authority.2.2.2
    simp only [AuthorityConfig.keyLifetime, Span.add]
    omega
  · exact validateRegistrations_eq_ok_iff.mpr fun ttl set =>
      ⟨(registrations ttl set).1, reach _ (by have := (registrations ttl set).1; omega)
        (registrations ttl set).2⟩

end ControlConfig

end Tollgate
