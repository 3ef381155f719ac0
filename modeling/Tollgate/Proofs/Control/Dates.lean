import Tollgate.Proofs.Control.Attempts
import Tollgate.Proofs.Control.RevokedList

/-! # Dates that stay nameable

Settings are checked once, when the server is started, and every request counts its spans from a
later reading of the clock.  Whether a request can break off depends on the settings and on that
reading alone, since no request changes a setting: `Dated` says of both that every span that can be
asked for ends at a date that can be named.

* `interrupted?_eq_none` — then no request breaks off, whatever the server holds;
* `Dated.between` — what holds at two readings holds between them;
* `never_breaks_off_iff` — so the last reading of a run decides, and the check at the start does not.
-/

namespace Tollgate

/-- Every span that a request can ask for ends at a date that can be named: of a token, of a key
    and, if there is somebody whom the guard lets through, of a registration. -/
structure ControlConfig.Dated (c : ControlConfig) (a : AuthorityConfig) (now : Instant) : Prop where
  token : Instant.inRange (now.nanos + c.tokenValidity.nanos) = true
  signing : Instant.inRange (now.nanos + a.keyValidity.nanos) = true
  publishing : Instant.inRange (now.nanos + a.keyLifetime.nanos) = true
  registration : ∀ ttl, c.serverTtl = some ttl →
    (∃ h, AdminGuard.check ⟨c.adminSecret⟩ h = .ok ()) →
    Instant.inRange (now.nanos + ttl.nanos) = true

theorem Instant.add?_isNone_iff {t : Instant} {s : Span} :
    (t.add? s).isNone = true ↔ inRange (t.nanos + s.nanos) ≠ true := by
  unfold add?
  split <;> simp_all

namespace ControlConfig

variable {c : ControlConfig} {a : AuthorityConfig} {now before later : Instant}

/-- The settings that are accepted at some time are dated at that time. -/
theorem dated_of_validate (valid : c.validate a now = .ok ())
    (named : Instant.inRange now.nanos = true) : c.Dated a now := by
  obtain ⟨-, tokens, authority, registrations⟩ := validate_eq_ok_iff.mp valid
  obtain ⟨signs, lingers, -, published⟩ := AuthorityConfig.validate_eq_ok_iff.mp authority
  refine ⟨(validateTokens_eq_ok_iff.mp tokens).2, ?_, published, fun ttl set _ =>
    (validateRegistrations_eq_ok_iff.mp registrations ttl set).2⟩
  simp only [AuthorityConfig.keyLifetime, Span.add, Instant.inRange_iff] at published named ⊢
  omega

theorem Dated.between (first : c.Dated a before) (last : c.Dated a later)
    (since : before.nanos ≤ now.nanos) (until_later : now.nanos ≤ later.nanos) : c.Dated a now := by
  have convex : ∀ span, Instant.inRange (before.nanos + span) = true →
      Instant.inRange (later.nanos + span) = true → Instant.inRange (now.nanos + span) = true := by
    intro span low high
    rw [Instant.inRange_iff] at low high ⊢
    omega
  exact ⟨convex _ first.token last.token, convex _ first.signing last.signing,
    convex _ first.publishing last.publishing, fun ttl set admits =>
      convex _ (first.registration ttl set admits) (last.registration ttl set admits)⟩

end ControlConfig

namespace AuthorityConfig

variable {a : AuthorityConfig} {start now : Instant}

theorem datesKey_eq_true_iff (valid : a.validate start = .ok ()) :
    a.datesKey now = true ↔ Instant.inRange (now.nanos + a.keyValidity.nanos) = true ∧
      Instant.inRange (now.nanos + a.keyLifetime.nanos) = true := by
  obtain ⟨signs, lingers, fits, -⟩ := validate_eq_ok_iff.mp valid
  have sum : a.keyValidity.add? a.gracePeriod = some a.keyLifetime := if_pos fits
  have positive : ¬a.keyLifetime.nanos ≤ 0 := by
    simp only [keyLifetime, Span.add]
    omega
  simp [datesKey, sum, positive, Instant.add?]

end AuthorityConfig

namespace ControlServer

variable {s : ControlServer} {start now : Instant} {d : Draws} {request : Request}

/-! ## Requests that are answered -/

theorem interrupted?_eq_none (valid : s.authority.config.validate start = .ok ())
    (dated : s.config.Dated s.authority.config now) : s.interrupted? now d request = none := by
  have key : s.authority.config.datesKey now = true :=
    (AuthorityConfig.datesKey_eq_true_iff valid).mpr ⟨dated.signing, dated.publishing⟩
  have lacks : s.authority.lacksDates now d.key = false := by simp [Authority.lacksDates, key]
  cases routed : s.route request with
  | error refusal => simp only [interrupted?, routed]
  | ok endpoint =>
    simp only [interrupted?, routed]
    cases endpoint with
    | health | servers | catalog | deregister | revoked | revoke => rfl
    | keySet => simp [breaksOff?, lacks]
    | token =>
      have token : (now.add? s.config.tokenValidity).isNone = false := by
        simp [Instant.add?, dated.token]
      simp only [breaksOff?, lacks, token, Bool.false_eq_true, if_false]
      split <;> rfl
    | register =>
      have admits := (admits_of_route routed rfl (by decide)).2
      have registration : (s.config.serverTtl.any fun ttl => (now.add? ttl).isNone) = false := by
        cases set : s.config.serverTtl with
        | none => rfl
        | some ttl => simp [Instant.add?, dated.registration ttl set ⟨_, admits⟩]
      simp only [breaksOff?, registration, Bool.and_false, Bool.false_eq_true, if_false]
      split <;> rfl

theorem answered_while_dated {last : Instant} (valid : s.authority.config.validate start = .ok ())
    (first : s.config.Dated s.authority.config start)
    (dated : s.config.Dated s.authority.config last) {calls : List Call}
    (within : ∀ call ∈ calls, start.nanos ≤ call.now.nanos ∧ call.now.nanos ≤ last.nanos) :
    none ∉ s.outcomes calls := by
  induction calls generalizing s with
  | nil => exact List.not_mem_nil
  | cons call calls ih =>
    obtain ⟨⟨since, until_last⟩, later⟩ := List.forall_mem_cons.mp within
    have whole : s.interrupted? call.now call.draws call.request = none :=
      interrupted?_eq_none valid (first.between dated since until_last)
    have answered : (s.meet call).1 ≠ none := by simp [meet_of_uninterrupted whole]
    -- No call changes the settings, so that all later ones are under the same.
    have rest : none ∉ (s.meet call).2.outcomes calls := by
      apply ih _ _ _ later
      all_goals simpa only [(s.meet_settings call).config, (s.meet_settings call).authority]
    rw [outcomes, List.mem_cons, not_or]
    exact ⟨answered.symm, rest⟩

/-! ## Requests that break off -/

theorem interrupted?_of_route {endpoint : Endpoint} (routed : s.route request = .ok endpoint) :
    s.interrupted? now d request = s.breaksOff? now d request endpoint := by
  rw [interrupted?, routed]

theorem isSome_breaksOff?_token {key : SigningKey} {authority : Authority FleetStore}
    (made : s.authority.currentKey now d.key = (.ok key, authority)) :
    (s.breaksOff? now d request .token).isSome =
      (s.authority.lacksDates now d.key || (now.add? s.config.tokenValidity).isNone) := by
  simp only [breaksOff?, made]
  cases s.authority.lacksDates now d.key with
  | true => rfl
  | false => cases (now.add? s.config.tokenValidity).isNone <;> rfl

theorem isSome_breaksOff?_register {server : ProxyServer} {ttl : Span}
    (decoded : request.jsonBody ProxyServer.read = .ok server)
    (valid : server.validate.isOk = true) (set : s.config.serverTtl = some ttl) :
    (s.breaksOff? now d request .register).isSome = (now.add? ttl).isNone := by
  simp only [breaksOff?, decoded, valid, set, Option.any_some, Bool.true_and]
  cases (now.add? ttl).isNone <;> rfl

def asking (now : Instant) : Call where
  now := now
  draws := ⟨.ok (⟨"k"⟩, ⟨0, 0, 0, 0, 0⟩), ⟨"1"⟩, ⟨"r"⟩⟩
  request := ⟨"GET", ⟨none, "/api/v1/token"⟩, [], []⟩

def newcomer : ProxyServer where
  proxyUrl := "https://proxy.example"
  city := "Bern"
  country := "CH"
  supportsTcp := true

def enrolling (now : Instant) (h : Headers) : Call where
  now := now
  draws := ⟨.error "no key", ⟨"1"⟩, ⟨"r"⟩⟩
  request := ⟨"POST", ⟨none, "/api/v1/server"⟩,
    ("content-type", Octets.ofString "application/json") :: h,
    Octets.ofString ("\x7b\"proxyUrl\":\"https://proxy.example\",\"city\":\"Bern\"," ++
      "\"country\":\"CH\",\"supportsConnectTcp\":true\x7d")⟩

variable {c : ControlConfig} {a : AuthorityConfig} {h : Headers}

theorem meet_asking (valid : a.validate start = .ok ()) :
    (((ControlServer.start c a).meet (asking now)).1 = none) ↔
      ¬(Instant.inRange (now.nanos + a.keyValidity.nanos) = true ∧
        Instant.inRange (now.nanos + a.keyLifetime.nanos) = true ∧
        Instant.inRange (now.nanos + c.tokenValidity.nanos) = true) := by
  obtain ⟨signs, lingers, -, -⟩ := AuthorityConfig.validate_eq_ok_iff.mp valid
  have routed : (ControlServer.start c a).route (asking now).request = .ok .token := rfl
  have fleet : (ControlServer.start c a).authority.OverFleet a := ⟨rfl, rfl, signs, lingers⟩
  have due : (ControlServer.start c a).authority.current.live? now = none := rfl
  have made := Authority.currentKey_of_due fleet due ⟨"k"⟩ ⟨0, 0, 0, 0, 0⟩
  -- A server that was just started has no key, so that one has to be made.
  have lacks : (ControlServer.start c a).authority.lacksDates (asking now).now
      (asking now).draws.key = !a.datesKey now := rfl
  rw [meet_eq_none_iff, interrupted?_of_route routed, isSome_breaksOff?_token made,
    Bool.or_eq_true, Instant.add?_isNone_iff, lacks, Bool.not_eq_true', ← Bool.not_eq_true,
    AuthorityConfig.datesKey_eq_true_iff valid, ← and_assoc]
  exact Decidable.not_and_iff_not_or_not.symm

theorem jsonBody_enrolling : (enrolling now h).request.jsonBody ProxyServer.read = .ok newcomer := by
  have short : (enrolling now []).request.body.length ≤ bodyLimit := by
    simp only [enrolling]
    decide +kernel
  rw [Request.jsonBody_eq_ok_iff]
  exact ⟨rfl, short, rfl⟩

theorem meet_enrolling {ttl : Span} (admits : AdminGuard.check ⟨c.adminSecret⟩ h = .ok ())
    (set : c.serverTtl = some ttl) (beyond : Instant.inRange (now.nanos + ttl.nanos) ≠ true) :
    ((ControlServer.start c a).meet (enrolling now h)).1 = none := by
  have admitted : (ControlServer.start c a).Admits (enrolling now h).request .register :=
    ⟨⟨rfl, rfl⟩, admits⟩
  have routed := route_of_admits admitted rfl rfl
  have valid : newcomer.validate.isOk = true := by decide +kernel
  rw [meet_eq_none_iff, interrupted?_of_route routed,
    isSome_breaksOff?_register jsonBody_enrolling valid set]
  exact Instant.add?_isNone_iff.mpr beyond

/-- Under settings that were accepted at the start, no request breaks off until some later reading of
    the clock if and only if all spans that can be asked for then end at a date that can be named.
    What was accepted at the start settles this for that time alone. -/
theorem never_breaks_off_iff {last : Instant} (valid : c.validate a start = .ok ())
    (named : Instant.inRange start.nanos = true) (later : start.nanos ≤ last.nanos) :
    (∀ calls : List Call,
      (∀ call ∈ calls, start.nanos ≤ call.now.nanos ∧ call.now.nanos ≤ last.nanos) →
      none ∉ (ControlServer.start c a).outcomes calls) ↔ c.Dated a last := by
  have validKeys : a.validate start = .ok () := (ControlConfig.validate_eq_ok_iff.mp valid).2.2.1
  constructor
  · intro answered
    have single : ∀ call : Call, call.now = last → ((ControlServer.start c a).meet call).1 ≠ none := by
      intro call at_last none
      refine answered [call] ?_ ?_
      · simpa [at_last] using later
      · simp [outcomes, none]
    have token := single (asking last) rfl
    rw [Ne, meet_asking validKeys, Decidable.not_not] at token
    refine ⟨token.2.2, token.1, token.2.1, fun ttl set ⟨h, admits⟩ => ?_⟩
    exact Decidable.byContradiction fun beyond =>
      single (enrolling last h) rfl (meet_enrolling admits set beyond)
  · intro dated calls within
    exact answered_while_dated (s := ControlServer.start c a) validKeys
      (ControlConfig.dated_of_validate valid named) dated within

/-- The default settings at the beginning of 2025, and requests until the year 2100. -/
theorem never_breaks_off_defaults :
    ({} : ControlConfig).validate {} (.ofSeconds 1735689600) = .ok () ∧
      none ∉ (ControlServer.start {} {}).outcomes
        [asking (.ofSeconds 1735689600), asking (.ofSeconds 4102444800)] := by
  have accepted : ({} : ControlConfig).validate {} (.ofSeconds 1735689600) = .ok () := rfl
  have dated : ({} : ControlConfig).Dated {} (.ofSeconds 4102444800) :=
    ControlConfig.dated_of_validate rfl rfl
  refine ⟨accepted, (never_breaks_off_iff accepted rfl (by decide)).mpr dated _ ?_⟩
  simp only [List.forall_mem_cons, asking]
  decide

/-- At the beginning of 2025 tokens that last until the last second that can be named are accepted,
    and a second later the request for one breaks off. -/
theorem breaks_off_next_second :
    let settings : ControlConfig := { tokenValidity := .ofMillis 8208531187199000 }
    settings.validate {} (.ofSeconds 1735689600) = .ok () ∧
      (ControlServer.start settings {}).outcomes [asking (.ofSeconds 1735689601)] = [none] := by
  intro settings
  have accepted : settings.validate {} (.ofSeconds 1735689600) = .ok () := rfl
  have authority := (ControlConfig.validate_eq_ok_iff.mp accepted).2.2.1
  have none : ((ControlServer.start settings {}).meet (asking (.ofSeconds 1735689601))).1 = none :=
    (meet_asking authority).mpr (by decide)
  exact ⟨accepted, by simp [outcomes, none]⟩

end ControlServer

end Tollgate
