import Tollgate.Proofs.Admission.Guard
import Tollgate.Proxy.Node

/-! # When the admin route of a proxy is closed to strangers

`ProxyNode.AdminClosed` says of a proxy that it has an admin secret that is not empty, that this
secret guards its admin route, and that nobody revokes anything there without it.  A proxy outside
insecure mode that is to open the route is closed in this sense whenever its settings were checked
to the end (`ProxyConfig.hasSecret_of_validateAdmin`).

A proxy that gets its keys from elsewhere needs no control server, so that its constructor
overlooks that one fault.  But the check of the settings ends at the first fault, and with this one
it ends before the admin route was looked at: `ProxyNode.adminClosed_iff` states for which settings
such a proxy is closed all the same, and `ProxyNode.adminRoute_open_standalone` exhibits one that
is not.
-/

namespace Tollgate

def ProxyConfig.HasSecret (c : ProxyConfig) : Prop :=
  ∃ secret, c.adminSecret = some secret ∧ secret ≠ ""

namespace ProxyNode

/-- A secret keeps strangers out of the admin route of a proxy. -/
structure AdminClosedBy (p : ProxyNode) (secret : String) : Prop where
  configured : p.config.adminSecret = some secret
  nonempty : secret ≠ ""
  /-- Whenever the route is opened in the life of the proxy, the secret guards it. -/
  guarded : ∀ world address guard,
    .listenAdmin address guard ∈ (p.run world).steps → guard = ⟨some secret⟩
  /-- Whatever became of the proxy since, a request without the secret revokes nothing. -/
  unmoved : ∀ q : ProxyNode, q.config = p.config →
    ∀ request, ¬request.headers.Bear secret → (q.serveAdmin request).2 = q

def AdminClosed (p : ProxyNode) : Prop := ∃ secret, p.AdminClosedBy secret

end ProxyNode

/-! ## The check of the settings -/

namespace ProxyConfig

theorem hasSecret_of_validateAdmin {c : ProxyConfig} (addressed : c.adminAddress.isSome = true)
    (secure : c.insecure = false) (accepted : c.validateAdmin = .ok ()) : c.HasSecret := by
  unfold validateAdmin at accepted
  split at accepted
  · next unaddressed => simp [unaddressed] at addressed
  · next secret _ given =>
    split at accepted
    · contradiction
    · next nonempty => exact ⟨secret, given, by simpa using nonempty⟩
  · simp [secure] at accepted

theorem validate_eq_ok_iff {c : ProxyConfig} :
    c.validate = .ok () ↔ c.validateControl = .ok () ∧ c.validateAdmin = .ok () := by
  unfold validate
  cases c.validateControl with
  | error fault => simp [bind, Except.bind]
  | ok _ => simp [bind, Except.bind]

theorem validateUrl_ne_noKeySource (insecure : Bool) (link : ControlLink) :
    validateUrl insecure link ≠ .error .noKeySource := by
  unfold validateUrl
  grind

theorem validateServer_ne_noKeySource (s : ProxyServer) :
    validateServer s ≠ .error .noKeySource := by
  unfold validateServer
  grind

theorem validateAdmin_ne_noKeySource (c : ProxyConfig) :
    c.validateAdmin ≠ .error .noKeySource := by
  unfold validateAdmin
  grind

theorem validateControl_eq_noKeySource_iff {c : ProxyConfig} :
    c.validateControl = .error .noKeySource ↔ c.control = none ∧ c.allowUnsigned = false := by
  unfold validateControl
  cases c.control with
  | none => cases c.allowUnsigned <;> simp
  | some link =>
    have urlNamed := validateUrl_ne_noKeySource c.insecure link
    have serverNamed := validateServer_ne_noKeySource c.server
    simp only [bind, Except.bind, reduceCtorEq, false_and, iff_false]
    split
    · next fault url => rwa [url] at urlNamed
    · split
      · simp
      · split
        · simp
        · exact serverNamed

/-- The want of a key source is found before anything else is looked at. -/
theorem validate_eq_noKeySource_iff {c : ProxyConfig} :
    c.validate = .error .noKeySource ↔ c.control = none ∧ c.allowUnsigned = false := by
  rw [← validateControl_eq_noKeySource_iff]
  unfold validate
  cases c.validateControl with
  | error fault => simp [bind, Except.bind]
  | ok _ => simpa [bind, Except.bind] using validateAdmin_ne_noKeySource c

end ProxyConfig

/-! ## The constructors -/

namespace ProxyNode

theorem ofConfig_eq_ok_iff {c : ProxyConfig} {p : ProxyNode} :
    ofConfig c = .ok p ↔ c.validate = .ok () ∧ p = { config := c } := by
  unfold ofConfig
  cases c.validate with
  | error fault => simp
  | ok _ => simp [eq_comm]

theorem withKeySource_eq_ok_iff {c : ProxyConfig} {p : ProxyNode} :
    withKeySource c = .ok p ↔
      (c.validate = .ok () ∨ c.validate = .error .noKeySource) ∧ p = { config := c } := by
  unfold withKeySource
  cases c.validate with
  | error fault => cases fault <;> simp [eq_comm]
  | ok _ => simp [eq_comm]

/-- A proxy opens its admin route with the guard that its settings name, or not at all. -/
theorem guard_of_listenAdmin {p : ProxyNode} {world : ServiceSurroundings}
    {address : SocketAddress} {guard : AdminGuard}
    (opens : .listenAdmin address guard ∈ (p.run world).steps) : guard = p.config.adminGuard := by
  -- Neither the registration nor the end of the service opens the route.
  have announced : .listenAdmin address guard ∉ (p.announce world).2 := by
    unfold announce
    cases p.config.control with
    | none => simp
    | some link => cases readRemovalToken world.registration <;> simp
  have opened : .listenAdmin address guard ∈ (p.openAdmin world).2 → guard = p.config.adminGuard := by
    unfold openAdmin
    cases p.config.adminAddress with
    | none => simp
    | some a => simp
  unfold run at opens
  cases admin : (p.openAdmin world).1 with
  | error fault =>
    simp only [admin, List.mem_append, announced, false_or] at opens
    exact opened opens
  | ok _ =>
    simp only [admin, List.mem_append, announced, false_or] at opens
    obtain (opens | opens) | opens := opens
    · exact opened opens
    · simp at opens
    · simp at opens

/-- The settings alone decide whether the admin route is closed: with a secret it is. -/
theorem adminClosed_of_hasSecret {p : ProxyNode} (named : p.config.HasSecret) : p.AdminClosed := by
  obtain ⟨secret, configured, nonempty⟩ := named
  refine ⟨secret, configured, nonempty, ?guarded, ?unmoved⟩
  case guarded =>
    intro world address guard opens
    rw [guard_of_listenAdmin opens, ProxyConfig.adminGuard, configured]
  case unmoved =>
    intro q same request stranger
    have kept := serveAdmin_of_stranger stranger q.revoked
    unfold serveAdmin ProxyConfig.adminGuard
    simp only [same, configured, kept]
    rw [← same]

theorem hasSecret_of_adminClosed {p : ProxyNode} (closed : p.AdminClosed) : p.config.HasSecret := by
  obtain ⟨secret, closed⟩ := closed
  exact ⟨secret, closed.configured, closed.nonempty⟩

/-- Outside insecure mode the admin route of a proxy that gets its keys from the control server is
    always closed.  That of a proxy that gets them from elsewhere is closed exactly if the want of
    a key source did not end the check of its settings early, or the secret is there anyway. -/
theorem adminClosed_iff (c : ProxyConfig) (addressed : c.adminAddress.isSome = true)
    (secure : c.insecure = false) :
    (∀ p, ofConfig c = .ok p → p.AdminClosed) ∧
      ((∀ p, withKeySource c = .ok p → p.AdminClosed) ↔
        c.control.isSome = true ∨ c.allowUnsigned = true ∨ c.HasSecret) := by
  have checked : c.validate = .ok () → c.HasSecret := by
    intro valid
    obtain ⟨_, admin⟩ := ProxyConfig.validate_eq_ok_iff.mp valid
    exact ProxyConfig.hasSecret_of_validateAdmin addressed secure admin
  refine ⟨?_, ?_, ?_⟩
  · intro p made
    obtain ⟨valid, rfl⟩ := ofConfig_eq_ok_iff.mp made
    exact adminClosed_of_hasSecret (checked valid)
  · -- Where the want of a key source was overlooked the proxy was made whatever its secret is.
    intro closed
    by_cases want : c.control = none ∧ c.allowUnsigned = false
    · have overlooked := ProxyConfig.validate_eq_noKeySource_iff.mpr want
      have made := withKeySource_eq_ok_iff.mpr ⟨.inr overlooked, rfl⟩
      exact .inr (.inr (hasSecret_of_adminClosed (closed _ made)))
    · cases control : c.control with
      | none => exact .inr (.inl (by simpa [control] using want))
      | some link => exact .inl rfl
  · intro sourced p made
    obtain ⟨valid | overlooked, rfl⟩ := withKeySource_eq_ok_iff.mp made
    · exact adminClosed_of_hasSecret (checked valid)
    · -- Only the third possibility is left where the want of a key source was overlooked.
      obtain ⟨alone, unsigned⟩ := ProxyConfig.validate_eq_noKeySource_iff.mp overlooked
      obtain link | signed | named := sourced
      · simp [alone] at link
      · simp [unsigned] at signed
      · exact adminClosed_of_hasSecret named

def standalone : ProxyConfig :=
  { adminAddress := some { host := .v4 [127, 0, 0, 1], port := 9090 } }

/-- With a secret in its settings the proxy that stands alone is closed. -/
theorem adminClosed_standalone :
    ∃ p, withKeySource { standalone with adminSecret := some "s" } = .ok p ∧ p.AdminClosed := by
  have closed := (adminClosed_iff { standalone with adminSecret := some "s" } rfl rfl).2.mpr
    (.inr (.inr ⟨"s", rfl, by decide⟩))
  exact ⟨_, rfl, closed _ rfl⟩

def anonymousRevocation : Request :=
  { method := "POST"
    target := { authority := none, path := "/revoke" }
    headers := [("content-type", Octets.ofString "application/json")]
    body := Octets.ofString "\x7b\"jti\":\"a\"\x7d" }

/-- Without one it is made all the same, outside insecure mode, and everyone can revoke. -/
theorem adminRoute_open_standalone :
    standalone.adminAddress.isSome = true ∧ standalone.insecure = false ∧
      ∃ p, withKeySource standalone = .ok p ∧ p.config.adminSecret = none ∧
        p.config.adminGuard.isInsecure = true ∧
        anonymousRevocation.headers.first? "authorization" = none ∧
        p.revoked.isRevoked ⟨"a"⟩ = false ∧
        (p.serveAdmin anonymousRevocation).2.revoked.isRevoked ⟨"a"⟩ = true := by
  refine ⟨rfl, rfl, { config := standalone }, rfl, rfl, rfl, rfl, rfl, ?_⟩
  decide +kernel

end ProxyNode

end Tollgate
