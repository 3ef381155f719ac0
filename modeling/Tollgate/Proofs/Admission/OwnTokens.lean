import Tollgate.Proofs.Key.Provenance
import Tollgate.Proofs.Rsa
import Tollgate.Proofs.Token.Issued

/-! # Tokens at the gate of their own authority

An authority issues a token, and a gate that gets its keys from that authority is shown it, while
others come to both in between.  `Showing.Occurs.authorized_iff` says when the gate lets the token
through with all its capabilities: if and only if none of them has the name of a member that claims
know.  Settings are not checked for that, and a capability with such a name makes every token
useless, as its payload cannot be decoded (`Showing.Occurs.refused`).

What carries the proof is `OwnGate.Genuine`: the keys in the cache of the gate come from records, and
these were in the store at first or are those of keys that the authority made.  As no identifier is
drawn twice, the identifier in a token leads to the key that signed it.
-/

namespace Tollgate

/-- Claims of a new token are complete, once its key is named. -/
theorem AuthorityConfig.full_newClaims {c : AuthorityConfig} {now : Instant} {id : TokenId}
    {validity : Span} {capabilities : List Capability} {key : KeyId} (idNamed : id.text ≠ "")
    (keyNamed : key.text ≠ "") (dated : Instant.inRange (now.nanos + validity.nanos) = true) :
    ((c.newClaims now id validity capabilities).withKeyId key).Full c.issuer id key := by
  have bounds := Instant.seconds_bounds (t := now.add validity) dated
  have plain : (Claims.mint c.issuer validity now id).extra = [] := rfl
  have expires : ((c.newClaims now id validity capabilities).withKeyId key).expires =
      (now.add validity).seconds := by
    rw [Claims.withKeyId, newClaims, Claims.withCapabilities_expires, Claims.mint]
  refine ⟨?_, ?_, rfl, idNamed, keyNamed, expires ▸ bounds.1, expires ▸ bounds.2,
    Claims.increasing_withCapabilities plain, fun entry member => ?_⟩
  · rw [Claims.withKeyId, newClaims, Claims.withCapabilities_eq, Claims.mint]
  · rw [Claims.withKeyId, newClaims, Claims.withCapabilities_eq, Claims.mint]
  · obtain ⟨capability, -, rfl⟩ := (Claims.mem_withCapabilities plain).mp member
    rfl

/-! ## A gate and its authority -/

structure OwnGate (σ : Type) where
  gate : GateConfig
  authority : Authority σ
  cache : KeyCache := .empty
  revoked : RevokedSet := .empty

namespace OwnGate

inductive Event where
  | visited (v : Visit)
  /-- A request is presented to the gate; a key is made if keys are fetched and one is due. -/
  | presented (now : Instant) (headers : Headers) (fresh : NewKey)
  | revoked (id : TokenId)

variable {σ : Type}

def start (gate : GateConfig) (config : AuthorityConfig) (store : KeyStore σ) (stored : σ) :
    OwnGate σ :=
  { gate, authority := { config, store, stored } }

/-- The verdict on a request, with the gate and its authority after it. -/
def authorize (s : OwnGate σ) (now : Instant) (headers : Headers) (fresh : NewKey) :
    Except Refusal AuthorizedToken × OwnGate σ :=
  let (answer, asked) := s.authority.publicKeys now fresh
  let (verdict, cache, fetched) := s.gate.authorize headers s.cache s.revoked now answer
  (verdict, { s with cache, authority := if fetched then asked else s.authority })

def step (s : OwnGate σ) : Event → OwnGate σ
  | .visited v => { s with authority := (s.authority.visit v).2 }
  | .presented now headers fresh => (s.authorize now headers fresh).2
  | .revoked id => { s with revoked := (s.revoked.revoke id).2 }

def draws (s : OwnGate σ) : Event → List (KeyId × Rsa.PrivateKey)
  | .visited v => s.authority.makes v.now v.fresh
  | .presented now headers fresh =>
    let answer := (s.authority.publicKeys now fresh).1
    if (s.gate.authorize headers s.cache s.revoked now answer).2.2 then
      s.authority.makes now fresh
    else []
  | .revoked _ => []

def run (s : OwnGate σ) (events : List Event) : OwnGate σ := events.foldl step s

def drawn (s : OwnGate σ) : List Event → List (KeyId × Rsa.PrivateKey)
  | [] => []
  | e :: rest => s.draws e ++ (s.step e).drawn rest

theorem drawn_append (s : OwnGate σ) (events later : List Event) :
    s.drawn (events ++ later) = s.drawn events ++ (s.run events).drawn later := by
  induction events generalizing s with
  | nil => rfl
  | cons e rest ih =>
    rw [List.cons_append, drawn, ih, drawn, List.append_assoc]
    rfl

end OwnGate

/-- A request changes the cache only by the keys that are fetched for it. -/
theorem GateConfig.authorize_cache (g : GateConfig) (h : Headers) (cache : KeyCache)
    (r : RevokedSet) (now : Instant) (answer : KeyAnswer) :
    (g.authorize h cache r now answer).2.1 = cache ∨
      (g.authorize h cache r now answer).2.2 = true ∧
        ∃ keys, answer = .ok keys ∧ (g.authorize h cache r now answer).2.1 = cache.replace keys := by
  unfold authorize
  cases g.present h now with
  | error refusal => exact .inl rfl
  | ok shown =>
    cases shown with
    | unsigned token claims => exact .inl rfl
    | signed token key =>
      simp only [KeyCache.resolve_eq]
      cases Sorted.find? key cache.value with
      | some k => exact .inl rfl
      | none =>
        cases answer with
        | error fault => exact .inl rfl
        | ok keys => exact .inr ⟨rfl, keys, rfl, LookupRun.settle_ok_cache cache key keys⟩

namespace OwnGate

variable {σ : Type} {holds : σ → PublishedKey → Prop} {old : PublishedKey → Prop}
  {made : List (KeyId × Rsa.PrivateKey)} {g : GateConfig} {c : AuthorityConfig} {s : OwnGate σ}

/-- Keys by identifier that come from records: from old ones, and from those of keys that were
    made. -/
def Sourced (old : PublishedKey → Prop) (made : List (KeyId × Rsa.PrivateKey)) (keys : KeyMap) :
    Prop :=
  ∀ entry ∈ keys, ∃ record, Stems old made record ∧ record.keyId = entry.1 ∧
    record.verifyingKey = .ok entry.2

theorem Sourced.mono {keys : KeyMap} (sourced : Sourced old made keys)
    (more : List (KeyId × Rsa.PrivateKey)) : Sourced old (made ++ more) keys := by
  intro entry member
  obtain ⟨record, stems, same, usable⟩ := sourced entry member
  exact ⟨record, stems.mono more, same, usable⟩

/-- What holds of a gate with some settings and of its authority, once some keys were made. -/
structure Genuine (g : GateConfig) (c : AuthorityConfig) (holds : σ → PublishedKey → Prop)
    (old : PublishedKey → Prop) (made : List (KeyId × Rsa.PrivateKey)) (s : OwnGate σ) : Prop where
  gate : s.gate = g
  config : s.authority.config = c
  backed : s.authority.Backed holds old made
  cached : Sourced old made s.cache.value

theorem genuine_start {store : KeyStore σ} (faithful : store.Faithful holds) (stored : σ) :
    (start g c store stored).Genuine g c holds (holds stored) [] where
  gate := rfl
  config := rfl
  backed := ⟨faithful, nofun, fun record held => .inl held⟩
  cached := by simp [Sourced, start, KeyCache.empty, Slot.fresh]

theorem authorize_eq (s : OwnGate σ) (now : Instant) (headers : Headers) (fresh : NewKey) :
    s.authorize now headers fresh =
      let answer := (s.authority.publicKeys now fresh).1
      let outcome := s.gate.authorize headers s.cache s.revoked now answer
      (outcome.1, { s with
        cache := outcome.2.1
        authority := if outcome.2.2 then (s.authority.publicKeys now fresh).2 else s.authority }) :=
  rfl

namespace Genuine

/-- Keys that the authority hands out come from its records. -/
theorem fetched (genuine : s.Genuine g c holds old made) (now : Instant) (fresh : NewKey)
    (keys : KeyMap) (answered : (s.authority.publicKeys now fresh).1 = .ok keys) :
    Sourced old (made ++ s.authority.makes now fresh) keys := by
  obtain ⟨records, listed, rfl⟩ := Authority.publicKeys_eq_ok_iff.mp answered
  intro entry member
  obtain ⟨record, among, named, usable⟩ := exists_record_of_mem_keyMap member
  exact ⟨record, genuine.backed.publishableKeys listed among, named, usable⟩

theorem step (genuine : s.Genuine g c holds old made) (e : Event) :
    (s.step e).Genuine g c holds old (made ++ s.draws e) := by
  cases e with
  | visited v =>
    exact ⟨genuine.gate, (s.authority.visit_config v).trans genuine.config,
      genuine.backed.visit v, genuine.cached.mono _⟩
  | revoked id =>
    exact ⟨genuine.gate, genuine.config, genuine.backed.mono _, genuine.cached.mono _⟩
  | presented now headers fresh =>
    -- To the authority, the gate is a visitor that wants the records.
    have asked := genuine.backed.visit ⟨now, fresh, ⟨""⟩, .publishableKeys⟩
    have config := s.authority.visit_config ⟨now, fresh, ⟨""⟩, .publishableKeys⟩
    rw [← Authority.publicKeys_snd] at asked config
    have fetched := genuine.fetched now fresh
    show OwnGate.Genuine g c holds old _ (s.authorize now headers fresh).2
    rw [authorize_eq]
    simp only [draws]
    have cache := s.gate.authorize_cache headers s.cache s.revoked now
      (s.authority.publicKeys now fresh).1
    generalize s.authority.publicKeys now fresh = source at *
    obtain ⟨answer, authority⟩ := source
    generalize s.gate.authorize headers s.cache s.revoked now answer = outcome at *
    obtain ⟨verdict, cached, asking⟩ := outcome
    obtain rfl | ⟨rfl, keys, rfl, rfl⟩ := cache
    · cases asking with
      | false => exact ⟨genuine.gate, genuine.config, genuine.backed.mono _, genuine.cached.mono _⟩
      | true => exact ⟨genuine.gate, config.trans genuine.config, asked, genuine.cached.mono _⟩
    · exact ⟨genuine.gate, config.trans genuine.config, asked, fetched keys rfl⟩

theorem run (genuine : s.Genuine g c holds old made) (events : List Event) :
    (s.run events).Genuine g c holds old (made ++ s.drawn events) := by
  induction events generalizing s made with
  | nil =>
    show s.Genuine g c holds old (made ++ [])
    rwa [List.append_nil]
  | cons e rest ih =>
    have later := ih (genuine.step e)
    rwa [List.append_assoc] at later

end Genuine

end OwnGate

/-! ## A token that is shown -/

/-- An authority issues a token, and the token is shown to a gate that asks that authority for keys.
    Anything may happen before and in between. -/
structure Showing (σ : Type) where
  control : ControlConfig
  config : AuthorityConfig
  gate : GateConfig
  store : KeyStore σ
  stored : σ
  before : List OwnGate.Event
  issuing : Visit
  between : List OwnGate.Event
  /-- When the token is shown, and how; a key is made if keys are fetched and one is due. -/
  now : Instant
  headers : Headers
  fresh : NewKey

namespace Showing

variable {σ : Type}

def start (s : Showing σ) : OwnGate σ := .start s.gate s.config s.store s.stored

def asked (s : Showing σ) : OwnGate σ := s.start.run s.before

def shown (s : Showing σ) : OwnGate σ := (s.asked.step (.visited s.issuing)).run s.between

def history (s : Showing σ) : List OwnGate.Event :=
  s.before ++ .visited s.issuing :: (s.between ++ [.presented s.now s.headers s.fresh])

def claims (s : Showing σ) : Claims :=
  s.config.newClaims s.issuing.now s.issuing.tokenId s.control.tokenValidity
    s.control.tokenCapabilities

def verdict (s : Showing σ) : Except Refusal AuthorizedToken :=
  (s.shown.authorize s.now s.headers s.fresh).1

/-- A control server whose settings are accepted issues a token with its validity and its
    capabilities, signed by a key that accepts what it signs.  The token is shown as clients show
    it, to a gate that wants no more than those capabilities; it has neither ended nor been
    revoked, and its key is published. -/
structure Occurs (s : Showing σ) (holds : σ → PublishedKey → Prop) (begin : Instant)
    (key : SigningKey) (token : Octets) : Prop where
  accepted : s.control.validate s.config begin = .ok ()
  faithful : s.store.Faithful holds
  distinct : ((s.start.drawn s.history).map Prod.fst).Nodup
  /-- What is in the store at first has other identifiers. -/
  apart : ∀ record, holds s.stored record → record.keyId ∉ (s.start.drawn s.history).map Prod.fst
  wantsToken : s.issuing.errand = .token s.control.tokenValidity s.control.tokenCapabilities
  /-- The end of the token is a date that can be named. -/
  dated : Instant.inRange (s.issuing.now.nanos + s.control.tokenValidity.nanos) = true
  signer : (s.asked.authority.currentKey s.issuing.now s.issuing.fresh).1 = .ok key
  given : (s.asked.authority.visit s.issuing).1 = .ok (.token token)
  keyNamed : key.keyId.text ≠ ""
  idNamed : s.issuing.tokenId.text ≠ ""
  vouches : key.secret.Vouches
  defaults : s.gate.UsesDefaultHeader
  covered : ∀ capability ∈ s.gate.required, capability ∈ s.control.tokenCapabilities
  bears : s.gate.Bears s.headers token
  unexpired : s.claims.isExpired s.now = false
  unrevoked : s.issuing.tokenId ∉ s.shown.revoked.ids
  published : ∃ records, (s.shown.authority.publishableKeys s.now s.fresh).1 = .ok records ∧
    key.published ∈ records

namespace Occurs

variable {s : Showing σ} {holds : σ → PublishedKey → Prop} {begin : Instant} {key : SigningKey}
  {token : Octets}

/-! ### The keys -/

theorem genuine_asked (occurs : s.Occurs holds begin key token) :
    s.asked.Genuine s.gate s.config holds (holds s.stored) (s.start.drawn s.before) :=
  (OwnGate.genuine_start occurs.faithful s.stored).run s.before

theorem genuine_shown (occurs : s.Occurs holds begin key token) :
    s.shown.Genuine s.gate s.config holds (holds s.stored)
      (s.start.drawn (s.before ++ .visited s.issuing :: s.between)) := by
  have genuine := (occurs.genuine_asked.step (.visited s.issuing)).run s.between
  rwa [List.append_assoc, ← OwnGate.drawn, asked, ← OwnGate.drawn_append] at genuine

theorem drawn_history (s : Showing σ) :
    s.start.drawn s.history = s.start.drawn (s.before ++ .visited s.issuing :: s.between) ++
      s.shown.draws (.presented s.now s.headers s.fresh) := by
  have whole : s.history = (s.before ++ .visited s.issuing :: s.between) ++
      [.presented s.now s.headers s.fresh] := by simp [history]
  have reached : s.start.run (s.before ++ .visited s.issuing :: s.between) = s.shown :=
    List.foldl_append
  rw [whole, OwnGate.drawn_append, reached]
  simp only [OwnGate.drawn, List.append_nil]

theorem draw_mem (occurs : s.Occurs holds begin key token) :
    key.draw ∈ s.start.drawn (s.before ++ .visited s.issuing :: s.between) := by
  have made := (occurs.genuine_asked.backed.currentKey s.issuing.now s.issuing.fresh).2 key
    occurs.signer
  rw [OwnGate.drawn_append]
  -- The key was in the slot when the token was wanted, or it was made for the token.
  rcases List.mem_append.mp made with earlier | now
  · exact List.mem_append_left _ earlier
  · exact List.mem_append_right _ (List.mem_append_left _ now)

theorem signed (occurs : s.Occurs holds begin key token) : key.sign s.claims = .ok token := by
  have signed := Authority.sign_of_visit occurs.wantsToken occurs.signer occurs.given
  rwa [occurs.genuine_asked.config] at signed

theorem maySign (occurs : s.Occurs holds begin key token) : key.secret.maySign = true := by
  obtain ⟨signature, made, -⟩ := SigningKey.sign_eq_ok_iff.mp occurs.signed
  exact Rsa.PrivateKey.maySign_of_sign? made

/-- The only key with the identifier in the token is the one that signed it. -/
theorem eq_of_stems (occurs : s.Occurs holds begin key token) {record : PublishedKey}
    (stems : Stems (holds s.stored) (s.start.drawn s.history) record)
    (same : record.keyId = key.keyId) {found : Rsa.PublicKey}
    (usable : record.verifyingKey = .ok found) : found = key.secret.toPublic := by
  have among : key.draw ∈ s.start.drawn s.history := by
    rw [drawn_history]
    exact List.mem_append_left _ occurs.draw_mem
  -- An old record has another identifier, and of the keys that were made only one has this one.
  obtain old | ⟨key', rfl, made⟩ := stems
  · have drawn : record.keyId ∈ (s.start.drawn s.history).map Prod.fst := by
      rw [same]
      exact List.mem_map_of_mem among
    exact absurd drawn (occurs.apart record old)
  · have draws : key'.draw = key.draw := List.inj_on_of_nodup_map occurs.distinct made among same
    have secrets : key'.secret = key.secret := congrArg Prod.snd draws
    have fit : key'.secret.maySign = true := secrets ▸ occurs.maySign
    rw [SigningKey.verifyingKey_published fit, secrets] at usable
    exact (Except.ok.inj usable).symm

/-! ### The verdict -/

theorem carries (occurs : s.Occurs holds begin key token) :
    ∃ signature, s.gate.Carries s.headers (key.readBack s.claims signature) ∧
      (key.readBack s.claims signature).SignedUnder key.secret.toPublic := by
  obtain ⟨signature, made, carried⟩ := GateConfig.carries_of_bears occurs.defaults occurs.bears
    occurs.keyNamed occurs.signed
  exact ⟨signature, carried, .sha256, signature, List.mem_cons_self, Base64.decode_encode _ _ _,
    occurs.vouches _ _ _ made⟩

/-- If the key is not in the cache, keys are fetched for the token. -/
theorem draws_of_missing (occurs : s.Occurs holds begin key token)
    (missing : Sorted.find? key.keyId s.shown.cache.value = none) :
    s.shown.draws (.presented s.now s.headers s.fresh) =
      s.shown.authority.makes s.now s.fresh := by
  obtain ⟨signature, carried, signed⟩ := occurs.carries
  rw [OwnGate.draws, occurs.genuine_shown.gate]
  refine if_pos ?_
  simp only [GateConfig.authorize, GateConfig.present_of_signed carried signed rfl s.now,
    KeyCache.resolve_eq, missing]

/-- Wherever the gate finds the key of the token, it is the one that signed it. -/
theorem yields (occurs : s.Occurs holds begin key token) :
    s.shown.cache.Yields (s.shown.authority.publicKeys s.now s.fresh).1 key.keyId
      key.secret.toPublic := by
  have genuine := occurs.genuine_shown
  -- From the cache or freshly fetched, it comes from a record, and the identifier decides which.
  cases cached : Sorted.find? key.keyId s.shown.cache.value with
  | some found =>
    obtain ⟨record, stems, same, usable⟩ :=
      genuine.cached.mono (s.shown.draws (.presented s.now s.headers s.fresh)) _
        (Sorted.mem_of_find?_eq_some cached)
    rw [← drawn_history] at stems
    obtain rfl : found = key.secret.toPublic := occurs.eq_of_stems stems same usable
    exact .inl cached
  | none =>
    obtain ⟨records, listed, member⟩ := occurs.published
    have answered : (s.shown.authority.publicKeys s.now s.fresh).1 = .ok (keyMap records) :=
      Authority.publicKeys_eq_ok_iff.mpr ⟨records, listed, rfl⟩
    obtain ⟨found, looked⟩ := exists_find?_keyMap member
      (SigningKey.verifyingKey_published occurs.maySign)
    obtain ⟨record, stems, same, usable⟩ := genuine.fetched s.now s.fresh _ answered _
      (Sorted.mem_of_find?_eq_some looked)
    rw [← occurs.draws_of_missing cached, ← drawn_history] at stems
    obtain rfl : found = key.secret.toPublic := occurs.eq_of_stems stems same usable
    exact .inr ⟨cached, keyMap records, answered, looked⟩

theorem full (occurs : s.Occurs holds begin key token) :
    (s.claims.withKeyId key.keyId).Full s.config.issuer s.issuing.tokenId key.keyId :=
  AuthorityConfig.full_newClaims occurs.idNamed occurs.keyNamed occurs.dated

theorem mem_extra (s : Showing σ) (id : KeyId) (entry : String × Json.Value) :
    entry ∈ (s.claims.withKeyId id).extra ↔
      ∃ capability ∈ s.control.tokenCapabilities, entry = (capability.name, .bool true) :=
  Claims.mem_withCapabilities rfl

theorem verdict_eq (occurs : s.Occurs holds begin key token) :
    ∃ t : UnverifiedToken, t.SignedUnder key.secret.toPublic ∧
      t.payload = (s.claims.withKeyId key.keyId).render ∧
      s.verdict = s.gate.judgeSigned s.shown.revoked s.now t key.keyId (.ok key.secret.toPublic) := by
  obtain ⟨signature, carried, signed⟩ := occurs.carries
  refine ⟨_, signed, rfl, ?_⟩
  rw [verdict, OwnGate.authorize_eq, occurs.genuine_shown.gate]
  exact GateConfig.authorize_of_signed carried signed rfl occurs.yields _ _

/-- A capability with the name of a member that claims know makes the token useless. -/
theorem refused (occurs : s.Occurs holds begin key token)
    (known : ∃ capability ∈ s.control.tokenCapabilities, capability.name ∈ Claims.knownNames) :
    ∃ capability ∈ s.control.tokenCapabilities, capability.name ∈ Claims.knownNames ∧
      s.verdict = .error (.invalidToken (.rejected (.invalidClaims
        (.duplicate capability.name)))) := by
  obtain ⟨capability, among, reserved⟩ := known
  obtain ⟨entry, member, twice, undecodable⟩ := Claims.decode_render_of_known occurs.full
    ⟨_, (mem_extra s key.keyId _).mpr ⟨capability, among, rfl⟩, reserved⟩
  -- The member that occurs twice may be another one than that of `capability`.
  obtain ⟨first, among, rfl⟩ := (mem_extra s key.keyId entry).mp member
  refine ⟨first, among, twice, ?_⟩
  obtain ⟨t, signed, payload, verdict⟩ := occurs.verdict_eq
  rw [← payload] at undecodable
  rw [verdict, GateConfig.judgeSigned]
  simp only [UnverifiedToken.verify_of_undecodable signed undecodable]

theorem holds_capability (occurs : s.Occurs holds begin key token) {capability : Capability}
    (among : capability ∈ s.control.tokenCapabilities) :
    (s.claims.withKeyId key.keyId).Holds capability :=
  .inl ((Sorted.find?_eq_some_iff occurs.full.increasing).mpr
    ((mem_extra s key.keyId _).mpr ⟨capability, among, rfl⟩))

/-- Otherwise the token is let through with the claims that were signed. -/
theorem admitted (occurs : s.Occurs holds begin key token)
    (unknown : ∀ capability ∈ s.control.tokenCapabilities, capability.name ∉ Claims.knownNames) :
    s.verdict = .ok
      ⟨s.issuing.tokenId, some key.keyId, s.claims.withKeyId key.keyId, false⟩ := by
  have decoded : Claims.decode (s.claims.withKeyId key.keyId).render =
      .ok (s.claims.withKeyId key.keyId) := by
    refine occurs.full.legible.decode_render fun entry member => ?_
    obtain ⟨capability, among, rfl⟩ := (mem_extra s key.keyId entry).mp member
    exact unknown capability among
  obtain ⟨t, signed, payload, verdict⟩ := occurs.verdict_eq
  rw [← payload] at decoded
  have unexpired : s.now.seconds < s.claims.expires :=
    Int.not_le.mp (of_decide_eq_false occurs.unexpired)
  have verified := UnverifiedToken.verify_eq_ok_iff.mpr
    ⟨signed, UnverifiedToken.unexpiredClaims_eq_ok_iff.mpr ⟨decoded, unexpired⟩⟩
  rw [verdict]
  refine GateConfig.judgeSigned_eq_ok_iff.mpr ⟨_, _, rfl, verified, ?_⟩
  exact GateConfig.judge_eq_ok_iff.mpr ⟨_, occurs.full.tokenId, occurs.unrevoked,
    fun capability wanted => occurs.holds_capability (occurs.covered capability wanted), rfl⟩

end Occurs

/-! ### A short history -/

/-- The first token of an authority, with some capabilities, is shown a second later to a gate that
    wants all of them. -/
def immediate (capabilities : List Capability) (secret : Rsa.PrivateKey) (token : Octets) :
    Showing FleetStore where
  control := { tokenCapabilities := capabilities }
  config := {}
  gate := { required := capabilities }
  store := FleetStore.keyStore
  stored := {}
  before := []
  issuing := ⟨.ofSeconds 0, .ok (⟨"a"⟩, secret), ⟨"t"⟩, .token (.ofHours 1) capabilities⟩
  between := []
  now := .ofSeconds 1
  headers := [("proxy-authorization", Octets.ofString "Bearer " ++ token)]
  fresh := .error ""

theorem occurs_immediate (capabilities : List Capability) {secret : Rsa.PrivateKey}
    (fit : secret.maySign = true) (vouches : secret.Vouches) :
    ∃ token, (immediate capabilities secret token).Occurs FleetStore.Holds (.ofSeconds 0)
      ⟨⟨"a"⟩, secret, .add (.ofSeconds 0) (.ofHours 24)⟩ token := by
  let key : SigningKey := ⟨⟨"a"⟩, secret, .add (.ofSeconds 0) (.ofHours 24)⟩
  obtain ⟨token, signed⟩ := key.exists_sign fit (immediate capabilities secret []).claims
  refine ⟨token, ?_⟩
  have signer : ((immediate capabilities secret token).asked.authority.currentKey (.ofSeconds 0)
      (.ok (⟨"a"⟩, secret))).1 = .ok key := rfl
  -- Signing the token leaves the authority alone.
  have visited : (immediate capabilities secret token).shown.authority =
      ((immediate capabilities secret token).asked.authority.currentKey (.ofSeconds 0)
        (.ok (⟨"a"⟩, secret))).2 := Authority.perform_snd _ _ _ _ _
  have unmade : (immediate capabilities secret token).shown.draws
      (.presented (.ofSeconds 1) (immediate capabilities secret token).headers (.error "")) = [] := by
    rw [OwnGate.draws]
    split <;> simp [Authority.makes]
  have drawn : (immediate capabilities secret token).start.drawn
      (immediate capabilities secret token).history = [key.draw] :=
    (Occurs.drawn_history _).trans (congrArg ([key.draw] ++ ·) unmade)
  exact {
    accepted := rfl
    faithful := FleetStore.faithful
    distinct := by
      rw [drawn]
      exact List.nodup_singleton _
    apart := by simp [immediate, FleetStore.Holds]
    wantsToken := rfl
    dated := rfl
    signer := signer
    given := by
      rw [Authority.visit_token rfl signer]
      exact congrArg Conclusion.ofToken signed
    keyNamed := by simp
    idNamed := by simp [immediate]
    vouches := vouches
    defaults := ⟨rfl, rfl⟩
    covered := fun capability wanted => wanted
    bears := rfl
    unexpired := by
      rw [claims, AuthorityConfig.newClaims, Claims.isExpired, Claims.withCapabilities_expires]
      rfl
    unrevoked := List.not_mem_nil
    published := ⟨[key.published], by rw [visited]; rfl, List.mem_singleton_self _⟩
  }

/-! ### Which tokens are let through -/

/-- The token is let through with all its capabilities if and only if none of them has the name of
    a member that claims know. -/
theorem Occurs.authorized_iff {σ : Type} {s : Showing σ} {holds : σ → PublishedKey → Prop}
    {begin : Instant} {key : SigningKey} {token : Octets} (occurs : s.Occurs holds begin key token) :
    (∃ admitted, s.verdict = .ok admitted ∧
      ∀ capability ∈ s.control.tokenCapabilities, admitted.claims.grants capability = true) ↔
      ∀ capability ∈ s.control.tokenCapabilities, capability.name ∉ Claims.knownNames := by
  constructor
  · rintro ⟨admitted, passed, -⟩ capability among reserved
    obtain ⟨first, -, -, refused⟩ := occurs.refused ⟨capability, among, reserved⟩
    rw [passed] at refused
    contradiction
  · intro unknown
    exact ⟨_, occurs.admitted unknown, fun capability among =>
      Claims.grants_iff.mpr (occurs.holds_capability among)⟩

/-- A token with the capability by default is let through, and may connect. -/
theorem authorized_connectTcp :
    ∃ key token, (immediate [.connectTcp] Rsa.sampleKey token).Occurs FleetStore.Holds
        (.ofSeconds 0) key token ∧
      ∃ admitted, (immediate [.connectTcp] Rsa.sampleKey token).verdict = .ok admitted ∧
        admitted.claims.grants .connectTcp = true := by
  obtain ⟨token, occurs⟩ := occurs_immediate [.connectTcp] Rsa.maySign_sampleKey
    Rsa.genuine_sampleKey.vouches
  obtain ⟨admitted, passed, granted⟩ := occurs.authorized_iff.mpr
    (show ∀ capability ∈ [Capability.connectTcp], capability.name ∉ Claims.knownNames by decide)
  exact ⟨_, token, occurs, admitted, passed, granted _ List.mem_cons_self⟩

/-- A token with a capability `exp` says twice when it ends, and is refused for that. -/
theorem refused_exp :
    ∃ key token, (immediate [⟨"exp"⟩] Rsa.sampleKey token).Occurs FleetStore.Holds (.ofSeconds 0)
        key token ∧
      (immediate [⟨"exp"⟩] Rsa.sampleKey token).verdict =
        .error (.invalidToken (.rejected (.invalidClaims (.duplicate "exp")))) := by
  obtain ⟨token, occurs⟩ := occurs_immediate [⟨"exp"⟩] Rsa.maySign_sampleKey
    Rsa.genuine_sampleKey.vouches
  obtain ⟨capability, among, -, refused⟩ := occurs.refused ⟨⟨"exp"⟩, List.mem_cons_self, by decide⟩
  obtain rfl : capability = ⟨"exp"⟩ := List.mem_singleton.mp among
  exact ⟨_, token, occurs, refused⟩

end Showing

end Tollgate
