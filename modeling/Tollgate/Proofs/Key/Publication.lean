import Tollgate.Control.Server
import Tollgate.Proofs.Key.Errands

/-! # How long a key is published

A control server keeps the keys of its authority in its own store, where the record of a key lasts
for a grace period after the key has ceased to sign.  Here errands come one after the other, each
with one reading of the clock.

Two facts carry everything.  The key in the slot is in the store for as long as its record lasts
(`Authority.Covers`), and a record that lasts stays in the store until another key takes its
identifier (`Authority.mem_after`).  From them `Relisting.Occurs.listed` concludes that a token's
key is listed for as long as the token is valid, if the grace period is no shorter than tokens are
valid; and `ThreeVisits.Fits.unlisted` is about a run in which it is not listed any more.  There is
such a run (`ControlConfig.latest`) if the grace period is shorter by two seconds.  Why two: a token
ends at a whole second, and its key is used up to its end.
-/

namespace Tollgate

structure Visit where
  now : Instant
  fresh : NewKey
  tokenId : TokenId
  errand : Errand

namespace Authority

/-! ## Records in order -/

theorem mem_insertRecord {k record : PublishedKey} {records : List PublishedKey} :
    record ∈ insertRecord k records ↔ record = k ∨ record ∈ records := by
  induction records with
  | nil => simp [insertRecord]
  | cons head rest ih =>
    simp only [insertRecord]
    split
    · exact List.mem_cons
    · rw [List.mem_cons, ih, List.mem_cons]
      exact or_left_comm

theorem mem_sortRecords {record : PublishedKey} {records : List PublishedKey} :
    record ∈ sortRecords records ↔ record ∈ records := by
  -- For the induction, some records are in order already.
  have inserted : ∀ sorted, record ∈ records.foldl (fun sorted k => insertRecord k sorted) sorted ↔
      record ∈ sorted ∨ record ∈ records := by
    induction records with
    | nil => simp
    | cons head rest ih =>
      intro sorted
      rw [List.foldl_cons, ih, mem_insertRecord, List.mem_cons]
      rw [or_comm (a := record = head), or_assoc]
  simpa [sortRecords] using inserted []

/-! ## Errands one after the other -/

section Visits

variable {σ : Type}

def visit (a : Authority σ) (v : Visit) : Conclusion × Authority σ :=
  a.perform v.now v.fresh v.tokenId v.errand

def after (a : Authority σ) (history : List Visit) : Authority σ :=
  history.foldl (fun a v => (a.visit v).2) a

/-- The identifier of the key that is made to have a current key, if one is made. -/
def draws (a : Authority σ) (v : Visit) : List KeyId :=
  match a.current.live? v.now, v.fresh with
  | none, .ok (id, _) => [id]
  | _, _ => []

def drawn (a : Authority σ) : List Visit → List KeyId
  | [] => []
  | v :: rest => a.draws v ++ (a.visit v).2.drawn rest

theorem draws_of_live {a : Authority σ} {v : Visit} {key : SigningKey}
    (live : a.current.live? v.now = some key) : a.draws v = [] := by
  simp [draws, live]

theorem draws_of_due {a : Authority σ} {v : Visit} {id : KeyId} {secret : Rsa.PrivateKey}
    (due : a.current.live? v.now = none) (fresh : v.fresh = .ok (id, secret)) :
    a.draws v = [id] := by
  simp [draws, due, fresh]

@[simp] theorem after_nil (a : Authority σ) : a.after [] = a := rfl

@[simp] theorem after_cons (a : Authority σ) (v : Visit) (rest : List Visit) :
    a.after (v :: rest) = (a.visit v).2.after rest := rfl

theorem visit_config (a : Authority σ) (v : Visit) : (a.visit v).2.config = a.config := by
  have config := a.currentKey_config v.now v.fresh
  rw [visit, perform_snd]
  generalize a.currentKey v.now v.fresh = outcome at config
  obtain ⟨result, a'⟩ := outcome
  cases v.errand <;> cases result <;> exact config

theorem visit_store (a : Authority σ) (v : Visit) : (a.visit v).2.store = a.store := by
  have store := a.currentKey_store v.now v.fresh
  rw [visit, perform_snd]
  generalize a.currentKey v.now v.fresh = outcome at store
  obtain ⟨result, a'⟩ := outcome
  cases v.errand <;> cases result <;> exact store

theorem after_append (a : Authority σ) (history later : List Visit) :
    a.after (history ++ later) = (a.after history).after later := List.foldl_append

theorem drawn_append (a : Authority σ) (history later : List Visit) :
    a.drawn (history ++ later) = a.drawn history ++ (a.after history).drawn later := by
  induction history generalizing a with
  | nil => rfl
  | cons v rest ih => rw [List.cons_append, drawn, ih, drawn, List.append_assoc, after_cons]

end Visits

end Authority

/-! ## An authority over a fleet store -/

def AuthorityConfig.entry (c : AuthorityConfig) (key : SigningKey) : KeyId × Lasting PublishedKey :=
  (key.keyId, ⟨key.published, some (key.expiresAt.add c.gracePeriod)⟩)

theorem AuthorityConfig.isLive_entry_iff {c : AuthorityConfig} {key : SigningKey} {now : Instant} :
    (c.entry key).2.isLive now = true ↔
      now.nanos < key.expiresAt.nanos + c.gracePeriod.nanos := decide_eq_true_iff

namespace Authority

/-- An authority with some settings that makes sense and a fleet store. -/
structure OverFleet (c : AuthorityConfig) (a : Authority FleetStore) : Prop where
  config : a.config = c
  store : a.store = FleetStore.keyStore
  signs : 0 < c.keyValidity.nanos
  lingers : 0 ≤ c.gracePeriod.nanos

def install (c : AuthorityConfig) (a : Authority FleetStore) (key : SigningKey) :
    Authority FleetStore :=
  { a with
    stored := { a.stored with keys := Sorted.insert key.keyId (c.entry key).2 a.stored.keys }
    current := a.current.replace (some key) }

/-- Everything that getting the current key can do: what it gives, what becomes of the authority,
    and which keys are made. -/
inductive Prepares (c : AuthorityConfig) (a : Authority FleetStore) (now : Instant)
    (fresh : NewKey) :
    Except AuthorityFault SigningKey → Authority FleetStore → List KeyId → Prop
  | live {key} (live : a.current.live? now = some key) : Prepares c a now fresh (.ok key) a []
  | barren {reason} (due : a.current.live? now = none) (failed : fresh = .error reason) :
      Prepares c a now fresh (.error (.key (.generation reason))) a []
  | made {id secret} (due : a.current.live? now = none) (drawn : fresh = .ok (id, secret)) :
      Prepares c a now fresh (.ok ⟨id, secret, now.add c.keyValidity⟩)
        (a.install c ⟨id, secret, now.add c.keyValidity⟩) [id]

variable {c : AuthorityConfig} {a a' : Authority FleetStore} {now : Instant} {fresh : NewKey}
  {result : Except AuthorityFault SigningKey} {ids : List KeyId}

theorem currentKey_of_live {key : SigningKey} (live : a.current.live? now = some key) :
    a.currentKey now fresh = (.ok key, a) := by
  rw [currentKey_eq, live]

theorem currentKey_of_due (fleet : a.OverFleet c) (due : a.current.live? now = none) (id : KeyId)
    (secret : Rsa.PrivateKey) :
    a.currentKey now (.ok (id, secret)) =
      (.ok ⟨id, secret, now.add c.keyValidity⟩,
        a.install c ⟨id, secret, now.add c.keyValidity⟩) := by
  have positive : ¬ c.keyLifetime.nanos ≤ 0 := by
    have signs := fleet.signs
    have lingers := fleet.lingers
    simp only [AuthorityConfig.keyLifetime, Span.add]
    omega
  have ends : (now.add c.keyValidity).add c.gracePeriod = now.add c.keyLifetime := by
    simp only [Instant.add, AuthorityConfig.keyLifetime, Span.add, Int.add_assoc]
  simp [currentKey_eq, due, rotate, AuthorityConfig.newKey, fleet.config, fleet.store,
    FleetStore.keyStore, FleetStore.putKey, positive, SigningSlot.settle, Lasting.since,
    SigningKey.published, install, AuthorityConfig.entry, ends]

theorem prepares_currentKey (fleet : a.OverFleet c) (v : Visit) :
    a.Prepares c v.now v.fresh (a.currentKey v.now v.fresh).1 (a.currentKey v.now v.fresh).2
      (a.draws v) := by
  unfold draws
  cases looked : a.current.live? v.now with
  | some key =>
    rw [currentKey_of_live looked]
    exact .live looked
  | none =>
    cases drawn : v.fresh with
    | error reason =>
      rw [currentKey_eq, looked]
      exact .barren looked rfl
    | ok pair =>
      rw [currentKey_of_due fleet looked]
      exact .made looked rfl

namespace Prepares

theorem overFleet (prepares : a.Prepares c now fresh result a' ids) (fleet : a.OverFleet c) :
    a'.OverFleet c := by
  cases prepares with
  | live | barren => exact fleet
  | made => exact ⟨fleet.config, fleet.store, fleet.signs, fleet.lingers⟩

/-- The current key is in the slot, and it signs. -/
theorem current {key : SigningKey} (prepares : a.Prepares c now fresh (.ok key) a' ids)
    (fleet : a.OverFleet c) : a'.current.value = some key ∧ now.nanos < key.expiresAt.nanos := by
  cases prepares with
  | live live =>
    obtain ⟨value, unexpired⟩ := SigningSlot.live?_eq_some_iff.mp live
    exact ⟨value, Int.not_le.mp (of_decide_eq_false unexpired)⟩
  | made =>
    refine ⟨rfl, ?_⟩
    have signs := fleet.signs
    simp only [Instant.add]
    omega

/-- An entry stays unless a key with its identifier is made. -/
theorem mem_keys (prepares : a.Prepares c now fresh result a' ids)
    {entry : KeyId × Lasting PublishedKey} (other : entry.1 ∉ ids)
    (member : entry ∈ a.stored.keys) : entry ∈ a'.stored.keys := by
  cases prepares with
  | live | barren => exact member
  | made => exact Sorted.mem_insert_of_ne (by simpa using other) member

end Prepares

/-- The key in the slot is in the store until its record ends. -/
def Covers (c : AuthorityConfig) (a : Authority FleetStore) (now : Instant) : Prop :=
  ∀ key, a.current.value = some key → (c.entry key).2.isLive now = true →
    c.entry key ∈ a.stored.keys

/-- What the clock does not bring about: a record that has ended does not begin again. -/
theorem isLive_mono {α : Type} {e : Lasting α} {now later : Instant}
    (order : now.nanos ≤ later.nanos)
    (live : e.isLive later = true) : e.isLive now = true := by
  cases bounded : e.endsAt with
  | none => simp [Lasting.isLive, bounded]
  | some ends =>
    simp only [Lasting.isLive, bounded, decide_eq_true_eq] at live ⊢
    omega

theorem Covers.later {later : Instant} (covers : a.Covers c now)
    (order : now.nanos ≤ later.nanos) : a.Covers c later :=
  fun key value live => covers key value (isLive_mono order live)

theorem Prepares.covers (prepares : a.Prepares c now fresh result a' ids)
    (covers : a.Covers c now) : a'.Covers c now := by
  cases prepares with
  | live | barren => exact covers
  | made =>
    rintro key value -
    cases value
    exact Sorted.mem_insert_self _ _ _

def purged (a : Authority FleetStore) (now : Instant) : Authority FleetStore :=
  { a with stored := (a.stored.activeKeys now).2 }

theorem mem_purged {entry : KeyId × Lasting PublishedKey} :
    entry ∈ (a.purged now).stored.keys ↔ entry ∈ a.stored.keys ∧ entry.2.isLive now = true := by
  simp [purged, FleetStore.activeKeys]

theorem visit_snd (fleet : a.OverFleet c) (v : Visit) :
    (a.visit v).2 = (a.currentKey v.now v.fresh).2 ∨
      (a.visit v).2 = (a.currentKey v.now v.fresh).2.purged v.now := by
  have store := a.currentKey_store v.now v.fresh
  rw [fleet.store] at store
  unfold visit
  rw [perform_snd]
  generalize a.currentKey v.now v.fresh = outcome at store
  obtain ⟨result, a'⟩ := outcome
  simp only at store
  cases v.errand with
  | currentKey | token => exact .inl rfl
  | publishableKeys =>
    cases result with
    | error => exact .inl rfl
    | ok => exact .inr (by simp [purged, store, FleetStore.keyStore])

/-! ## What an errand gives -/

theorem visit_token {σ : Type} {a : Authority σ} {v : Visit} {validity : Span}
    {capabilities : List Capability} {key : SigningKey}
    (wants : v.errand = .token validity capabilities)
    (current : (a.currentKey v.now v.fresh).1 = .ok key) :
    (a.visit v).1 =
      .ofToken (key.sign (a.config.newClaims v.now v.tokenId validity capabilities)) := by
  unfold visit
  rw [perform_fst, wants, current]
  rfl

/-- A token that is given was signed by the current key. -/
theorem sign_of_visit {σ : Type} {a : Authority σ} {v : Visit} {validity : Span}
    {capabilities : List Capability} {key : SigningKey} {token : Octets}
    (wants : v.errand = .token validity capabilities)
    (current : (a.currentKey v.now v.fresh).1 = .ok key)
    (given : (a.visit v).1 = .ok (.token token)) :
    key.sign (a.config.newClaims v.now v.tokenId validity capabilities) = .ok token := by
  rw [visit_token wants current] at given
  cases signed : key.sign (a.config.newClaims v.now v.tokenId validity capabilities) with
  | error fault => simp [signed, Conclusion.ofToken] at given
  | ok token' => simpa [signed, Conclusion.ofToken] using given

theorem visit_records (fleet : a.OverFleet c) {v : Visit} (wants : v.errand = .publishableKeys) :
    (a.visit v).1 = (a.currentKey v.now v.fresh).1.map fun _ =>
      .records (sortRecords ((a.currentKey v.now v.fresh).2.stored.activeKeys v.now).1) := by
  unfold visit
  rw [perform_fst, wants, activeAnswer, fleet.store]
  cases (a.currentKey v.now v.fresh).1 <;> rfl

/-- The records of the keys that have not ended are listed. -/
theorem mem_listing {f : FleetStore} {record : PublishedKey} :
    record ∈ sortRecords (f.activeKeys now).1 ↔
      ∃ id ends, (id, ⟨record, ends⟩) ∈ f.keys ∧ (Lasting.mk record ends).isLive now = true := by
  rw [mem_sortRecords]
  simp only [FleetStore.activeKeys, List.mem_map, List.mem_filter]
  constructor
  · rintro ⟨⟨id, value, ends⟩, found, rfl⟩
    exact ⟨id, ends, found⟩
  · rintro ⟨id, ends, found⟩
    exact ⟨_, found, rfl⟩

/-! ## What an errand keeps -/

theorem visit_overFleet (fleet : a.OverFleet c) (v : Visit) : (a.visit v).2.OverFleet c := by
  have prepared := (prepares_currentKey fleet v).overFleet fleet
  obtain same | same := visit_snd fleet v
  · rw [same]
    exact prepared
  · rw [same]
    exact ⟨prepared.config, prepared.store, prepared.signs, prepared.lingers⟩

theorem after_overFleet (fleet : a.OverFleet c) (history : List Visit) :
    (a.after history).OverFleet c := by
  induction history generalizing a with
  | nil => exact fleet
  | cons v rest ih => exact ih (visit_overFleet fleet v)

theorem visit_covers (fleet : a.OverFleet c) (v : Visit) (covers : a.Covers c v.now) :
    (a.visit v).2.Covers c v.now := by
  have prepared := (prepares_currentKey fleet v).covers covers
  obtain same | same := visit_snd fleet v
  · rw [same]
    exact prepared
  · -- Listing the keys drops what has ended, and `Covers` is about the rest.
    rw [same]
    intro key value live
    exact mem_purged.mpr ⟨prepared key value live, live⟩

/-- An entry that has not ended stays, unless a key with its identifier is made. -/
theorem mem_visit (fleet : a.OverFleet c) (v : Visit) {entry : KeyId × Lasting PublishedKey}
    (other : entry.1 ∉ a.draws v) (live : entry.2.isLive v.now = true)
    (member : entry ∈ a.stored.keys) : entry ∈ (a.visit v).2.stored.keys := by
  have prepared := (prepares_currentKey fleet v).mem_keys other member
  obtain same | same := visit_snd fleet v
  · rw [same]
    exact prepared
  · rw [same]
    exact mem_purged.mpr ⟨prepared, live⟩

theorem mem_after (fleet : a.OverFleet c) {history : List Visit}
    {entry : KeyId × Lasting PublishedKey} (other : entry.1 ∉ a.drawn history)
    (live : ∀ v ∈ history, entry.2.isLive v.now = true) (member : entry ∈ a.stored.keys) :
    entry ∈ (a.after history).stored.keys := by
  induction history generalizing a with
  | nil => exact member
  | cons v rest ih =>
    rw [drawn, List.mem_append, not_or] at other
    have kept := mem_visit fleet v other.1 (live v List.mem_cons_self) member
    exact ih (visit_overFleet fleet v) other.2
      (fun w later => live w (List.mem_cons_of_mem v later)) kept

theorem after_covers (fleet : a.OverFleet c) {history : List Visit}
    (chronological : history.Pairwise fun v w => v.now.nanos ≤ w.now.nanos)
    (past : ∀ v ∈ history, v.now.nanos ≤ now.nanos) (covers : ∀ v ∈ history, a.Covers c v.now)
    (atLast : a.Covers c now) : (a.after history).Covers c now := by
  induction history generalizing a with
  | nil => exact atLast
  | cons v rest ih =>
    obtain ⟨first, chronological⟩ := List.pairwise_cons.mp chronological
    have covered := visit_covers fleet v (covers v List.mem_cons_self)
    exact ih (visit_overFleet fleet v) chronological
      (fun w member => past w (List.mem_cons_of_mem v member))
      (fun w member => covered.later (first w member)) (covered.later (past v List.mem_cons_self))

/-- The key in the slot was made in an errand. -/
theorem mem_drawn (fleet : a.OverFleet c) {history : List Visit} {key : SigningKey}
    (value : (a.after history).current.value = some key) :
    key.keyId ∈ a.drawn history ∨ a.current.value = some key := by
  induction history generalizing a with
  | nil => exact .inr value
  | cons v rest ih =>
    rw [drawn, List.mem_append]
    obtain later | held := ih (visit_overFleet fleet v) value
    · exact .inl (.inr later)
    · -- The key was in the slot after the first errand, which only getting the current key changes.
      rw [show (a.visit v).2.current = _ from a.perform_current _ _ _ _] at held
      have prepared := prepares_currentKey fleet v
      generalize (a.currentKey v.now v.fresh).1 = result, (a.currentKey v.now v.fresh).2 = a',
        a.draws v = ids at prepared held ⊢
      cases prepared with
      | live | barren => exact .inr held
      | made =>
        cases held
        exact .inl (.inl List.mem_cons_self)

end Authority

/-! ## A token and a later listing -/

@[simp] theorem Claims.withCapabilities_expires (c : Claims) (capabilities : List Capability) :
    (c.withCapabilities capabilities).expires = c.expires := by
  unfold Claims.withCapabilities
  induction capabilities generalizing c with
  | nil => rfl
  | cons capability rest ih =>
    rw [List.foldl_cons, ih]
    rfl

/-- Unexpired claims: their end, before it was cut off to whole seconds, has not come. -/
theorem AuthorityConfig.lt_of_unexpired {c : AuthorityConfig} {now later : Instant} {id : TokenId}
    {validity : Span} {capabilities : List Capability}
    (unexpired : (c.newClaims now id validity capabilities).isExpired later = false) :
    later.nanos < now.nanos + validity.nanos := by
  simp only [Claims.isExpired, newClaims, Claims.withCapabilities_expires, Claims.mint,
    Instant.seconds_eq, Instant.add, decide_eq_false_iff_not] at unexpired
  omega

/-- Errands in which a token is asked for, and the published keys are listed later. -/
structure Relisting where
  before : List Visit
  issuing : Visit
  between : List Visit
  listing : Visit
  capabilities : List Capability

namespace Relisting

def history (r : Relisting) : List Visit :=
  r.before ++ r.issuing :: (r.between ++ [r.listing])

def asked (r : Relisting) (c : ControlConfig) (a : AuthorityConfig) : Authority FleetStore :=
  (ControlServer.start c a).authority.after r.before

def claims (r : Relisting) (c : ControlConfig) (a : AuthorityConfig) : Claims :=
  a.newClaims r.issuing.now r.issuing.tokenId c.tokenValidity r.capabilities

def issued (r : Relisting) (c : ControlConfig) (a : AuthorityConfig) : Authority FleetStore :=
  ((r.asked c a).visit r.issuing).2

def listed (r : Relisting) (c : ControlConfig) (a : AuthorityConfig) : Conclusion :=
  (((r.issued c a).after r.between).visit r.listing).1

/-- At a control server with these settings, a key signs the token, which is still valid when the
    published keys are listed. -/
structure Occurs (r : Relisting) (c : ControlConfig) (a : AuthorityConfig) (key : SigningKey)
    (token : Octets) : Prop where
  chronological : r.history.Pairwise fun v w => v.now.nanos ≤ w.now.nanos
  distinct : ((ControlServer.start c a).authority.drawn r.history).Nodup
  wantsToken : r.issuing.errand = .token c.tokenValidity r.capabilities
  wantsRecords : r.listing.errand = .publishableKeys
  signer : ((r.asked c a).currentKey r.issuing.now r.issuing.fresh).1 = .ok key
  given : ((r.asked c a).visit r.issuing).1 = .ok (.token token)
  unexpired : (r.claims c a).isExpired r.listing.now = false

variable {r : Relisting} {c : ControlConfig} {a : AuthorityConfig} {key : SigningKey}
  {token : Octets}

theorem overFleet_start (signs : 0 < a.keyValidity.nanos) (lingers : 0 ≤ a.gracePeriod.nanos) :
    (ControlServer.start c a).authority.OverFleet a := ⟨rfl, rfl, signs, lingers⟩

namespace Occurs

variable (signs : 0 < a.keyValidity.nanos) (lingers : 0 ≤ a.gracePeriod.nanos)
include signs lingers

theorem overFleet_asked : (r.asked c a).OverFleet a :=
  Authority.after_overFleet (overFleet_start signs lingers) r.before

theorem signed (occurs : r.Occurs c a key token) : key.sign (r.claims c a) = .ok token := by
  have signed := Authority.sign_of_visit occurs.wantsToken occurs.signer occurs.given
  rwa [(overFleet_asked signs lingers).config] at signed

/-- When the token was issued, its key was in the slot, and its record in the store. -/
theorem stored (occurs : r.Occurs c a key token) :
    (r.issued c a).current.value = some key ∧ a.entry key ∈ (r.issued c a).stored.keys ∧
      r.issuing.now.nanos < key.expiresAt.nanos := by
  have fleet : (r.asked c a).OverFleet a := overFleet_asked signs lingers
  obtain ⟨chronological, -, past⟩ := List.pairwise_append.mp occurs.chronological
  have covers : (r.asked c a).Covers a r.issuing.now :=
    Authority.after_covers (overFleet_start signs lingers) chronological
      (fun v member => past v member r.issuing List.mem_cons_self) (fun _ _ => nofun) nofun
  have prepared := Authority.prepares_currentKey fleet r.issuing
  rw [occurs.signer] at prepared
  obtain ⟨value, unexpired⟩ := prepared.current fleet
  rw [← (r.asked c a).perform_current _ _ r.issuing.tokenId r.issuing.errand] at value
  refine ⟨value, Authority.visit_covers fleet r.issuing covers key value ?_, unexpired⟩
  exact AuthorityConfig.isLive_entry_iff.mpr (by omega)

/-- After the token was issued no key gets the identifier of the token's key. -/
theorem not_mem_drawn (occurs : r.Occurs c a key token) :
    key.keyId ∉ (r.issued c a).drawn (r.between ++ [r.listing]) := by
  have distinct := occurs.distinct
  have reached : (ControlServer.start c a).authority.after (r.before ++ [r.issuing]) =
      r.issued c a := Authority.after_append _ _ _
  rw [history, ← List.singleton_append, ← List.append_assoc, Authority.drawn_append,
    reached] at distinct
  obtain ⟨-, -, apart⟩ := List.nodup_append.mp distinct
  have value := (occurs.stored signs lingers).1
  rw [← reached] at value
  -- The key in the slot was made before, and no identifier is drawn twice.
  obtain made | held := Authority.mem_drawn (overFleet_start signs lingers) value
  · exact fun later => apart _ made _ later rfl
  · contradiction

/-- While the token is valid the record of its key does not end. -/
theorem isLive_entry (covered : c.tokenValidity.nanos ≤ a.gracePeriod.nanos)
    (occurs : r.Occurs c a key token) {now : Instant} (order : now.nanos ≤ r.listing.now.nanos) :
    (a.entry key).2.isLive now = true := by
  obtain ⟨-, -, unexpired⟩ := occurs.stored signs lingers
  have valid := AuthorityConfig.lt_of_unexpired occurs.unexpired
  exact AuthorityConfig.isLive_entry_iff.mpr (by omega)

/-- A token's key is listed for as long as the token is valid, if the grace period is no shorter
    than tokens are valid; unless a key had to be made for the listing and could not. -/
theorem listed (covered : c.tokenValidity.nanos ≤ a.gracePeriod.nanos)
    (occurs : r.Occurs c a key token) :
    (∃ reason, r.listing.fresh = .error reason ∧
      r.listed c a = .error (.key (.generation reason))) ∨
    ∃ records, r.listed c a = .ok (.records records) ∧ key.published ∈ records := by
  have lasts : ∀ now : Instant, now.nanos ≤ r.listing.now.nanos →
      (a.entry key).2.isLive now = true := fun _ => occurs.isLive_entry signs lingers covered
  -- The record is there from the issuing on: no errand in between removes it or replaces it.
  have later := (List.pairwise_append.mp occurs.chronological).2.1
  have later := (List.pairwise_append.mp (List.pairwise_cons.mp later).2).2.2
  have absent := occurs.not_mem_drawn signs lingers
  rw [Authority.drawn_append, List.mem_append, not_or] at absent
  have fleet : (r.issued c a).OverFleet a :=
    Authority.visit_overFleet (overFleet_asked signs lingers) _
  have kept := Authority.mem_after fleet (show (a.entry key).1 ∉ _ from absent.1)
    (fun v among => lasts v.now (later v among _ List.mem_cons_self))
    (occurs.stored signs lingers).2.1
  have fleet := Authority.after_overFleet fleet r.between
  -- Listing the keys may rotate first, which adds a record but leaves this one.
  have prepared := Authority.prepares_currentKey fleet r.listing
  have kept := prepared.mem_keys
    (show key.keyId ∉ _ by simpa [Authority.drawn] using absent.2) kept
  rw [Relisting.listed, Authority.visit_records fleet occurs.wantsRecords]
  generalize Authority.currentKey _ r.listing.now r.listing.fresh = outcome at prepared kept ⊢
  generalize Authority.draws _ r.listing = ids at prepared
  obtain ⟨result, a'⟩ := outcome
  cases result with
  | error fault =>
    cases prepared with
    | @barren reason _ failed => exact .inl ⟨reason, failed, rfl⟩
  | ok current =>
    exact .inr ⟨_, rfl, Authority.mem_listing.mpr ⟨_, _, kept, lasts _ (Int.le_refl _)⟩⟩

end Occurs

end Relisting

/-! ## A short history -/

theorem SigningKey.exists_sign (key : SigningKey) (fit : key.secret.maySign = true)
    (claims : Claims) : ∃ token, key.sign claims = .ok token := by
  simp [sign, Claims.sign, Rsa.PrivateKey.sign?, fit]

/-- The times of three errands, and what chance supplies to them: a key is made, a token is asked
    for, and the keys are listed. -/
structure ThreeVisits where
  made : Instant
  issued : Instant
  listed : Instant
  first : KeyId × Rsa.PrivateKey
  second : KeyId × Rsa.PrivateKey
  tokenId : TokenId

namespace ThreeVisits

def relisting (s : ThreeVisits) (c : ControlConfig) : Relisting where
  before := [⟨s.made, .ok s.first, s.tokenId, .currentKey⟩]
  issuing := ⟨s.issued, .ok s.second, s.tokenId, .token c.tokenValidity c.tokenCapabilities⟩
  between := []
  listing := ⟨s.listed, .ok s.second, s.tokenId, .publishableKeys⟩
  capabilities := c.tokenCapabilities

def key (s : ThreeVisits) (a : AuthorityConfig) : SigningKey :=
  ⟨s.first.1, s.first.2, s.made.add a.keyValidity⟩

/-- The first key can sign the token and does, and the token is still valid when the keys are
    listed. -/
structure Fits (s : ThreeVisits) (c : ControlConfig) (a : AuthorityConfig) : Prop where
  signs : 0 < a.keyValidity.nanos
  lingers : 0 ≤ a.gracePeriod.nanos
  different : s.first.1 ≠ s.second.1
  fit : s.first.2.maySign = true
  madeFirst : s.made.nanos ≤ s.issued.nanos
  issuedFirst : s.issued.nanos ≤ s.listed.nanos
  inTime : s.issued.nanos < s.made.nanos + a.keyValidity.nanos
  valid : s.listed.seconds < (s.issued.add c.tokenValidity).seconds

variable {s : ThreeVisits} {c : ControlConfig} {a : AuthorityConfig}

namespace Fits

theorem overFleet (fits : s.Fits c a) : (ControlServer.start c a).authority.OverFleet a :=
  Relisting.overFleet_start fits.signs fits.lingers

theorem asked_eq (fits : s.Fits c a) :
    (s.relisting c).asked c a = (ControlServer.start c a).authority.install a (s.key a) := by
  show ((ControlServer.start c a).authority.visit _).2 = _
  unfold Authority.visit
  rw [Authority.perform_snd]
  exact congrArg Prod.snd (Authority.currentKey_of_due fits.overFleet rfl _ _)

theorem live (fits : s.Fits c a) :
    ((s.relisting c).asked c a).current.live? s.issued = some (s.key a) := by
  rw [fits.asked_eq]
  refine SigningSlot.live?_eq_some_iff.mpr ⟨rfl, decide_eq_false ?_⟩
  have inTime := fits.inTime
  simp only [key, Instant.add]
  omega

theorem signer (fits : s.Fits c a) :
    ((s.relisting c).asked c a).currentKey s.issued (.ok s.second) =
      (.ok (s.key a), (s.relisting c).asked c a) :=
  Authority.currentKey_of_live fits.live

theorem issued_eq (fits : s.Fits c a) :
    (s.relisting c).issued c a = (s.relisting c).asked c a := by
  show ((s.relisting c).asked c a |>.visit _).2 = _
  unfold Authority.visit
  rw [Authority.perform_snd]
  exact congrArg Prod.snd fits.signer

/-- The second key is made at most for the listing. -/
theorem distinct (fits : s.Fits c a) :
    ((ControlServer.start c a).authority.drawn (s.relisting c).history).Nodup := by
  have history : (s.relisting c).history =
      (s.relisting c).before ++ [(s.relisting c).issuing, (s.relisting c).listing] := rfl
  have made : (ControlServer.start c a).authority.drawn (s.relisting c).before = [s.first.1] :=
    congrArg (· ++ []) (Authority.draws_of_due rfl rfl)
  have issuing : ((s.relisting c).asked c a).draws (s.relisting c).issuing = [] :=
    Authority.draws_of_live fits.live
  rw [history, Authority.drawn_append, made]
  change ([s.first.1] ++ ((s.relisting c).asked c a).drawn
    [(s.relisting c).issuing, (s.relisting c).listing]).Nodup
  simp only [Authority.drawn, issuing, List.nil_append, List.append_nil]
  cases looked : ((s.relisting c).issued c a).current.live? s.listed with
  | some key =>
    rw [show Authority.draws _ _ = [] from Authority.draws_of_live looked]
    simp
  | none =>
    rw [show Authority.draws _ _ = [s.second.1] from Authority.draws_of_due looked rfl]
    simpa using fits.different

theorem occurs (fits : s.Fits c a) : ∃ token, (s.relisting c).Occurs c a (s.key a) token := by
  obtain ⟨token, signed⟩ := (s.key a).exists_sign fits.fit ((s.relisting c).claims c a)
  refine ⟨token, ?_, fits.distinct, rfl, rfl, congrArg Prod.fst fits.signer, ?_, ?_⟩
  · have madeFirst := fits.madeFirst
    have issuedFirst := fits.issuedFirst
    simp [relisting, Relisting.history, madeFirst, issuedFirst]
    omega
  · rw [Authority.visit_token (v := (s.relisting c).issuing) rfl (congrArg Prod.fst fits.signer),
      fits.asked_eq]
    exact congrArg Conclusion.ofToken signed
  · have valid := fits.valid
    simp only [Relisting.claims, AuthorityConfig.newClaims, Claims.isExpired,
      Claims.withCapabilities_expires, Claims.mint]
    exact decide_eq_false (Int.not_le.mpr valid)

/-- At the end of its record, the first key is not listed any more. -/
theorem unlisted (fits : s.Fits c a)
    (ended : s.made.nanos + a.keyValidity.nanos + a.gracePeriod.nanos ≤ s.listed.nanos) :
    ∃ records, (s.relisting c).listed c a = .ok (.records records) ∧
      ∀ record ∈ records, record.keyId ≠ s.first.1 := by
  have lingers := fits.lingers
  have fleet : ((s.relisting c).issued c a).OverFleet a :=
    Authority.visit_overFleet (Authority.after_overFleet fits.overFleet _) _
  have held : (s.relisting c).issued c a = _ := fits.issued_eq.trans fits.asked_eq
  -- The first key does not sign any more, so that a second one is made before the keys are listed.
  have expired : (s.key a).isExpired s.listed = true := by
    refine decide_eq_true ?_
    simp only [key, Instant.add]
    omega
  have due : ((s.relisting c).issued c a).current.live? s.listed = none := by
    rw [held]
    refine Option.filter_eq_none_iff.mpr ?_
    rintro key value
    cases value
    simp [expired]
  have current : ((s.relisting c).issued c a).currentKey (s.relisting c).listing.now
      (s.relisting c).listing.fresh = _ :=
    Authority.currentKey_of_due fleet due s.second.1 s.second.2
  have listed := Authority.visit_records (v := (s.relisting c).listing) fleet rfl
  rw [current] at listed
  refine ⟨_, listed, fun record member => ?_⟩
  obtain ⟨id, ends, found, live⟩ := Authority.mem_listing.mp member
  -- The store has the two keys, and of these the first one has ended.
  obtain second | first := Sorted.eq_or_mem_of_mem_insert found
  · cases second
    exact fits.different.symm
  · rw [held] at first
    obtain first | none := Sorted.eq_or_mem_of_mem_insert first
    · cases first
      have unended : s.listed.nanos < s.made.nanos + a.keyValidity.nanos + a.gracePeriod.nanos :=
        AuthorityConfig.isLive_entry_iff.mp live
      omega
    · contradiction

end Fits

end ThreeVisits

/-! ## Whether the grace period covers a token -/

/-- The settings are accepted when the history begins, and whatever is computed during it from a
    reading of the clock and a lifetime is a date that can be named. -/
structure Relisting.Dated (r : Relisting) (c : ControlConfig) (a : AuthorityConfig)
    (begin : Instant) : Prop where
  accepted : c.validate a begin = .ok ()
  since : ∀ v ∈ r.history, begin.nanos ≤ v.now.nanos
  tokens : ∀ v ∈ r.history, c.validateTokens v.now = .ok ()
  keys : ∀ v ∈ r.history, a.validate v.now = .ok ()

/-- A thousand years, none shorter than a leap year. -/
def millennium : Int := 1000 * 366 * 86400 * nanosPerSecond

namespace ControlConfig

variable {c : ControlConfig} {a : AuthorityConfig} {start : Instant}

/-- The worst case: the token is issued in the last instant of its key, and the keys are listed when
    the record of the key ends. -/
def latest (a : AuthorityConfig) (begin : Instant) (first second : KeyId × Rsa.PrivateKey)
    (id : TokenId) : ThreeVisits where
  made := begin
  issued := ⟨begin.nanos + a.keyValidity.nanos - 1⟩
  listed := ⟨begin.nanos + a.keyValidity.nanos + a.gracePeriod.nanos⟩
  first
  second
  tokenId := id

theorem fits_latest (signs : 0 < a.keyValidity.nanos) (lingers : 0 ≤ a.gracePeriod.nanos)
    (uncovered : a.gracePeriod.nanos + 2 * nanosPerSecond ≤ c.tokenValidity.nanos)
    {first second : KeyId × Rsa.PrivateKey} (different : first.1 ≠ second.1)
    (fit : first.2.maySign = true) (begin : Instant) (id : TokenId) :
    (latest a begin first second id).Fits c a := by
  refine ⟨signs, lingers, different, fit, ?_, ?_, ?_, ?_⟩
  · simp only [latest]
    omega
  · simp only [latest]
    omega
  · simp only [latest]
    omega
  · simp only [latest, Instant.seconds_eq, Instant.add, nanosPerSecond] at uncovered ⊢
    omega

/-- The history happens before the epoch, or in the millennia that follow it. -/
theorem within_latest (signs : 0 < a.keyValidity.nanos) (lingers : 0 ≤ a.gracePeriod.nanos)
    (keys : a.keyValidity.nanos < millennium) (grace : a.gracePeriod.nanos < millennium)
    {begin : Instant} (early : begin.nanos ≤ 0) {first second : KeyId × Rsa.PrivateKey}
    {id : TokenId}
    {v : Visit} (member : v ∈ ((latest a begin first second id).relisting c).history) :
    begin.nanos ≤ v.now.nanos ∧ v.now.nanos < 2 * millennium := by
  simp only [Relisting.history, ThreeVisits.relisting, latest, List.cons_append, List.nil_append,
    List.mem_cons, List.not_mem_nil, or_false] at member
  rcases member with rfl | rfl | rfl <;> simp only <;> omega

theorem dated_latest (valid : c.validate a start = .ok ())
    (named : Instant.inRange start.nanos = true)
    (tokens : c.tokenValidity.nanos < millennium) (keys : a.keyValidity.nanos < millennium)
    (grace : a.gracePeriod.nanos < millennium) (first second : KeyId × Rsa.PrivateKey)
    (id : TokenId) :
    ((latest a ⟨min start.nanos 0⟩ first second id).relisting c).Dated c a ⟨min start.nanos 0⟩ := by
  rw [Instant.inRange_iff] at named
  -- The history begins before the epoch, as dates go on for long after it.
  have room : Instant.inRange (min start.nanos 0) = true := by
    refine Instant.inRange_iff.mpr ?_
    simp only [Instant.firstSecond, Instant.lastSecond, nanosPerSecond] at named ⊢
    omega
  have accepted : c.validate a ⟨min start.nanos 0⟩ = .ok () :=
    validate_earlier valid (Int.min_le_left _ _) room
  obtain ⟨-, tokensValid, keysValid, -⟩ := validate_eq_ok_iff.mp accepted
  rw [validateTokens_eq_ok_iff] at tokensValid
  rw [AuthorityConfig.validate_eq_ok_iff] at keysValid
  obtain ⟨signs, lingers, span, -⟩ := keysValid
  have within : ∀ v ∈ ((latest a ⟨min start.nanos 0⟩ first second id).relisting c).history,
      min start.nanos 0 ≤ v.now.nanos ∧ v.now.nanos < 2 * millennium :=
    fun _ => within_latest signs lingers keys grace (Int.min_le_right _ _)
  have reach : ∀ now span : Int, min start.nanos 0 ≤ now → now < 2 * millennium → 0 ≤ span →
      span < 2 * millennium → Instant.inRange (now + span) = true := by
    intro now span after before nonnegative short
    refine Instant.inRange_iff.mpr ?_
    simp only [Instant.firstSecond, Instant.lastSecond, millennium, nanosPerSecond] at *
    omega
  refine ⟨accepted, fun v member => (within v member).1, fun v member => ?_, fun v member => ?_⟩
  · obtain ⟨after, before⟩ := within v member
    exact validateTokens_eq_ok_iff.mpr
      ⟨tokensValid.1, reach _ _ after before (by omega) (by omega)⟩
  · obtain ⟨after, before⟩ := within v member
    refine AuthorityConfig.validate_eq_ok_iff.mpr
      ⟨signs, lingers, span, reach _ _ after before ?_ ?_⟩
    · simp only [AuthorityConfig.keyLifetime, Span.add]
      omega
    · simp only [AuthorityConfig.keyLifetime, Span.add]
      omega

/-- A token's key is listed for as long as the token is valid, in every history of a control server,
    if the grace period of keys is no shorter than tokens are valid.  If it is shorter by two
    seconds there is a history in which it is not. -/
theorem listed_while_valid (valid : c.validate a start = .ok ())
    (named : Instant.inRange start.nanos = true) :
    (c.tokenValidity.nanos ≤ a.gracePeriod.nanos →
      ∀ (r : Relisting) (key : SigningKey) (token : Octets), r.Occurs c a key token →
        key.sign (r.claims c a) = .ok token ∧
        ((∃ reason, r.listing.fresh = .error reason ∧
            r.listed c a = .error (.key (.generation reason))) ∨
          ∃ records, r.listed c a = .ok (.records records) ∧ key.published ∈ records)) ∧
    (c.tokenValidity.nanos < millennium → a.keyValidity.nanos < millennium →
      a.gracePeriod.nanos < millennium →
      a.gracePeriod.nanos + 2 * nanosPerSecond ≤ c.tokenValidity.nanos →
      ∀ first second : KeyId × Rsa.PrivateKey, first.1 ≠ second.1 → first.2.maySign = true →
        ∃ (begin : Instant) (r : Relisting) (key : SigningKey) (token : Octets)
          (records : List PublishedKey),
          r.Dated c a begin ∧ r.Occurs c a key token ∧ r.listed c a = .ok (.records records) ∧
            ∀ record ∈ records, record.keyId ≠ key.keyId) := by
  obtain ⟨-, -, keysValid, -⟩ := validate_eq_ok_iff.mp valid
  obtain ⟨signs, lingers, -, -⟩ := AuthorityConfig.validate_eq_ok_iff.mp keysValid
  refine ⟨fun covered r key token occurs => ?_,
    fun tokens keys grace uncovered first second different fit => ?_⟩
  · exact ⟨occurs.signed signs lingers, occurs.listed signs lingers covered⟩
  · -- Beginning at second zero or before it leaves room for every date that follows.
    have fits := fits_latest signs lingers uncovered different fit ⟨min start.nanos 0⟩ ⟨""⟩
    obtain ⟨token, occurs⟩ := fits.occurs
    obtain ⟨records, listed, absent⟩ := fits.unlisted (by simp only [latest]; omega)
    exact ⟨_, _, _, token, records,
      dated_latest valid named tokens keys grace first second ⟨""⟩, occurs, listed, absent⟩

/-- There are keys that may sign: for example one of 2048 bits with the two greatest primes of half
    the length. -/
theorem exists_maySign : ∃ secret : Rsa.PrivateKey, secret.maySign = true :=
  let p := 2 ^ 1024 - 105
  let q := 2 ^ 1024 - 179
  ⟨⟨p * q, 65537, (54058 * ((p - 1) * (q - 1)) + 1) / 65537, p, q⟩, by decide +kernel⟩

/-- With the settings by default every token is covered; without a grace period there is one that is
    not. -/
theorem listed_while_valid_examples :
    (∃ (r : Relisting) (key : SigningKey) (token : Octets) (records : List PublishedKey),
      r.Occurs {} {} key token ∧ r.listed {} {} = .ok (.records records) ∧
        key.published ∈ records) ∧
    ∃ (begin : Instant) (r : Relisting) (key : SigningKey) (token : Octets)
      (records : List PublishedKey),
      r.Dated {} { gracePeriod := .zero } begin ∧ r.Occurs {} { gracePeriod := .zero } key token ∧
        r.listed {} { gracePeriod := .zero } = .ok (.records records) ∧
        ∀ record ∈ records, record.keyId ≠ key.keyId := by
  have named : Instant.inRange (Instant.ofSeconds 0).nanos = true := by decide
  have valid : ({} : ControlConfig).validate {} (.ofSeconds 0) = .ok () := rfl
  have valid' : ({} : ControlConfig).validate { gracePeriod := .zero } (.ofSeconds 0) = .ok () :=
    rfl
  obtain ⟨secret, fit⟩ := exists_maySign
  constructor
  · let s : ThreeVisits := ⟨.ofSeconds 0, .ofSeconds 1, .ofSeconds 2, (⟨"a"⟩, secret),
      (⟨"b"⟩, secret), ⟨""⟩⟩
    have fits : s.Fits {} {} := ⟨by decide, by decide, by simp [s], fit, of_decide_eq_true rfl,
      of_decide_eq_true rfl, of_decide_eq_true rfl, of_decide_eq_true rfl⟩
    obtain ⟨token, occurs⟩ := fits.occurs
    obtain ⟨_, ⟨reason, failed, _⟩ | ⟨records, listed, member⟩⟩ :=
      (listed_while_valid valid named).1 (by decide) _ _ token occurs
    · contradiction
    · exact ⟨_, _, token, records, occurs, listed, member⟩
  · exact (listed_while_valid valid' named).2 (by decide) (by decide) (by decide)
      (by decide) (⟨"a"⟩, secret) (⟨"b"⟩, secret) (by simp) fit

end ControlConfig

end Tollgate
