import Tollgate.Proofs.Key.KeySet
import Tollgate.Proofs.Key.Publication

/-! # What is listed at any time

Whoever asks an authority over a fleet store for the published keys gets a list that is never empty:
the current key is made first if there is none, and its record lasts at least as long as the key
signs.  The list is in the strict order of identifiers, and every record in it can be sent and read.

The invariant is `Authority.WellKept`.  What anybody can do to the authority keeps it, and in every
state that has it a listing succeeds (`Authority.WellKept.publishes`) and, when it is repeated at
the same time, gives the same list again and changes nothing more (`Authority.Publishes.again`).
-/

namespace Tollgate

/-! ## New keys -/

def NewKey.Named (fresh : NewKey) : Prop := ∃ id secret, fresh = .ok (id, secret) ∧ id.text ≠ ""

/-- The record of a key that is made at a time that can be named can be sent and read. -/
theorem AuthorityConfig.readable_newKey {c : AuthorityConfig} {now : Instant} {id : KeyId}
    {secret : Rsa.PrivateKey} (signs : 0 < c.keyValidity.nanos)
    (short : c.keyValidity.nanos ≤ Span.longest) (dated : Instant.inRange now.nanos = true)
    (named : id.text ≠ "") :
    (SigningKey.mk id secret (now.add c.keyValidity)).published.Readable := by
  have limit : (twoTo 63 : Int) = 9223372036854775808 := by decide
  rw [Instant.inRange_iff] at dated
  simp only [Instant.firstSecond, Instant.lastSecond, nanosPerSecond] at dated
  simp only [Span.longest, limit] at short
  refine ⟨named, ?_, ?_⟩
  · simp only [SigningKey.published, Instant.seconds_eq, Instant.add, limit]
    omega
  · simp only [SigningKey.published, Instant.seconds_eq, Instant.add, limit]
    omega

namespace Authority

/-! ## Records in order -/

theorem insertRecord_of_above {k : PublishedKey} {records : List PublishedKey}
    (above : ∀ record ∈ records, record.keyId < k.keyId) :
    insertRecord k records = records ++ [k] := by
  induction records with
  | nil => rfl
  | cons head rest ih =>
    have below : head.keyId < k.keyId := above head List.mem_cons_self
    have notAbove : ¬ k.keyId < head.keyId := fun before =>
      Std.Irrefl.irrefl (r := (· < ·)) head.keyId (Trans.trans below before)
    rw [insertRecord, if_neg notAbove,
      ih fun record later => above record (List.mem_cons_of_mem head later)]
    rfl

/-- Records that are in order stay as they are. -/
theorem sortRecords_of_increasing {records : List PublishedKey}
    (increasing : records.Pairwise fun k l => k.keyId < l.keyId) :
    sortRecords records = records := by
  -- For the induction, some records were put in already.
  have inserted : ∀ sorted : List PublishedKey,
      (sorted ++ records).Pairwise (fun k l => k.keyId < l.keyId) →
      records.foldl (fun sorted k => insertRecord k sorted) sorted = sorted ++ records := by
    clear increasing
    induction records with
    | nil => simp
    | cons head rest ih =>
      intro sorted increasing
      obtain ⟨-, -, apart⟩ := List.pairwise_append.mp increasing
      rw [List.foldl_cons, insertRecord_of_above fun record member =>
        apart record member head List.mem_cons_self]
      rw [ih]
      · simp
      · simpa using increasing
  exact inserted [] (by simpa using increasing)

/-! ## The invariant -/

/-- What holds of an authority over a fleet store at any time: the key in the slot is in the store
    until its record ends, and the records in the store stand in the order of their identifiers and
    can be sent and read. -/
structure WellKept (c : AuthorityConfig) (a : Authority FleetStore) (now : Instant) : Prop where
  fleet : a.OverFleet c
  short : c.keyValidity.nanos ≤ Span.longest
  covers : a.Covers c now
  increasing : Sorted.Increasing a.stored.keys
  owned : ∀ entry ∈ a.stored.keys, entry.2.value.keyId = entry.1
  readable : ∀ entry ∈ a.stored.keys, entry.2.value.Readable

variable {c : AuthorityConfig} {a a' : Authority FleetStore} {now : Instant} {fresh : NewKey}

namespace WellKept

theorem later {later : Instant} (kept : a.WellKept c now) (order : now.nanos ≤ later.nanos) :
    a.WellKept c later :=
  { kept with covers := kept.covers.later order }

/-- Nothing but the keys and the slot matters. -/
theorem congr (kept : a.WellKept c now) (config : a'.config = a.config) (store : a'.store = a.store)
    (keys : a'.stored.keys = a.stored.keys) (current : a'.current = a.current) :
    a'.WellKept c now where
  fleet := ⟨config ▸ kept.fleet.config, store ▸ kept.fleet.store, kept.fleet.signs,
    kept.fleet.lingers⟩
  short := kept.short
  covers := by
    have covers := kept.covers
    unfold Covers at covers ⊢
    rwa [keys, current]
  increasing := by rw [keys]; exact kept.increasing
  owned := by rw [keys]; exact kept.owned
  readable := by rw [keys]; exact kept.readable

theorem purged (kept : a.WellKept c now) : (a.purged now).WellKept c now where
  fleet := ⟨kept.fleet.config, kept.fleet.store, kept.fleet.signs, kept.fleet.lingers⟩
  short := kept.short
  covers := fun key value live => mem_purged.mpr ⟨kept.covers key value live, live⟩
  increasing := kept.increasing.filter _
  owned := fun entry member => kept.owned entry (mem_purged.mp member).1
  readable := fun entry member => kept.readable entry (mem_purged.mp member).1

theorem of_prepares {result : Except AuthorityFault SigningKey} {ids : List KeyId}
    (kept : a.WellKept c now) (prepares : a.Prepares c now fresh result a' ids)
    (dated : Instant.inRange now.nanos = true) (named : fresh.Named) : a'.WellKept c now := by
  have fleet := prepares.overFleet kept.fleet
  have covers := prepares.covers kept.covers
  cases prepares with
  | live | barren => exact kept
  | @made id secret due drawn =>
    obtain ⟨_, _, same, nonempty⟩ := named
    cases drawn.symm.trans same
    exact ⟨fleet, kept.short, covers, Sorted.increasing_insert kept.increasing,
      Sorted.forall_mem_insert rfl kept.owned,
      Sorted.forall_mem_insert
        (AuthorityConfig.readable_newKey kept.fleet.signs kept.short dated nonempty)
        kept.readable⟩

theorem currentKey (kept : a.WellKept c now) (dated : Instant.inRange now.nanos = true)
    (named : fresh.Named) : (a.currentKey now fresh).2.WellKept c now :=
  kept.of_prepares (prepares_currentKey kept.fleet ⟨now, fresh, ⟨""⟩, .currentKey⟩) dated named

theorem visit {v : Visit} (kept : a.WellKept c v.now) (dated : Instant.inRange v.now.nanos = true)
    (named : v.fresh.Named) : (a.visit v).2.WellKept c v.now := by
  have prepared := kept.currentKey dated named
  obtain same | same := visit_snd kept.fleet v
  · rw [same]
    exact prepared
  · rw [same]
    exact prepared.purged

end WellKept

/-! ## A listing -/

/-- Listing the published keys of an authority gives records, with the current key among them, and
    leads to another authority. -/
structure Publishes (c : AuthorityConfig) (a : Authority FleetStore) (now : Instant)
    (fresh : NewKey) (key : SigningKey) (records : List PublishedKey)
    (a' : Authority FleetStore) : Prop where
  current : (a.currentKey now fresh).1 = .ok key
  listed : a.publishableKeys now fresh = (.ok records, a')
  mem : key.published ∈ records
  increasing : records.Pairwise fun k l => k.keyId < l.keyId
  readable : ∀ record ∈ records, record.Readable
  kept : a'.WellKept c now
  /-- The same listing once more. -/
  again : ∀ fresh, a'.publishableKeys now fresh = (.ok records, a')

theorem publishableKeys_of_current {key : SigningKey} (fleet : a.OverFleet c)
    (current : (a.currentKey now fresh).1 = .ok key) :
    a.publishableKeys now fresh =
      (.ok (sortRecords ((a.currentKey now fresh).2.stored.activeKeys now).1),
        (a.currentKey now fresh).2.purged now) := by
  have store := a.currentKey_store now fresh
  rw [fleet.store] at store
  unfold publishableKeys
  generalize a.currentKey now fresh = outcome at current store
  obtain ⟨result, a'⟩ := outcome
  cases current
  simp only at store
  simp [store, FleetStore.keyStore, purged]

theorem purged_purged (a : Authority FleetStore) (now : Instant) :
    (a.purged now).purged now = a.purged now := by
  simp [purged, FleetStore.activeKeys]

theorem activeKeys_purged (a : Authority FleetStore) (now : Instant) :
    ((a.purged now).stored.activeKeys now).1 = (a.stored.activeKeys now).1 := by
  simp [purged, FleetStore.activeKeys]

/-- There is a current key, and it signs. -/
theorem exists_currentKey (fleet : a.OverFleet c) (named : fresh.Named) :
    ∃ key, (a.currentKey now fresh).1 = .ok key ∧
      (a.currentKey now fresh).2.current.live? now = some key := by
  cases looked : a.current.live? now with
  | some key =>
    rw [currentKey_of_live looked]
    exact ⟨key, rfl, looked⟩
  | none =>
    obtain ⟨id, secret, rfl, _⟩ := named
    rw [currentKey_of_due fleet looked]
    refine ⟨_, rfl, SigningSlot.live?_eq_some_iff.mpr ⟨rfl, decide_eq_false ?_⟩⟩
    have signs := fleet.signs
    simp only [Instant.add]
    omega

theorem WellKept.publishes (kept : a.WellKept c now) (dated : Instant.inRange now.nanos = true)
    (named : fresh.Named) : ∃ key records a', a.Publishes c now fresh key records a' := by
  obtain ⟨key, current, live⟩ : ∃ key, (a.currentKey now fresh).1 = .ok key ∧
      (a.currentKey now fresh).2.current.live? now = some key := exists_currentKey kept.fleet named
  have prepared := kept.currentKey dated named
  have listed := publishableKeys_of_current kept.fleet current
  generalize (a.currentKey now fresh).2 = a' at prepared listed live
  -- The store lists its entries by their names, and each is kept under the name of its record.
  have order : (a'.stored.activeKeys now).1.Pairwise fun k l => k.keyId < l.keyId := by
    refine List.pairwise_map.mpr (prepared.purged.increasing.imp_of_mem ?_)
    intro entry entry' member member' below
    rw [prepared.purged.owned entry member, prepared.purged.owned entry' member']
    exact below
  have sorted := sortRecords_of_increasing order
  refine ⟨key, (a'.stored.activeKeys now).1, a'.purged now, current, sorted ▸ listed, ?_, order, ?_,
    prepared.purged, fun fresh' => ?_⟩
  · -- The record of the current key lasts longer than the key signs.
    obtain ⟨value, unexpired⟩ := SigningSlot.live?_eq_some_iff.mp live
    have signs := of_decide_eq_false unexpired
    have lingers := kept.fleet.lingers
    have lasts : (c.entry key).2.isLive now = true :=
      AuthorityConfig.isLive_entry_iff.mpr (by omega)
    exact sorted ▸ mem_listing.mpr ⟨_, _, prepared.covers key value lasts, lasts⟩
  · intro record member
    obtain ⟨id, ends, found, _⟩ := mem_listing.mp (sorted.symm ▸ member)
    exact prepared.readable _ found
  · -- The current key signs, and what has ended was dropped.
    have again : (a'.purged now).currentKey now fresh' = _ := currentKey_of_live live
    have listed' := publishableKeys_of_current prepared.purged.fleet (congrArg Prod.fst again)
    rw [again, activeKeys_purged, purged_purged, sorted] at listed'
    exact listed'

end Authority

end Tollgate
