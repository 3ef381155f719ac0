import Tollgate.Proofs.Key.Encoding
import Tollgate.Proofs.Key.KeyMap
import Tollgate.Proofs.Key.Publication

/-! # Where published keys come from

A record that an authority lists was in its store at first, or it is the record of a key that the
authority made (`Stems`), over any store that lists nothing but what it was given
(`KeyStore.Faithful`).  The invariant is `Authority.Backed`: this holds of the records in the store,
and the key in the slot is one that was made.
-/

namespace Tollgate

/-! ## Stores -/

/-- A store lists only records that it was given.  `holds` tells which records are in a state of the
    store: they come in by being put there, and a listing adds none. -/
structure KeyStore.Faithful {σ : Type} (store : KeyStore σ) (holds : σ → PublishedKey → Prop) :
    Prop where
  put : ∀ state now key ttl record, holds (store.put state now key ttl).2 record →
    record = key ∨ holds state record
  kept : ∀ state now record, holds (store.active state now).2 record → holds state record
  listed : ∀ state now records, (store.active state now).1 = .ok records →
    ∀ record ∈ records, holds state record

def FleetStore.Holds (f : FleetStore) (record : PublishedKey) : Prop :=
  ∃ entry ∈ f.keys, entry.2.value = record

theorem FleetStore.faithful : FleetStore.keyStore.Faithful FleetStore.Holds where
  put := by
    intro f now key ttl record held
    simp only [keyStore, putKey] at held
    split at held
    · next f' stored =>
      split at stored
      · contradiction
      · cases stored
        obtain ⟨entry, member, rfl⟩ := held
        -- An entry is the one that was put or one of those before.
        obtain rfl | before := Sorted.eq_or_mem_of_mem_insert member
        · exact .inl rfl
        · exact .inr ⟨entry, before, rfl⟩
    · exact .inr held
  kept := by
    rintro f now record ⟨entry, member, rfl⟩
    exact ⟨entry, (List.mem_filter.mp member).1, rfl⟩
  listed := by
    intro f now records answered record member
    cases answered
    obtain ⟨entry, among, rfl⟩ := List.mem_map.mp member
    exact ⟨entry, (List.mem_filter.mp among).1, rfl⟩

/-! ## The keys that an authority makes -/

def SigningKey.draw (k : SigningKey) : KeyId × Rsa.PrivateKey := (k.keyId, k.secret)

/-- Where a record comes from: it is an old one, or the record of a key that was made. -/
def Stems (old : PublishedKey → Prop) (made : List (KeyId × Rsa.PrivateKey))
    (record : PublishedKey) : Prop :=
  old record ∨ ∃ key : SigningKey, key.published = record ∧ key.draw ∈ made

theorem Stems.mono {old : PublishedKey → Prop} {made : List (KeyId × Rsa.PrivateKey)}
    {record : PublishedKey} (stems : Stems old made record)
    (more : List (KeyId × Rsa.PrivateKey)) : Stems old (made ++ more) record :=
  stems.imp_right fun ⟨key, same, among⟩ => ⟨key, same, List.mem_append_left _ among⟩

namespace Authority

variable {σ : Type}

def makes (a : Authority σ) (now : Instant) (fresh : NewKey) : List (KeyId × Rsa.PrivateKey) :=
  match a.current.live? now, fresh with
  | none, .ok drawn => [drawn]
  | _, _ => []

/-- The key in the slot was made, and so were those of the records in the store that are not old. -/
structure Backed (holds : σ → PublishedKey → Prop) (old : PublishedKey → Prop)
    (made : List (KeyId × Rsa.PrivateKey)) (a : Authority σ) : Prop where
  faithful : a.store.Faithful holds
  slot : ∀ key, a.current.value = some key → key.draw ∈ made
  stored : ∀ record, holds a.stored record → Stems old made record

variable {holds : σ → PublishedKey → Prop} {old : PublishedKey → Prop}
  {made : List (KeyId × Rsa.PrivateKey)} {a : Authority σ}

namespace Backed

theorem mono (backed : a.Backed holds old made) (more : List (KeyId × Rsa.PrivateKey)) :
    a.Backed holds old (made ++ more) where
  faithful := backed.faithful
  slot key value := List.mem_append_left _ (backed.slot key value)
  stored record held := (backed.stored record held).mono more

theorem rotate (backed : a.Backed holds old made) (now : Instant) {id : KeyId}
    {secret : Rsa.PrivateKey} (among : (id, secret) ∈ made) :
    (a.rotate now (.ok (id, secret))).2.Backed holds old made ∧
      ∀ key, (a.rotate now (.ok (id, secret))).1 = .ok key → key.draw ∈ made := by
  let key : SigningKey := ⟨id, secret, now.add a.config.keyValidity⟩
  have rotated : a.rotate now (.ok (id, secret)) =
      let answer := a.store.put a.stored now key.published a.config.keyLifetime
      ((a.current.settle key answer.1).1,
        { a with stored := answer.2, current := (a.current.settle key answer.1).2 }) := rfl
  rw [rotated]
  have given := backed.faithful.put a.stored now key.published a.config.keyLifetime
  generalize a.store.put a.stored now key.published a.config.keyLifetime = answer at given
  obtain ⟨outcome, stored⟩ := answer
  -- What the store has now was there before, or it is the record of the new key.
  have held : ∀ record, holds stored record → Stems old made record := by
    intro record held
    obtain rfl | earlier := given record held
    · exact .inr ⟨key, rfl, among⟩
    · exact backed.stored record earlier
  cases outcome with
  | error fault => exact ⟨⟨backed.faithful, backed.slot, held⟩, by simp [SigningSlot.settle]⟩
  | ok =>
    refine ⟨⟨backed.faithful, fun key value => ?_, held⟩, fun key same => ?_⟩
    · cases value
      exact among
    · cases same
      exact among

theorem currentKey (backed : a.Backed holds old made) (now : Instant) (fresh : NewKey) :
    (a.currentKey now fresh).2.Backed holds old (made ++ a.makes now fresh) ∧
      ∀ key, (a.currentKey now fresh).1 = .ok key → key.draw ∈ made ++ a.makes now fresh := by
  have before := backed.mono (a.makes now fresh)
  rw [currentKey_eq]
  cases looked : a.current.live? now with
  -- Nothing is made while the key in the slot lives.
  | some key =>
    refine ⟨before, fun key' same => ?_⟩
    cases same
    exact before.slot key (SigningSlot.live?_eq_some_iff.mp looked).1
  | none =>
    cases fresh with
    | error reason => exact ⟨before, by simp [Authority.rotate, AuthorityConfig.newKey]⟩
    | ok drawn => exact before.rotate now (by simp [makes, looked])

theorem active (backed : a.Backed holds old made) (now : Instant) :
    { a with stored := (a.store.active a.stored now).2 : Authority σ }.Backed holds old made :=
  ⟨backed.faithful, backed.slot, fun record held =>
    backed.stored record (backed.faithful.kept a.stored now record held)⟩

theorem visit (backed : a.Backed holds old made) (v : Visit) :
    (a.visit v).2.Backed holds old (made ++ a.makes v.now v.fresh) := by
  have current := (backed.currentKey v.now v.fresh).1
  unfold Authority.visit
  rw [perform_snd]
  generalize a.currentKey v.now v.fresh = outcome at current
  obtain ⟨result, a'⟩ := outcome
  cases v.errand with
  | currentKey | token => exact current
  | publishableKeys =>
    cases result with
    | error => exact current
    | ok => exact current.active v.now

end Backed

theorem publishableKeys_eq_ok {now : Instant} {fresh : NewKey} {records : List PublishedKey}
    (listed : (a.publishableKeys now fresh).1 = .ok records) :
    ∃ found, a.activeAnswer now fresh = .ok found ∧ records = sortRecords found := by
  have performed := a.perform_fst now fresh ⟨""⟩ .publishableKeys
  have replied : (a.perform now fresh ⟨""⟩ .publishableKeys).1 = .ok (.records records) :=
    congrArg (Except.map Reply.records) listed
  rw [replied] at performed
  generalize (a.currentKey now fresh).1 = result at performed
  generalize a.activeAnswer now fresh = answer at performed
  cases result with
  | error fault => cases performed
  | ok key =>
    cases answer with
    | error fault => cases performed
    | ok found =>
      cases performed
      exact ⟨found, rfl, rfl⟩

theorem Backed.publishableKeys (backed : a.Backed holds old made) {now : Instant} {fresh : NewKey}
    {records : List PublishedKey} (listed : (a.publishableKeys now fresh).1 = .ok records)
    {record : PublishedKey} (member : record ∈ records) :
    Stems old (made ++ a.makes now fresh) record := by
  have current := (backed.currentKey now fresh).1
  -- The store is asked after a key was made, if one was due.
  obtain ⟨found, answered, rfl⟩ := publishableKeys_eq_ok listed
  rw [activeAnswer, ← a.currentKey_store now fresh] at answered
  exact current.stored record
    (current.faithful.listed _ now found answered record (mem_sortRecords.mp member))

/-! ## The authority as a source of keys -/

theorem publicKeys_snd (a : Authority σ) (now : Instant) (fresh : NewKey) (id : TokenId) :
    (a.publicKeys now fresh).2 = (a.visit ⟨now, fresh, id, .publishableKeys⟩).2 := by
  unfold publicKeys
  show _ = (a.publishableKeys now fresh).2
  cases a.publishableKeys now fresh with
  | mk result a' => cases result <;> rfl

theorem publicKeys_eq_ok_iff {now : Instant} {fresh : NewKey} {keys : KeyMap} :
    (a.publicKeys now fresh).1 = .ok keys ↔
      ∃ records, (a.publishableKeys now fresh).1 = .ok records ∧ keys = keyMap records := by
  unfold publicKeys
  cases a.publishableKeys now fresh with
  | mk result a' => cases result <;> simp [eq_comm]

end Authority

end Tollgate
