import Mathlib.Data.List.Induction
import Tollgate.Key.Published

/-! # Keys of a list of records

Of a list of records `keyMap` keeps the keys that can be used.  A record that cannot
(`PublishedKey.Unusable`) is passed over wherever it stands: it takes no place in the map, and it
does not hide the key of an earlier record with the same identifier.  So the last usable record of
an identifier decides (`keyMap_unshadowed`).

The map is built from the front, and whether a record counts is decided by those behind it.  The
proofs take the list apart at its end, where the last record either replaces what is bound to its
identifier or leaves everything as it was (`find?_keyMap_of_usable`, `find?_keyMap_of_passed`).
-/

namespace Tollgate

/-! ## Unusable records -/

/-- A record from which no key can be read. -/
inductive PublishedKey.Unusable (k : PublishedKey) : Prop
  | otherType (other : equalIgnoringCase k.kind keyType = false)
  | badText {fault : Base64.Fault}
      (unread : Base64.decode .standard .required (Octets.ofString k.encoded) = .error fault)
  | badOctets {octets : Octets}
      (read : Base64.decode .standard .required (Octets.ofString k.encoded) = .ok octets)
      (noKey : Rsa.PublicKey.ofDer? octets = none)

theorem PublishedKey.unusable_iff {k : PublishedKey} :
    k.Unusable ↔ ∃ fault, k.verifyingKey = .error fault := by
  unfold verifyingKey
  constructor
  · intro unusable
    cases unusable with
    | otherType other => exact ⟨_, if_neg (by simp [other])⟩
    | badText unread =>
      split
      · exact ⟨_, by rw [unread]⟩
      · exact ⟨_, rfl⟩
    | badOctets read noKey =>
      split
      · exact ⟨.badPublicKey, by simp only [read, noKey]⟩
      · exact ⟨_, rfl⟩
  · rintro ⟨fault, failed⟩
    split at failed
    · split at failed
      · next unread => exact .badText unread
      · next read =>
        split at failed
        · contradiction
        · next noKey => exact .badOctets read noKey
    · next other => exact .otherType (by simpa using other)

theorem PublishedKey.not_unusable {k : PublishedKey} {key : Rsa.PublicKey}
    (usable : k.verifyingKey = .ok key) : ¬k.Unusable := by
  intro unusable
  obtain ⟨fault, failed⟩ := unusable_iff.mp unusable
  rw [usable] at failed
  contradiction

/-! ## One record more -/

variable {records : List PublishedKey} {record : PublishedKey} {id : KeyId} {key : Rsa.PublicKey}

theorem keyMap_append_singleton (records : List PublishedKey) (record : PublishedKey) :
    keyMap (records ++ [record]) = (keyMap records).addRecord record := by
  rw [keyMap, List.foldl_append]
  rfl

theorem KeyMap.addRecord_of_usable {m : KeyMap} (usable : record.verifyingKey = .ok key) :
    m.addRecord record = Sorted.insert record.keyId key m := by
  rw [addRecord, usable]

theorem KeyMap.addRecord_of_unusable {m : KeyMap} (unusable : record.Unusable) :
    m.addRecord record = m := by
  obtain ⟨fault, failed⟩ := PublishedKey.unusable_iff.mp unusable
  rw [addRecord, failed]

theorem increasing_keyMap (records : List PublishedKey) : Sorted.Increasing (keyMap records) := by
  induction records using List.reverseRecOn with
  | nil => exact .nil
  | append_singleton records record ih =>
    rw [keyMap_append_singleton, KeyMap.addRecord]
    split
    · exact Sorted.increasing_insert ih
    · exact ih

theorem find?_keyMap_of_usable (usable : record.verifyingKey = .ok key) :
    Sorted.find? record.keyId (keyMap (records ++ [record])) = some key := by
  rw [keyMap_append_singleton, KeyMap.addRecord_of_usable usable]
  exact Sorted.find?_insert_self (increasing_keyMap records)

theorem find?_keyMap_of_passed (passed : record.keyId = id → record.Unusable) :
    Sorted.find? id (keyMap (records ++ [record])) = Sorted.find? id (keyMap records) := by
  rw [keyMap_append_singleton]
  cases usable : record.verifyingKey with
  | error fault =>
    rw [KeyMap.addRecord_of_unusable (PublishedKey.unusable_iff.mpr ⟨fault, usable⟩)]
  | ok key =>
    have other : id ≠ record.keyId := fun same =>
      PublishedKey.not_unusable usable (passed same.symm)
    rw [KeyMap.addRecord_of_usable usable]
    exact Sorted.find?_insert_of_ne (increasing_keyMap records) other

/-- A record is usable for an identifier, or it is passed over. -/
theorem usable_or_passed (record : PublishedKey) (id : KeyId) :
    (∃ key, record.keyId = id ∧ record.verifyingKey = .ok key) ∨
      (record.keyId = id → record.Unusable) := by
  cases usable : record.verifyingKey with
  | ok key =>
    by_cases same : record.keyId = id
    · exact .inl ⟨key, same, rfl⟩
    · exact .inr fun named => absurd named same
  | error fault => exact .inr fun _ => PublishedKey.unusable_iff.mpr ⟨fault, usable⟩

/-! ## The record that decides -/

def LastUsable (records : List PublishedKey) (id : KeyId) (key : Rsa.PublicKey) : Prop :=
  ∃ before record after, records = before ++ record :: after ∧ record.keyId = id ∧
    record.verifyingKey = .ok key ∧ ∀ later ∈ after, later.keyId = id → later.Unusable

/-- Where a list with one more record is split, that record is the one at the split, or the last of
    those behind it. -/
theorem of_append_singleton_eq {before after : List PublishedKey} {chosen : PublishedKey}
    (split : records ++ [record] = before ++ chosen :: after) :
    chosen = record ∧ after = [] ∨
      ∃ rest, after = rest ++ [record] ∧ records = before ++ chosen :: rest := by
  rcases List.eq_nil_or_concat after with rfl | ⟨rest, last, rfl⟩
  · obtain ⟨-, same⟩ := List.append_inj' split rfl
    exact .inl ⟨(List.singleton_inj.mp same).symm, rfl⟩
  · rw [List.concat_eq_append, ← List.cons_append, ← List.append_assoc] at split
    obtain ⟨front, same⟩ := List.append_inj' split rfl
    obtain rfl := List.singleton_inj.mp same
    exact .inr ⟨rest, List.concat_eq_append, front⟩

theorem lastUsable_of_usable (named : record.keyId = id) (usable : record.verifyingKey = .ok key)
    {found : Rsa.PublicKey} : LastUsable (records ++ [record]) id found ↔ key = found := by
  constructor
  · rintro ⟨before, chosen, after, split, -, usable', passed⟩
    obtain ⟨rfl, -⟩ | ⟨rest, rfl, -⟩ := of_append_singleton_eq split
    · exact Except.ok.inj (usable.symm.trans usable')
    · -- The new record would stand behind the chosen one, and those behind it are unusable.
      exact absurd (passed record (by simp) named) (PublishedKey.not_unusable usable)
  · rintro rfl
    exact ⟨records, record, [], rfl, named, usable, by simp⟩

theorem lastUsable_of_passed (passed : record.keyId = id → record.Unusable) :
    LastUsable (records ++ [record]) id key ↔ LastUsable records id key := by
  constructor
  · rintro ⟨before, chosen, after, split, named, usable, passed'⟩
    obtain ⟨rfl, -⟩ | ⟨rest, rfl, rfl⟩ := of_append_singleton_eq split
    · exact absurd (passed named) (PublishedKey.not_unusable usable)
    · exact ⟨before, chosen, rest, rfl, named, usable, fun later among =>
        passed' later (List.mem_append_left _ among)⟩
  · rintro ⟨before, chosen, after, rfl, named, usable, passed'⟩
    refine ⟨before, chosen, after ++ [record], by simp, named, usable, fun later among => ?_⟩
    rcases List.mem_append.mp among with earlier | final
    · exact passed' later earlier
    · obtain rfl := List.mem_singleton.mp final
      exact passed

theorem find?_keyMap_eq_some_iff :
    Sorted.find? id (keyMap records) = some key ↔ LastUsable records id key := by
  induction records using List.reverseRecOn with
  | nil => simp [keyMap, Sorted.find?, LastUsable]
  | append_singleton records record ih =>
    obtain ⟨found, rfl, usable⟩ | passed := usable_or_passed record id
    · rw [find?_keyMap_of_usable usable, lastUsable_of_usable rfl usable, Option.some_inj]
    · rw [find?_keyMap_of_passed passed, lastUsable_of_passed passed, ih]

theorem find?_keyMap_eq_none_iff :
    Sorted.find? id (keyMap records) = none ↔
      ∀ record ∈ records, record.keyId = id → record.Unusable := by
  induction records using List.reverseRecOn with
  | nil => simp [keyMap, Sorted.find?]
  | append_singleton records record ih =>
    obtain ⟨found, rfl, usable⟩ | passed := usable_or_passed record id
    · rw [find?_keyMap_of_usable usable]
      refine ⟨fun missing => by contradiction, fun all => ?_⟩
      exact absurd (all record (by simp) rfl) (PublishedKey.not_unusable usable)
    · rw [find?_keyMap_of_passed passed, ih, List.forall_mem_append, List.forall_mem_singleton,
        and_iff_left passed]

/-- Every key of a key map is the key of a record with its identifier. -/
theorem exists_record_of_mem_keyMap {entry : KeyId × Rsa.PublicKey}
    (member : entry ∈ keyMap records) :
    ∃ record ∈ records, record.keyId = entry.1 ∧ record.verifyingKey = .ok entry.2 := by
  have found := (Sorted.find?_eq_some_iff (increasing_keyMap records)).mpr member
  obtain ⟨before, record, after, rfl, named, usable, -⟩ := find?_keyMap_eq_some_iff.mp found
  exact ⟨record, by simp, named, usable⟩

/-- The identifier of a usable record leads to a key. -/
theorem exists_find?_keyMap (member : record ∈ records) (usable : record.verifyingKey = .ok key) :
    ∃ key', Sorted.find? record.keyId (keyMap records) = some key' := by
  refine Option.ne_none_iff_exists'.mp fun missing => ?_
  exact PublishedKey.not_unusable usable (find?_keyMap_eq_none_iff.mp missing record member rfl)

/-! ## Unusable records in between -/

/-- A list with unusable records put in, anywhere and any number of them. -/
inductive Padded : List PublishedKey → List PublishedKey → Prop
  | nil : Padded [] []
  | keep (record : PublishedKey) {records more : List PublishedKey} (padded : Padded records more) :
      Padded (record :: records) (record :: more)
  | put {record : PublishedKey} {records more : List PublishedKey} (unusable : record.Unusable)
      (padded : Padded records more) : Padded records (record :: more)

theorem keyMap_eq_of_padded {more : List PublishedKey} (padded : Padded records more) :
    keyMap more = keyMap records := by
  -- A map that is being built does not see the records that were put in.
  have built : ∀ m : KeyMap, more.foldl KeyMap.addRecord m = records.foldl KeyMap.addRecord m := by
    induction padded with
    | nil => exact fun _ => rfl
    | keep record _ ih => exact fun m => ih (m.addRecord record)
    | put unusable _ ih =>
      intro m
      rw [List.foldl_cons, KeyMap.addRecord_of_unusable unusable]
      exact ih m
  exact built []

/-- Bad records do not shadow good ones: an identifier leads to the key of its last usable record,
    and to none if it has no usable record, and unusable records that are put in change nothing. -/
theorem keyMap_unshadowed (records : List PublishedKey) :
    (∀ id key, Sorted.find? id (keyMap records) = some key ↔ LastUsable records id key) ∧
    (∀ id, Sorted.find? id (keyMap records) = none ↔
      ∀ record ∈ records, record.keyId = id → record.Unusable) ∧
    (∀ more, Padded records more → keyMap more = keyMap records) ∧
    ∀ record : PublishedKey, record.Unusable ↔ ∃ fault, record.verifyingKey = .error fault :=
  ⟨fun _ _ => find?_keyMap_eq_some_iff, fun _ => find?_keyMap_eq_none_iff,
    fun _ => keyMap_eq_of_padded, fun _ => PublishedKey.unusable_iff⟩

def sampleRecord (encoded : String) : PublishedKey := ⟨keyType, encoded, ⟨"a"⟩, 0⟩

/-- Two keys of one identifier, the second followed by records that are no base64, no public key and
    of no known type. -/
theorem keyMap_unshadowed_mixed :
    let first := sampleRecord "MBowDQYJKoZIhvcNAQEBBQADCQAwBgIBNwIBAw=="
    let second := sampleRecord "MBowDQYJKoZIhvcNAQEBBQADCQAwBgIBTQIBBw=="
    let spoiled := [sampleRecord "not base64!", sampleRecord "AAAA", { second with kind := "EC" }]
    (∀ record ∈ spoiled, record.Unusable) ∧
      Padded [first, second] (first :: second :: spoiled) ∧
      Sorted.find? ⟨"a"⟩ (keyMap (first :: second :: spoiled)) = some ⟨77, 7⟩ ∧
      Sorted.find? ⟨"a"⟩ (keyMap spoiled) = none ∧
      keyMap (first :: second :: spoiled) = keyMap [first, second] := by
  intro first second spoiled
  obtain ⟨decided, -, kept, unusable⟩ := keyMap_unshadowed [first, second]
  obtain ⟨-, absent, -⟩ := keyMap_unshadowed spoiled
  have read : second.verifyingKey = .ok ⟨77, 7⟩ := by decide +kernel
  -- The three records fail one after the other: in the text, in the octets and in the type.
  have bad : ∀ record ∈ spoiled, record.Unusable := by
    simp only [spoiled, List.forall_mem_cons, List.not_mem_nil, false_implies, implies_true,
      and_true, unusable]
    exact ⟨⟨.badText (.invalidByte 32 3), by decide +kernel⟩, ⟨.badPublicKey, by decide +kernel⟩,
      ⟨.unsupportedType "EC", by decide +kernel⟩⟩
  have padded : Padded [first, second] (first :: second :: spoiled) :=
    .keep first (.keep second (.put (bad _ (by simp [spoiled])) (.put (bad _ (by simp [spoiled]))
      (.put (bad _ (by simp [spoiled])) .nil))))
  refine ⟨bad, padded, ?_, (absent ⟨"a"⟩).mpr fun record member _ => bad record member,
    kept _ padded⟩
  rw [kept _ padded]
  exact (decided ⟨"a"⟩ ⟨77, 7⟩).mpr ⟨[first], second, [], rfl, rfl, read, by simp⟩

end Tollgate
