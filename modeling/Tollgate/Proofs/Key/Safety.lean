import Mathlib.Data.Nat.Count
import Tollgate.Proofs.Key.Errands
import Tollgate.Proofs.Moments

/-! # No key signs before it is stored

Any number of callers come to an authority that has no key yet; an `AuthoritySchedule` tells which
of them goes on at each moment, what the clock shows, and what comes of making and storing keys.
`AuthoritySchedule.keySafe` states what holds in every such run: the generation of the slot counts
the keys that the store took, nothing is used before the store took it, a rotation that fails leaves
no trace, and a key that was replaced does not come back.

Three facts about the past of a moment carry the proof.  A key in the slot was put there in a move,
and the slot is as it was since (`installs_of_value`).  Whoever holds the turn has held it since it
began to rotate, and the slot is as it was then (`held_since`).  And a key that waits for the store
was made by whoever holds the turn, and nothing moved since (`generates_of_storing`), so that one
making leads to one installation at most (`installs_unique`).
-/

namespace Tollgate

/-- The header of a token, its first segment, names a key. -/
def NamesKey (token : Octets) (id : KeyId) : Prop := segment (signedHeader id) ++ [dot] <+: token

theorem namesKey_of_sign {key : SigningKey} {claims : Claims} {token : Octets}
    (signed : key.sign claims = .ok token) : NamesKey token key.keyId := by
  delta SigningKey.sign Claims.sign at signed
  dsimp only at signed
  split at signed
  · next signature _ =>
    cases signed
    exact ⟨segment (claims.withKeyId key.keyId).render ++ dot :: segment signature, by simp⟩
  · contradiction

structure AuthoritySchedule where
  config : AuthorityConfig
  errands : List Errand
  moves : Nat → AuthorityMove

namespace AuthoritySchedule

def moment (s : AuthoritySchedule) (n : Nat) : AuthorityRun :=
  stateAt AuthorityRun.advance (.start s.config .empty s.errands) s.moves n

def rotation (s : AuthoritySchedule) (n : Nat) : RotationRun := (s.moment n).rotation

def slot (s : AuthoritySchedule) (n : Nat) : SigningSlot := (s.rotation n).current

/-! ## What happens in a move -/

def Makes (s : AuthoritySchedule) (n : Nat) (m : RotationMove) : Prop :=
  s.moves n = .rotate m ∧ (s.rotation n).Change m (s.rotation (n + 1))

def Accepts (s : AuthoritySchedule) (record : PublishedKey) (ttl : Span) (n : Nat) : Prop :=
  s.Makes n (.stored (.ok ())) ∧
    (s.rotation (n + 1)).accepted = (record, ttl) :: (s.rotation n).accepted

structure Generates (s : AuthoritySchedule) (i : Nat) (key : SigningKey) (n : Nat) : Prop where
  made : ∃ now, s.Makes n (.generated now (.ok (key.keyId, key.secret))) ∧
    key.expiresAt = now.add s.config.keyValidity
  held : (s.rotation n).holder = some i

structure Installs (s : AuthoritySchedule) (i : Nat) (key : SigningKey) (n : Nat) : Prop where
  made : s.Makes n (.stored (.ok ()))
  held : (s.rotation n).holder = some i
  storing : (s.rotation n).callers[i]? = some (.storing key)

structure Returns (s : AuthoritySchedule) (i : Nat) (result : Except AuthorityFault SigningKey)
    (n : Nat) : Prop where
  pending : ∃ stage, (s.rotation n).callers[i]? = some stage ∧ ∀ result, stage ≠ .done result
  finished : (s.rotation (n + 1)).callers[i]? = some (.done result)

def Issues (s : AuthoritySchedule) (i : Nat) (token : Octets) (n : Nat) : Prop :=
  ∃ errand, (s.moment n).callers[i]? = some ⟨errand, none⟩ ∧
    (s.moment (n + 1)).callers[i]? = some ⟨errand, some (.ok (.token token))⟩

/-! ## What a run keeps -/

/-- Before a moment the store took the record of a key for the time that it signs and the grace
    period after that. -/
def Stored (s : AuthoritySchedule) (key : SigningKey) (n : Nat) : Prop :=
  ∃ t < n, s.Accepts key.published (s.config.keyValidity.add s.config.gracePeriod) t

/-- A caller whose rotation failed found the slot as it left it, and no change of the slot ever is
    its own. -/
def Harmless (s : AuthoritySchedule) (i n : Nat) : Prop :=
  (∃ a ≤ n, (∃ now, s.Makes a (.turn i now)) ∧ ∀ t, a ≤ t → t ≤ n + 1 → s.slot t = s.slot a) ∧
    ∀ t, s.slot (t + 1) ≠ s.slot t → ∃ j key, j ≠ i ∧ s.Installs j key t

/-- A caller takes a key from the slot in a look at the clock that shows that the key signs. -/
def Takes (s : AuthoritySchedule) (i : Nat) (key : SigningKey) (n : Nat) : Prop :=
  ∃ now, (s.moves n = .rotate (.glance i now) ∨ s.moves n = .rotate (.turn i now)) ∧
    (s.slot n).value = some key ∧ key.isExpired now = false

def Distinct (s : AuthoritySchedule) : Prop :=
  ∀ i j key key' t u, s.Generates i key t → s.Generates j key' u → key.keyId = key'.keyId → t = u

/-- A key was in the slot at a moment, and at a later one the slot is another. -/
def Replaced (s : AuthoritySchedule) (key : SigningKey) (n : Nat) : Prop :=
  ∃ m ≤ n, (s.slot m).value = some key ∧ s.slot n ≠ s.slot m

open Classical in
/-- What holds of the signing keys in a run. -/
structure KeySafe (s : AuthoritySchedule) : Prop where
  counted : ∀ n, (s.slot n).generation = Nat.count (fun t => ∃ record ttl, s.Accepts record ttl t) n
  slotStored : ∀ n key, (s.slot n).value = some key → s.Stored key n
  returnStored : ∀ i key n, s.Returns i (.ok key) n → s.Stored key (n + 1)
  /-- A token is signed by a key that was stored before, and names that key. -/
  tokenStored : ∀ i token n, s.Issues i token n →
    ∃ key claims, key.sign claims = .ok token ∧ NamesKey token key.keyId ∧ s.Stored key n
  failureHarmless : ∀ i fault n, s.Returns i (.error fault) n → s.Harmless i n
  /-- What a caller gets signs when the caller looks, or the caller made it. -/
  returnLive : ∀ i key n, s.Returns i (.ok key) n →
    s.Takes i key n ∨ ∃ t < n, s.Generates i key t
  /-- A key that was replaced is not given out again. -/
  neverAgain : s.Distinct → ∀ key n, s.Replaced key n →
    ∀ i key' t, n ≤ t → s.Returns i (.ok key') t → key'.keyId ≠ key.keyId

/-! ## Single moves -/

variable {s : AuthoritySchedule}

theorem makes_or_same (s : AuthoritySchedule) (n : Nat) :
    (∃ m, s.Makes n m) ∨ s.rotation (n + 1) = s.rotation n := by
  have next : s.moment (n + 1) = (s.moment n).advance (s.moves n) := stateAt_succ
  cases moved : s.moves n with
  | rotate m =>
    rw [moved, AuthorityRun.advance_rotate] at next
    obtain change | same := (s.rotation n).change_or_advance_eq m
    · exact .inl ⟨m, moved, by simpa only [rotation, next] using change⟩
    · exact .inr (by simpa only [rotation, next] using same)
  | conclude i now id active =>
    rw [moved] at next
    refine .inr ?_
    rw [rotation, next, AuthorityRun.rotation_advance_conclude, rotation]

theorem config_eq (s : AuthoritySchedule) (n : Nat) : (s.rotation n).config = s.config := by
  induction n with
  | zero => rfl
  | succ n ih =>
    obtain ⟨m, _, change⟩ | same := s.makes_or_same n
    · rw [change.config_eq, ih]
    · rw [same, ih]

theorem installs_of_stored {n : Nat} (made : s.Makes n (.stored (.ok ()))) :
    ∃ i key, s.Installs i key n := by
  obtain ⟨i, key, held, storing, _⟩ := made.2.installed
  exact ⟨i, key, made, held, storing⟩

structure Installed (s : AuthoritySchedule) (i : Nat) (key : SigningKey) (n : Nat) : Prop where
  given : (s.rotation (n + 1)).callers[i]? = some (.done (.ok key))
  replaced : s.slot (n + 1) = (s.slot n).replace (some key)
  released : (s.rotation (n + 1)).holder = none
  accepted : s.Accepts key.published (s.config.keyValidity.add s.config.gracePeriod) n

theorem Installs.next {i n : Nat} {key : SigningKey} (installed : s.Installs i key n) :
    s.Installed i key n := by
  obtain ⟨made, held, storing⟩ := installed
  obtain ⟨j, key', held', storing', given, replaced, released, accepted⟩ := made.2.installed
  obtain rfl : i = j := Option.some.inj (held.symm.trans held')
  cases storing.symm.trans storing'
  rw [s.config_eq n] at accepted
  exact ⟨given, replaced, released, made, accepted⟩

theorem accepts_iff {n : Nat} :
    (∃ record ttl, s.Accepts record ttl n) ↔ s.Makes n (.stored (.ok ())) := by
  constructor
  · rintro ⟨record, ttl, made, _⟩
    exact made
  · intro made
    obtain ⟨i, key, installed⟩ := installs_of_stored made
    exact ⟨_, _, installed.next.accepted⟩

theorem slot_eq_of_not_installs {n : Nat} (silent : ∀ i key, ¬s.Installs i key n) :
    s.slot (n + 1) = s.slot n := by
  obtain ⟨m, made⟩ | same := s.makes_or_same n
  · refine made.2.current_eq fun taken => ?_
    rw [taken] at made
    obtain ⟨i, key, installed⟩ := installs_of_stored made
    exact silent i key installed
  · rw [slot, same, slot]

/-! ## What led to a moment -/

/-- A key in the slot was put there in a move, and the slot is as it was since. -/
theorem installs_of_value {n : Nat} {key : SigningKey} (holds : (s.slot n).value = some key) :
    ∃ t < n, (∃ i, s.Installs i key t) ∧ ∀ u, t < u → u ≤ n → s.slot u = s.slot n := by
  refine exists_began (P := fun n => (s.slot n).value = some key) nofun (fun n holds => ?_) holds
  by_cases installed : ∃ i key, s.Installs i key n
  · obtain ⟨i, key', installed⟩ := installed
    rw [installed.next.replaced] at holds
    cases holds
    exact .inl ⟨i, installed⟩
  · have same : s.slot (n + 1) = s.slot n :=
      slot_eq_of_not_installs fun i key now => installed ⟨i, key, now⟩
    exact .inr ⟨by rw [← same, holds], same⟩

/-- Whoever holds the turn has held it since it began to rotate, and the slot is as it was then. -/
theorem held_since {i n : Nat} (held : (s.rotation n).holder = some i) :
    ∃ a < n, (∃ now, s.Makes a (.turn i now)) ∧ ∀ t, a ≤ t → t ≤ n → s.slot t = s.slot n := by
  -- To begin leaves the slot alone as well, so that it is the same from the beginning on.
  obtain ⟨a, earlier, ⟨began, same⟩, still⟩ :
      ∃ a < n, ((∃ now, s.Makes a (.turn i now)) ∧ s.slot (a + 1) = s.slot a) ∧
        ∀ t, a < t → t ≤ n → s.slot t = s.slot n := by
    refine exists_began (P := fun n => (s.rotation n).holder = some i) nofun (fun n held => ?_) held
    obtain ⟨m, made⟩ | same := s.makes_or_same n
    · obtain ⟨same, ⟨now, rfl⟩ | ⟨_, before⟩⟩ := made.2.holder_eq_some held
      · exact .inl ⟨⟨now, made⟩, same⟩
      · exact .inr ⟨before, same⟩
    · exact .inr ⟨by rw [← same, held], by rw [slot, same, slot]⟩
  refine ⟨a, earlier, began, fun t since until_t => ?_⟩
  obtain rfl | after := Nat.eq_or_lt_of_le since
  · rw [← same, still (a + 1) (Nat.lt_succ_self a) earlier]
  · exact still t after until_t

/-- A key that waits for the store was made by whoever holds the turn, and nothing moved since. -/
theorem generates_of_storing {i n : Nat} {key : SigningKey} (held : (s.rotation n).holder = some i)
    (storing : (s.rotation n).callers[i]? = some (.storing key)) :
    ∃ g < n, s.Generates i key g ∧ ∀ t, g < t → t ≤ n → s.rotation t = s.rotation n := by
  refine exists_began (P := fun n => (s.rotation n).holder = some i ∧
    (s.rotation n).callers[i]? = some (.storing key)) nofun (fun n holds => ?_) ⟨held, storing⟩
  obtain ⟨m, made⟩ | same := s.makes_or_same n
  · obtain ⟨before, now, rfl, lasting⟩ := made.2.storing holds.1 holds.2
    rw [s.config_eq n] at lasting
    exact .inl ⟨⟨now, made, lasting⟩, before⟩
  · exact .inr ⟨by rw [← same]; exact holds, same⟩

theorem done_of_done {i b n : Nat} {result : Except AuthorityFault SigningKey} (later : b ≤ n)
    (finished : (s.rotation b).callers[i]? = some (.done result)) :
    (s.rotation n).callers[i]? = some (.done result) := by
  induction later with
  | refl => exact finished
  | @step n _ ih =>
    obtain ⟨m, made⟩ | same := s.makes_or_same n
    · exact made.2.done ih
    · rw [same, ih]

theorem returns_of_done {i n : Nat} {result : Except AuthorityFault SigningKey}
    (finished : (s.rotation n).callers[i]? = some (.done result)) :
    ∃ t < n, s.Returns i result t := by
  induction n with
  | zero =>
    -- At first nobody is done.
    simp [rotation, moment, stateAt, AuthorityRun.start, List.getElem?_replicate] at finished
  | succ n ih =>
    obtain ⟨m, made⟩ | same := s.makes_or_same n
    · have present : i < (s.rotation n).callers.length := by
        rw [← made.2.length_eq]
        exact (List.getElem?_eq_some_iff.mp finished).1
      obtain ⟨stage, before⟩ : ∃ stage, (s.rotation n).callers[i]? = some stage :=
        ⟨_, List.getElem?_eq_getElem present⟩
      by_cases ended : ∃ result, stage = .done result
      · obtain ⟨result', rfl⟩ := ended
        cases (made.2.done before).symm.trans finished
        obtain ⟨t, earlier, returned⟩ := ih before
        exact ⟨t, by omega, returned⟩
      · exact ⟨n, by omega, ⟨stage, before, fun result same => ended ⟨result, same⟩⟩, finished⟩
    · rw [same] at finished
      obtain ⟨t, earlier, returned⟩ := ih finished
      exact ⟨t, by omega, returned⟩

/-! ## What a result says -/

/-- How a caller gets its result: from the slot, from the store, or not at all. -/
theorem Returns.answers {i n : Nat} {result : Except AuthorityFault SigningKey}
    (returned : s.Returns i result n) :
    ∃ m, s.Makes n m ∧ (s.rotation n).Answers i m result := by
  obtain ⟨⟨stage, before, pending⟩, finished⟩ := returned
  obtain ⟨m, made⟩ | same := s.makes_or_same n
  · exact ⟨m, made, made.2.answers before pending finished⟩
  · rw [same, before] at finished
    cases finished
    exact absurd rfl (pending result)

/-- A key that a caller gets is in the slot, or it is put there in this very move. -/
theorem Returns.takes_or_installs {i n : Nat} {key : SigningKey}
    (returned : s.Returns i (.ok key) n) : s.Takes i key n ∨ s.Installs i key n := by
  obtain ⟨m, made, answered⟩ := returned.answers
  cases answered with
  | live mine live =>
    obtain ⟨holds, unexpired⟩ := SigningSlot.live?_eq_some_iff.mp live
    obtain rfl | rfl := mine
    · exact .inl ⟨_, .inl made.1, holds, unexpired⟩
    · exact .inl ⟨_, .inr made.1, holds, unexpired⟩
  | installed held storing => exact .inr ⟨made, held, storing⟩

theorem stored_of_value {n : Nat} {key : SigningKey} (holds : (s.slot n).value = some key) :
    s.Stored key n := by
  obtain ⟨t, earlier, ⟨i, installed⟩, _⟩ := installs_of_value holds
  exact ⟨t, earlier, installed.next.accepted⟩

theorem Stored.mono {m n : Nat} {key : SigningKey} (stored : s.Stored key m) (later : m ≤ n) :
    s.Stored key n := by
  obtain ⟨t, earlier, accepted⟩ := stored
  exact ⟨t, by omega, accepted⟩

theorem stored_of_returns {i n : Nat} {key : SigningKey} (returned : s.Returns i (.ok key) n) :
    s.Stored key (n + 1) := by
  obtain ⟨now, _, holds, _⟩ | installed := returned.takes_or_installs
  · exact (stored_of_value holds).mono (Nat.le_succ n)
  · exact ⟨n, by omega, installed.next.accepted⟩

theorem stored_of_issues {i n : Nat} {token : Octets} (issued : s.Issues i token n) :
    ∃ key claims, key.sign claims = .ok token ∧ NamesKey token key.keyId ∧ s.Stored key n := by
  obtain ⟨errand, before, after⟩ := issued
  have next : s.moment (n + 1) = (s.moment n).advance (s.moves n) := stateAt_succ
  rw [next] at after
  obtain ⟨now, id, active, result, got, concluded⟩ := AuthorityRun.concluded before after
  obtain ⟨key, validity, capabilities, rfl, _, signed⟩ := Errand.conclude_eq_token concluded.symm
  -- The current key was there before the token was signed, and it was stored before that.
  obtain ⟨t, earlier, returned⟩ := returns_of_done got
  exact ⟨key, _, signed, namesKey_of_sign signed, (stored_of_returns returned).mono earlier⟩

/-- Whoever puts a key into the slot is done with that key and never gets a fault. -/
theorem not_installs_of_failed {i n : Nat} {fault : AuthorityFault}
    (returned : s.Returns i (.error fault) n) (t : Nat) (key : SigningKey) :
    ¬s.Installs i key t := by
  intro installed
  have given := installed.next.given
  obtain ⟨stage, before, pending⟩ := returned.pending
  -- Before the fault it would have been done already; and after the fault it is done for good.
  obtain earlier | rfl | later := Nat.lt_trichotomy t n
  · cases (done_of_done earlier given).symm.trans before
    exact pending _ rfl
  · cases given.symm.trans returned.finished
  · cases (done_of_done later returned.finished).symm.trans installed.storing

/-- Every fault of a caller is one of its own rotation. -/
theorem harmless_of_returns {i n : Nat} {fault : AuthorityFault}
    (returned : s.Returns i (.error fault) n) : s.Harmless i n := by
  obtain ⟨m, made, answered⟩ := returned.answers
  have ⟨held, rejected⟩ : (s.rotation n).holder = some i ∧ m ≠ .stored (.ok ()) := by
    cases answered with
    | barren held => exact ⟨held, by simp⟩
    | rejected held => exact ⟨held, by simp⟩
  -- Its turn lasts until the fault, and all along the slot is the same.
  have same : s.slot (n + 1) = s.slot n := made.2.current_eq rejected
  obtain ⟨a, earlier, began, still⟩ := held_since held
  refine ⟨⟨a, by omega, began, fun t since until_t => ?_⟩, fun t changed => ?_⟩
  · rw [still a (Nat.le_refl a) (by omega)]
    obtain before | rfl := Nat.le_succ_iff.mp until_t
    · exact still t since before
    · exact same
  · have ⟨j, key, installed⟩ : ∃ j key, s.Installs j key t := by
      by_contra silent
      exact changed (slot_eq_of_not_installs fun j key now => silent ⟨j, key, now⟩)
    refine ⟨j, key, ?_, installed⟩
    rintro rfl
    exact not_installs_of_failed returned t key installed

theorem live_of_returns {i n : Nat} {key : SigningKey} (returned : s.Returns i (.ok key) n) :
    s.Takes i key n ∨ ∃ t < n, s.Generates i key t := by
  obtain taken | installed := returned.takes_or_installs
  · exact .inl taken
  · obtain ⟨g, earlier, generated, _⟩ := generates_of_storing installed.held installed.storing
    exact .inr ⟨g, earlier, generated⟩

theorem generation_eq_count [DecidablePred fun t => ∃ record ttl, s.Accepts record ttl t]
    (n : Nat) :
    (s.slot n).generation = Nat.count (fun t => ∃ record ttl, s.Accepts record ttl t) n := by
  induction n with
  | zero => rfl
  | succ n ih =>
    rw [Nat.count_succ, ← ih]
    split
    · next taken =>
      obtain ⟨i, key, installed⟩ := installs_of_stored (accepts_iff.mp taken)
      rw [installed.next.replaced]
      rfl
    · next untouched =>
      have same : s.slot (n + 1) = s.slot n :=
        slot_eq_of_not_installs fun i key installed => untouched (accepts_iff.mpr installed.made)
      rw [same]
      rfl

/-- One making leads to one installation. -/
theorem installs_unique (distinct : s.Distinct) {i j t u : Nat} {key key' : SigningKey}
    (installed : s.Installs i key t) (installed' : s.Installs j key' u)
    (same : key.keyId = key'.keyId) : t = u := by
  obtain ⟨g, before, generated, still⟩ := generates_of_storing installed.held installed.storing
  obtain ⟨g', before', generated', still'⟩ :=
    generates_of_storing installed'.held installed'.storing
  obtain rfl := distinct _ _ _ _ _ _ generated generated' same
  -- The turn is over right after an installation, but held from the making to the installation.
  obtain earlier | rfl | later := Nat.lt_trichotomy t u
  · have held := installed'.held
    rw [← still' (t + 1) (by omega) (by omega), installed.next.released] at held
    contradiction
  · rfl
  · have held := installed.held
    rw [← still (u + 1) (by omega) (by omega), installed'.next.released] at held
    contradiction

theorem ne_of_replaced (distinct : s.Distinct) {key key' : SigningKey} {i n t : Nat}
    (replaced : s.Replaced key n) (later : n ≤ t) (returned : s.Returns i (.ok key') t) :
    key'.keyId ≠ key.keyId := by
  intro same
  obtain ⟨m, earlier, holds, changed⟩ := replaced
  obtain ⟨a, before, ⟨j, installed⟩, _⟩ := installs_of_value holds
  obtain ⟨now, _, holds', _⟩ | installed' := returned.takes_or_installs
  · obtain ⟨b, _, ⟨j', installed'⟩, still⟩ := installs_of_value holds'
    obtain rfl := installs_unique distinct installed installed' same.symm
    -- Since its installation the slot is the same, at the moments in question too.
    exact changed (by rw [still n (by omega) later, still m before (by omega)])
  · have now := installs_unique distinct installed installed' same.symm
    omega

open Classical in
/-- In every run the signing keys are safe, whoever comes, whatever the clock shows, and whatever
    fails. -/
theorem keySafe (s : AuthoritySchedule) : s.KeySafe where
  counted n := generation_eq_count n
  slotStored _ _ := stored_of_value
  returnStored _ _ _ := stored_of_returns
  tokenStored _ _ _ := stored_of_issues
  failureHarmless _ _ _ := harmless_of_returns
  returnLive _ _ _ := live_of_returns
  neverAgain distinct _ _ replaced _ _ _ later := ne_of_replaced distinct replaced later

/-- Three callers of an authority whose keys sign for a second.  The second one comes when the key
    of the first has ended and replaces it; the third one finds the new key. -/
def rotated : AuthoritySchedule where
  config := { keyValidity := .ofSeconds 1 }
  errands := [.currentKey, .currentKey, .currentKey]
  moves n := .rotate <|
    [.glance 0 (.ofSeconds 0), .turn 0 (.ofSeconds 0),
      .generated (.ofSeconds 0) (.ok (⟨"a"⟩, ⟨33, 3, 7, 3, 11⟩)), .stored (.ok ()),
      .glance 1 (.ofSeconds 1), .turn 1 (.ofSeconds 1),
      .generated (.ofSeconds 1) (.ok (⟨"b"⟩, ⟨35, 5, 5, 5, 7⟩)),
      .stored (.ok ())].getD n (.glance 2 (.ofSeconds 1))

theorem distinct_rotated : rotated.Distinct := by
  -- Keys are made in two moves only.
  have drawn : ∀ {i key t}, rotated.Generates i key t →
      t = 2 ∧ key.keyId = ⟨"a"⟩ ∨ t = 6 ∧ key.keyId = ⟨"b"⟩ := by
    rintro i ⟨id, secret, ends⟩ t ⟨⟨now, ⟨tried, _⟩, _⟩, _⟩
    match t with
    | 0 | 1 | 3 | 4 | 5 | 7 => cases tried
    | 2 =>
      cases tried
      exact .inl ⟨rfl, rfl⟩
    | 6 =>
      cases tried
      exact .inr ⟨rfl, rfl⟩
    | n + 8 => cases tried
  intro i j key key' t u made made' same
  obtain ⟨rfl, named⟩ | ⟨rfl, named⟩ := drawn made <;>
    obtain ⟨rfl, named'⟩ | ⟨rfl, named'⟩ := drawn made' <;> simp_all

theorem keySafe_rotated :
    rotated.Distinct ∧
      rotated.Replaced ⟨⟨"a"⟩, ⟨33, 3, 7, 3, 11⟩, .ofSeconds 1⟩ 8 ∧
      rotated.Returns 2 (.ok ⟨⟨"b"⟩, ⟨35, 5, 5, 5, 7⟩, .ofSeconds 2⟩) 8 ∧
      ∀ i key t, 8 ≤ t → rotated.Returns i (.ok key) t → key.keyId ≠ ⟨"a"⟩ := by
  have replaced : rotated.Replaced ⟨⟨"a"⟩, ⟨33, 3, 7, 3, 11⟩, .ofSeconds 1⟩ 8 :=
    ⟨4, by omega, rfl, fun same => absurd (congrArg Slot.generation same) (by decide)⟩
  have returned : rotated.Returns 2 (.ok ⟨⟨"b"⟩, ⟨35, 5, 5, 5, 7⟩, .ofSeconds 2⟩) 8 :=
    ⟨⟨.started, rfl, by simp⟩, rfl⟩
  exact ⟨distinct_rotated, replaced, returned,
    (keySafe rotated).neverAgain distinct_rotated _ 8 replaced⟩

end AuthoritySchedule

end Tollgate
