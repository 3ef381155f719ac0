import Tollgate.Proofs.Key.Lookup
import Tollgate.Proofs.Moments

/-! # The results of lookups are never stale

Any number of lookups share one cache that is empty at first; a `LookupSchedule` tells whose turn
it is to try what, and what the source of keys answers.  `LookupSchedule.justified_of_returns`
justifies every result by what the source did:

* a key is the one that the last key set maps the identifier to;
* where a key was not found, the last key set lacks it, and that set was asked for after the lookup
  had begun, even where the lookup itself asked nobody;
* where the source failed, the lookup left the cache as it was.

Two facts carry the proof.  While somebody waits for the source nothing else moves
(`held_since`), so that between the first look of a lookup and its result every key set that was
handed out was also asked for.  And while no key set is handed out the cache stays as it is
(`cache_eq_of_quiet`), so that a generation that moved on betrays one.
-/

namespace Tollgate

structure LookupSchedule where
  keys : List KeyId
  moves : Nat → LookupMove

namespace LookupSchedule

def moment (s : LookupSchedule) (n : Nat) : LookupRun :=
  stateAt LookupRun.advance { cache := .empty, lookups := s.keys.map fun key => { key } } s.moves n

/-! ## What happens in a move -/

def Makes (s : LookupSchedule) (n : Nat) (m : LookupMove) : Prop :=
  s.moves n = m ∧ (s.moment n).Change m (s.moment (n + 1))

def Begins (s : LookupSchedule) (i n : Nat) : Prop := s.Makes n (.glance i)

def Asks (s : LookupSchedule) (i n : Nat) : Prop :=
  s.Makes n (.turn i) ∧ (s.moment (n + 1)).holder = some i

def Obtains (s : LookupSchedule) (i : Nat) (keys : KeyMap) (n : Nat) : Prop :=
  s.Makes n (.delivered (.ok keys)) ∧ (s.moment n).holder = some i

structure Returns (s : LookupSchedule) (i : Nat) (key : KeyId) (result : Resolution)
    (n : Nat) : Prop where
  pending : ∃ stage, (s.moment n).lookups[i]? = some ⟨key, stage⟩ ∧ ∀ result, stage ≠ .done result
  finished : (s.moment (n + 1)).lookups[i]? = some ⟨key, .done result⟩

/-! ## What happens in several moves -/

def Quiet (s : LookupSchedule) (b n : Nat) : Prop :=
  ∀ t, b ≤ t → t < n → ∀ i keys, ¬s.Obtains i keys t

/-- A lookup asks the source in one move and obtains its answer, a key set, in another. -/
structure Fetches (s : LookupSchedule) (i a o : Nat) (keys : KeyMap) : Prop where
  asked : s.Asks i a
  later : a < o
  awaited : ∀ t, a < t → t ≤ o → (s.moment t).holder = some i
  obtained : s.Obtains i keys o

/-- The last key set that was obtained before a moment, and the move in which it was asked for. -/
def Latest (s : LookupSchedule) (n a : Nat) (keys : KeyMap) : Prop :=
  ∃ i o, s.Fetches i a o keys ∧ o < n ∧ s.Quiet (o + 1) n

/-- What the result of a lookup at a moment says about the source of keys. -/
def Justified (s : LookupSchedule) (i : Nat) (key : KeyId) (n : Nat) : Resolution → Prop
  | .ok found => ∃ a keys, s.Latest n a keys ∧ Sorted.find? key keys = some found
  | .error (.notFound missed) =>
    missed = key ∧ ∃ b a keys,
      s.Begins i b ∧ b < a ∧ s.Latest n a keys ∧ Sorted.find? key keys = none
  | .error (.provider _) =>
    (∃ a < n, s.Asks i a ∧ ∀ t, a ≤ t → t ≤ n → (s.moment t).cache = (s.moment a).cache) ∧
      ∀ t, (s.moment (t + 1)).cache ≠ (s.moment t).cache → ∃ j keys, j ≠ i ∧ s.Obtains j keys t

/-! ## Single moves -/

variable {s : LookupSchedule}

theorem makes_or_same (s : LookupSchedule) (n : Nat) :
    s.Makes n (s.moves n) ∨ s.moment (n + 1) = s.moment n := by
  unfold Makes
  rw [show s.moment (n + 1) = (s.moment n).advance (s.moves n) from stateAt_succ]
  obtain change | same := LookupRun.change_or_advance_eq (s.moment n) (s.moves n)
  · exact .inl ⟨rfl, change⟩
  · exact .inr same

theorem value_of_obtains {i n : Nat} {keys : KeyMap} (obtained : s.Obtains i keys n) :
    (s.moment (n + 1)).cache.value = keys := by
  obtain ⟨replaced, _⟩ := obtained.1.2.refreshed
  rw [replaced]
  rfl

theorem cache_eq_of_silent {n : Nat} (silent : ∀ i keys, ¬s.Obtains i keys n) :
    (s.moment (n + 1)).cache = (s.moment n).cache := by
  obtain made | same := s.makes_or_same n
  · refine made.2.cache_eq fun keys handed => ?_
    rw [handed] at made
    obtain ⟨_, i, _, held, _⟩ := made.2.refreshed
    exact silent i keys ⟨made, held⟩
  · rw [same]

theorem cache_eq_of_quiet {b n : Nat} (later : b ≤ n) (quiet : s.Quiet b n) :
    (s.moment n).cache = (s.moment b).cache :=
  stateAt_eq_of_same later fun t since before => cache_eq_of_silent (quiet t since before)

theorem done_of_done {i b n : Nat} {key : KeyId} {result : Resolution} (later : b ≤ n)
    (finished : (s.moment b).lookups[i]? = some ⟨key, .done result⟩) :
    (s.moment n).lookups[i]? = some ⟨key, .done result⟩ := by
  let Finished (r : LookupRun) : Prop := r.lookups[i]? = some ⟨key, .done result⟩
  refine stateAt_of_kept (P := Finished) ?_ later finished
  intro r m before
  obtain change | same := LookupRun.change_or_advance_eq r m
  · exact change.done before
  · rwa [same]

/-! ## What led to a moment -/

/-- A lookup that waits had its first look when the generation was the one it noted. -/
theorem begins_of_waiting {i seen n : Nat} {key : KeyId}
    (waits : (s.moment n).lookups[i]? = some ⟨key, .waiting seen⟩) :
    ∃ b < n, s.Begins i b ∧ (s.moment b).cache.generation = seen := by
  induction n with
  | zero =>
    -- At first no lookup waits.
    simp [moment, stateAt] at waits
  | succ n ih =>
    obtain made | same := s.makes_or_same n
    · obtain before | ⟨looked, noted⟩ := made.2.waiting waits
      · obtain ⟨b, earlier, begun⟩ := ih before
        exact ⟨b, by omega, begun⟩
      · rw [looked] at made
        exact ⟨n, by omega, made, noted⟩
    · rw [same] at waits
      obtain ⟨b, earlier, begun⟩ := ih waits
      exact ⟨b, by omega, begun⟩

/-- While a lookup waits for the source nothing moves. -/
theorem held_since {i n : Nat} (held : (s.moment n).holder = some i) :
    ∃ a < n, s.Asks i a ∧ ∀ t, a < t → t ≤ n → s.moment t = s.moment n := by
  refine exists_began (P := fun n => (s.moment n).holder = some i) nofun (fun n held => ?_) held
  obtain made | same := s.makes_or_same n
  · -- The lookup asked in the last move: whoever waited before would not wait any more.
    obtain ⟨turned, _⟩ := made.2.holder_eq_some held
    rw [turned] at made
    exact .inl ⟨made, held⟩
  · exact .inr ⟨by rw [← same, held], same⟩

theorem fetches_of_obtains {i o : Nat} {keys : KeyMap} (obtained : s.Obtains i keys o) :
    ∃ a, s.Fetches i a o keys := by
  obtain ⟨a, later, asked, still⟩ := held_since obtained.2
  refine ⟨a, asked, later, fun t after before => ?_, obtained⟩
  rw [still t after before, obtained.2]

theorem Quiet.succ {b n : Nat} (quiet : s.Quiet b n) (silent : ∀ i keys, ¬s.Obtains i keys n) :
    s.Quiet b (n + 1) := by
  intro t since before
  obtain before | rfl := Nat.lt_succ_iff_lt_or_eq.mp before
  · exact quiet t since before
  · exact silent

theorem Quiet.mono {b c n : Nat} (quiet : s.Quiet b n) (later : b ≤ c) : s.Quiet c n :=
  fun t since before => quiet t (Nat.le_trans later since) before

theorem Latest.succ {n a : Nat} {keys : KeyMap} (latest : s.Latest n a keys)
    (silent : ∀ i keys, ¬s.Obtains i keys n) : s.Latest (n + 1) a keys := by
  obtain ⟨i, o, fetched, earlier, quiet⟩ := latest
  exact ⟨i, o, fetched, by omega, quiet.succ silent⟩

theorem latest_of_fetches {i a o : Nat} {keys : KeyMap} (fetched : s.Fetches i a o keys) :
    s.Latest (o + 1) a keys :=
  ⟨i, o, fetched, by omega, fun t since before => by omega⟩

/-- The cache holds the last key set that was obtained, or nothing. -/
theorem latest_or_quiet (s : LookupSchedule) (n : Nat) :
    (∃ a keys, s.Latest n a keys ∧ (s.moment n).cache.value = keys) ∨
      s.Quiet 0 n ∧ (s.moment n).cache = .empty := by
  induction n with
  | zero => exact .inr ⟨fun t _ before => by omega, rfl⟩
  | succ n ih =>
    by_cases obtained : ∃ i keys, s.Obtains i keys n
    · obtain ⟨i, keys, obtained⟩ := obtained
      obtain ⟨a, fetched⟩ := fetches_of_obtains obtained
      exact .inl ⟨a, keys, latest_of_fetches fetched, value_of_obtains obtained⟩
    · have silent : ∀ i keys, ¬s.Obtains i keys n := fun i keys o => obtained ⟨i, keys, o⟩
      rw [cache_eq_of_silent silent]
      obtain ⟨a, keys, latest, holds⟩ | ⟨quiet, empty⟩ := ih
      · exact .inl ⟨a, keys, latest.succ silent, holds⟩
      · exact .inr ⟨quiet.succ silent, empty⟩

/-- A generation that moved on betrays a key set that was obtained since. -/
theorem latest_of_generation_ne {b n : Nat} (later : b ≤ n)
    (refreshed : (s.moment n).cache.generation ≠ (s.moment b).cache.generation) :
    ∃ i a o keys, s.Fetches i a o keys ∧ b ≤ o ∧ s.Latest n a keys ∧
      (s.moment n).cache.value = keys := by
  have stirred : ¬s.Quiet b n := by
    intro quiet
    rw [cache_eq_of_quiet later quiet] at refreshed
    exact refreshed rfl
  obtain ⟨a, keys, ⟨i, o, fetched, earlier, quiet⟩, holds⟩ | ⟨quiet, _⟩ := s.latest_or_quiet n
  · have after : b ≤ o := Nat.le_of_not_lt fun past => stirred (quiet.mono past)
    exact ⟨i, a, o, keys, fetched, after, ⟨i, o, fetched, earlier, quiet⟩, holds⟩
  · exact absurd (quiet.mono (Nat.zero_le b)) stirred

/-- A key set that is obtained after a lookup had its first look was also asked for after that. -/
theorem begins_lt_of_fetches {i j b a o : Nat} {keys : KeyMap} (begun : s.Begins i b)
    (fetched : s.Fetches j a o keys) (later : b ≤ o) : b < a := by
  have idle := begun.2.idle_of_glance
  refine Nat.lt_of_not_le fun past => ?_
  obtain rfl | between := Nat.eq_or_lt_of_le past
  · -- One move is not both a first look and a turn.
    have turned := fetched.asked.1.1
    rw [begun.1] at turned
    contradiction
  · rw [fetched.awaited b between later] at idle
    contradiction

/-! ## What a result says -/

theorem justified_of_cached {i n : Nat} {key : KeyId} {found : Rsa.PublicKey}
    (silent : ∀ i keys, ¬s.Obtains i keys n)
    (cached : Sorted.find? key (s.moment n).cache.value = some found) :
    s.Justified i key (n + 1) (.ok found) := by
  obtain ⟨a, keys, latest, holds⟩ | ⟨_, empty⟩ := s.latest_or_quiet n
  · exact ⟨a, keys, latest.succ silent, by rw [← holds, cached]⟩
  · rw [empty] at cached
    contradiction

theorem justified_of_outrun {i n seen : Nat} {key : KeyId}
    (silent : ∀ i keys, ¬s.Obtains i keys n)
    (waits : (s.moment n).lookups[i]? = some ⟨key, .waiting seen⟩)
    (missing : Sorted.find? key (s.moment n).cache.value = none)
    (refreshed : (s.moment n).cache.generation ≠ seen) :
    s.Justified i key (n + 1) (.error (.notFound key)) := by
  obtain ⟨b, earlier, begun, rfl⟩ := begins_of_waiting waits
  obtain ⟨j, a, o, keys, fetched, after, latest, holds⟩ :=
    latest_of_generation_ne (Nat.le_of_lt earlier) refreshed
  exact ⟨rfl, b, a, keys, begun, begins_lt_of_fetches begun fetched after, latest.succ silent,
    by rw [← holds, missing]⟩

/-- A lookup whose result is the source's fault obtained nothing, before it and after it. -/
theorem not_obtains_of_failed {i n : Nat} {key : KeyId} {fault : ProviderFault}
    (returned : s.Returns i key (.error (.provider fault)) n)
    (answered : s.moves n = .delivered (.error fault)) (t : Nat) (keys : KeyMap) :
    ¬s.Obtains i keys t := by
  rintro ⟨made, held⟩
  obtain ⟨_, j, id, held', fetching, result, finished⟩ := made.2.refreshed
  obtain rfl : i = j := by simpa [held] using held'
  obtain ⟨stage, present, pending⟩ := returned.pending
  obtain before | rfl | after := Nat.lt_trichotomy t n
  · -- It would have been done before the source failed.
    rw [done_of_done before finished] at present
    cases present
    exact pending result rfl
  · rw [made.1] at answered
    cases answered
  · -- It was done already.
    rw [done_of_done after returned.finished] at fetching
    cases fetching

theorem justified_of_failed {i n : Nat} {key : KeyId} {fault : ProviderFault}
    (returned : s.Returns i key (.error (.provider fault)) n)
    (answered : s.moves n = .delivered (.error fault)) (held : (s.moment n).holder = some i) :
    s.Justified i key (n + 1) (.error (.provider fault)) := by
  -- From its question to the fault the lookup holds its turn, so that nobody obtains anything.
  have nothing := not_obtains_of_failed returned answered
  obtain ⟨a, earlier, asked, still⟩ := held_since held
  have quiet : s.Quiet a (n + 1) := by
    intro t since before j keys obtained
    obtain rfl | after := Nat.eq_or_lt_of_le since
    · have turned := asked.1.1
      rw [obtained.1.1] at turned
      cases turned
    · -- Nobody else waits for the source between the question and the fault.
      have held' := obtained.2
      rw [still t after (by omega), held] at held'
      cases held'
      exact nothing t keys obtained
  refine ⟨⟨a, by omega, asked, fun t since before => ?_⟩, fun t changed => ?_⟩
  · exact cache_eq_of_quiet since fun u after until_t => quiet u after (by omega)
  · by_cases obtained : ∃ j keys, s.Obtains j keys t
    · obtain ⟨j, keys, obtained⟩ := obtained
      refine ⟨j, keys, ?_, obtained⟩
      rintro rfl
      exact nothing t keys obtained
    · exact absurd (cache_eq_of_silent fun j keys o => obtained ⟨j, keys, o⟩) changed

theorem justified_of_lacking {i n : Nat} {key : KeyId} {keys : KeyMap}
    (obtained : s.Obtains i keys n) (missing : Sorted.find? key keys = none) :
    s.Justified i key (n + 1) (.error (.notFound key)) := by
  obtain ⟨a, fetched⟩ := fetches_of_obtains obtained
  obtain ⟨_, _, _, waits⟩ := fetched.asked.1.2.holder_eq_some fetched.asked.2
  obtain ⟨b, earlier, begun, _⟩ := begins_of_waiting waits
  exact ⟨rfl, b, a, keys, begun, earlier, latest_of_fetches fetched, missing⟩

/-- Every result of a lookup is justified, whatever the others do in the meantime. -/
theorem justified_of_returns {i n : Nat} {key : KeyId} {result : Resolution}
    (returned : s.Returns i key result n) : s.Justified i key (n + 1) result := by
  obtain ⟨stage, present, pending⟩ := returned.pending
  obtain made | same := s.makes_or_same n
  · -- Unless this move delivers a key set, nothing is obtained by it.
    have silent : (∀ keys, s.moves n ≠ .delivered (.ok keys)) → ∀ j keys, ¬s.Obtains j keys n :=
      fun withheld j keys obtained => withheld keys obtained.1.1
    have answers := made.2.answers present pending returned.finished
    generalize moved : s.moves n = m at made silent answers
    cases answers with
    | cached mine found =>
      refine justified_of_cached (silent ?_) found
      obtain rfl | rfl := mine
      · simp
      · simp
    | outrun waits missing refreshed =>
      exact justified_of_outrun (silent (by simp)) waits missing refreshed
    | failed held => exact justified_of_failed returned moved held
    | handed held found =>
      obtain ⟨a, fetched⟩ := fetches_of_obtains ⟨made, held⟩
      exact ⟨a, _, latest_of_fetches fetched, found⟩
    | lacking held missing => exact justified_of_lacking ⟨made, held⟩ missing
  · -- Without a move nothing becomes done.
    have finished := returned.finished
    rw [same, present] at finished
    cases finished
    exact absurd rfl (pending result)

/-- Two lookups of one key both miss; the first obtains a key set without it, and the second then
    asks nobody. -/
def overtaken : LookupSchedule where
  keys := [⟨"a"⟩, ⟨"a"⟩]
  moves n := [.glance 0, .glance 1, .turn 0, .delivered (.ok [])].getD n (.turn 1)

theorem justified_overtaken :
    overtaken.Returns 1 ⟨"a"⟩ (.error (.notFound ⟨"a"⟩)) 4 ∧
      overtaken.Justified 1 ⟨"a"⟩ 5 (.error (.notFound ⟨"a"⟩)) := by
  have returned : overtaken.Returns 1 ⟨"a"⟩ (.error (.notFound ⟨"a"⟩)) 4 :=
    ⟨⟨.waiting 0, rfl, by simp⟩, rfl⟩
  exact ⟨returned, justified_of_returns returned⟩

end LookupSchedule

end Tollgate
