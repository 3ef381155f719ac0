import Mathlib.Data.Finset.Card
import Mathlib.Logic.Function.Basic
import Tollgate.Proofs.Moments
import Tollgate.Proofs.Octets
import Tollgate.Revoked

/-! # Revoked tokens as a set that grows

Whoever uses the revoked tokens sees a finite set of identifiers.  `RevokedSet.Call.Answers` says
what such a set answers, and `RevokedSet.answers_perform` that the sorted list answers the same.

Any number of clients call in any order, and no call is interrupted; `RevokedRun.advance` lets one
client make its next call.  The invariant is `RevokedRun.Sound`: the set holds exactly what the calls
in the log brought, and every call was answered as by the set that the calls before it had brought.
So what is revoked in the end depends on the identifiers alone (`RevokedSchedule.grow_only`), not on
who brought them, in which order, or how many at a time.
-/

namespace Tollgate

namespace RevokedSet

variable {r : RevokedSet}

/-! ## The set -/

theorem nodup (r : RevokedSet) : r.ids.Nodup := r.increasing.imp fun {a b} below => by
  rintro rfl
  exact Std.Irrefl.irrefl a below

/-- A set of revoked tokens is determined by what is in it. -/
theorem eq_of_mem_iff {r' : RevokedSet} (same : ∀ id, id ∈ r.ids ↔ id ∈ r'.ids) : r = r' := by
  have permuted := (List.perm_ext_iff_of_nodup r.nodup r'.nodup).mpr same
  have equal : r.ids = r'.ids := by
    refine permuted.eq_of_pairwise (fun a b _ _ below above => ?_) r.increasing r'.increasing
    exact absurd (Trans.trans below above) (Std.Irrefl.irrefl a)
  cases r
  cases r'
  cases equal
  rfl

theorem eq_of_toFinset_eq {r' : RevokedSet} (same : r.ids.toFinset = r'.ids.toFinset) : r = r' := by
  refine eq_of_mem_iff fun id => ?_
  rw [← List.mem_toFinset, same, List.mem_toFinset]

theorem toFinset_revoke (r : RevokedSet) (id : TokenId) :
    (r.revoke id).2.ids.toFinset = insert id r.ids.toFinset := by
  ext x
  simp [mem_revoke]

theorem toFinset_extend (r : RevokedSet) (ids : List TokenId) :
    (r.extend ids).2.ids.toFinset = r.ids.toFinset ∪ ids.toFinset := by
  ext x
  simp [mem_extend, or_comm]

/-- The number of those that were not revoked before. -/
theorem extend_count (r : RevokedSet) (ids : List TokenId) :
    (r.extend ids).1 = (ids.toFinset \ r.ids.toFinset).card := by
  induction ids generalizing r with
  | nil => simp [extend]
  | cons id rest ih =>
    have step : (r.extend (id :: rest)).1 =
        ((r.revoke id).2.extend rest).1 + if (r.revoke id).1 then 1 else 0 := rfl
    rw [step, ih, toFinset_revoke, List.toFinset_cons]
    -- One that is in the set already counts neither now nor in the rest.
    by_cases revoked : id ∈ r.ids
    · have known : id ∈ r.ids.toFinset := List.mem_toFinset.mpr revoked
      rw [Finset.insert_eq_of_mem known, Finset.insert_sdiff_of_mem _ known]
      simp [revoke, isRevoked_iff.mpr revoked]
    · have unknown : id ∉ r.ids.toFinset := fun known => revoked (List.mem_toFinset.mp known)
      have isNew : (r.revoke id).1 = true := by
        simpa [revoke] using fun found => revoked (isRevoked_iff.mp found)
      have split : insert id rest.toFinset \ r.ids.toFinset =
          insert id (rest.toFinset \ insert id r.ids.toFinset) := by
        ext x
        by_cases same : x = id
        · simp [same, revoked]
        · simp [same]
      rw [split, Finset.card_insert_of_notMem (by simp), isNew, if_pos rfl]

/-- What is revoked already changes nothing. -/
theorem extend_of_subset {ids : List TokenId} (known : ∀ id ∈ ids, id ∈ r.ids) :
    r.extend ids = (0, r) := by
  have subset : ids.toFinset ⊆ r.ids.toFinset :=
    fun id member => List.mem_toFinset.mpr (known id (List.mem_toFinset.mp member))
  have count : (r.extend ids).1 = 0 := by
    rw [extend_count, Finset.card_eq_zero, Finset.sdiff_eq_empty_iff_subset]
    exact subset
  have same : (r.extend ids).2 = r := by
    refine eq_of_toFinset_eq ?_
    rw [toFinset_extend, Finset.union_eq_left.mpr subset]
  exact Prod.ext count same

/-! ## Calls -/

inductive Call where
  | revoke (id : TokenId)
  | extend (ids : List TokenId)
  | isRevoked (id : TokenId)
  | snapshot
  | size
  deriving DecidableEq, Repr

inductive Answer where
  | verdict (b : Bool)
  | count (n : Nat)
  | listing (ids : List TokenId)
  deriving DecidableEq, Repr

def perform (r : RevokedSet) : Call → Answer × RevokedSet
  | .revoke id => (.verdict (r.revoke id).1, (r.revoke id).2)
  | .extend ids => (.count (r.extend ids).1, (r.extend ids).2)
  | .isRevoked id => (.verdict (r.isRevoked id), r)
  | .snapshot => (.listing r.snapshot, r)
  | .size => (.count r.size, r)

/-- A list of the identifiers in a set: each once, in the order of their octets. -/
structure Lists (known : Finset TokenId) (ids : List TokenId) : Prop where
  increasing : ids.Pairwise fun a b => Octets.ofString a.text < Octets.ofString b.text
  complete : ids.toFinset = known

namespace Call

def ids : Call → List TokenId
  | .revoke id => [id]
  | .extend ids => ids
  | .isRevoked _ | .snapshot | .size => []

/-- What a finite set of identifiers answers. -/
inductive Answers (known : Finset TokenId) : Call → Answer → Prop
  | revoke (id : TokenId) : Answers known (.revoke id) (.verdict (decide (id ∉ known)))
  /-- How many identifiers were absent, each counted once. -/
  | extend (ids : List TokenId) : Answers known (.extend ids) (.count (ids.toFinset \ known).card)
  | isRevoked (id : TokenId) : Answers known (.isRevoked id) (.verdict (decide (id ∈ known)))
  | snapshot {ids : List TokenId} (lists : Lists known ids) : Answers known .snapshot (.listing ids)
  | size {ids : List TokenId} (lists : Lists known ids) : Answers known .size (.count ids.length)

end Call

theorem lists_snapshot (r : RevokedSet) : Lists r.ids.toFinset r.snapshot where
  increasing := r.increasing.imp Octets.ofString_lt_ofString_iff.mpr
  complete := rfl

theorem answers_perform (r : RevokedSet) (call : Call) :
    call.Answers r.ids.toFinset (r.perform call).1 := by
  have isRevoked : ∀ id, r.isRevoked id = decide (id ∈ r.ids.toFinset) := by
    intro id
    rw [Bool.eq_iff_iff, isRevoked_iff, decide_eq_true_eq, List.mem_toFinset]
  cases call with
  | revoke id =>
    have absent : (r.revoke id).1 = decide (id ∉ r.ids.toFinset) := by
      rw [decide_not, ← isRevoked]
      rfl
    rw [perform, absent]
    exact .revoke id
  | extend ids =>
    rw [perform, extend_count]
    exact .extend ids
  | isRevoked id =>
    rw [perform, isRevoked]
    exact .isRevoked id
  | snapshot => exact .snapshot r.lists_snapshot
  | size => exact .size r.lists_snapshot

theorem toFinset_perform (r : RevokedSet) (call : Call) :
    (r.perform call).2.ids.toFinset = r.ids.toFinset ∪ call.ids.toFinset := by
  cases call with
  | revoke id =>
    rw [perform, toFinset_revoke, Finset.insert_eq, Finset.union_comm]
    rfl
  | extend ids => exact r.toFinset_extend ids
  | isRevoked | snapshot | size => exact (Finset.union_empty _).symm

end RevokedSet

/-! ## Clients -/

variable {κ : Type}

structure RevokedEvent (κ : Type) where
  client : κ
  call : RevokedSet.Call
  answer : RevokedSet.Answer
  deriving DecidableEq, Repr

abbrev RevokedLog (κ : Type) := List (RevokedEvent κ)

namespace RevokedLog

def brought (log : RevokedLog κ) : Finset TokenId := (log.flatMap fun e => e.call.ids).toFinset

def callsOf [DecidableEq κ] (log : RevokedLog κ) (client : κ) : List RevokedSet.Call :=
  (log.filter fun e => e.client = client).map RevokedEvent.call

theorem mem_brought {log : RevokedLog κ} {id : TokenId} :
    id ∈ log.brought ↔ ∃ e ∈ log, id ∈ e.call.ids := by
  rw [brought, List.mem_toFinset, List.mem_flatMap]

theorem brought_append (log log' : RevokedLog κ) :
    brought (log ++ log') = log.brought ∪ log'.brought := by
  rw [brought, List.flatMap_append, List.toFinset_append]
  rfl

end RevokedLog

/-- Clients that share the revoked tokens. -/
structure RevokedRun (κ : Type) where
  revoked : RevokedSet
  left : κ → List RevokedSet.Call
  log : RevokedLog κ

namespace RevokedRun

variable [DecidableEq κ]

def advance (r : RevokedRun κ) (client : κ) : RevokedRun κ :=
  match r.left client with
  | [] => r
  | call :: rest =>
    { revoked := (r.revoked.perform call).2
      left := Function.update r.left client rest
      log := r.log ++ [⟨client, call, (r.revoked.perform call).1⟩] }

/-- The log tells everything: who has made which calls, what is revoked, and what was answered. -/
structure Sound (programs : κ → List RevokedSet.Call) (r : RevokedRun κ) : Prop where
  inOrder : ∀ client, r.log.callsOf client ++ r.left client = programs client
  known : r.revoked.ids.toFinset = r.log.brought
  answered : ∀ (i : Nat) (e : RevokedEvent κ), r.log[i]? = some e →
    e.call.Answers (RevokedLog.brought (r.log.take i)) e.answer

theorem Sound.start (programs : κ → List RevokedSet.Call) :
    Sound programs ⟨.empty, programs, []⟩ where
  inOrder _ := rfl
  known := rfl
  answered := by simp

theorem Sound.advance {programs : κ → List RevokedSet.Call} {r : RevokedRun κ}
    (sound : Sound programs r) (client : κ) : Sound programs (r.advance client) := by
  unfold RevokedRun.advance
  split
  · exact sound
  · next call rest left =>
    obtain ⟨inOrder, known, answered⟩ := sound
    refine ⟨fun other => ?_, ?_, fun i e made => ?_⟩
    · -- The call moves from what its client has left to the end of the log.
      rw [← inOrder other, RevokedLog.callsOf, RevokedLog.callsOf, List.filter_append]
      by_cases same : client = other
      · subst same
        simp [left]
      · simp [same, Ne.symm same]
    · rw [RevokedSet.toFinset_perform, known, RevokedLog.brought_append]
      simp [RevokedLog.brought]
    · -- Either the call was made before, or it is the one that is made now.
      rcases Nat.lt_or_ge i r.log.length with before | now
      · rw [List.getElem?_append_left before] at made
        rw [List.take_append_of_le_length (Nat.le_of_lt before)]
        exact answered i e made
      · rw [List.getElem?_append_right now, List.getElem?_singleton] at made
        obtain ⟨last, same⟩ := Option.ite_none_right_eq_some.mp made
        obtain rfl := Option.some.inj same
        obtain rfl : i = r.log.length := by omega
        rw [List.take_left, ← known]
        exact r.revoked.answers_perform call

end RevokedRun

/-- The calls of each client, in the order in which it makes them, and whose turn it is. -/
structure RevokedSchedule (κ : Type) where
  programs : κ → List RevokedSet.Call
  turns : Nat → κ

namespace RevokedSchedule

variable [DecidableEq κ]

def moment (s : RevokedSchedule κ) (n : Nat) : RevokedRun κ :=
  stateAt RevokedRun.advance ⟨.empty, s.programs, []⟩ s.turns n

def Finished (s : RevokedSchedule κ) (n : Nat) : Prop := ∀ client, (s.moment n).left client = []

/-- A client brings an identifier, sooner or later and in whatever call. -/
def Brings (s : RevokedSchedule κ) (id : TokenId) : Prop :=
  ∃ client, ∃ call ∈ s.programs client, id ∈ call.ids

theorem sound_moment (s : RevokedSchedule κ) (n : Nat) : (s.moment n).Sound s.programs :=
  stateAt_of_kept (P := RevokedRun.Sound s.programs) (fun _ client sound => sound.advance client)
    (Nat.zero_le n) (.start s.programs)

theorem mem_brought_of_finished {s : RevokedSchedule κ} {n : Nat} (finished : s.Finished n)
    {id : TokenId} : id ∈ (s.moment n).log.brought ↔ s.Brings id := by
  have made : ∀ client, (s.moment n).log.callsOf client = s.programs client := by
    intro client
    rw [← (s.sound_moment n).inOrder client, finished client, List.append_nil]
  simp only [RevokedLog.mem_brought, Brings, ← made, RevokedLog.callsOf, List.mem_map,
    List.mem_filter, decide_eq_true_eq]
  constructor
  · rintro ⟨e, among, member⟩
    exact ⟨e.client, e.call, ⟨e, ⟨among, rfl⟩, rfl⟩, member⟩
  · rintro ⟨client, call, ⟨e, ⟨among, -⟩, rfl⟩, member⟩
    exact ⟨e, among, member⟩

/-- What clients see at a moment is a finite set that only grows. -/
structure GrowsOnly (s : RevokedSchedule κ) (n : Nat) : Prop where
  /-- The calls of every client are made in its order, wherever those of others come between. -/
  interleaved : ∀ client, (s.moment n).log.callsOf client ++ (s.moment n).left client =
    s.programs client
  /-- A call is answered as by the set of what was brought before it. -/
  answered : ∀ (i : Nat) (e : RevokedEvent κ), (s.moment n).log[i]? = some e →
    e.call.Answers (RevokedLog.brought ((s.moment n).log.take i)) e.answer
  /-- An identifier that was brought is revoked for whoever asks later. -/
  lasting : ∀ (i j : Nat) (e e' : RevokedEvent κ) (id : TokenId), i < j →
    (s.moment n).log[i]? = some e → id ∈ e.call.ids → (s.moment n).log[j]? = some e' →
    e'.call = .isRevoked id → e'.answer = .verdict true
  listed : RevokedSet.Lists (s.moment n).log.brought (s.moment n).revoked.snapshot
  /-- Wherever the same was brought, the same is revoked. -/
  determined : ∀ {κ' : Type} [DecidableEq κ'] (s' : RevokedSchedule κ') (n' : Nat),
    (∀ id, id ∈ (s.moment n).log.brought ↔ id ∈ (s'.moment n').log.brought) →
      (s.moment n).revoked = (s'.moment n').revoked
  /-- When all calls are made it does not matter who made them, when, and with how many
      identifiers at a time. -/
  settled : s.Finished n → ∀ {κ' : Type} [DecidableEq κ'] (s' : RevokedSchedule κ') (n' : Nat),
    s'.Finished n' → (∀ id, s.Brings id ↔ s'.Brings id) →
      (s.moment n).revoked = (s'.moment n').revoked

theorem revoked_eq_of_brought_iff {κ' : Type} [DecidableEq κ'] {s : RevokedSchedule κ}
    {s' : RevokedSchedule κ'} {n n' : Nat}
    (same : ∀ id, id ∈ (s.moment n).log.brought ↔ id ∈ (s'.moment n').log.brought) :
    (s.moment n).revoked = (s'.moment n').revoked := by
  refine RevokedSet.eq_of_toFinset_eq ?_
  rw [(s.sound_moment n).known, (s'.sound_moment n').known]
  exact Finset.ext same

/-- For every number of clients, whatever calls they make and in whatever order they have their
    turns. -/
theorem grow_only (s : RevokedSchedule κ) (n : Nat) : s.GrowsOnly n where
  interleaved := (s.sound_moment n).inOrder
  answered := (s.sound_moment n).answered
  lasting := by
    intro i j e e' id earlier made brings made' asks
    have answers := (s.sound_moment n).answered j e' made'
    -- What was brought at the place `i` is among what was brought before the place `j`.
    have known : id ∈ RevokedLog.brought ((s.moment n).log.take j) := by
      have before : ((s.moment n).log.take j)[i]? = some e := by
        rw [List.getElem?_take_of_lt earlier, made]
      exact RevokedLog.mem_brought.mpr ⟨e, List.mem_of_getElem? before, brings⟩
    rw [asks] at answers
    generalize e'.answer = answer at answers ⊢
    cases answers
    rw [decide_eq_true known]
  listed := by
    rw [← (s.sound_moment n).known]
    exact RevokedSet.lists_snapshot _
  determined s' n' same := revoked_eq_of_brought_iff same
  settled finished _ _ s' n' finished' same := by
    refine revoked_eq_of_brought_iff fun id => ?_
    rw [mem_brought_of_finished finished, mem_brought_of_finished finished']
    exact same id

def crowded : RevokedSchedule Bool where
  programs
    | false => [.revoke ⟨"z"⟩, .snapshot]
    | true => [.extend [⟨"é"⟩, ⟨"z"⟩, ⟨"é"⟩], .isRevoked ⟨"z"⟩]
  turns n := n % 2 = 1

def alone : RevokedSchedule Unit where
  programs _ := [.extend [⟨"é"⟩, ⟨"z"⟩]]
  turns _ := ()

theorem grow_only_crowded :
    crowded.Finished 4 ∧ alone.Finished 1 ∧
      (crowded.moment 4).log.map RevokedEvent.answer =
        [.verdict true, .count 1, .listing [⟨"z"⟩, ⟨"é"⟩], .verdict true] ∧
      (crowded.moment 4).revoked = (alone.moment 1).revoked := by
  have finished : crowded.Finished 4 := by unfold Finished; decide
  have finished' : alone.Finished 1 := fun _ => rfl
  refine ⟨finished, finished', by decide, ?_⟩
  refine (grow_only crowded 4).settled finished alone 1 finished' fun id => ?_
  simp only [Brings, crowded, alone, Bool.exists_bool, RevokedSet.Call.ids, exists_const,
    List.mem_cons, List.not_mem_nil, exists_eq_or_imp, or_false]
  grind

end RevokedSchedule

end Tollgate
