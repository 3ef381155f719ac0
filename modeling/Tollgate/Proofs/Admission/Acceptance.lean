import Tollgate.Proofs.Admission.Finality

/-! # What an acceptance under way rests on

An admission that others interrupt reads the key cache and the revoked tokens at different moments.
`AdmissionSchedule.accepted_of_returned` shows that it still lets through only what
`GateConfig.authorize` lets through: with the cache at the moment at which it held the token's key,
and with the tokens that were revoked when the claims were checked.  Nothing depends on what the
source of keys would have answered then.

The invariant is `AdmissionSchedule.Vetted`: what is known of a request while its admission is under
way.
-/

namespace Tollgate

/-! ## Where a key comes from -/

namespace LookupRun.Change

variable {r r' : LookupRun} {m : LookupMove}

/-- A lookup keeps its key. -/
theorem of_getElem? (change : r.Change m r') {i : Nat} {l : Lookup}
    (after : r'.lookups[i]? = some l) : ∃ old, r.lookups[i]? = some ⟨l.key, old⟩ := by
  cases change with
  | _ =>
    obtain before | ⟨rfl, _, before⟩ := of_getElem?_setStage after
    · exact ⟨l.stage, before⟩
    · exact before

theorem getElem?_of (change : r.Change m r') {i : Nat} {l : Lookup}
    (before : r.lookups[i]? = some l) : ∃ stage, r'.lookups[i]? = some ⟨l.key, stage⟩ := by
  have kept : ∀ j stage, ∃ stage', (r.setStage j stage).lookups[i]? = some ⟨l.key, stage'⟩ := by
    intro j stage
    by_cases mine : j = i
    · subst mine
      exact ⟨stage, getElem?_setStage_self before stage⟩
    · exact ⟨l.stage, (getElem?_setStage_of_ne mine stage).trans before⟩
  cases change with
  | _ => exact kept _ _

/-- A key that was found is, or was a moment ago, in the cache. -/
theorem found (change : r.Change m r') {i : Nat} {id : KeyId} {key : Rsa.PublicKey}
    (after : r'.lookups[i]? = some ⟨id, .done (.ok key)⟩) :
    r.lookups[i]? = some ⟨id, .done (.ok key)⟩ ∨ Sorted.find? id r.cache.value = some key ∨
      Sorted.find? id r'.cache.value = some key := by
  obtain ⟨old, before⟩ := change.of_getElem? after
  by_cases finished : ∃ result, old = .done result
  · obtain ⟨result, rfl⟩ := finished
    cases (change.done before).symm.trans after
    exact .inl before
  · have pending : ∀ result, old ≠ .done result := fun result same => finished ⟨result, same⟩
    cases change.answers before pending after with
    | cached _ looked => exact .inr (.inl looked)
    | handed _ looked =>
      refine .inr (.inr ?_)
      rw [change.refreshed.1]
      exact looked

end LookupRun.Change

/-- After a lookup comes no other one. -/
theorem AdmissionStage.ofResolution_ne_resolving (token : UnverifiedToken) (key : KeyId)
    (now : Instant) (resolution : Resolution) {token' : UnverifiedToken} {key' : KeyId} {l : Nat} :
    ofResolution token key now resolution ≠ .resolving token' key' l := by
  unfold ofResolution
  split
  · nofun
  · split <;> nofun

namespace AdmissionRun.Change

variable {r r' : AdmissionRun} {m : AdmissionMove}

/-- A lookup that is not new has had a move of its own, or none. -/
theorem lookups (change : r.Change m r') :
    r'.lookups = r.lookups ∨ (∃ key, r'.lookups = r.lookups.join key) ∨
      ∃ m', r.lookups.Change m' r'.lookups := by
  cases change with
  | seek => exact .inr (.inl ⟨_, rfl⟩)
  | lookup change => exact .inr (.inr ⟨_, change⟩)
  | _ => exact .inl rfl

theorem getElem?_lookups (change : r.Change m r') {l : Nat} {lookup : Lookup}
    (before : r.lookups.lookups[l]? = some lookup) :
    ∃ stage, r'.lookups.lookups[l]? = some ⟨lookup.key, stage⟩ := by
  obtain same | ⟨key, joined⟩ | ⟨m', moved⟩ := change.lookups
  · rw [same]
    exact ⟨lookup.stage, before⟩
  · obtain ⟨inside, _⟩ := List.getElem?_eq_some_iff.mp before
    refine ⟨lookup.stage, ?_⟩
    rw [joined, LookupRun.join, List.getElem?_append_left inside, before]
  · exact moved.getElem?_of before

/-- A request that waits for a lookup waited for it before, or the lookup is new. -/
theorem resolving (change : r.Change m r') {i l : Nat} {h : Headers} {token : UnverifiedToken}
    {key : KeyId} (after : r'.admissions[i]? = some ⟨h, .resolving token key l⟩) :
    r.admissions[i]? = some ⟨h, .resolving token key l⟩ ∨ l = r.lookups.lookups.length := by
  cases change with
  | lookup | revoke => exact .inl after
  | seek =>
    obtain before | ⟨_, staged, _⟩ := of_getElem?_setStage after
    · exact .inl before
    · cases staged
      exact .inr rfl
  | verify =>
    obtain before | ⟨_, staged, _⟩ := of_getElem?_setStage after
    · exact .inl before
    · exact absurd staged.symm (AdmissionStage.ofResolution_ne_resolving _ _ _ _)
  | _ =>
    obtain before | ⟨_, staged, _⟩ := of_getElem?_setStage after
    · exact .inl before
    · cases staged

end AdmissionRun.Change

/-! ## The invariant -/

namespace AdmissionSchedule

variable {s : AdmissionSchedule}

def Underway (s : AdmissionSchedule) (i n : Nat) : Prop :=
  ∃ h stage, (s.moment n).admissions[i]? = some ⟨h, stage⟩ ∧ stage ≠ .arrived ∧
    ∀ verdict, stage ≠ .done verdict

theorem exists_lookup {u n l : Nat} (past : u ≤ n)
    (inside : l < (s.moment u).lookups.lookups.length) :
    l < (s.moment n).lookups.lookups.length := by
  induction past with
  | refl => exact inside
  | @step n _ ih =>
    obtain change | same := s.change_or_same n
    · obtain ⟨stage, present⟩ := change.getElem?_lookups (List.getElem?_eq_getElem ih)
      exact (List.getElem?_eq_some_iff.mp present).1
    · rw [Nat.succ_eq_add_one, same]
      exact ih

/-- A request waits for a lookup from the moment at which the lookup is there. -/
theorem resolving_since {u n i l : Nat} {h : Headers} {token : UnverifiedToken} {key : KeyId}
    (resolving : (s.moment n).admissions[i]? = some ⟨h, .resolving token key l⟩) (past : u ≤ n)
    (inside : l < (s.moment u).lookups.lookups.length) :
    (s.moment u).admissions[i]? = some ⟨h, .resolving token key l⟩ := by
  induction n with
  | zero =>
    obtain rfl := Nat.le_zero.mp past
    exact resolving
  | succ n ih =>
    obtain rfl | before := Nat.eq_or_lt_of_le past
    · exact resolving
    · refine ih ?_ (Nat.le_of_lt_succ before)
      obtain change | same := s.change_or_same n
      · have known := exists_lookup (Nat.le_of_lt_succ before) inside
        obtain same | new := change.resolving resolving
        · exact same
        · omega
      · rwa [same] at resolving

/-- Up to a moment the cache held a key at least once since a lookup was there. -/
def Held (s : AdmissionSchedule) (l : Nat) (id : KeyId) (key : Rsa.PublicKey) (n : Nat) : Prop :=
  ∃ u ≤ n, l < (s.moment u).lookups.lookups.length ∧
    Sorted.find? id (s.moment u).lookups.cache.value = some key

theorem held_of_done {n l : Nat} {id : KeyId} {key : Rsa.PublicKey}
    (finished : (s.moment n).lookups.lookups[l]? = some ⟨id, .done (.ok key)⟩) :
    s.Held l id key n := by
  induction n with
  | zero => simp [moment, stateAt, AdmissionRun.start] at finished
  | succ n ih =>
    have inside := (List.getElem?_eq_some_iff.mp finished).1
    have earlier : (s.moment n).lookups.lookups[l]? = some ⟨id, .done (.ok key)⟩ →
        s.Held l id key (n + 1) := by
      intro before
      obtain ⟨u, past, held⟩ := ih before
      exact ⟨u, by omega, held⟩
    obtain change | same := s.change_or_same n
    · obtain same | ⟨key', joined⟩ | ⟨m', moved⟩ := change.lookups
      · rw [same] at finished
        exact earlier finished
      · -- The lookup that joined is not done yet.
        rw [joined, LookupRun.join, List.getElem?_append] at finished
        split at finished
        · exact earlier finished
        · obtain ⟨_, new⟩ := List.getElem?_eq_some_iff.mp finished
          simp at new
      · obtain ⟨_, there⟩ := moved.of_getElem? finished
        -- The key is in the cache before the move that ends the lookup, or after it.
        obtain before | held | held := moved.found finished
        · exact earlier before
        · exact ⟨n, by omega, (List.getElem?_eq_some_iff.mp there).1, held⟩
        · exact ⟨n + 1, by omega, inside, held⟩
    · rw [same] at finished
      exact earlier finished

/-- What is known of a request whose admission has come to a stage: the key that is looked up is the
    one that its token names; and claims that count are those that would be judged if the gate were
    asked at once, with the cache at some moment of this admission, whatever the source of keys
    answers. -/
def Vetted (s : AdmissionSchedule) (i : Nat) (h : Headers) (n : Nat) : AdmissionStage → Prop
  | .resolving token key l =>
    (∃ now, s.gate.present h now = .ok (.signed token key)) ∧
      ∃ stage, (s.moment n).lookups.lookups[l]? = some ⟨key, stage⟩
  | .checking claims key unsigned =>
    ∃ u ≤ n, s.Underway i u ∧ ∃ now, ∀ revoked answer,
      (s.gate.authorize h (s.moment u).lookups.cache revoked now answer).1 =
        s.gate.judge revoked claims key unsigned
  | _ => True

theorem Vetted.succ {i : Nat} {h : Headers} {n : Nat} {stage : AdmissionStage}
    (vetted : s.Vetted i h n stage) : s.Vetted i h (n + 1) stage := by
  cases stage with
  | arrived => trivial
  | done => trivial
  | checking claims key unsigned =>
    obtain ⟨u, past, judged⟩ := vetted
    exact ⟨u, by omega, judged⟩
  | resolving token key l =>
    obtain ⟨presented, stage, present⟩ := vetted
    refine ⟨presented, ?_⟩
    obtain change | same := s.change_or_same n
    · exact change.getElem?_lookups present
    · rw [same]
      exact ⟨stage, present⟩

/-- A token that was verified under its key counts as if the gate had been asked when the cache held
    that key. -/
theorem vetted_ofResolution {i : Nat} {h : Headers} {n l : Nat} {now : Instant}
    {token : UnverifiedToken} {key : KeyId} {resolution : Resolution}
    (resolving : (s.moment n).admissions[i]? = some ⟨h, .resolving token key l⟩)
    (vetted : s.Vetted i h n (.resolving token key l)) {id : KeyId}
    (resolved : (s.moment n).lookups.lookups[l]? = some ⟨id, .done resolution⟩) :
    s.Vetted i h n (.ofResolution token key now resolution) := by
  obtain ⟨⟨before, presented⟩, stage, present⟩ := vetted
  cases resolved.symm.trans present
  cases resolution with
  | error fault => trivial
  | ok k =>
    cases verified : token.verify k now with
    | error fault => simp only [AdmissionStage.ofResolution, verified, Vetted]
    | ok claims =>
      simp only [AdmissionStage.ofResolution, verified, Vetted]
      obtain ⟨u, past, there, held⟩ := held_of_done resolved
      have underway : s.Underway i u :=
        ⟨h, _, resolving_since resolving past there, by simp, by simp⟩
      -- Whether a key has to be looked up for a token does not depend on the time.
      have presented : s.gate.present h now = .ok (.signed token key) :=
        GateConfig.present_eq_signed_iff.mpr (GateConfig.present_eq_signed_iff.mp presented)
      refine ⟨u, past, underway, now, fun revoked answer => ?_⟩
      have found : ((s.moment u).lookups.cache.resolve key answer).1 = .ok k :=
        KeyCache.resolve_eq_ok_iff.mpr (.inl held)
      simp only [GateConfig.authorize, presented, found, GateConfig.judgeSigned, verified]

theorem vetted {n i : Nat} {h : Headers} {stage : AdmissionStage}
    (present : (s.moment n).admissions[i]? = some ⟨h, stage⟩) : s.Vetted i h n stage := by
  induction n generalizing i stage with
  | zero =>
    have arrived : ∃ h', s.requests[i]? = some h' ∧ h' = h ∧ .arrived = stage := by
      simpa [moment, stateAt, AdmissionRun.start] using present
    obtain ⟨_, _, _, rfl⟩ := arrived
    trivial
  | succ n ih =>
    obtain change | same := s.change_or_same n
    · have there := present
      generalize s.moves n = m at change
      generalize next : s.moment (n + 1) = r' at change present
      -- A move brings one request to a stage; all others keep what was known of them.
      cases change with
      | lookup => exact (ih present).succ
      | revoke => exact (ih present).succ
      | refuse _ _ | check =>
        obtain before | ⟨_, rfl, _⟩ := AdmissionRun.of_getElem?_setStage present
        · exact (ih before).succ
        · trivial
      | @waive j now _ token claims arrived presented =>
        obtain before | ⟨rfl, rfl, _, before⟩ := AdmissionRun.of_getElem?_setStage present
        · exact (ih before).succ
        · cases arrived.symm.trans before
          rw [s.gate_eq] at presented
          have underway : s.Underway i (n + 1) := ⟨h, _, there, by simp, by simp⟩
          refine ⟨n + 1, Nat.le_refl _, underway, now, fun revoked answer => ?_⟩
          simp only [GateConfig.authorize, presented]
      | @seek j now _ token key arrived presented =>
        obtain before | ⟨rfl, rfl, _, before⟩ := AdmissionRun.of_getElem?_setStage present
        · exact (ih before).succ
        · cases arrived.symm.trans before
          rw [s.gate_eq] at presented
          refine ⟨⟨now, presented⟩, .started, ?_⟩
          rw [next]
          simp [LookupRun.join]
      | verify resolving resolved =>
        obtain before | ⟨rfl, rfl, _, before⟩ := AdmissionRun.of_getElem?_setStage present
        · exact (ih before).succ
        · cases resolving.symm.trans before
          exact (vetted_ofResolution before (ih before) resolved).succ
    · rw [same] at present
      exact (ih present).succ

/-! ## Acceptance -/

/-- There is one verdict on a request. -/
theorem Returned.unique {i n m : Nat} {verdict verdict' : Except Refusal AuthorizedToken}
    (returned : s.Returned i n verdict) (returned' : s.Returned i m verdict') :
    verdict = verdict' := by
  obtain ⟨h, finished⟩ := returned.mono (Nat.le_max_left n m)
  obtain ⟨h', finished'⟩ := returned'.mono (Nat.le_max_right n m)
  cases finished.symm.trans finished'
  rfl

/-- The gate lets a request through, with the cache at one moment of its admission and with what is
    revoked at another one, whatever the source of keys answers. -/
def Accepts (s : AdmissionSchedule) (i : Nat) (h : Headers) (admitted : AuthorizedToken) (n : Nat) :
    Prop :=
  ∃ u t now, u ≤ t ∧ t < n ∧ s.Underway i u ∧ s.Underway i t ∧ ∀ answer,
    (s.gate.authorize h (s.moment u).lookups.cache (s.moment t).revoked now answer).1 = .ok admitted

theorem Accepts.mono {i m n : Nat} {h : Headers} {admitted : AuthorizedToken}
    (accepted : s.Accepts i h admitted m) (later : m ≤ n) : s.Accepts i h admitted n := by
  obtain ⟨u, t, now, order, past, accepted⟩ := accepted
  exact ⟨u, t, now, order, Nat.lt_of_lt_of_le past later, accepted⟩

/-- Whatever others do in between, a request is let through only if the gate lets it through. -/
theorem accepted_of_returned {i n : Nat} {admitted : AuthorizedToken}
    (returned : s.Returned i n (.ok admitted)) :
    ∃ h, s.requests[i]? = some h ∧ s.Accepts i h admitted n := by
  obtain ⟨h, finished⟩ := returned
  refine ⟨h, (genuine finished).1, ?_⟩
  induction n with
  | zero => simp [moment, stateAt, AdmissionRun.start] at finished
  | succ n ih =>
    have earlier : (s.moment n).admissions[i]? = some ⟨h, .done (.ok admitted)⟩ →
        s.Accepts i h admitted (n + 1) := fun before => (ih before).mono (Nat.le_succ n)
    obtain change | same := s.change_or_same n
    · obtain before | ⟨_, refused, _⟩ | ⟨claims, key, unsigned, checking, judged⟩ :=
        change.verdict finished
      · exact earlier before
      · cases refused
      · obtain ⟨u, past, underway, now, authorized⟩ := vetted checking
        have checked : s.Underway i n := ⟨h, _, checking, by simp, by simp⟩
        refine ⟨u, n, now, past, by omega, underway, checked, fun answer => ?_⟩
        rw [authorized, judged, s.gate_eq]
    · rw [same] at finished
      exact earlier finished

end AdmissionSchedule

end Tollgate
