import Tollgate.Proofs.Admission.Interleaving
import Tollgate.Proofs.Moments

/-! # A revocation is final at once

Any number of requests arrive at a gate; an `AdmissionSchedule` tells which of them goes on at each
moment, what the source of keys answers, and which tokens are revoked in between.
`AdmissionSchedule.revocation_final` states that a revocation stops every admission that is not
done, however far it has come, and that no other token is called revoked.

The argument needs two facts about the past of a moment.  What is revoked at a moment is what was
revoked at first or in a move before it (`mem_revoked_iff`).  And every verdict that lets a request
through, or calls its token revoked, was made in a check, on the claims that the header of the
request shows and on what was revoked then (`checked_of_returned`).
-/

namespace Tollgate

structure AdmissionSchedule where
  gate : GateConfig
  cache : KeyCache
  revoked : RevokedSet
  requests : List Headers
  moves : Nat → AdmissionMove

namespace AdmissionSchedule

def moment (s : AdmissionSchedule) (n : Nat) : AdmissionRun :=
  stateAt AdmissionRun.advance (.start s.gate s.cache s.revoked s.requests) s.moves n

def Revokes (s : AdmissionSchedule) (id : TokenId) (n : Nat) : Prop :=
  ∃ v, s.moves n = .revoke v ∧ id ∈ v.ids

def Returned (s : AdmissionSchedule) (i n : Nat) (verdict : Except Refusal AuthorizedToken) : Prop :=
  ∃ h, (s.moment n).admissions[i]? = some ⟨h, .done verdict⟩

/-- At a moment there is no verdict on a request: it has not been presented yet, or a key is being
    looked up for it, or the check of its claims is still to come. -/
def Pending (s : AdmissionSchedule) (i n : Nat) : Prop := ∀ verdict, ¬s.Returned i n verdict

def Names (s : AdmissionSchedule) (i : Nat) (id : TokenId) : Prop :=
  ∃ h, s.requests[i]? = some h ∧ s.gate.Names h id

variable {s : AdmissionSchedule}

/-! ## What is revoked -/

theorem moment_succ (s : AdmissionSchedule) (n : Nat) :
    s.moment (n + 1) = (s.moment n).advance (s.moves n) :=
  stateAt_succ

theorem change_or_same (s : AdmissionSchedule) (n : Nat) :
    (s.moment n).Change (s.moves n) (s.moment (n + 1)) ∨ s.moment (n + 1) = s.moment n := by
  rw [moment_succ]
  exact AdmissionRun.change_or_advance_eq (s.moment n) (s.moves n)

theorem mem_revoked_iff {n : Nat} {id : TokenId} :
    id ∈ (s.moment n).revoked.ids ↔ id ∈ s.revoked.ids ∨ ∃ t < n, s.Revokes id t := by
  induction n with
  | zero => simp [moment, stateAt, AdmissionRun.start]
  | succ n ih =>
    have grown : id ∈ (s.moment (n + 1)).revoked.ids ↔
        s.Revokes id n ∨ id ∈ (s.moment n).revoked.ids := by
      rw [moment_succ]
      exact AdmissionRun.mem_revoked_advance
    rw [grown, ih]
    constructor
    · rintro (now | first | ⟨t, earlier, past⟩)
      · exact .inr ⟨n, by omega, now⟩
      · exact .inl first
      · exact .inr ⟨t, by omega, past⟩
    · rintro (first | ⟨t, earlier, past⟩)
      · exact .inr (.inl first)
      · obtain before | rfl := Nat.lt_succ_iff_lt_or_eq.mp earlier
        · exact .inr (.inr ⟨t, before, past⟩)
        · exact .inl past

/-! ## What a verdict rests on -/

theorem gate_eq (s : AdmissionSchedule) (n : Nat) : (s.moment n).gate = s.gate := by
  induction n with
  | zero => rfl
  | succ n ih =>
    obtain change | same := s.change_or_same n
    · rw [change.gate_eq, ih]
    · rw [same, ih]

theorem genuine {n i : Nat} {h : Headers} {stage : AdmissionStage}
    (present : (s.moment n).admissions[i]? = some ⟨h, stage⟩) :
    s.requests[i]? = some h ∧ stage.Genuine s.gate h := by
  induction n generalizing stage with
  | zero =>
    have arrived : ∃ h', s.requests[i]? = some h' ∧ h' = h ∧ .arrived = stage := by
      simpa [moment, stateAt, AdmissionRun.start] using present
    obtain ⟨_, requested, rfl, rfl⟩ := arrived
    exact ⟨requested, trivial⟩
  | succ n ih =>
    obtain change | same := s.change_or_same n
    · obtain ⟨old, before, kept⟩ := change.genuine present
      rw [s.gate_eq] at kept
      exact ⟨(ih before).1, kept (ih before).2⟩
    · rw [same] at present
      exact ih present

theorem Returned.mono {b n i : Nat} {verdict : Except Refusal AuthorizedToken}
    (returned : s.Returned i b verdict) (later : b ≤ n) : s.Returned i n verdict := by
  obtain ⟨h, finished⟩ := returned
  let Finished (r : AdmissionRun) : Prop := r.admissions[i]? = some ⟨h, .done verdict⟩
  refine ⟨h, stateAt_of_kept (P := Finished) ?_ later finished⟩
  intro r m before
  obtain change | same := r.change_or_advance_eq m
  · exact change.done before
  · rwa [same]

/-- An admission that is suspended in the lookup of its key, for one, is pending. -/
theorem pending_of_present {n i : Nat} {h : Headers} {stage : AdmissionStage}
    (present : (s.moment n).admissions[i]? = some ⟨h, stage⟩)
    (unfinished : ∀ verdict, stage ≠ .done verdict) : s.Pending i n := by
  rintro verdict ⟨h', finished⟩
  rw [present] at finished
  cases finished
  exact unfinished verdict rfl

/-- A verdict is made in a move, on the claims that the header shows and on what is revoked
    then. -/
structure Checked (s : AdmissionSchedule) (i t : Nat) (verdict : Except Refusal AuthorizedToken) :
    Prop where
  made : ∃ h claims key unsigned, s.requests[i]? = some h ∧ s.gate.Shows h claims ∧
    verdict = s.gate.judge (s.moment t).revoked claims key unsigned
  returned : s.Returned i (t + 1) verdict

theorem checked_of_returned {i n : Nat} {verdict : Except Refusal AuthorizedToken}
    (returned : s.Returned i n verdict) :
    (∃ refusal, verdict = .error refusal ∧ refusal ≠ .revoked) ∨ ∃ t < n, s.Checked i t verdict := by
  induction n with
  | zero =>
    obtain ⟨h, finished⟩ := returned
    simp [moment, stateAt, AdmissionRun.start] at finished
  | succ n ih =>
    obtain ⟨h, finished⟩ := returned
    obtain change | same := s.change_or_same n
    · -- The verdict was there before, is a refusal without a look at the revoked tokens, or is
      -- made now.
      obtain before | refused | ⟨claims, key, unsigned, checking, judged⟩ := change.verdict finished
      · obtain refused | ⟨t, earlier, checked⟩ := ih ⟨h, before⟩
        · exact .inl refused
        · exact .inr ⟨t, by omega, checked⟩
      · exact .inl refused
      · obtain ⟨requested, shown⟩ := genuine checking
        rw [s.gate_eq] at judged
        exact .inr ⟨n, by omega, ⟨h, claims, key, unsigned, requested, shown, judged⟩, h, finished⟩
    · rw [same] at finished
      obtain refused | ⟨t, earlier, checked⟩ := ih ⟨h, finished⟩
      · exact .inl refused
      · exact .inr ⟨t, by omega, checked⟩

/-! ## Finality -/

/-- Once a token was revoked, no request that carries it and has no verdict yet is ever let
    through, whatever happens from then on.  And a request is told that its token is revoked only if
    it was revoked, at first or in a move before. -/
theorem revocation_final (s : AdmissionSchedule) (i : Nat) :
    (∀ id n, s.Revokes id n → s.Pending i (n + 1) → s.Names i id →
      ∀ m admitted, ¬s.Returned i m (.ok admitted)) ∧
    (∀ m, s.Returned i m (.error .revoked) →
      ∃ id, s.Names i id ∧ (id ∈ s.revoked.ids ∨ ∃ n < m, s.Revokes id n)) := by
  constructor
  · intro id n revokes pending named m admitted returned
    obtain ⟨refusal, refused, _⟩ | ⟨t, earlier, checked⟩ := checked_of_returned returned
    · cases refused
    · obtain ⟨h, claims, key, unsigned, requested, shown, judged⟩ := checked.made
      -- The check came after the revocation, since there was no verdict right after that.
      have later : n < t := by
        refine Nat.lt_of_not_le fun sooner => ?_
        exact pending _ (checked.returned.mono (Nat.succ_le_succ sooner))
      have revoked : id ∈ (s.moment t).revoked.ids := mem_revoked_iff.mpr (.inr ⟨n, later, revokes⟩)
      -- The header shows one set of claims, so that the check was about this very token.
      obtain ⟨h', requested', claims', shown', named⟩ := named
      obtain rfl : h = h' := Option.some.inj (requested.symm.trans requested')
      obtain rfl := shown.unique shown'
      rw [GateConfig.judge_eq_revoked_iff.mpr ⟨id, named, revoked⟩] at judged
      cases judged
  · intro m returned
    obtain ⟨refusal, refused, other⟩ | ⟨t, earlier, checked⟩ := checked_of_returned returned
    · cases refused
      exact absurd rfl other
    · obtain ⟨h, claims, key, unsigned, requested, shown, judged⟩ := checked.made
      obtain ⟨id, named, revoked⟩ := GateConfig.judge_eq_revoked_iff.mp judged.symm
      refine ⟨id, ⟨h, requested, claims, shown, named⟩, ?_⟩
      obtain first | ⟨n, before, revokes⟩ := mem_revoked_iff.mp revoked
      · exact .inl first
      · exact .inr ⟨n, by omega, revokes⟩

/-- A request with the unsigned token `a`, which is revoked before its claims are checked. -/
def overtaken : AdmissionSchedule where
  gate := { allowUnsigned := true }
  cache := .empty
  revoked := .empty
  requests := [[("proxy-authorization",
    Octets.ofString "Bearer eyJhbGciOiJub25lIn0.eyJleHAiOjksImp0aSI6ImEifQ.")]]
  moves n := [.present 0 (.ofSeconds 0), .revoke (.revoke ⟨"a"⟩)].getD n (.check 0)

theorem revocation_final_overtaken :
    overtaken.Revokes ⟨"a"⟩ 1 ∧ overtaken.Pending 0 2 ∧ overtaken.Names 0 ⟨"a"⟩ ∧
      overtaken.Returned 0 3 (.error .revoked) ∧
      ∀ m admitted, ¬overtaken.Returned 0 m (.ok admitted) := by
  have revokes : overtaken.Revokes ⟨"a"⟩ 1 := ⟨.revoke ⟨"a"⟩, rfl, by simp [Revocation.ids]⟩
  have pending : overtaken.Pending 0 2 := pending_of_present rfl (by simp)
  have returned : overtaken.Returned 0 3 (.error .revoked) := ⟨_, rfl⟩
  have named : overtaken.Names 0 ⟨"a"⟩ := by
    let claims : Claims :=
      { issuer := none, expires := 9, tokenId := some ⟨"a"⟩, keyId := none, extra := [] }
    have shown : overtaken.gate.Shows (overtaken.requests.head (by simp [overtaken])) claims :=
      ⟨_, GateConfig.carries_iff.mpr ⟨_, rfl, rfl⟩, rfl⟩
    exact ⟨_, rfl, claims, shown, rfl⟩
  have never := (revocation_final overtaken 0).1 ⟨"a"⟩ 1 revokes pending named
  exact ⟨revokes, pending, named, returned, never⟩

end AdmissionSchedule

end Tollgate
