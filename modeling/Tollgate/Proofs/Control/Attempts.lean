import Tollgate.Control.Dates
import Tollgate.Proofs.Control.Calls

/-! # Calls that may break off

A call is answered by `ControlServer.serve` or breaks off, and then the server that it leaves has at
most a new key (`eq_of_interrupted`).  So calls of which some break off lead nowhere that answered
calls do not lead (`exists_answered`), and what holds of every server after answered calls holds
with the others among them as well.
-/

namespace Tollgate.ControlServer

/-! ## Runs -/

/-- What becomes of a call, and the server that it leaves. -/
def meet (s : ControlServer) (call : Call) : Option Response × ControlServer :=
  s.attempt call.now call.draws call.request

def outcomes (s : ControlServer) : List Call → List (Option Response)
  | [] => []
  | call :: calls => (s.meet call).1 :: (s.meet call).2.outcomes calls

def left (s : ControlServer) (calls : List Call) : ControlServer :=
  calls.foldl (fun s call => (s.meet call).2) s

theorem left_append (s : ControlServer) (calls later : List Call) :
    s.left (calls ++ later) = (s.left calls).left later :=
  List.foldl_append

/-! ## One call -/

variable {s s' : ControlServer} {call : Call}

theorem meet_of_interrupted
    (broken : s.interrupted? call.now call.draws call.request = some s') :
    s.meet call = (none, s') := by
  rw [meet, attempt, broken]

theorem meet_of_uninterrupted (whole : s.interrupted? call.now call.draws call.request = none) :
    s.meet call = (some (s.answer call).1, (s.answer call).2) := by
  rw [meet, attempt, whole]
  rfl

theorem meet_eq_none_iff :
    (s.meet call).1 = none ↔ (s.interrupted? call.now call.draws call.request).isSome = true := by
  cases broken : s.interrupted? call.now call.draws call.request with
  | none => simp [meet_of_uninterrupted broken]
  | some s' => simp [meet_of_interrupted broken]

/-! ## What a call leaves -/

theorem issue_of_currentKey {now : Instant} {d : Draws} {key : SigningKey}
    {authority : Authority FleetStore}
    (made : s.authority.currentKey now d.key = (.ok key, authority)) :
    (s.issue now d).2 = { s with authority } := by
  simp only [issue, Authority.issueToken, made]
  cases key.sign _ <;> rfl

/-- A call that breaks off leaves the server as it was, unless it asks for a token.  Then the key may
    have been made, and the server is left as if the token had been issued. -/
theorem eq_of_interrupted (broken : s.interrupted? call.now call.draws call.request = some s') :
    s' = s ∨ s.route call.request = .ok .token ∧ s' = (s.answer call).2 ∧
      s' = { s with authority := (s.authority.currentKey call.now call.draws.key).2 } := by
  simp only [interrupted?] at broken
  split at broken
  · contradiction
  · next endpoint routed =>
    cases endpoint with
    | health | servers | catalog | deregister | revoked | revoke => contradiction
    | keySet =>
      simp only [breaksOff?] at broken
      split at broken
      · exact .inl (Option.some.inj broken).symm
      · contradiction
    | register =>
      simp only [breaksOff?] at broken
      split at broken
      · contradiction
      · split at broken
        · exact .inl (Option.some.inj broken).symm
        · contradiction
    | token =>
      simp only [breaksOff?] at broken
      split at broken
      · exact .inl (Option.some.inj broken).symm
      · split at broken
        · contradiction
        · next made =>
          split at broken
          · obtain rfl := Option.some.inj broken
            -- The key was made before the date of the token fails, and it stays.
            refine .inr ⟨routed, ?_, by rw [made]⟩
            simp only [answer, serve, routed, perform, issue_of_currentKey made]
          · contradiction

theorem meet_cases (s : ControlServer) (call : Call) :
    (s.meet call).2 = (s.answer call).2 ∨ (s.meet call).2 = s := by
  cases broken : s.interrupted? call.now call.draws call.request with
  | none =>
    rw [meet_of_uninterrupted broken]
    exact .inl rfl
  | some s' =>
    rw [meet_of_interrupted broken]
    obtain unchanged | ⟨-, answered, -⟩ := eq_of_interrupted broken
    · exact .inr unchanged
    · exact .inl answered

/-- What `meet` leaves is what answering some of the calls leaves, in the same order. -/
theorem exists_answered (s : ControlServer) (calls : List Call) :
    ∃ answered : List Call, answered.Sublist calls ∧ s.left calls = s.after answered := by
  induction calls generalizing s with
  | nil => exact ⟨[], .refl [], rfl⟩
  | cons call rest ih =>
    obtain ⟨answered, among, same⟩ := ih (s.meet call).2
    obtain settled | unchanged := s.meet_cases call
    · refine ⟨call :: answered, among.cons_cons call, ?_⟩
      rw [settled] at same
      exact (congrArg (·.left rest) settled).trans same
    · refine ⟨answered, among.cons call, ?_⟩
      rw [unchanged] at same
      exact (congrArg (·.left rest) unchanged).trans same

theorem meet_settings (s : ControlServer) (call : Call) : s.SameSettings (s.meet call).2 := by
  obtain same | same := s.meet_cases call
  · rw [same]
    exact s.answer_settings call
  · rw [same]
    exact .refl s

theorem left_settings (s : ControlServer) (calls : List Call) : s.SameSettings (s.left calls) := by
  obtain ⟨answered, -, same⟩ := s.exists_answered calls
  rw [same]
  exact s.after_settings answered

/-- A call that breaks off touches neither the revoked tokens nor the registrations. -/
theorem meet_of_broken (store : s.authority.store = FleetStore.keyStore)
    (broken : (s.meet call).1 = none) :
    (s.meet call).2.revoked = s.revoked ∧
      (s.meet call).2.fleet.registrations = s.fleet.registrations := by
  rw [meet_eq_none_iff, Option.isSome_iff_exists] at broken
  obtain ⟨s', broken⟩ := broken
  rw [meet_of_interrupted broken]
  obtain rfl | ⟨-, -, rfl⟩ := eq_of_interrupted broken
  · exact ⟨rfl, rfl⟩
  · exact ⟨rfl, Authority.registrations_currentKey store _ _⟩

/-- A call that does not break off is answered. -/
theorem meet_of_answered {response : Response} (answered : (s.meet call).1 = some response) :
    s.meet call = (some (s.answer call).1, (s.answer call).2) := by
  cases broken : s.interrupted? call.now call.draws call.request with
  | none => exact meet_of_uninterrupted broken
  | some s' =>
    rw [meet_of_interrupted broken] at answered
    contradiction

end Tollgate.ControlServer
