import Tollgate.Token.Compact

/-! # Taking a token apart

`UnverifiedToken.Written` says of a text that it is a token in compact form: three segments without
dots, of which the first two are not empty and are base64 of a header and of a payload.
`UnverifiedToken.parse_eq_ok_iff` shows that parsing answers exactly the tokens that a text is.
-/

namespace Tollgate

/-! ## Segments -/

theorem splitDots_ne_nil (s : Octets) : splitDots s ≠ [] := by
  cases s with
  | nil => simp [splitDots]
  | cons b s =>
    simp only [splitDots]
    split
    · simp
    · split <;> simp

/-- A text splits into one part if it has no dot. -/
theorem splitDots_of_notMem {s : Octets} (absent : dot ∉ s) : splitDots s = [s] := by
  induction s with
  | nil => rfl
  | cons b s ih =>
    obtain ⟨different, absentRest⟩ := List.ne_and_not_mem_of_not_mem_cons absent
    simp [splitDots, different.symm, ih absentRest]

/-- The part before the first dot is the first part. -/
theorem splitDots_append {a : Octets} (absent : dot ∉ a) (s : Octets) :
    splitDots (a ++ dot :: s) = a :: splitDots s := by
  induction a with
  | nil => simp [splitDots]
  | cons b a ih =>
    obtain ⟨different, absentRest⟩ := List.ne_and_not_mem_of_not_mem_cons absent
    simp [splitDots, different.symm, ih absentRest]

theorem splitDots_eq_singleton {s a : Octets} (parts : splitDots s = [a]) : s = a ∧ dot ∉ a := by
  induction s generalizing a with
  | nil =>
    simp only [splitDots, List.cons.injEq, and_true] at parts
    subst parts
    simp
  | cons b s ih =>
    simp only [splitDots] at parts
    split at parts
    · simp [splitDots_ne_nil] at parts
    · next different =>
      split at parts
      · next none => exact absurd none (splitDots_ne_nil s)
      · next part rest split =>
        simp only [List.cons.injEq] at parts
        obtain ⟨rfl, rfl⟩ := parts
        obtain ⟨rfl, absent⟩ := ih split
        refine ⟨rfl, fun member => ?_⟩
        rcases List.mem_cons.mp member with same | later
        · exact different same.symm
        · exact absent later

theorem splitDots_eq_cons {s a b : Octets} {rest : List Octets}
    (parts : splitDots s = a :: b :: rest) :
    ∃ s', s = a ++ dot :: s' ∧ dot ∉ a ∧ splitDots s' = b :: rest := by
  induction s generalizing a with
  | nil => simp [splitDots] at parts
  | cons c s ih =>
    simp only [splitDots] at parts
    split at parts
    · next same =>
      simp only [List.cons.injEq] at parts
      obtain ⟨rfl, tail⟩ := parts
      exact ⟨s, by simp [same], by simp, tail⟩
    · next different =>
      split at parts
      · next none => exact absurd none (splitDots_ne_nil s)
      · next part others split =>
        simp only [List.cons.injEq] at parts
        obtain ⟨rfl, rfl⟩ := parts
        -- An octet that is no dot goes in front of the first part.
        obtain ⟨s', rfl, absent, tail⟩ := ih split
        refine ⟨s', rfl, fun member => ?_, tail⟩
        rcases List.mem_cons.mp member with same | later
        · exact different same.symm
        · exact absent later

theorem splitDots_eq_three_iff {s a b c : Octets} :
    splitDots s = [a, b, c] ↔
      s = a ++ dot :: (b ++ dot :: c) ∧ dot ∉ a ∧ dot ∉ b ∧ dot ∉ c := by
  constructor
  · intro parts
    obtain ⟨s', rfl, absentA, tail⟩ := splitDots_eq_cons parts
    obtain ⟨s'', rfl, absentB, last⟩ := splitDots_eq_cons tail
    obtain ⟨rfl, absentC⟩ := splitDots_eq_singleton last
    exact ⟨rfl, absentA, absentB, absentC⟩
  · rintro ⟨rfl, absentA, absentB, absentC⟩
    rw [splitDots_append absentA, splitDots_append absentB, splitDots_of_notMem absentC]

/-! ## Tokens -/

namespace UnverifiedToken

/-- A text is a token in compact form: header, payload and signature between two dots. -/
def Written (raw : Octets) (t : UnverifiedToken) : Prop :=
  ∃ header payload, raw = header ++ dot :: (payload ++ dot :: t.signature) ∧
    dot ∉ header ∧ dot ∉ payload ∧ dot ∉ t.signature ∧ header ≠ [] ∧ payload ≠ [] ∧
    t.signingInput = header ++ dot :: payload ∧
    Base64.decode .urlSafe .absent payload = .ok t.payload ∧
    ∃ json, Base64.decode .urlSafe .absent header = .ok json ∧
      Json.document TokenHeader.read json = .ok t.header

theorem written_of_parse {raw : Octets} {t : UnverifiedToken} (parsed : parse raw = .ok t) :
    Written raw t := by
  unfold parse at parsed
  split at parsed
  · next h p s parts =>
    obtain ⟨rfl, absentH, absentP, absentS⟩ := splitDots_eq_three_iff.mp parts
    split at parsed
    · contradiction
    · next nonempty =>
      simp only [Bool.or_eq_true, List.isEmpty_iff, not_or] at nonempty
      split at parsed
      · contradiction
      · next json headerDecoded =>
        split at parsed
        · contradiction
        · next payload payloadDecoded =>
          split at parsed
          · contradiction
          · next header headerRead =>
            cases parsed
            exact ⟨h, p, rfl, absentH, absentP, absentS, nonempty.1, nonempty.2, rfl,
              payloadDecoded, json, headerDecoded, headerRead⟩
  · contradiction

theorem parse_of_written {raw : Octets} {t : UnverifiedToken} (written : Written raw t) :
    parse raw = .ok t := by
  obtain ⟨h, p, rfl, absentH, absentP, absentS, nonemptyH, nonemptyP, input, payloadDecoded,
    json, headerDecoded, headerRead⟩ := written
  have parts := splitDots_eq_three_iff.mpr ⟨rfl, absentH, absentP, absentS⟩
  simp [parse, parts, nonemptyH, nonemptyP, headerDecoded, payloadDecoded, headerRead, ← input]

theorem parse_eq_ok_iff {raw : Octets} {t : UnverifiedToken} :
    parse raw = .ok t ↔ Written raw t :=
  ⟨written_of_parse, parse_of_written⟩

end UnverifiedToken

end Tollgate
