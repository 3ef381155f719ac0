import Tollgate.Key.Signing
import Tollgate.Proofs.Rsa

/-! # The end of a key, of its record and of a token

A signing key ends at a point in time, its record and the claims of a token end with a second.  On
whole seconds the three could be one, since a clock has reached a second exactly if its timestamp
has (`Instant.reached_iff`).  The key and the claims do agree, at every reading of the clock.  The
record does not: a key and a token have ended as soon as the second of their end begins, and the
record still counts in that second (`SigningKey.record_ends_with_key_iff`).
-/

namespace Tollgate

theorem Instant.reached_iff {e : Int} {now : Instant} :
    (Instant.ofSeconds e).nanos ≤ now.nanos ↔ e ≤ now.seconds := by
  simp only [seconds_eq, ofSeconds, nanosPerSecond]
  omega

theorem Instant.seconds_ofSeconds (e : Int) : (Instant.ofSeconds e).seconds = e := by
  simp only [seconds_eq, ofSeconds, nanosPerSecond]
  omega

theorem PublishedKey.isExpired_iff {k : PublishedKey} {now : Instant} :
    k.isExpired now = true ↔ k.expires < 0 ∨ k.expires < now.seconds := by
  simp [isExpired]

namespace SigningKey

variable {k : SigningKey} {e : Int}

/-- Whatever the end of a key is, its record has ended only when the second of that end is over, or
    from the beginning if the end lies before 1970. -/
theorem isExpired_published_iff {now : Instant} :
    k.published.isExpired now = true ↔ k.expiresAt.seconds < 0 ∨ k.expiresAt.seconds < now.seconds :=
  PublishedKey.isExpired_iff

theorem isExpired_iff_of_whole (whole : k.expiresAt = .ofSeconds e) {now : Instant} :
    k.isExpired now = true ↔ e ≤ now.seconds := by
  rw [isExpired, decide_eq_true_eq, whole, Instant.reached_iff]

theorem isExpired_published_iff_of_whole (whole : k.expiresAt = .ofSeconds e) {now : Instant} :
    k.published.isExpired now = true ↔ e < 0 ∨ e < now.seconds := by
  rw [isExpired_published_iff, whole, Instant.seconds_ofSeconds]

/-- A key that ends with a whole second ends with the tokens of that second.  Its record ends with
    it unless the clock is in that very second, or the end lies before 1970 and is still to come; so
    for a clock that is past 1970 it is the second of the end in which they differ, and there the
    record is one second late. -/
theorem record_ends_with_key_iff (whole : k.expiresAt = .ofSeconds e) :
    (∀ (c : Claims) now, c.expires = e → c.isExpired now = k.isExpired now) ∧
    (∀ now, k.published.isExpired now = k.isExpired now ↔
      (0 ≤ e → now.seconds ≠ e) ∧ (e < 0 → e ≤ now.seconds)) ∧
    (∀ now, 0 ≤ now.nanos →
      (k.published.isExpired now = k.isExpired now ↔ now.seconds ≠ e)) ∧
    ∀ now, 0 ≤ e → k.published.isExpired now = k.isExpired (now.add (.ofSeconds (-1))) := by
  -- `e < 0 ∨ e < now.seconds` against `e ≤ now.seconds`: they differ where the two are equal.
  have agree : ∀ now, k.published.isExpired now = k.isExpired now ↔
      (0 ≤ e → now.seconds ≠ e) ∧ (e < 0 → e ≤ now.seconds) := by
    intro now
    rw [Bool.eq_iff_iff, isExpired_published_iff_of_whole whole, isExpired_iff_of_whole whole]
    omega
  refine ⟨fun c now ends => ?_, agree, fun now past => ?_, fun now late => ?_⟩
  · rw [Bool.eq_iff_iff, isExpired_iff_of_whole whole, Claims.isExpired, decide_eq_true_eq, ends]
  · have since : 0 ≤ now.seconds := Instant.reached_iff.mp past
    rw [agree]
    omega
  · have earlier : (now.add (.ofSeconds (-1))).seconds = now.seconds - 1 := by
      simp only [Instant.seconds_eq, Instant.add, Span.ofSeconds, nanosPerSecond]
      omega
    rw [Bool.eq_iff_iff, isExpired_published_iff_of_whole whole, isExpired_iff_of_whole whole,
      earlier]
    omega

def morningKey : SigningKey := ⟨⟨"a"⟩, Rsa.sampleKey, .ofSeconds 1799999999⟩

/-- The last instant before the second of its end, and the first one after it. -/
theorem record_ends_with_key_around :
    morningKey.expiresAt = .ofSeconds 1799999999 ∧
      morningKey.published.isExpired ⟨1799999998999999999⟩ =
        morningKey.isExpired ⟨1799999998999999999⟩ ∧
      morningKey.published.isExpired ⟨1800000000000000000⟩ =
        morningKey.isExpired ⟨1800000000000000000⟩ := by
  have whole : morningKey.expiresAt = .ofSeconds 1799999999 := rfl
  obtain ⟨-, -, agree, -⟩ := record_ends_with_key_iff whole
  exact ⟨whole, (agree _ (by decide)).mpr (by decide), (agree _ (by decide)).mpr (by decide)⟩

/-- When the second of its end begins, and in its middle, the key has ended and so has a token of
    that end, and the record has not. -/
theorem outlived_by_record :
    morningKey.expiresAt = .ofSeconds 1799999999 ∧
      ∀ now ∈ ([.ofSeconds 1799999999, ⟨1799999999500000000⟩] : List Instant),
        morningKey.isExpired now = true ∧
          Claims.isExpired ⟨none, 1799999999, none, none, []⟩ now = true ∧
          morningKey.published.isExpired now = false :=
  ⟨rfl, by decide⟩

end SigningKey

end Tollgate
