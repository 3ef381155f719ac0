import Tollgate.Proofs.Base64
import Tollgate.Proofs.Token.Segments

/-! # One text for each token

A token is parsed if it is in compact form (`Compact`), which says of the text alone what its
segments are.  The form leaves no choice: base64 without padding has one text for each octet string,
so that a parsed token is known by the octets of its header and of its payload and by its signature
segment.
-/

namespace Tollgate

/-- A text is three segments between two dots: a header and a payload in canonical base64, neither
    of them empty, and a signature.  The octets of the first segment are a header in JSON. -/
def Compact (raw : Octets) : Prop :=
  ∃ h p s, raw = h ++ dot :: (p ++ dot :: s) ∧ raw.count dot = 2 ∧ h ≠ [] ∧ p ≠ [] ∧
    Base64.Canonical .urlSafe h ∧ Base64.Canonical .urlSafe p ∧
    ∃ json header, segment json = h ∧ Json.document TokenHeader.read json = .ok header

theorem count_dot_eq_two_iff (h p s : Octets) :
    (h ++ dot :: (p ++ dot :: s)).count dot = 2 ↔ dot ∉ h ∧ dot ∉ p ∧ dot ∉ s := by
  simp only [List.count_append, List.count_cons_self, ← List.count_eq_zero]
  omega

namespace UnverifiedToken

theorem decode_segment_iff {s o : Octets} :
    Base64.decode .urlSafe .absent s = .ok o ↔ segment o = s := by
  rw [Base64.decode_absent_eq_ok_iff]
  exact eq_comm

theorem compact_of_written {raw : Octets} {t : UnverifiedToken} (written : Written raw t) :
    Compact raw := by
  obtain ⟨h, p, rfl, absentH, absentP, absentS, nonemptyH, nonemptyP, -, payload, json, header,
    read⟩ := written
  rw [Base64.decode_absent_eq_ok_iff] at payload header
  exact ⟨h, p, t.signature, rfl, (count_dot_eq_two_iff h p t.signature).mpr
    ⟨absentH, absentP, absentS⟩, nonemptyH, nonemptyP, Base64.canonical_iff.mpr ⟨json, header⟩,
    Base64.canonical_iff.mpr ⟨t.payload, payload⟩, json, t.header, header.symm, read⟩

theorem exists_written_of_compact {raw : Octets} (compact : Compact raw) :
    ∃ t, Written raw t := by
  obtain ⟨h, p, s, rfl, dots, nonemptyH, nonemptyP, -, canonical, json, header, octets, read⟩ :=
    compact
  obtain ⟨absentH, absentP, absentS⟩ := (count_dot_eq_two_iff h p s).mp dots
  obtain ⟨payload, text⟩ := Base64.canonical_iff.mp canonical
  exact ⟨⟨h ++ dot :: p, s, header, payload⟩, h, p, rfl, absentH, absentP, absentS, nonemptyH,
    nonemptyP, rfl, Base64.decode_absent_eq_ok_iff.mpr text, json, decode_segment_iff.mpr octets,
    read⟩

/-- The first segment is what stands before the first dot. -/
theorem takeWhile_append_dot {h : Octets} (absent : dot ∉ h) (rest : Octets) :
    (h ++ dot :: rest).takeWhile (· ≠ dot) = h := by
  have before : ∀ b ∈ h, decide (b ≠ dot) = true :=
    fun b member => decide_eq_true fun same => absent (same ▸ member)
  rw [List.takeWhile_append_of_pos before]
  simp

theorem eq_of_written {raw raw' : Octets} {t t' : UnverifiedToken} (written : Written raw t)
    (written' : Written raw' t')
    (header : Base64.decode .urlSafe .absent (raw.takeWhile (· ≠ dot)) =
      Base64.decode .urlSafe .absent (raw'.takeWhile (· ≠ dot)))
    (payload : t.payload = t'.payload) (signature : t.signature = t'.signature) : raw = raw' := by
  obtain ⟨h, p, rfl, absent, -, -, -, -, -, decoded, json, octets, -⟩ := written
  obtain ⟨h', p', rfl, absent', -, -, -, -, -, decoded', json', octets', -⟩ := written'
  rw [takeWhile_append_dot absent, takeWhile_append_dot absent', octets, octets'] at header
  cases header
  rw [decode_segment_iff] at octets octets' decoded decoded'
  rw [← octets, ← octets', ← decoded, ← decoded', payload, signature]

/-- A text is parsed if and only if it is in compact form.  Its signing input and its signature are
    then all of it, and no other text that is parsed has the same octets in its header, the same
    octets in its payload and the same signature segment. -/
theorem parse_exact (raw : Octets) :
    ((∃ t, parse raw = .ok t) ↔ Compact raw) ∧
      ∀ t, parse raw = .ok t →
        t.signingInput ++ dot :: t.signature = raw ∧
        ∀ raw' t', parse raw' = .ok t' →
          Base64.decode .urlSafe .absent (raw.takeWhile (· ≠ dot)) =
            Base64.decode .urlSafe .absent (raw'.takeWhile (· ≠ dot)) →
          t.payload = t'.payload → t.signature = t'.signature → raw = raw' := by
  refine ⟨⟨?_, ?_⟩, ?_⟩
  · rintro ⟨t, parsed⟩
    exact compact_of_written (written_of_parse parsed)
  · intro compact
    obtain ⟨t, written⟩ := exists_written_of_compact compact
    exact ⟨t, parse_of_written written⟩
  · intro t parsed
    have written := written_of_parse parsed
    constructor
    · obtain ⟨h, p, rfl, -, -, -, -, -, input, -⟩ := written
      simp [input]
    · intro raw' t' parsed' header payload signature
      exact eq_of_written written (written_of_parse parsed') header payload signature

theorem parse_exact_unsigned :
    let written := Octets.ofString "eyJhbGciOiJub25lIn0.e30."
    let encoded := segment (Octets.ofString "\x7b\"alg\":\"none\"\x7d") ++
      dot :: (segment (Octets.ofString "\x7b\x7d") ++ [dot])
    Compact written ∧ written = encoded := by
  intro written encoded
  let token : UnverifiedToken :=
    ⟨Octets.ofString "eyJhbGciOiJub25lIn0.e30", [], ⟨"none", none, none⟩,
      Octets.ofString "\x7b\x7d"⟩
  have parses : ∀ raw, (parse raw).toOption = some token → parse raw = .ok token := by
    intro raw some
    cases result : parse raw with
    | ok t => simpa [result, Except.toOption] using some
    | error e => simp [result, Except.toOption] at some
  have parsed := parses written (by decide +kernel)
  have parsed' := parses encoded (by decide +kernel)
  obtain ⟨form, whole⟩ := parse_exact written
  have header : written.takeWhile (· ≠ dot) = encoded.takeWhile (· ≠ dot) := by decide +kernel
  exact ⟨form.mp ⟨_, parsed⟩, (whole _ parsed).2 encoded token parsed' (by rw [header]) rfl rfl⟩

end UnverifiedToken

end Tollgate
