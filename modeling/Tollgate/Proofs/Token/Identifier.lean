import Tollgate.Proofs.Json.RoundTrip
import Tollgate.Token.Identifier

/-! # Identifiers are written as they are read

Whatever form an identifier had in JSON, the text that it becomes is not empty
(`ne_empty_of_judgeIdentifier`), and a text that is not empty is read as it was written
(`TokenId.reads_render`).  So what was read once can be handed on.
-/

namespace Tollgate

theorem decimalText_ne_empty (z : Int) : decimalText z ≠ "" := by
  have digits : z.natAbs.repr.toList ≠ [] := by
    intro none
    rw [Nat.repr, String.toList_ofList] at none
    exact Json.decimals_ne_nil z.natAbs (by rw [Json.decimals, none, List.map_nil])
  intro empty
  have none := congrArg String.toList empty
  unfold decimalText at none
  split at none
  · rw [String.toList_append] at none
    exact digits (List.append_eq_nil_iff.mp none).2
  · exact digits none

theorem ne_empty_of_judgeIdentifier {label text : String} {shape : Json.Shape}
    (judged : judgeIdentifier label shape = .ok text) : text ≠ "" := by
  unfold judgeIdentifier at judged
  split at judged
  · split at judged
    · contradiction
    · next nonempty =>
      cases judged
      simpa using nonempty
  · cases judged
    exact decimalText_ne_empty _
  · split at judged
    · cases judged
      exact decimalText_ne_empty _
    · contradiction
  · contradiction

theorem judgeIdentifier_text (label : String) {text : String} (named : text ≠ "") :
    judgeIdentifier label (.text text) = .ok text := by
  have nonempty : text.isEmpty = false := by simpa using named
  simp only [judgeIdentifier, nonempty, Bool.false_eq_true, if_false]

namespace KeyId

variable {k : KeyId}

theorem reads_render (named : k.text ≠ "") : Json.Reads KeyId.read k.render k :=
  ((Json.reads_renderText k.text).judged (judgeIdentifier_text _ named)).into

theorem named_of_read {n : Nat} {s rest : Octets} (read : KeyId.read n s = .ok (k, rest)) :
    k.text ≠ "" := by
  obtain ⟨text, found, rfl⟩ := Json.into_eq_ok_iff.mp read
  obtain ⟨shape, -, judged⟩ := Json.readJudged_eq_ok_iff.mp found
  exact ne_empty_of_judgeIdentifier judged

end KeyId

namespace TokenId

variable {t : TokenId}

theorem reads_render (named : t.text ≠ "") : Json.Reads TokenId.read t.render t :=
  ((Json.reads_renderText t.text).judged (judgeIdentifier_text _ named)).into

theorem named_of_read {n : Nat} {s rest : Octets} (read : TokenId.read n s = .ok (t, rest)) :
    t.text ≠ "" := by
  obtain ⟨text, found, rfl⟩ := Json.into_eq_ok_iff.mp read
  obtain ⟨shape, -, judged⟩ := Json.readJudged_eq_ok_iff.mp found
  exact ne_empty_of_judgeIdentifier judged

end TokenId

end Tollgate
