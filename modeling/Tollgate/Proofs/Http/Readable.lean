import Tollgate.Http.Message
import Tollgate.Proofs.Octets

/-! # Readable header values

A header value that is readable consists of visible ASCII characters, so that its text and its
octets say the same: `readable?_eq_some_iff`.
-/

namespace Tollgate

theorem lt_of_isReadableOctet {b : UInt8} (readable : isReadableOctet b = true) : b < 128 := by
  simp only [isReadableOctet, Bool.or_eq_true, Bool.and_eq_true, decide_eq_true_eq] at readable
  obtain ⟨_, high⟩ | rfl := readable
  · exact UInt8.lt_of_le_of_lt high (by decide)
  · decide

theorem readable?_eq_some_iff {value : Octets} {text : String} :
    readable? value = some text ↔
      value = Octets.ofString text ∧ ∀ b ∈ value, isReadableOctet b = true := by
  unfold readable?
  by_cases readable : ∀ b ∈ value, isReadableOctet b = true
  · have written := Octets.ofString_asciiText fun b member => lt_of_isReadableOctet (readable b member)
    rw [if_pos (List.all_eq_true.mpr readable)]
    constructor
    · intro found
      rw [← Option.some.inj found]
      exact ⟨written.symm, readable⟩
    · rintro ⟨same, -⟩
      exact congrArg some (Octets.ofString_injective (written.trans same))
  · have unreadable : ¬ value.all isReadableOctet = true :=
      fun all => readable (List.all_eq_true.mp all)
    simp [unreadable, readable]

end Tollgate
