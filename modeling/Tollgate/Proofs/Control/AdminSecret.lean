import Tollgate.Control.Client
import Tollgate.Control.Config
import Tollgate.Proofs.Control.Strangers

/-! # Secrets that operators can show

Settings are accepted with every admin secret but the empty one.  The guard takes the header line as
text, and only visible ASCII characters, spaces and tabs are text to it.  So a secret opens the guard
if all its octets are of that kind (`Presentable`), and otherwise nothing does, although its octets
can be sent as they are.

`AdminGuard.opens_to_secret_iff` says that about all secrets, and `AdminGuard.closed_to_accented`
shows a secret that keeps its own operator out.
-/

namespace Tollgate

/-- A secret that can stand in a header as text. -/
def Presentable (secret : String) : Prop :=
  ∀ b ∈ Octets.ofString secret, isReadableOctet b = true

def ControlConfig.Accepts (secret : String) : Prop :=
  ∃ (c : ControlConfig) (a : AuthorityConfig) (now : Instant),
    c.adminSecret = some secret ∧ c.validate a now = .ok ()

theorem ControlConfig.accepts_iff {secret : String} : Accepts secret ↔ secret ≠ "" := by
  constructor
  · rintro ⟨c, a, now, kept, valid⟩ rfl
    exact (validate_eq_ok_iff.mp valid).1 kept
  · intro nonempty
    have other : some secret ≠ some "" := fun same => nonempty (Option.some.inj same)
    exact ⟨{ adminSecret := some secret }, {}, .ofSeconds 0, rfl,
      validate_eq_ok_iff.mpr ⟨other, rfl, rfl, rfl⟩⟩

/-! ## Headers that can be sent -/

/-- An octet of a header value: any but the control characters, and the tab. -/
def isFieldOctet (b : UInt8) : Bool := (32 ≤ b && b ≠ 127) || b = 9

def Headers.Carriable (h : Headers) : Prop := ∀ line ∈ h, ∀ b ∈ line.2, isFieldOctet b = true

theorem isFieldOctet_of_isReadableOctet {b : UInt8} (readable : isReadableOctet b = true) :
    isFieldOctet b = true := by
  simp only [isReadableOctet, Bool.or_eq_true, Bool.and_eq_true, decide_eq_true_eq] at readable
  obtain ⟨low, high⟩ | rfl := readable
  · have other : b ≠ 127 := by
      rintro rfl
      exact absurd high (by decide)
    simp [isFieldOctet, low, other]
  · rfl

def Headers.showing (secret : String) : Headers :=
  [("authorization", bearerMark ++ Octets.ofString secret)]

theorem Headers.bear_showing (secret : String) : (Headers.showing secret).Bear secret := rfl

theorem isReadableOctet_of_mem_bearerMark {b : UInt8} (member : b ∈ bearerMark) :
    isReadableOctet b = true :=
  List.all_eq_true.mp (show bearerMark.all isReadableOctet = true from rfl) b member

theorem Headers.carriable_showing {secret : String} (presentable : Presentable secret) :
    (Headers.showing secret).Carriable := by
  intro line member b among
  rw [List.mem_singleton.mp member] at among
  rcases List.mem_append.mp among with mark | octet
  · exact isFieldOctet_of_isReadableOctet (isReadableOctet_of_mem_bearerMark mark)
  · exact isFieldOctet_of_isReadableOctet (presentable b octet)

/-! ## The guard -/

namespace AdminGuard

variable {secret : String} {h : Headers}

/-- The guard wants the octets of the secret after its mark, and wants them to be text. -/
theorem check_eq_ok_iff_bear :
    AdminGuard.check ⟨some secret⟩ h = .ok () ↔ h.Bear secret ∧ Presentable secret := by
  have mark : Octets.ofString ("Bearer " ++ secret) = bearerMark ++ Octets.ofString secret :=
    Octets.ofString_append _ _
  rw [check_eq_ok_iff, Headers.ShowSecret, Option.bind_eq_some_iff]
  simp only [readable?_eq_some_iff, mark]
  constructor
  · rintro ⟨value, first, rfl, readable⟩
    exact ⟨first, fun b octet => readable b (List.mem_append_right _ octet)⟩
  · rintro ⟨first, presentable⟩
    refine ⟨_, first, rfl, fun b member => ?_⟩
    rcases List.mem_append.mp member with octet | octet
    · exact isReadableOctet_of_mem_bearerMark octet
    · exact presentable b octet

/-- The guard of a secret lets through whoever shows exactly that secret, and somebody can do so. -/
structure OpensTo (secret : String) : Prop where
  exactly : ∀ h : Headers, h.Carriable →
    (AdminGuard.check ⟨some secret⟩ h = .ok () ↔ h.Bear secret)
  reachable : ∃ h : Headers, h.Carriable ∧ AdminGuard.check ⟨some secret⟩ h = .ok ()

/-- Settings take every secret but the empty one.  A guard lets through whoever shows the octets of
    its secret, if they are text, and nobody else.  So it opens to its secret if and only if they
    are. -/
theorem opens_to_secret_iff (secret : String) :
    (ControlConfig.Accepts secret ↔ secret ≠ "") ∧
      (∀ h : Headers, AdminGuard.check ⟨some secret⟩ h = .ok () ↔
        h.Bear secret ∧ Presentable secret) ∧
      (OpensTo secret ↔ Presentable secret) := by
  refine ⟨ControlConfig.accepts_iff, fun h => check_eq_ok_iff_bear, fun opens => ?_,
    fun presentable => ?_⟩
  · obtain ⟨h, -, admitted⟩ := opens.reachable
    exact (check_eq_ok_iff_bear.mp admitted).2
  · constructor
    · intro h _
      rw [check_eq_ok_iff_bear, and_iff_left presentable]
    · exact ⟨.showing secret, Headers.carriable_showing presentable,
        check_eq_ok_iff_bear.mpr ⟨Headers.bear_showing secret, presentable⟩⟩

/-- A secret with an accented letter is accepted and can be sent, and a control client does send it.
    The guard refuses it. -/
theorem closed_to_accented :
    ControlConfig.Accepts "café" ∧ (Headers.showing "café").Carriable ∧
      (Headers.showing "café").Bear "café" ∧
      ((ControlClient.ofUrl "https://control" "café").request .revoked).authorization.map
        Octets.ofString = (Headers.showing "café").first? "authorization" ∧
      AdminGuard.check ⟨some "café"⟩ (.showing "café") = .error .invalidFormat ∧
      ¬OpensTo "café" := by
  have refused : AdminGuard.check ⟨some "café"⟩ (.showing "café") = .error .invalidFormat := by
    decide +kernel
  have carriable : (Headers.showing "café").Carriable := by
    unfold Headers.Carriable
    decide +kernel
  refine ⟨ControlConfig.accepts_iff.mpr (by decide), carriable, rfl, by decide +kernel, refused,
    fun opens => ?_⟩
  have admitted := (opens.exactly (.showing "café") carriable).mpr rfl
  rw [refused] at admitted
  contradiction

end AdminGuard

end Tollgate
