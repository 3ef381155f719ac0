import Tollgate.Proofs.Admission.Gate
import Tollgate.Proofs.Base64
import Tollgate.Proofs.Key.KeySet
import Tollgate.Proofs.Token.RoundTrip

/-! # A token is read as it was issued

The way of a token from the claims that an authority signs to the claims that a gate decodes: claims
are rendered as JSON, signed under a key, and presented after the word `Bearer` in a header.

Every capability is written as a member of its own name.  If that is the name of a known member, the
member occurs twice and the payload does not decode (`Claims.decode_render_of_known`).  Otherwise the
claims come back, as `Claims.Full.legible` says.
-/

namespace Tollgate

/-! ## The header of a signed token -/

theorem TokenHeader.reads_signedHeader {kid : KeyId} (named : kid.text ≠ "") :
    Json.Reads TokenHeader.read (signedHeader kid) ⟨"RS256", some "JWT", some kid⟩ := by
  refine Json.Reads.record (show Json.Reads readObject _ _ from fun n y enough stops => ?_)
  -- The draft after each member; the last one is complete.
  have kind : Json.Reads (fun n => readMember n {} "typ") (Json.renderText "JWT")
      { kind := some (some "JWT") } :=
    ((Json.reads_readString "JWT").optional (Json.isPresent_renderText _)).into.unlessSeen rfl
  have algorithm : Json.Reads (fun n => readMember n { kind := some (some "JWT") } "alg")
      (Json.renderText "RS256") { algorithm := some "RS256", kind := some (some "JWT") } :=
    (Json.reads_readString "RS256").into.unlessSeen rfl
  have keyId : Json.Reads
      (fun n => readMember n { algorithm := some "RS256", kind := some (some "JWT") } "kid")
      kid.render ⟨some "RS256", some (some "JWT"), some (some kid)⟩ :=
    ((KeyId.reads_render named).optional (Json.isPresent_renderText _)).into.unlessSeen rfl
  have fills : Json.Fills readMember {} _ _ := .cons kind (.cons algorithm (.cons keyId .nil))
  have read := fills.reads n y enough stops
  simp only [readObject, read]
  rfl

/-! ## Claims -/

/-- A time that can be represented fits the member for the end of validity. -/
theorem Instant.seconds_bounds {t : Instant} (dated : Instant.inRange t.nanos = true) :
    -twoTo 63 ≤ t.seconds ∧ t.seconds < twoTo 63 := by
  have limit : (twoTo 63 : Int) = 9223372036854775808 := by decide
  rw [Instant.inRange_iff] at dated
  simp only [Instant.firstSecond, Instant.lastSecond, nanosPerSecond] at dated
  rw [Instant.seconds_eq]
  constructor <;> omega

namespace Claims

variable {c : Claims} {issuer : String} {id : TokenId} {key : KeyId}

/-- Every further claim is `true`, and the end of validity fits its member. -/
structure Flagged (c : Claims) : Prop where
  notBefore : -twoTo 63 ≤ c.expires
  notAfter : c.expires < twoTo 63
  increasing : Sorted.Increasing c.extra
  flags : ∀ entry ∈ c.extra, entry.2 = .bool true

theorem Flagged.legible (flagged : c.Flagged) (idNamed : ∀ id, c.tokenId = some id → id.text ≠ "")
    (keyNamed : ∀ key, c.keyId = some key → key.text ≠ "") : c.Legible where
  idNamed := idNamed
  keyNamed := keyNamed
  notBefore := flagged.notBefore
  notAfter := flagged.notAfter
  increasing := flagged.increasing
  within entry member := by
    rw [flagged.flags entry member]
    trivial
  exact := by
    rintro ⟨entry, member, holds⟩
    rw [flagged.flags entry member] at holds
    contradiction

/-- Claims as they are signed: the known members are there, and every further claim is `true`. -/
structure Full (c : Claims) (issuer : String) (id : TokenId) (key : KeyId) : Prop where
  issuer : c.issuer = some issuer
  tokenId : c.tokenId = some id
  keyId : c.keyId = some key
  idNamed : id.text ≠ ""
  keyNamed : key.text ≠ ""
  notBefore : -twoTo 63 ≤ c.expires
  notAfter : c.expires < twoTo 63
  increasing : Sorted.Increasing c.extra
  flags : ∀ entry ∈ c.extra, entry.2 = .bool true

theorem Full.legible (full : c.Full issuer id key) : c.Legible := by
  have flagged : c.Flagged := ⟨full.notBefore, full.notAfter, full.increasing, full.flags⟩
  apply flagged.legible
  · intro t held
    cases full.tokenId.symm.trans held
    exact full.idNamed
  · intro k held
    cases full.keyId.symm.trans held
    exact full.keyNamed

/-- The first further claim that has the name of a known member, and the members around it. -/
theorem exists_first_known (known : ∃ entry ∈ c.extra, entry.1 ∈ knownNames) :
    ∃ name value before after, c.extra = before ++ (name, value) :: after ∧ name ∈ knownNames ∧
      (∀ entry ∈ before, entry.1 ∉ knownNames) ∧
      c.members = c.knownMembers ++ Json.renderNamed before ++
        (name, value.render) :: Json.renderNamed after := by
  obtain ⟨entry, found⟩ : ∃ entry, c.extra.find? (fun e => e.1 ∈ knownNames) = some entry :=
    Option.isSome_iff_exists.mp (List.find?_isSome.mpr (by simpa using known))
  obtain ⟨among, before, after, split, earlier⟩ := List.find?_eq_some_iff_append.mp found
  refine ⟨entry.1, entry.2, before, after, split, by simpa using among,
    fun e member => by simpa using earlier e member, ?_⟩
  simp [members, split, Json.renderNamed_eq]

/-- A capability with the name of a known member makes claims that cannot be read. -/
theorem decode_render_of_known (full : c.Full issuer id key)
    (known : ∃ entry ∈ c.extra, entry.1 ∈ knownNames) :
    ∃ entry ∈ c.extra, entry.1 ∈ knownNames ∧ decode c.render = .error (.duplicate entry.1) := by
  -- The first such capability is the end; those before it are read.
  obtain ⟨name, value, before, after, split, among, earlier, whole⟩ := exists_first_known known
  refine ⟨(name, value), by rw [split]; simp, among, ?_⟩
  have fills := full.legible.fills split earlier
  have fails : ∀ n s, readMember n { c.draft with extra := before } name s =
      .error (.duplicate name) := by
    intro n s
    -- All four places of the draft are taken.
    simp only [draft, full.issuer, full.tokenId, full.keyId, Option.map_some]
    simp only [knownNames, List.mem_cons, List.not_mem_nil, or_false] at among
    rcases among with rfl | rfl | rfl | rfl <;> rfl
  have rendered := c.render_append []
  rw [List.append_nil] at rendered
  rw [decode, Json.document, rendered, read_tailOf, whole, Json.members_of_fault fills (fails _)]
  · rw [List.length_cons]
    omega
  · rw [List.length_cons]
    omega

/-! ## Capabilities -/

theorem withCapabilities_eq (c : Claims) (capabilities : List Capability) :
    c.withCapabilities capabilities = { c with extra := (c.withCapabilities capabilities).extra } := by
  unfold withCapabilities
  induction capabilities generalizing c with
  | nil => rfl
  | cons capability rest ih =>
    rw [List.foldl_cons, ih]
    rfl

theorem withCapabilities_append (c : Claims) (capabilities : List Capability)
    (capability : Capability) :
    c.withCapabilities (capabilities ++ [capability]) =
      (c.withCapabilities capabilities).withCapability capability := by
  simp [withCapabilities]

theorem increasing_withCapabilities {capabilities : List Capability} (plain : c.extra = []) :
    Sorted.Increasing (c.withCapabilities capabilities).extra := by
  induction capabilities using List.reverseRecOn with
  | nil =>
    show Sorted.Increasing c.extra
    rw [plain]
    exact .nil
  | append_singleton capabilities capability ih =>
    rw [withCapabilities_append]
    exact Sorted.increasing_insert ih

/-- Each capability is a further claim that is true, and there are no others. -/
theorem mem_withCapabilities {capabilities : List Capability} (plain : c.extra = [])
    {entry : String × Json.Value} :
    entry ∈ (c.withCapabilities capabilities).extra ↔
      ∃ capability ∈ capabilities, entry = (capability.name, .bool true) := by
  induction capabilities using List.reverseRecOn with
  | nil =>
    show entry ∈ c.extra ↔ _
    simp [plain]
  | append_singleton capabilities capability ih =>
    have increasing : Sorted.Increasing (c.withCapabilities capabilities).extra :=
      increasing_withCapabilities plain
    rw [withCapabilities_append, withCapability, Sorted.mem_insert_iff increasing, ih]
    constructor
    · rintro (rfl | ⟨⟨other, member, rfl⟩, -⟩)
      · exact ⟨capability, by simp, rfl⟩
      · exact ⟨other, List.mem_append_left _ member, rfl⟩
    · rintro ⟨other, member, rfl⟩
      -- A capability that was written earlier under the same name is written over with the same
      -- value.
      by_cases same : other.name = capability.name
      · exact .inl (by rw [same])
      · have earlier : other ∈ capabilities := by
          rcases List.mem_append.mp member with earlier | last
          · exact earlier
          · exact absurd (congrArg Capability.name (List.mem_singleton.mp last)) same
        exact .inr ⟨⟨other, earlier, rfl⟩, same⟩

end Claims

/-! ## Signed tokens -/

namespace SigningKey

variable {k : SigningKey} {c : Claims} {token : Octets}

def signingInput (k : SigningKey) (c : Claims) : Octets :=
  segment (signedHeader k.keyId) ++ dot :: segment (c.withKeyId k.keyId).render

theorem sign_eq_ok_iff :
    k.sign c = .ok token ↔ ∃ signature,
      k.secret.sign? .sha256 (k.signingInput c) = some signature ∧
        token = k.signingInput c ++ dot :: segment signature := by
  simp only [sign, Claims.sign, signingInput]
  split
  next signature made => simp [made, eq_comm]
  next refused => simp [refused]

def readBack (k : SigningKey) (c : Claims) (signature : Octets) : UnverifiedToken where
  signingInput := k.signingInput c
  signature := segment signature
  header := ⟨"RS256", some "JWT", some k.keyId⟩
  payload := (c.withKeyId k.keyId).render

theorem dot_notMem_segment (o : Octets) : dot ∉ segment o := fun member =>
  (Base64.visible_of_mem_encode member).2.2 rfl

theorem written_readBack (named : k.keyId.text ≠ "") (signature : Octets) :
    UnverifiedToken.Written (k.signingInput c ++ dot :: segment signature)
      (k.readBack c signature) := by
  have header : Json.document TokenHeader.read (signedHeader k.keyId) =
      .ok ⟨"RS256", some "JWT", some k.keyId⟩ := (TokenHeader.reads_signedHeader named).document
  refine ⟨segment (signedHeader k.keyId), segment (c.withKeyId k.keyId).render, ?_,
    dot_notMem_segment _, dot_notMem_segment _, dot_notMem_segment _, ?_, ?_, rfl,
    Base64.decode_encode _ _ _, _, Base64.decode_encode _ _ _, header⟩
  · simp [signingInput, readBack]
  · exact Base64.encode_ne_nil _ _ (List.cons_ne_nil _ _)
  · exact Base64.encode_ne_nil _ _ (List.cons_ne_nil _ _)

theorem isTokenOctet_of_sign (signed : k.sign c = .ok token) :
    token ≠ [] ∧ ∀ b ∈ token, IsTokenOctet b := by
  obtain ⟨signature, -, rfl⟩ := sign_eq_ok_iff.mp signed
  have segments : ∀ o, ∀ b ∈ segment o, IsTokenOctet b := fun o b member =>
    ⟨(Base64.visible_of_mem_encode member).1, (Base64.visible_of_mem_encode member).2.1⟩
  have dotted : IsTokenOctet dot := ⟨by decide, by decide⟩
  refine ⟨by simp [signingInput], fun b member => ?_⟩
  simp only [signingInput, List.mem_append, List.mem_cons] at member
  rcases member with (member | rfl | member) | rfl | member
  · exact segments _ b member
  · exact dotted
  · exact segments _ b member
  · exact dotted
  · exact segments _ b member

end SigningKey

/-! ## In a header -/

namespace GateConfig

variable {g : GateConfig} {h : Headers} {token : Octets}

/-- A gate with its default header takes a signed token apart into what was signed. -/
theorem carries_of_bears {k : SigningKey} {c : Claims} (defaults : g.UsesDefaultHeader)
    (bears : g.Bears h token) (named : k.keyId.text ≠ "") (signed : k.sign c = .ok token) :
    ∃ signature, k.secret.sign? .sha256 (k.signingInput c) = some signature ∧
      g.Carries h (k.readBack c signature) := by
  obtain ⟨nonempty, visible⟩ := SigningKey.isTokenOctet_of_sign signed
  have presents := presents_of_bears defaults bears nonempty visible
  have ascii : ∀ b ∈ token, b < 128 := fun b member => (visible b member).lt
  obtain ⟨signature, made, rfl⟩ := SigningKey.sign_eq_ok_iff.mp signed
  refine ⟨signature, made, _, presents, ?_⟩
  rw [Octets.ofString_asciiText ascii]
  exact SigningKey.written_readBack named signature

end GateConfig

end Tollgate
