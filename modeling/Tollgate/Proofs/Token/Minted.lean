import Tollgate.Proofs.Token.Issued
import Tollgate.Proofs.Token.Verification

/-! # Claims in an unsigned token

New claims can be written down without a signature, with any identifiers and any capabilities.  Such
a token can always be taken apart.  Whether its claims can be read again is a matter of names alone
(`Claims.Flagged.decode_render_iff`).

A capability is written as a member that is `true`.  No known member may be `true`, so that one that
has the name of a known member is a fault, whether the known member is there as well or not.  An
identifier is written whatever it is, but is not read where it is empty.  In each case the members
before the first bad one are read, and reading ends there.
-/

namespace Tollgate

/-! ## The header -/

theorem TokenHeader.reads_unsignedHeader :
    Json.Reads TokenHeader.read unsignedHeader ⟨"none", some "JWT", none⟩ := by
  refine Json.Reads.record (show Json.Reads readObject _ _ from fun n y enough stops => ?_)
  have algorithm : Json.Reads (fun n => readMember n {} "alg") (Json.renderText "none")
      { algorithm := some "none" } := (Json.reads_readString "none").into.unlessSeen rfl
  have kind : Json.Reads (fun n => readMember n { algorithm := some "none" } "typ")
      (Json.renderText "JWT") { algorithm := some "none", kind := some (some "JWT") } :=
    ((Json.reads_readString "JWT").optional (Json.isPresent_renderText _)).into.unlessSeen rfl
  have fills : Json.Fills readMember {} _ _ := .cons algorithm (.cons kind .nil)
  have read := fills.reads n y enough stops
  simp only [readObject, read]
  rfl

namespace Claims

variable {c : Claims} {d mid : Draft} {name : String} {value : Octets}

def unsigned (c : Claims) : UnverifiedToken where
  signingInput := segment unsignedHeader ++ dot :: segment c.render
  signature := []
  header := ⟨"none", some "JWT", none⟩
  payload := c.render

theorem parse_encodeUnsigned (c : Claims) :
    UnverifiedToken.parse c.encodeUnsigned = .ok c.unsigned := by
  apply UnverifiedToken.parse_of_written
  refine ⟨segment unsignedHeader, segment c.render, rfl, SigningKey.dot_notMem_segment _,
    SigningKey.dot_notMem_segment _, List.not_mem_nil, ?_, ?_, rfl, Base64.decode_encode _ _ _, _,
    Base64.decode_encode _ _ _, TokenHeader.reads_unsignedHeader.document⟩
  · exact Base64.encode_ne_nil _ _ (List.cons_ne_nil _ _)
  · exact Base64.encode_ne_nil _ _ (List.cons_ne_nil _ _)

/-! ## Members that are faults -/

/-- No known member may be `true`. -/
theorem fails_of_known (d : Draft) (known : name ∈ knownNames) :
    Json.Fails (fun n => readMember n d name) (Json.renderBool true) := by
  have truth := Json.reads_renderBool true
  have present : ∃ b t, Json.renderBool true = b :: t ∧ Json.isBlank b = false ∧ b ≠ 110 :=
    ⟨116, _, rfl, rfl, by decide⟩
  have text : Json.Fails Json.readString (Json.renderBool true) := truth.fails rfl
  have integer : Json.Fails Json.readInt64 (Json.renderBool true) := truth.fails rfl
  have tokenId : Json.Fails TokenId.read (Json.renderBool true) :=
    Json.Fails.into (truth.fails rfl) TokenId.mk
  have keyId : Json.Fails KeyId.read (Json.renderBool true) :=
    Json.Fails.into (truth.fails rfl) KeyId.mk
  simp only [knownNames, List.mem_cons, List.not_mem_nil, or_false] at known
  rcases known with rfl | rfl | rfl | rfl
  · exact ((text.optional present).into _).unlessSeen _
  · exact (integer.into _).unlessSeen _
  · exact ((tokenId.optional present).into _).unlessSeen _
  · exact ((keyId.optional present).into _).unlessSeen _

theorem fails_of_empty_tokenId (d : Draft) :
    Json.Fails (fun n => readMember n d "jti") (TokenId.render ⟨""⟩) := by
  have empty : Json.Fails TokenId.read (TokenId.render ⟨""⟩) :=
    Json.Fails.into ((Json.reads_renderText "").fails rfl) TokenId.mk
  exact ((empty.optional (Json.isPresent_renderText "")).into _).unlessSeen _

theorem fails_of_empty_keyId (d : Draft) :
    Json.Fails (fun n => readMember n d "kid") (KeyId.render ⟨""⟩) := by
  have empty : Json.Fails KeyId.read (KeyId.render ⟨""⟩) :=
    Json.Fails.into ((Json.reads_renderText "").fails rfl) KeyId.mk
  exact ((empty.optional (Json.isPresent_renderText "")).into _).unlessSeen _

/-- Claims are not read if one of their members is a fault after those before it. -/
theorem decode_of_fails {before after : List (String × Octets)}
    (split : c.members = before ++ (name, value) :: after)
    (fills : Json.Fills readMember {} before mid)
    (fails : Json.Fails (fun n => readMember n mid name) value) (c' : Claims) :
    decode c.render ≠ .ok c' := by
  have rendered := c.render_append []
  rw [List.append_nil, split] at rendered
  have within : (Json.tailOf true (before ++ (name, value) :: after) []).length <
      c.render.length + 1 := by
    rw [rendered, List.length_cons]
    omega
  obtain ⟨fault, failed⟩ := Json.members_of_fails fills fails true within within
  rw [decode, Json.document, rendered, read_tailOf, ← rendered, failed]
  simp

/-! ## Claims that are read again -/

/-- No further claim has the name of a known member, and no identifier is empty. -/
structure WellNamed (c : Claims) : Prop where
  unknown : ∀ entry ∈ c.extra, entry.1 ∉ knownNames
  tokenId : c.tokenId ≠ some ⟨""⟩
  keyId : c.keyId ≠ some ⟨""⟩

theorem WellNamed.idNamed (wellNamed : c.WellNamed) (id : TokenId) (held : c.tokenId = some id) :
    id.text ≠ "" := by
  intro empty
  apply wellNamed.tokenId
  rw [held, ← empty]

theorem WellNamed.keyNamed (wellNamed : c.WellNamed) (key : KeyId) (held : c.keyId = some key) :
    key.text ≠ "" := by
  intro empty
  apply wellNamed.keyId
  rw [held, ← empty]

theorem Flagged.decode_render (flagged : c.Flagged) (wellNamed : c.WellNamed) :
    decode c.render = .ok c :=
  (flagged.legible wellNamed.idNamed wellNamed.keyNamed).decode_render wellNamed.unknown

/-- Such claims are read again if and only if their names allow it. -/
theorem Flagged.decode_render_iff (flagged : c.Flagged) :
    (∃ c', decode c.render = .ok c') ↔ c.WellNamed := by
  constructor
  · rintro ⟨c', decoded⟩
    -- The members are taken in their order, so that those before the one in question are read.
    have tokenId : c.tokenId ≠ some ⟨""⟩ := by
      intro held
      have start : Flagged { c with tokenId := none, keyId := none } := { flagged with }
      have split : c.members = knownMembers { c with tokenId := none, keyId := none } ++
          ("jti", TokenId.render ⟨""⟩) ::
            ((c.keyId.map fun k => ("kid", k.render)).toList ++ Json.renderNamed c.extra) := by
        simp [members, knownMembers, held]
      exact decode_of_fails split (start.legible (by simp) (by simp)).fills_known
        (fails_of_empty_tokenId _) c' decoded
    have idNamed : ∀ id, c.tokenId = some id → id.text ≠ "" := by
      intro id held empty
      exact tokenId (by rw [held, ← empty])
    have keyId : c.keyId ≠ some ⟨""⟩ := by
      intro held
      have start : Flagged { c with keyId := none } := { flagged with }
      have split : c.members = knownMembers { c with keyId := none } ++
          ("kid", KeyId.render ⟨""⟩) :: Json.renderNamed c.extra := by
        simp [members, knownMembers, held]
      exact decode_of_fails split (start.legible idNamed (by simp)).fills_known
        (fails_of_empty_keyId _) c' decoded
    have keyNamed : ∀ key, c.keyId = some key → key.text ≠ "" := by
      intro key held empty
      exact keyId (by rw [held, ← empty])
    refine ⟨fun entry member known => ?_, tokenId, keyId⟩
    obtain ⟨name, value, before, after, split, among, earlier, whole⟩ :=
      exists_first_known ⟨entry, member, known⟩
    have truth : value = .bool true := flagged.flags (name, value) (by rw [split]; simp)
    subst truth
    exact decode_of_fails whole ((flagged.legible idNamed keyNamed).fills split earlier)
      (fails_of_known _ among) c' decoded
  · intro wellNamed
    exact ⟨c, flagged.decode_render wellNamed⟩

/-! ## New claims -/

/-- New claims with capabilities and with these identifiers; a fresh token identifier is kept by
    naming it. -/
def minted (issuer : String) (validity : Span) (now : Instant) (fresh : TokenId)
    (capabilities : List Capability) (id : Option TokenId) (key : Option KeyId) : Claims :=
  let c := ((mint issuer validity now fresh).withCapabilities capabilities).withTokenId id
  match key with
  | none => c
  | some key => c.withKeyId key

section Minted

variable {issuer : String} {validity : Span} {now : Instant} {fresh : TokenId}
  {capabilities : List Capability} {id : Option TokenId} {key : Option KeyId}

theorem minted_eq : minted issuer validity now fresh capabilities id key =
    { issuer := some issuer
      expires := (now.add validity).seconds
      tokenId := id
      keyId := key
      extra := ((mint issuer validity now fresh).withCapabilities capabilities).extra } := by
  cases key with
  | none => rw [minted, withTokenId, withCapabilities_eq, mint]
  | some key => rw [minted, withKeyId, withTokenId, withCapabilities_eq, mint]

theorem mem_extra_minted {entry : String × Json.Value} :
    entry ∈ (minted issuer validity now fresh capabilities id key).extra ↔
      ∃ capability ∈ capabilities, entry = (capability.name, .bool true) := by
  rw [minted_eq]
  exact mem_withCapabilities rfl

theorem increasing_minted :
    Sorted.Increasing (minted issuer validity now fresh capabilities id key).extra := by
  rw [minted_eq]
  exact increasing_withCapabilities rfl

theorem flagged_minted (dated : Instant.inRange (now.nanos + validity.nanos) = true) :
    (minted issuer validity now fresh capabilities id key).Flagged := by
  have bounds := Instant.seconds_bounds (t := now.add validity) dated
  constructor
  case notBefore => simpa only [minted_eq] using bounds.1
  case notAfter => simpa only [minted_eq] using bounds.2
  case increasing => exact increasing_minted
  case flags =>
    intro entry member
    obtain ⟨capability, -, rfl⟩ := mem_extra_minted.mp member
    rfl

theorem wellNamed_minted_iff :
    (minted issuer validity now fresh capabilities id key).WellNamed ↔
      (∀ capability ∈ capabilities, capability.name ∉ knownNames) ∧ id ≠ some ⟨""⟩ ∧
        key ≠ some ⟨""⟩ := by
  constructor
  · intro wellNamed
    refine ⟨fun capability member => ?_, ?_, ?_⟩
    · exact wellNamed.unknown _ (mem_extra_minted.mpr ⟨capability, member, rfl⟩)
    · simpa only [minted_eq] using wellNamed.tokenId
    · simpa only [minted_eq] using wellNamed.keyId
  · rintro ⟨unknown, tokenId, keyId⟩
    refine ⟨fun entry member => ?_, ?_, ?_⟩
    · obtain ⟨capability, among, rfl⟩ := mem_extra_minted.mp member
      exact unknown capability among
    · simpa only [minted_eq] using tokenId
    · simpa only [minted_eq] using keyId

theorem grants_minted_iff {capability : Capability} :
    (minted issuer validity now fresh capabilities id key).grants capability = true ↔
      capability ∈ capabilities := by
  rw [grants_iff, Holds, Sorted.find?_eq_some_iff increasing_minted,
    Sorted.find?_eq_some_iff increasing_minted, mem_extra_minted, mem_extra_minted]
  constructor
  · rintro (⟨other, among, same⟩ | ⟨other, among, same⟩)
    · cases capability
      cases other
      cases same
      exact among
    · simp at same
  · intro among
    exact .inl ⟨capability, among, rfl⟩

end Minted

/-- An unsigned token of new claims can be taken apart.  Its claims are read again, as they were and
    with the very capabilities that were asked for, if and only if no capability has the name of a
    known member and no identifier is empty. -/
theorem minted_reads_back (issuer : String) (validity : Span) (now : Instant) (fresh : TokenId)
    (capabilities : List Capability) (id : Option TokenId) (key : Option KeyId)
    (dated : Instant.inRange (now.nanos + validity.nanos) = true) :
    let c := minted issuer validity now fresh capabilities id key
    ∃ t, UnverifiedToken.parse c.encodeUnsigned = .ok t ∧ t.header.isUnsigned = true ∧
      t.header.keyId = none ∧
      ((∃ c', t.claims = .ok c') ↔
        (∀ capability ∈ capabilities, capability.name ∉ knownNames) ∧ id ≠ some ⟨""⟩ ∧
          key ≠ some ⟨""⟩) ∧
      ∀ c', t.claims = .ok c' →
        c' = c ∧ ∀ capability, c'.grants capability = true ↔ capability ∈ capabilities := by
  intro c
  have flagged : c.Flagged := flagged_minted dated
  have unsigned : c.unsigned.header.isUnsigned = true :=
    show TokenHeader.isUnsigned ⟨"none", some "JWT", none⟩ = true by decide
  refine ⟨c.unsigned, parse_encodeUnsigned c, unsigned, rfl, ?_, fun c' read => ?_⟩
  · -- The token reads back exactly when its claims are well named.
    rw [← wellNamed_minted_iff, ← flagged.decode_render_iff]
    simp only [UnverifiedToken.claims_eq_ok_iff]
    rfl
  · have decoded := UnverifiedToken.claims_eq_ok_iff.mp read
    have same := flagged.decode_render (flagged.decode_render_iff.mp ⟨c', decoded⟩)
    obtain rfl : c' = c := Except.ok.inj (decoded.symm.trans same)
    exact ⟨rfl, fun capability => grants_minted_iff⟩

def sampleMinted (capabilities : List Capability) : Claims :=
  minted "waypost-dev" ⟨86400000000000⟩ ⟨1700000000000000000⟩ ⟨"7"⟩ capabilities (some ⟨"7"⟩) none

/-- With the capability to connect they are read again, and with one named `exp` they are not. -/
theorem minted_reads_back_sample :
    Instant.inRange (1700000000000000000 + 86400000000000) = true ∧
      (∃ t, UnverifiedToken.parse (sampleMinted [.connectTcp]).encodeUnsigned = .ok t ∧
        t.claims = .ok (sampleMinted [.connectTcp])) ∧
      ∃ t, UnverifiedToken.parse (sampleMinted [⟨"exp"⟩]).encodeUnsigned = .ok t ∧
        ∀ c', t.claims ≠ .ok c' := by
  have dated : Instant.inRange (1700000000000000000 + 86400000000000) = true := by decide
  refine ⟨dated, ?_, ?_⟩
  · obtain ⟨t, parsed, _, _, reads, back⟩ :=
      minted_reads_back "waypost-dev" ⟨86400000000000⟩ ⟨1700000000000000000⟩ ⟨"7"⟩ [.connectTcp]
        (some ⟨"7"⟩) none dated
    obtain ⟨c', read⟩ := reads.mpr ⟨by decide, by decide, by decide⟩
    obtain ⟨rfl, _⟩ := back c' read
    exact ⟨t, parsed, read⟩
  · obtain ⟨t, parsed, _, _, reads, _⟩ :=
      minted_reads_back "waypost-dev" ⟨86400000000000⟩ ⟨1700000000000000000⟩ ⟨"7"⟩ [⟨"exp"⟩]
        (some ⟨"7"⟩) none dated
    refine ⟨t, parsed, fun c' read => ?_⟩
    have unknown := (reads.mp ⟨c', read⟩).1 ⟨"exp"⟩ (List.mem_singleton_self _)
    exact absurd unknown (by decide)

end Claims

end Tollgate
