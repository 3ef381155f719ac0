import Tollgate.Proofs.Json.Values
import Tollgate.Proofs.Token.Identifier
import Tollgate.Token.Claims

/-! # Claims are read as they were written

Claims are written as one object: the known members come first, and every further claim follows as a
member of its own name.  Claims that can be written down (`Claims.Legible`) come back from their
text, unless a further claim has the name of a known member (`Claims.Legible.decode_render`).

What is decoded is legible, and none of its further claims has a known name, as each member of the
payload keeps to that (`Claims.Draft.Sound`).  So decoding undoes encoding on everything that it ever
answers, floating-point numbers left aside (`Claims.decode_retracts`): whatever blanks, escapes,
orders of members and forms of identifiers there were in a payload, writing its claims once settles
the text.
-/

namespace Tollgate

namespace Claims

variable {c : Claims} {d d' : Draft} {s rest : Octets}

/-! ## Members -/

def knownNames : List String := ["iss", "exp", "jti", "kid"]

theorem readMember_of_unknown {name : String} (unknown : name ∉ knownNames) (n : Nat) (d : Draft) :
    readMember n d name =
      Json.into (fun v => { d with extra := Sorted.insert name v d.extra })
        (Json.readValue n (Json.maxLevels - 1)) := by
  simp only [knownNames, List.mem_cons, List.not_mem_nil, or_false, not_or] at unknown
  obtain ⟨notIss, notExp, notJti, notKid⟩ := unknown
  simp only [readMember]

def members (c : Claims) : List (String × Octets) := c.knownMembers ++ Json.renderNamed c.extra

theorem render_append (c : Claims) (y : Octets) :
    c.render ++ y = 123 :: Json.tailOf true c.members y := by
  simp [render, members, Json.renderMembers, Json.tailOf, Json.joined]

theorem read_tailOf (n : Nat) (parts : List (String × Octets)) (y : Octets) :
    read n (123 :: Json.tailOf true parts y) =
      match Json.members (readMember n) n true {} (Json.tailOf true parts y) with
      | .error fault => .error fault
      | .ok (d, rest) =>
        match ofDraft d with
        | .ok c => .ok (c, rest)
        | .error fault => .error fault := rfl

/-! ## Writing -/

def HoldsFloat (c : Claims) : Prop := ∃ entry ∈ c.extra, entry.2.HoldsFloat

structure Legible (c : Claims) : Prop where
  idNamed : ∀ id, c.tokenId = some id → id.text ≠ ""
  keyNamed : ∀ key, c.keyId = some key → key.text ≠ ""
  notBefore : -twoTo 63 ≤ c.expires
  notAfter : c.expires < twoTo 63
  increasing : Sorted.Increasing c.extra
  within : ∀ entry ∈ c.extra, entry.2.Within (Json.maxLevels - 1)
  exact : ¬c.HoldsFloat

def draft (c : Claims) : Draft :=
  ⟨c.issuer.map some, some c.expires, c.tokenId.map some, c.keyId.map some, []⟩

theorem ofDraft_draft (c : Claims) : ofDraft { c.draft with extra := c.extra } = .ok c := by
  have joined : ∀ {α : Type} (x : Option α), (x.map some).join = x := fun x => by cases x <;> rfl
  simp only [ofDraft, draft, Json.require, joined]

/-- A member that is left out where there is nothing to write. -/
theorem fills_option {α : Type} {x : Option α} (put : Option (Option α) → Draft) {name : String}
    {render : α → Octets} (reads : ∀ a, x = some a →
      Json.Reads (fun n => readMember n (put none) name) (render a) (put (some (some a)))) :
    Json.Fills readMember (put none) (x.map fun a => (name, render a)).toList
      (put (x.map some)) := by
  cases x with
  | none => exact .nil
  | some a => exact .cons (reads a rfl) .nil

theorem Legible.fills_known (legible : c.Legible) :
    Json.Fills readMember {} c.knownMembers c.draft := by
  -- The places of the draft are filled in the order of the members, each from an empty one.
  have issuer : Json.Fills readMember {} (c.issuer.map fun s => ("iss", Json.renderText s)).toList
      { issuer := c.issuer.map some } :=
    fills_option (fun x => { issuer := x }) fun s _ =>
      ((Json.reads_readString s).optional (Json.isPresent_renderText _)).into.unlessSeen rfl
  have expires : Json.Fills readMember { issuer := c.issuer.map some }
      [("exp", Json.renderInt c.expires)]
      { issuer := c.issuer.map some, expires := some c.expires } :=
    .cons ((Json.reads_readInt64 legible.notBefore legible.notAfter).into.unlessSeen rfl) .nil
  have tokenId : Json.Fills readMember { issuer := c.issuer.map some, expires := some c.expires }
      (c.tokenId.map fun t => ("jti", t.render)).toList
      ⟨c.issuer.map some, some c.expires, c.tokenId.map some, none, []⟩ :=
    fills_option (fun x => ⟨c.issuer.map some, some c.expires, x, none, []⟩) fun t held =>
      ((TokenId.reads_render (legible.idNamed t held)).optional
        (Json.isPresent_renderText _)).into.unlessSeen rfl
  have keyId : Json.Fills readMember
      ⟨c.issuer.map some, some c.expires, c.tokenId.map some, none, []⟩
      (c.keyId.map fun k => ("kid", k.render)).toList c.draft :=
    fills_option (fun x => ⟨c.issuer.map some, some c.expires, c.tokenId.map some, x, []⟩)
      fun k held => ((KeyId.reads_render (legible.keyNamed k held)).optional
        (Json.isPresent_renderText _)).into.unlessSeen rfl
  exact ((issuer.append expires).append tokenId).append keyId

/-- The known members are read, and then as many of the further ones as have names of their own. -/
theorem Legible.fills (legible : c.Legible) {first rest : List (String × Json.Value)}
    (split : c.extra = first ++ rest) (unknown : ∀ entry ∈ first, entry.1 ∉ knownNames) :
    Json.Fills readMember {} (c.knownMembers ++ Json.renderNamed first)
      { c.draft with extra := first } := by
  have increasing : Sorted.Increasing ([] ++ first) :=
    legible.increasing.sublist (by rw [split]; exact List.sublist_append_left _ _)
  have among : ∀ entry ∈ first, entry ∈ c.extra := fun entry member => by
    rw [split]
    exact List.mem_append_left _ member
  refine legible.fills_known.append
    (Json.fills_insert (fun extra => { c.draft with extra }) [] (fun entry member seen => ?_)
      increasing)
  have value : Json.Reads (fun n => Json.readValue n (Json.maxLevels - 1)) entry.2.render entry.2 :=
    Json.reads_render (legible.within entry (among entry member))
      fun holds => legible.exact ⟨entry, among entry member, holds⟩
  simp only [readMember_of_unknown (unknown entry member)]
  exact value.into

/-- Claims are read as they were written, unless a further claim has the name of a known member. -/
theorem Legible.decode_render (legible : c.Legible)
    (unknown : ∀ entry ∈ c.extra, entry.1 ∉ knownNames) : decode c.render = .ok c := by
  have fills : Json.Fills readMember {} c.members { c.draft with extra := c.extra } :=
    legible.fills (List.append_nil _).symm unknown
  refine Json.Reads.document fun n y enough _ => ?_
  rw [render_append] at enough ⊢
  rw [List.length_cons] at enough
  have within : (Json.tailOf true c.members y).length < n := by omega
  have found := Json.members_joined fills true within within
  rw [read_tailOf, found]
  simp only [ofDraft_draft]

/-! ## Reading -/

/-- What a draft keeps to, whatever members it was filled with. -/
structure Draft.Sound (d : Draft) : Prop where
  expires : ∀ t, d.expires = some t → -twoTo 63 ≤ t ∧ t < twoTo 63
  idNamed : ∀ id, d.tokenId = some (some id) → id.text ≠ ""
  keyNamed : ∀ key, d.keyId = some (some key) → key.text ≠ ""
  increasing : Sorted.Increasing d.extra
  within : ∀ entry ∈ d.extra, entry.2.Within (Json.maxLevels - 1)
  unknown : ∀ entry ∈ d.extra, entry.1 ∉ knownNames

theorem Draft.sound_empty : Draft.Sound {} :=
  ⟨nofun, nofun, nofun, .nil, nofun, nofun⟩

theorem bounds_of_readInt64 {n : Nat} {z : Int} (read : Json.readInt64 n s = .ok (z, rest)) :
    -twoTo 63 ≤ z ∧ z < twoTo 63 := by
  obtain ⟨shape, scalar, accepted⟩ := Json.readJudged_eq_ok_iff.mp read
  split at accepted
  · split at accepted
    · next high =>
      cases accepted
      exact ⟨(Json.bounds_of_readScalar scalar).1, high⟩
    · contradiction
  · contradiction

theorem Draft.Sound.readMember {n : Nat} {name : String} (sound : d.Sound)
    (read : readMember n d name s = .ok (d', rest)) : d'.Sound := by
  by_cases unknown : name ∈ knownNames
  · -- A known member fills its own place and leaves the others alone.
    simp only [knownNames, List.mem_cons, List.not_mem_nil, or_false] at unknown
    rcases unknown with rfl | rfl | rfl | rfl
    · obtain ⟨v, -, rfl⟩ := Json.into_eq_ok_iff.mp (Json.unlessSeen_eq_ok_iff.mp read).2
      exact { sound with }
    · obtain ⟨t, found, rfl⟩ := Json.into_eq_ok_iff.mp (Json.unlessSeen_eq_ok_iff.mp read).2
      have bounds := bounds_of_readInt64 found
      exact { sound with expires := fun t' held => Option.some.inj held ▸ bounds }
    · obtain ⟨x, found, rfl⟩ := Json.into_eq_ok_iff.mp (Json.unlessSeen_eq_ok_iff.mp read).2
      have named := Json.forall_of_readOptional (fun _ _ _ => TokenId.named_of_read) found
      exact { sound with idNamed := fun id held => named id (Option.some.inj held) }
    · obtain ⟨x, found, rfl⟩ := Json.into_eq_ok_iff.mp (Json.unlessSeen_eq_ok_iff.mp read).2
      have named := Json.forall_of_readOptional (fun _ _ _ => KeyId.named_of_read) found
      exact { sound with keyNamed := fun key held => named key (Option.some.inj held) }
  · -- Any other member goes among the further claims, in the place of an equally named one.
    rw [readMember_of_unknown unknown] at read
    obtain ⟨v, value, rfl⟩ := Json.into_eq_ok_iff.mp read
    exact { sound with
      increasing := Sorted.increasing_insert sound.increasing
      within := Sorted.forall_mem_insert (Json.within_of_readValue value) sound.within
      unknown := Sorted.forall_mem_insert unknown sound.unknown }

theorem exists_draft_of_decode (decoded : decode s = .ok c) :
    ∃ d : Draft, d.Sound ∧ ofDraft d = .ok c := by
  obtain ⟨rest, read, -⟩ := Json.document_eq_ok_iff.mp decoded
  unfold Claims.read at read
  split at read
  · contradiction
  · split at read
    · contradiction
    · next d rest' found =>
      split at read
      · next drafted =>
        cases read
        exact ⟨d, Json.members_keep (fun _ _ _ _ _ sound member => sound.readMember member) found
          Draft.sound_empty, drafted⟩
      · contradiction
  · contradiction

theorem ofDraft_eq_ok_iff : ofDraft d = .ok c ↔ ∃ t, d.expires = some t ∧
    c = ⟨d.issuer.join, t, d.tokenId.join, d.keyId.join, d.extra⟩ := by
  cases expires : d.expires <;> simp [ofDraft, Json.require, expires, eq_comm]

theorem legible_of_decode (decoded : decode s = .ok c) (exact : ¬c.HoldsFloat) : c.Legible := by
  obtain ⟨d, sound, drafted⟩ := exists_draft_of_decode decoded
  obtain ⟨t, expires, rfl⟩ := ofDraft_eq_ok_iff.mp drafted
  obtain ⟨notBefore, notAfter⟩ := sound.expires t expires
  exact {
    idNamed := fun id held => sound.idNamed id (Option.join_eq_some_iff.mp held)
    keyNamed := fun key held => sound.keyNamed key (Option.join_eq_some_iff.mp held)
    notBefore
    notAfter
    increasing := sound.increasing
    within := sound.within
    exact }

theorem unknown_of_decode (decoded : decode s = .ok c) :
    ∀ entry ∈ c.extra, entry.1 ∉ knownNames := by
  obtain ⟨d, sound, drafted⟩ := exists_draft_of_decode decoded
  obtain ⟨t, -, rfl⟩ := ofDraft_eq_ok_iff.mp drafted
  exact sound.unknown

/-- Claims that were decoded come back from their own text, if no floating-point number stands in
    them, and are written as that text again.  None of their further claims has a known name. -/
theorem decode_retracts (decoded : decode s = .ok c) :
    (∀ entry ∈ c.extra, entry.1 ∉ knownNames) ∧
      (¬c.HoldsFloat → decode c.render = .ok c ∧ (decode c.render).map render = .ok c.render) := by
  have unknown := unknown_of_decode decoded
  refine ⟨unknown, fun exact => ?_⟩
  -- A further claim with a known name would be read twice, so this needs `unknown` as well.
  have back : decode c.render = .ok c := (legible_of_decode decoded exact).decode_render unknown
  exact ⟨back, by rw [back]; rfl⟩

/-! ## A payload that settles -/

/-- Members out of order and twice, blanks, escapes, an absent issuer, identifiers as numbers, and
    integers at both limits. -/
def tangled : Octets := Octets.ofString
  ("\x7b\"z\":[18446744073709551615,\x7b\"b\":null,\"a\":[],\"b\":\"\\u00e9\\n\"\x7d], " ++
    "\"iss\":null,\"exp\":-9223372036854775808,\"kid\":7,\"a\":false,\"jti\":9,\"a\":-1\x7d")

def settled : Claims where
  issuer := none
  expires := -9223372036854775808
  tokenId := some ⟨"9"⟩
  keyId := some ⟨"7"⟩
  extra := [("a", .ofInt (-1)),
    ("z", .list [.ofInt 18446744073709551615, .object [("a", .list []), ("b", .text "é\n")]])]

set_option maxRecDepth 1000 in
theorem decode_tangled : decode tangled = .ok settled := rfl

theorem not_holdsFloat_settled : ¬settled.HoldsFloat := by
  have integer : ∀ z, ¬(Json.Value.ofInt z).HoldsFloat := fun z holds => nomatch holds
  have text : ∀ t, ¬(Json.Value.text t).HoldsFloat := nofun
  simp [HoldsFloat, settled, Json.Value.holdsFloat_list_iff, Json.Value.holdsFloat_object_iff,
    integer, text]

theorem decode_retracts_tangled :
    decode tangled = .ok settled ∧ ¬settled.HoldsFloat ∧
      settled.render = Octets.ofString
        ("\x7b\"exp\":-9223372036854775808,\"jti\":\"9\",\"kid\":\"7\",\"a\":-1," ++
          "\"z\":[18446744073709551615,\x7b\"a\":[],\"b\":\"é\\n\"\x7d]\x7d") ∧
      decode settled.render = .ok settled := by
  refine ⟨decode_tangled, not_holdsFloat_settled, by decide +kernel, ?_⟩
  exact ((decode_retracts decode_tangled).2 not_holdsFloat_settled).1

end Claims

end Tollgate
