import Tollgate.Proofs.Json.Rounds
import Tollgate.Token.Claims

/-! # The identifier in a payload

How the value of `jti` gets into the claims.  `Claims.Frame` says that two texts make a payload
around that value: whatever stands between them the reader of claims comes to it, and with `null`
between them the payload decodes.  `Claims.decode_eq_ok_iff_of_comes` splits the decoding at the
value, and what follows the value is read in the same way whatever the value was
(`Completes.withTokenId`).
-/

namespace Tollgate

namespace Claims

variable {d d' : Draft} {s rest : Octets}

/-! ## One member -/

theorem shortens_readMember (n : Nat) (d : Draft) (name : String) :
    Json.Shortens (readMember n d name) := by
  have identifier : ∀ label, Json.Shortens (Json.readJudged (judgeIdentifier label) n) :=
    fun label => Json.shortens_readJudged n (by simp [judgeIdentifier]) (by simp [judgeIdentifier])
  unfold readMember
  split
  · refine Json.shortens_unlessSeen (Json.shortens_into (Json.shortens_readOptional ?_))
    exact Json.shortens_readJudged n (by simp) (by simp)
  · refine Json.shortens_unlessSeen (Json.shortens_into ?_)
    exact Json.shortens_readJudged n (by simp) (by simp)
  · refine Json.shortens_unlessSeen (Json.shortens_into (Json.shortens_readOptional ?_))
    exact Json.shortens_into (identifier _)
  · refine Json.shortens_unlessSeen (Json.shortens_into (Json.shortens_readOptional ?_))
    exact Json.shortens_into (identifier _)
  · exact Json.shortens_into (Json.shortens_readValue _ _)

theorem agreeBelow_readMember (n m : Nat) (d : Draft) (name : String) :
    Json.AgreeBelow (min n m) (readMember n d name) (readMember m d name) := by
  unfold readMember
  split
  · exact ((Json.agreeBelow_readJudged _).readOptional.into _).unlessSeen _ _
  · exact ((Json.agreeBelow_readJudged _).into _).unlessSeen _ _
  · exact (((Json.agreeBelow_readJudged _).into _).readOptional.into _).unlessSeen _ _
  · exact (((Json.agreeBelow_readJudged _).into _).readOptional.into _).unlessSeen _ _
  · exact (Json.agreeBelow_readValue _).into _

/-- After the identifier, what was read of it decides about nothing else. -/
theorem readMember_setTokenId {n : Nat} {name : String} {x : Option TokenId}
    (read : readMember n { d with tokenId := some x } name s = .ok (d', rest))
    (y : Option TokenId) :
    d'.tokenId = some x ∧
      readMember n { d with tokenId := some y } name s =
        .ok ({ d' with tokenId := some y }, rest) := by
  unfold readMember at read ⊢
  split at read
  · obtain ⟨unseen, read⟩ := Json.unlessSeen_eq_ok_iff.mp read
    obtain ⟨v, found, rfl⟩ := Json.into_eq_ok_iff.mp read
    exact ⟨rfl, Json.unlessSeen_eq_ok_iff.mpr ⟨unseen, Json.into_eq_ok_iff.mpr ⟨v, found, rfl⟩⟩⟩
  · obtain ⟨unseen, read⟩ := Json.unlessSeen_eq_ok_iff.mp read
    obtain ⟨v, found, rfl⟩ := Json.into_eq_ok_iff.mp read
    exact ⟨rfl, Json.unlessSeen_eq_ok_iff.mpr ⟨unseen, Json.into_eq_ok_iff.mpr ⟨v, found, rfl⟩⟩⟩
  · -- The identifier was read already.
    cases (Json.unlessSeen_eq_ok_iff.mp read).1
  · obtain ⟨unseen, read⟩ := Json.unlessSeen_eq_ok_iff.mp read
    obtain ⟨v, found, rfl⟩ := Json.into_eq_ok_iff.mp read
    exact ⟨rfl, Json.unlessSeen_eq_ok_iff.mpr ⟨unseen, Json.into_eq_ok_iff.mpr ⟨v, found, rfl⟩⟩⟩
  · obtain ⟨v, found, rfl⟩ := Json.into_eq_ok_iff.mp read
    exact ⟨rfl, Json.into_eq_ok_iff.mpr ⟨v, found, rfl⟩⟩

theorem members_setTokenId {n k : Nat} {first : Bool} {x : Option TokenId}
    (read : Json.members (readMember n) k first { d with tokenId := some x } s = .ok (d', rest))
    (y : Option TokenId) :
    d'.tokenId = some x ∧
      Json.members (readMember n) k first { d with tokenId := some y } s =
        .ok ({ d' with tokenId := some y }, rest) := by
  induction k generalizing first d s with
  | zero => contradiction
  | succ k ih =>
    unfold Json.members at read ⊢
    cases next : Json.nextName first s with
    | error fault => simp [next] at read
    | ok more =>
      cases more with
      | none =>
        simp only [next] at read
        cases read
        exact ⟨rfl, rfl⟩
      | some t =>
        simp only [next] at read
        cases named : Json.readText (k + 1) t with
        | error fault => simp [named] at read
        | ok found =>
          obtain ⟨name, u⟩ := found
          simp only [named] at read
          cases colon : Json.readColon u with
          | error fault => simp [colon] at read
          | ok v =>
            simp only [colon] at read
            cases member : readMember n { d with tokenId := some x } name v with
            | error fault => simp [member] at read
            | ok found =>
              obtain ⟨d₁, w⟩ := found
              simp only [member] at read
              obtain ⟨kept, same⟩ := readMember_setTokenId member y
              -- The draft that was read on is one with this identifier.
              have shape : d₁ = { d₁ with tokenId := some x } := by rw [← kept]
              rw [shape] at read
              obtain ⟨kept', same'⟩ := ih read
              exact ⟨kept', by simp only [named, colon, same, same']⟩

/-! ## The whole payload -/

/-- The reader of claims comes to the value of `jti`: what was read before it, and the payload from
    that value on. -/
def Comes (payload : Octets) (d : Draft) (rest : Octets) : Prop :=
  ∃ t, Json.skipBlanks payload = 123 :: t ∧ Json.Meets readMember "jti" true {} t d rest

def Completes (d : Draft) (s : Octets) (c : Claims) : Prop :=
  ∃ d' rest, Json.members (readMember (s.length + 1)) (s.length + 1) false d s = .ok (d', rest) ∧
    Json.skipBlanks rest = [] ∧ ofDraft d' = .ok c

/-- Two texts that make a payload around the value of `jti`: whatever value stands there, the reader
    of claims comes to it, and with `null` there the payload decodes. -/
structure Frame (before after : Octets) : Prop where
  place : ∃ d, ∀ value, Comes (before ++ value ++ after) d (value ++ after)
  sound : ∃ c, decode (before ++ Json.nullWord ++ after) = .ok c

theorem ofDraft_setTokenId {c : Claims} (read : ofDraft d = .ok c)
    (y : Option TokenId) : ofDraft { d with tokenId := some y } = .ok { c with tokenId := y } := by
  unfold ofDraft at read ⊢
  cases expires : d.expires with
  | none => simp [Json.require, expires] at read
  | some t =>
    simp only [Json.require, expires, Except.ok.injEq] at read ⊢
    rw [← read]
    rfl

theorem Completes.setTokenId {c : Claims} {x : Option TokenId}
    (completes : Completes { d with tokenId := some x } s c) (y : Option TokenId) :
    Completes { d with tokenId := some y } s { c with tokenId := y } := by
  obtain ⟨d', rest, read, ended, drafted⟩ := completes
  obtain ⟨_, same⟩ := members_setTokenId read y
  exact ⟨_, rest, same, ended, ofDraft_setTokenId drafted y⟩

theorem tokenId_of_completes {c : Claims} {x : Option TokenId}
    (completes : Completes { d with tokenId := some x } s c) : c.tokenId = x := by
  obtain ⟨d', rest, read, _, drafted⟩ := completes
  obtain ⟨kept, _⟩ := members_setTokenId read none
  unfold ofDraft at drafted
  split at drafted
  · cases drafted
    simp [kept]
  · contradiction

/-- The decoding of a payload is the reading of the value of `jti`, followed by what is left. -/
theorem decode_eq_ok_iff_of_comes {payload : Octets} {c : Claims} (comes : Comes payload d s) :
    decode payload = .ok c ↔
      ∃ d' rest, readMember (s.length + 1) d "jti" s = .ok (d', rest) ∧ Completes d' rest c := by
  obtain ⟨t, opened, meets⟩ := comes
  have within := Json.length_lt_of_skipBlanks opened
  obtain ⟨k, enough, enough', same⟩ := Json.members_of_meets agreeBelow_readMember
    shortens_readMember meets (n := payload.length + 1) (k := payload.length + 1) (by omega)
    (by omega)
  have scalar : Json.readScalar (payload.length + 1) payload = .ok (.map, 123 :: t) := by
    rw [Json.readScalar, opened]
    rfl
  have value : readMember (payload.length + 1) d "jti" s = readMember (s.length + 1) d "jti" s :=
    agreeBelow_readMember _ _ d "jti" s (by omega)
  rw [value] at same
  simp only [decode, Json.document, read, scalar, List.drop_succ_cons, List.drop_zero, same]
  cases member : readMember (s.length + 1) d "jti" s with
  | error fault => simp
  | ok found =>
    obtain ⟨d', rest⟩ := found
    have shorter := shortens_readMember _ _ _ _ _ _ member
    -- The rounds that are left when the member is read are more than enough for the rest.
    have onwards : Json.members (readMember (payload.length + 1)) k false d' rest =
        Json.members (readMember (rest.length + 1)) (rest.length + 1) false d' rest := by
      refine Json.members_eq (fun d name u (short : u.length < rest.length + 1) => ?_)
        (shortens_readMember _) ?_ ?_ ?_
      · exact agreeBelow_readMember _ _ d name u (by omega)
      · omega
      · omega
      · omega
    constructor
    · intro decoded
      refine ⟨d', rest, rfl, ?_⟩
      cases found : Json.members (readMember (rest.length + 1)) (rest.length + 1) false d' rest with
      | error fault => simp [onwards, found] at decoded
      | ok more =>
        obtain ⟨last, behind⟩ := more
        simp only [onwards, found] at decoded
        cases drafted : ofDraft last with
        | error fault => simp [drafted] at decoded
        | ok c' =>
          simp only [drafted] at decoded
          split at decoded
          · next ended =>
            cases decoded
            exact ⟨last, behind, found, List.isEmpty_iff.mp ended, drafted⟩
          · contradiction
    · rintro ⟨_, _, same', last, behind, found, ended, drafted⟩
      cases same'
      simp only [onwards, found, drafted, ended, List.isEmpty_nil, if_true]

end Claims

end Tollgate
