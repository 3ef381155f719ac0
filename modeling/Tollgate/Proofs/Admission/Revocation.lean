import Tollgate.Control.Server
import Tollgate.Proofs.Admission.Gate
import Tollgate.Proofs.Json.Loops
import Tollgate.Proofs.Token.Payload

/-! # A token is revoked by the value it carries

An operator who copies the value of `jti` out of a token and posts it to the revocation route hits
that token, however the value is written: `revoked_by_own_value`.

The token side reads the value as an identifier at once, while the route reads any value first and
judges it afterwards.  Both see the same scalar, since a scalar is read in the same way wherever it
stands; so the identifier depends on the text of the value alone (`TokenId.Written`), and both sides
agree on which texts are identifiers (`decode_frame_iff`, `jsonBody_eq_ok_iff`).
-/

namespace Tollgate

/-! ## The identifier that a text stands for -/

/-- Wherever the text stands, a scalar is read that is judged to be the identifier. -/
def TokenId.Written (v : Octets) (id : TokenId) : Prop :=
  ∃ shape, Json.Reads Json.readScalar v shape ∧ judgeIdentifier "token id" shape = .ok id.text

namespace TokenId

variable {v y w : Octets} {n : Nat} {id : TokenId}

/-- What was read of a text once and judged to be an identifier is read of it everywhere. -/
theorem written_of_judged {shape : Json.Shape} (text : Json.IsText v) (stops : Json.Stops y)
    (enough : (v ++ y).length < n) (read : Json.readScalar n (v ++ y) = .ok (shape, w))
    (judged : judgeIdentifier "token id" shape = .ok id.text) : Written v id ∧ w = y := by
  -- A list or an object is no identifier, whatever is in it.
  have named : ∀ {b t}, Json.skipBlanks v = b :: t → b = 91 ∨ b = 123 → False := by
    rintro b t start (rfl | rfl)
    · rw [Json.readScalar, Json.skipBlanks_append start] at read
      cases read
      simp [judgeIdentifier] at judged
    · rw [Json.readScalar, Json.skipBlanks_append start] at read
      cases read
      simp [judgeIdentifier] at judged
  have scalar : Json.IsScalar (Json.skipBlanks v) := by
    refine Json.isScalar_of_isText text (fun list => ?_) (fun object => ?_)
    · obtain ⟨t, start⟩ := List.head?_eq_some_iff.mp list
      exact named start (.inl rfl)
    · obtain ⟨t, start⟩ := List.head?_eq_some_iff.mp object
      exact named start (.inr rfl)
  obtain ⟨shape', _, _, reads⟩ | fails := Json.reads_or_fails scalar
  · cases read.symm.trans (reads n y enough stops)
    exact ⟨⟨shape, reads, judged⟩, rfl⟩
  · obtain ⟨fault, failed⟩ := fails n y enough stops
    rw [read] at failed
    contradiction

theorem written_blanks_iff {blanks : Octets} (blank : ∀ b ∈ blanks, Json.isBlank b = true) :
    Written (blanks ++ v) id ↔ Written v id := by
  simp only [Written, Json.reads_blanks_iff blank]

theorem Written.unique {id' : TokenId} (written : Written v id) (written' : Written v id') :
    id = id' := by
  obtain ⟨shape, reads, judged⟩ := written
  obtain ⟨shape', reads', judged'⟩ := written'
  have stops : Json.Stops [] := by
    intro b first
    contradiction
  have once := reads ((v ++ []).length + 1) [] (Nat.lt_succ_self _) stops
  have twice := reads' ((v ++ []).length + 1) [] (Nat.lt_succ_self _) stops
  cases once.symm.trans twice
  have same : id.text = id'.text := Except.ok.inj (judged.symm.trans judged')
  cases id
  cases id'
  exact congrArg TokenId.mk same

end TokenId

/-! ## The token side -/

namespace TokenId

variable {v y w s : Octets} {n : Nat} {id : TokenId}

theorem read_eq_ok_iff : TokenId.read n s = .ok (id, w) ↔
    ∃ shape, Json.readScalar n s = .ok (shape, w) ∧
      judgeIdentifier "token id" shape = .ok id.text := by
  unfold TokenId.read
  rw [Json.into_eq_ok_iff]
  constructor
  · rintro ⟨t, read, rfl⟩
    exact Json.readJudged_eq_ok_iff.mp read
  · rintro ⟨shape, scalar, judged⟩
    exact ⟨id.text, Json.readJudged_eq_ok_iff.mpr ⟨shape, scalar, judged⟩, rfl⟩

/-- The reader of an identifier or `null` in front of a value. -/
theorem readOptional_of_written (written : Written v id) (stops : Json.Stops y)
    (enough : (v ++ y).length < n) :
    Json.readOptional (TokenId.read n) (v ++ y) = .ok (some id, y) := by
  obtain ⟨shape, reads, judged⟩ := written
  have scalar := reads n y enough stops
  refine Json.readOptional_eq_ok_iff.mpr (.inr ⟨?_, ?_, id, ?_, rfl⟩)
  · intro none
    rw [Json.readScalar, none] at scalar
    contradiction
  · -- A value that begins like `null` is no identifier.
    intro null
    obtain ⟨t, start⟩ := List.head?_eq_some_iff.mp null
    rw [Json.readScalar, start] at scalar
    simp only [if_true, Json.readConstant] at scalar
    split at scalar
    · cases scalar
      simp [judgeIdentifier] at judged
    · contradiction
  · refine read_eq_ok_iff.mpr ⟨shape, ?_, judged⟩
    rw [Json.readScalar_skipBlanks]
    exact scalar

theorem written_of_readOptional {x : Option TokenId} (text : Json.IsText v)
    (stops : Json.Stops y) (enough : (v ++ y).length < n)
    (read : Json.readOptional (TokenId.read n) (v ++ y) = .ok (x, w)) :
    x = none ∨ ∃ id, x = some id ∧ Written v id ∧ w = y := by
  obtain ⟨_, _, _, none⟩ | ⟨_, _, id, found, rfl⟩ := Json.readOptional_eq_ok_iff.mp read
  · exact .inl none
  · obtain ⟨shape, scalar, judged⟩ := read_eq_ok_iff.mp found
    rw [Json.readScalar_skipBlanks] at scalar
    obtain ⟨written, same⟩ := written_of_judged text stops enough scalar judged
    exact .inr ⟨id, rfl, written, same⟩

end TokenId

namespace Claims

variable {d d' : Draft} {s rest : Octets} {n : Nat}

theorem readMember_jti_iff : readMember n d "jti" s = .ok (d', rest) ↔
    d.tokenId = none ∧ ∃ x, Json.readOptional (TokenId.read n) s = .ok (x, rest) ∧
      d' = { d with tokenId := some x } := by
  simp only [readMember, Json.unlessSeen_eq_ok_iff, Json.into_eq_ok_iff]

/-- What stands behind the value of a member does not continue a number. -/
theorem stops_of_completes {c : Claims} (completes : Completes d s c) : Json.Stops s := by
  obtain ⟨d', rest, read, _⟩ := completes
  intro b first
  obtain ⟨t, rfl⟩ := List.head?_eq_some_iff.mp first
  by_cases blank : Json.isBlank b = true
  · simp only [Json.isBlank, Bool.or_eq_true, beq_iff_eq] at blank
    obtain ((rfl | rfl) | rfl) | rfl := blank <;> decide
  · have start : Json.skipBlanks (b :: t) = b :: t := List.dropWhile_cons_of_neg blank
    by_cases comma : b = 44
    · subst comma
      decide
    · by_cases brace : b = 125
      · subst brace
        decide
      · simp [Json.members, Json.nextName, start, comma, brace] at read

/-- In a frame a value is decoded to an identifier exactly if its text stands for it. -/
theorem decode_frame_iff {before v after : Octets} {id : TokenId} (frame : Frame before after)
    (text : Json.IsText v) :
    (∃ c, decode (before ++ v ++ after) = .ok c ∧ c.tokenId = some id) ↔ TokenId.Written v id := by
  obtain ⟨⟨d, comes⟩, c₀, sound⟩ := frame
  -- With `null` there the reader goes on right behind it.
  obtain ⟨d₀, w, read, completes⟩ := (decode_eq_ok_iff_of_comes (comes Json.nullWord)).mp sound
  obtain ⟨unseen, x, null, rfl⟩ := readMember_jti_iff.mp read
  obtain ⟨rfl, rfl⟩ : none = x ∧ after = w := by
    have known : Json.readOptional (TokenId.read ((Json.nullWord ++ after).length + 1))
        (Json.nullWord ++ after) = .ok (none, after) := rfl
    cases known.symm.trans null
    exact ⟨rfl, rfl⟩
  have stops := stops_of_completes completes
  constructor
  · rintro ⟨c, decoded, named⟩
    obtain ⟨d', w, read, completes'⟩ := (decode_eq_ok_iff_of_comes (comes v)).mp decoded
    obtain ⟨_, x, value, rfl⟩ := readMember_jti_iff.mp read
    rw [tokenId_of_completes completes'] at named
    obtain rfl | ⟨id', rfl, written, _⟩ :=
      TokenId.written_of_readOptional text stops (Nat.lt_succ_self _) value
    · contradiction
    · cases named
      exact written
  · intro written
    refine ⟨{ c₀ with tokenId := some id }, ?_, rfl⟩
    refine (decode_eq_ok_iff_of_comes (comes v)).mpr ⟨_, after, ?_, completes.setTokenId (some id)⟩
    have value := TokenId.readOptional_of_written written stops
      (Nat.lt_succ_self (v ++ after).length)
    exact readMember_jti_iff.mpr ⟨unseen, some id, value, rfl⟩

end Claims

/-! ## The route side -/

namespace RevokeRequest

variable {v y w s : Octets} {n : Nat} {id : TokenId}

theorem shapeOf_value (shape : Json.Shape) : shapeOf shape.value = shape := by
  cases shape <;> rfl

theorem tokenIdOf?_eq_some_iff {value : Json.Value} :
    tokenIdOf? value = some id ↔ judgeIdentifier "token id" (shapeOf value) = .ok id.text := by
  unfold tokenIdOf?
  cases judgeIdentifier "token id" (shapeOf value) with
  | error fault => simp
  | ok t =>
    simp only [Option.some.injEq, Except.ok.injEq]
    exact ⟨fun same => by rw [← same], fun same => by rw [same]⟩

theorem readTokenId_of_written (written : TokenId.Written v id) (stops : Json.Stops y)
    (enough : (v ++ y).length < n) : readTokenId n (v ++ y) = .ok (some id, y) := by
  obtain ⟨shape, reads, judged⟩ := written
  have scalar := reads n y enough stops
  have plain : ∀ t, Json.skipBlanks (v ++ y) ≠ 91 :: t ∧ Json.skipBlanks (v ++ y) ≠ 123 :: t := by
    intro t
    constructor <;>
    · intro start
      rw [Json.readScalar, start] at scalar
      cases scalar
      simp [judgeIdentifier] at judged
  obtain ⟨t, list⟩ | ⟨t, object⟩ | ⟨noList, noObject⟩ := Json.readValue_cases (v ++ y)
  · exact absurd list (plain t).1
  · exact absurd object (plain t).2
  · refine Json.into_eq_ok_iff.mpr ⟨shape.value, ?_, ?_⟩
    · show Json.readValue n (126 + 1) (v ++ y) = _
      rw [Json.readValue_of_scalar n 126 noList noObject, scalar]
    · rw [eq_comm, tokenIdOf?_eq_some_iff, shapeOf_value]
      exact judged

theorem written_of_readTokenId (text : Json.IsText v) (stops : Json.Stops y)
    (enough : (v ++ y).length < n) (read : readTokenId n (v ++ y) = .ok (some id, w)) :
    TokenId.Written v id := by
  obtain ⟨value, found, named⟩ := Json.into_eq_ok_iff.mp read
  have judged := tokenIdOf?_eq_some_iff.mp named.symm
  rw [show Json.maxLevels - 1 = 126 + 1 from rfl] at found
  obtain ⟨t, list⟩ | ⟨t, object⟩ | ⟨noList, noObject⟩ := Json.readValue_cases (v ++ y)
  · rw [Json.readValue_of_list n 126 list] at found
    split at found
    · contradiction
    · split at found
      · cases found
        simp [shapeOf, judgeIdentifier] at judged
      · contradiction
  · rw [Json.readValue_of_object n 126 object] at found
    split at found
    · contradiction
    · split at found
      · cases found
        simp [shapeOf, judgeIdentifier] at judged
      · contradiction
  · rw [Json.readValue_of_scalar n 126 noList noObject] at found
    split at found
    · next shape rest scalar =>
      cases found
      rw [shapeOf_value] at judged
      exact (TokenId.written_of_judged text stops enough scalar judged).1
    · contradiction

/-- An identifier that was read stays, since a second one would be a fault. -/
theorem seen_of_members {k : Nat} {first : Bool} {x : Option TokenId}
    {last : Option (Option TokenId)}
    (read : Json.members (readMember n) k first (some x) s = .ok (last, w)) : last = some x := by
  refine Json.members_keep (P := fun seen => seen = some x)
    (fun state name s state' rest kept member => ?_) read rfl
  subst kept
  unfold readMember at member
  split at member
  · cases (Json.unlessSeen_eq_ok_iff.mp member).1
  · exact Json.eq_of_ignore member

/-- The reading of a body whose only member is the identifier. -/
theorem document_eq_ok_iff (text : Json.IsText v) :
    Json.document RevokeRequest.read (Json.renderMembers [("jti", v)]) = .ok ⟨some id⟩ ↔
      TokenId.Written v id := by
  have stops : Json.Stops [125] := by
    intro b first
    cases first
    decide
  generalize inner : Json.renderMember "jti" v ++ [125] = body
  have whole : Json.renderMembers [("jti", v)] = 123 :: body := by
    rw [← inner]
    rfl
  have longer : (v ++ [125]).length < body.length := by
    rw [← inner]
    simp only [Json.renderMember, Json.renderText, List.length_append, List.length_cons]
    omega
  rw [whole]
  generalize rounds : body.length + 1 = k
  have enough : (Json.renderMember "jti" v ++ [125]).length ≤ k := by
    rw [inner]
    omega
  -- The only member is read in the first round, and the second finds the closing brace.
  have round := @Json.members_renderMember _ (readMember (k + 1)) _ true none _ _ _ enough
  rw [Json.separator, if_pos rfl, List.nil_append, inner] at round
  have start : RevokeRequest.read (k + 1) (123 :: body) = readObject (k + 1) body := rfl
  simp only [Json.document, List.length_cons, rounds, start]
  constructor
  · intro decoded
    split at decoded
    · contradiction
    · next found rest read =>
      split at decoded
      · cases decoded
        obtain ⟨last, members, same⟩ := Json.into_eq_ok_iff.mp read
        rw [round] at members
        split at members
        · contradiction
        · next state rest' member =>
          obtain ⟨_, value⟩ := Json.unlessSeen_eq_ok_iff.mp member
          obtain ⟨x, named, rfl⟩ := Json.into_eq_ok_iff.mp value
          rw [seen_of_members members] at same
          cases same
          exact written_of_readTokenId text stops (by omega) named
      · contradiction
  · intro written
    have named := readTokenId_of_written (n := k + 1) written stops (by omega)
    have member : readMember (k + 1) none "jti" (v ++ [125]) = .ok (some (some id), [125]) :=
      Json.unlessSeen_eq_ok_iff.mpr ⟨rfl, Json.into_eq_ok_iff.mpr ⟨some id, named, rfl⟩⟩
    have members : Json.members (readMember (k + 1)) (k + 1) true none body =
        .ok (some (some id), []) := by
      rw [round, member, ← rounds]
      exact Json.members_brace _ _ _ _
    have read : readObject (k + 1) body = .ok (⟨some id⟩, []) :=
      Json.into_eq_ok_iff.mpr ⟨_, members, rfl⟩
    rw [read]
    rfl

end RevokeRequest

/-! ## Both sides together -/

/-- A request to revoke what the text of a value stands for, with blanks before it or not. -/
structure Request.Posts (request : Request) (v : Octets) : Prop where
  method : request.method = "POST"
  json : request.saysJson = true
  body : ∃ blanks, (∀ b ∈ blanks, Json.isBlank b = true) ∧
    request.body = Json.renderMembers [("jti", blanks ++ v)]
  short : request.body.length ≤ bodyLimit

/-- A revocation hits the token with a payload if that token has an identifier, and nothing
    otherwise. -/
structure Hits (payload : Octets) (r : RevokedSet) (outcome : Response × RevokedSet) : Prop where
  answered : (∃ claims id, Claims.decode payload = .ok claims ∧ claims.tokenId = some id) ↔
    outcome.1.status = 200
  revoked : ∀ claims id, Claims.decode payload = .ok claims → claims.tokenId = some id →
    outcome.2 = (r.revoke id).2
  /-- Whatever is revoked later on, a gate turns the token away as revoked, where it would not turn
      it away for its signature or its end. -/
  final : ∀ claims id, Claims.decode payload = .ok claims → claims.tokenId = some id →
    ∀ (g : GateConfig) (h : Headers) (token : UnverifiedToken), g.Carries h token →
      token.payload = payload → ∀ later : RevokedSet, (∀ x ∈ outcome.2.ids, x ∈ later.ids) →
      ∀ cache now answer, g.Trusts cache answer token → now.seconds < claims.expires →
        (g.authorize h cache later now answer).1 = .error .revoked
  unchanged : outcome.1.status ≠ 200 → outcome.2 = r

theorem GateConfig.authorize_eq_revoked {g : GateConfig} {h : Headers} {token : UnverifiedToken}
    {claims : Claims} {id : TokenId} {r : RevokedSet} {cache : KeyCache} {now : Instant}
    {answer : KeyAnswer} (carried : g.Carries h token) (trusted : g.Trusts cache answer token)
    (decoded : Claims.decode token.payload = .ok claims) (unexpired : now.seconds < claims.expires)
    (named : claims.tokenId = some id) (member : id ∈ r.ids) :
    (g.authorize h cache r now answer).1 = .error .revoked := by
  have lasting := UnverifiedToken.unexpiredClaims_eq_ok_iff.mpr ⟨decoded, unexpired⟩
  have judged : ∀ key unsigned, g.judge r claims key unsigned = .error .revoked :=
    fun _ _ => judge_eq_revoked_iff.mpr ⟨id, named, member⟩
  rcases trusted with ⟨allowed, unsigned⟩ | ⟨keyId, key, keyed, yielded, signed⟩
  · have bypass : (g.allowUnsigned && token.header.isUnsigned) = true :=
      Bool.and_eq_true_iff.mpr ⟨allowed, unsigned⟩
    have read := UnverifiedToken.unsignedClaims_eq_ok_iff.mpr ⟨unsigned, lasting⟩
    rw [authorize, present_eq_unsigned_iff.mpr ⟨carried, bypass, read⟩]
    exact judged _ _
  · have shown := signed
    obtain ⟨_, _, accepted, _⟩ := shown
    have noBypass : (g.allowUnsigned && token.header.isUnsigned) = false := by
      rw [TokenHeader.isUnsigned_eq_false accepted, Bool.and_false]
    have resolved := KeyCache.resolve_eq_ok_iff.mpr yielded
    have verified := UnverifiedToken.verify_eq_ok_iff.mpr ⟨signed, lasting⟩
    rw [authorize, present_eq_signed_iff.mpr ⟨carried, noBypass, keyed⟩]
    simp only [judgeSigned, resolved, verified]
    exact judged _ _

theorem Request.jsonBody_eq_ok_iff {α : Type} {reader : Nat → Json.Reader α} {request : Request}
    {a : α} :
    request.jsonBody reader = .ok a ↔
      request.saysJson = true ∧ request.body.length ≤ bodyLimit ∧
        Json.document reader request.body = .ok a := by
  rw [← Nat.not_lt]
  unfold Request.jsonBody
  by_cases json : request.saysJson = true
  · by_cases long : bodyLimit < request.body.length
    · simp [json, long]
    · simp only [json, long, Bool.not_true, Bool.false_eq_true, if_false, not_false_eq_true,
        true_and]
      split
      · next a' decoded => rw [decoded, Except.ok.injEq, Except.ok.injEq]
      all_goals
        next failed => simp [failed]
  · simp [json]

theorem Request.Posts.jsonBody_iff {request : Request} {v : Octets} {id : TokenId}
    (posts : request.Posts v) (text : Json.IsText v) :
    request.jsonBody RevokeRequest.read = .ok ⟨some id⟩ ↔ TokenId.Written v id := by
  obtain ⟨blanks, blank, body⟩ := posts.body
  have short := posts.short
  rw [body] at short
  rw [Request.jsonBody_eq_ok_iff, body, RevokeRequest.document_eq_ok_iff (text.blanks blank),
    TokenId.written_blanks_iff blank]
  exact ⟨fun read => read.2.2, fun written => ⟨posts.json, short, written⟩⟩

theorem revoke_eq {request : Request} {v : Octets} (posts : request.Posts v)
    (text : Json.IsText v) (r : RevokedSet) :
    (∃ id, TokenId.Written v id ∧ revoke r request = (revokedResponse, (r.revoke id).2)) ∨
      (∀ id, ¬TokenId.Written v id) ∧ (revoke r request).1.status ≠ 200 ∧
        (revoke r request).2 = r := by
  -- The body names no identifier where it cannot be read and where its member is null.
  cases read : request.jsonBody RevokeRequest.read with
  | error fault =>
    have none : ∀ id, ¬TokenId.Written v id := by
      intro id written
      rw [(posts.jsonBody_iff text).mpr written] at read
      contradiction
    exact .inr ⟨none, by simp [revoke, read, Response.failure, Response.json], by
      simp only [revoke, read]⟩
  | ok found =>
    obtain ⟨_ | id⟩ := found
    · have none : ∀ id, ¬TokenId.Written v id := by
        intro id written
        rw [(posts.jsonBody_iff text).mpr written] at read
        cases read
      exact .inr ⟨none, by simp [revoke, read, Response.failure, Response.json], by
        simp only [revoke, read]⟩
    · exact .inl ⟨id, (posts.jsonBody_iff text).mp read, by simp only [revoke, read]⟩

theorem hits_revoke {before v after : Octets} {request : Request}
    (frame : Claims.Frame before after) (text : Json.IsText v) (posts : request.Posts v)
    (r : RevokedSet) : Hits (before ++ v ++ after) r (revoke r request) := by
  have named : ∀ {claims id}, Claims.decode (before ++ v ++ after) = .ok claims →
      claims.tokenId = some id → TokenId.Written v id :=
    fun decoded named => (Claims.decode_frame_iff frame text).mp ⟨_, decoded, named⟩
  -- Either the value is written for one identifier, and that one is revoked, or for none, and
  -- nothing changes.
  obtain ⟨id, written, answer⟩ | ⟨none, refused, same⟩ := revoke_eq posts text r
  · have revoked : ∀ claims id', Claims.decode (before ++ v ++ after) = .ok claims →
        claims.tokenId = some id' → (revoke r request).2 = (r.revoke id').2 := by
      intro claims id' decoded carried
      rw [answer, written.unique (named decoded carried)]
    refine ⟨⟨fun _ => ?_, fun _ => ?_⟩, revoked, ?_, fun refused => ?_⟩
    · rw [answer]
      rfl
    · obtain ⟨claims, decoded, carried⟩ := (Claims.decode_frame_iff frame text).mpr written
      exact ⟨claims, id, decoded, carried⟩
    · intro claims id' decoded carried g h token shown payload later kept _ now _ trusted lasting
      have member := revoked claims id' decoded carried
      rw [← payload] at decoded
      refine GateConfig.authorize_eq_revoked shown trusted decoded lasting carried (kept id' ?_)
      rw [member]
      exact RevokedSet.mem_revoke.mpr (.inl rfl)
    · rw [answer] at refused
      exact absurd rfl refused
  · refine ⟨⟨?_, fun ok => absurd ok refused⟩, ?_, ?_, fun _ => same⟩
    · rintro ⟨claims, id, decoded, carried⟩
      exact absurd (named decoded carried) (none id)
    · intro claims id decoded carried
      exact absurd (named decoded carried) (none id)
    · intro claims id decoded carried
      exact absurd (named decoded carried) (none id)

theorem serveAdmin_eq_revoke {g : AdminGuard} {request : Request} {v : Octets}
    (posts : request.Posts v) (path : request.target.path = "/revoke")
    (admitted : g.check request.headers = .ok ()) (r : RevokedSet) :
    serveAdmin g r request = revoke r request := by
  have passed : g.protect "POST" request = .ok () := by
    simp [AdminGuard.protect, admitted, takesMethod, posts.method]
  have sent : ∀ response : Response, response.sentTo request = response := by
    intro response
    simp [Response.sentTo, posts.method]
  simp only [serveAdmin, answerAdmin, path, if_true, passed, sent]

theorem ControlServer.serve_eq_revoke {s : ControlServer} {request : Request} {v : Octets}
    (posts : request.Posts v) (path : request.target.path = "/api/v1/revoke")
    (admitted : s.guard.check request.headers = .ok ()) (now : Instant) (d : Draws) :
    (s.serve now d request).1 = (revoke s.revoked request).1 ∧
      (s.serve now d request).2.revoked = (revoke s.revoked request).2 := by
  have passed : s.guard.protect "POST" request = .ok () := by
    simp [AdminGuard.protect, admitted, takesMethod, posts.method]
  have sent : ∀ response : Response, response.sentTo request = response := by
    intro response
    simp [Response.sentTo, posts.method]
  have routed : s.route request = .ok .revoke := by
    unfold route
    rw [path]
    simp only [Endpoint.ofPath?, Endpoint.isPublic, Endpoint.method, passed]
    rfl
  simp only [serve, routed, perform, sent]
  exact ⟨trivial, trivial⟩

/-- Whoever posts the value of a token's identifier, as it stands in the payload, to the revocation
    route of a proxy or of a control server revokes that token; and where the value is no identifier
    the token has none, and nothing is revoked. -/
theorem revoked_by_own_value {before v after : Octets} (frame : Claims.Frame before after)
    (text : Json.IsText v) {request : Request} (posts : request.Posts v) :
    (∀ (g : AdminGuard) (r : RevokedSet), request.target.path = "/revoke" →
      g.check request.headers = .ok () →
      Hits (before ++ v ++ after) r (serveAdmin g r request)) ∧
    ∀ (s : ControlServer) (now : Instant) (d : Draws), request.target.path = "/api/v1/revoke" →
      s.guard.check request.headers = .ok () →
      Hits (before ++ v ++ after) s.revoked
        ((s.serve now d request).1, (s.serve now d request).2.revoked) := by
  constructor
  · intro g r path admitted
    rw [serveAdmin_eq_revoke posts path admitted]
    exact hits_revoke frame text posts r
  · intro s now d path admitted
    obtain ⟨response, registry⟩ := ControlServer.serve_eq_revoke posts path admitted now d
    rw [response, registry]
    exact hits_revoke frame text posts s.revoked

/-! ## An integer that became a float -/

/-- What stands before the value in a payload, `{"jti":`, -/
def beforeValue : Octets := [123, 34, 106, 116, 105, 34, 58]

/-- and after it, `,"exp":9}`. -/
def afterValue : Octets := [44, 34, 101, 120, 112, 34, 58, 57, 125]

theorem frame_beforeValue : Claims.Frame beforeValue afterValue where
  place := ⟨{}, fun _ => ⟨_, rfl, .here (t := 106 :: 116 :: 105 :: 34 :: 58 :: _) rfl rfl rfl⟩⟩
  sound := ⟨⟨none, 9, none, none, []⟩, rfl⟩

/-- The text `7.0`. -/
def sevenAsFloat : Octets := [55, 46, 48]

def revocationOfSeven : Request where
  method := "POST"
  target := { authority := none, path := "/revoke" }
  headers := [("content-type", Octets.ofString "application/json"),
    ("authorization", bearerMark ++ Octets.ofString "s")]
  body := Json.renderMembers [("jti", 32 :: sevenAsFloat)]

theorem posts_revocationOfSeven : revocationOfSeven.Posts sevenAsFloat :=
  ⟨rfl, by decide +kernel, ⟨[32], List.forall_mem_singleton.mpr rfl, rfl⟩, by decide +kernel⟩

theorem revoked_by_own_value_float :
    Claims.Frame beforeValue afterValue ∧ Json.IsText sevenAsFloat ∧
      revocationOfSeven.Posts sevenAsFloat ∧
      (serveAdmin ⟨some "s"⟩ .empty revocationOfSeven).1.status = 200 ∧
      (serveAdmin ⟨some "s"⟩ .empty revocationOfSeven).2.ids = [⟨"7"⟩] := by
  have text : Json.IsText sevenAsFloat := ⟨4, rfl⟩
  have found : (Claims.decode (beforeValue ++ sevenAsFloat ++ afterValue)).toOption.bind
      Claims.tokenId = some ⟨"7"⟩ := by decide +kernel
  obtain ⟨claims, decoded, named⟩ := Option.bind_eq_some_iff.mp found
  have decoded : Claims.decode (beforeValue ++ sevenAsFloat ++ afterValue) = .ok claims := by
    cases read : Claims.decode (beforeValue ++ sevenAsFloat ++ afterValue) with
    | error fault =>
      rw [read] at decoded
      cases decoded
    | ok claims' =>
      rw [read] at decoded
      cases decoded
      rfl
  have hits := (revoked_by_own_value frame_beforeValue text posts_revocationOfSeven).1 ⟨some "s"⟩
    .empty rfl rfl
  refine ⟨frame_beforeValue, text, posts_revocationOfSeven, ?_, ?_⟩
  · exact hits.answered.mp ⟨claims, ⟨"7"⟩, decoded, named⟩
  · rw [hits.revoked claims ⟨"7"⟩ decoded named]
    rfl

end Tollgate
