import Tollgate.Proofs.Control.RevokedList
import Tollgate.Proofs.Revoked
import Tollgate.Proxy.Node

/-! # Revoked tokens on a proxy

A proxy asks its control server for the revoked tokens from time to time and adds what it gets to its
own.  `ProxyNode.replicates` states that nothing gets lost on the way, whatever was revoked before
on either side, and that a list is taken over as a whole or not at all.

A list that cannot be read leaves everything as it was.  That is so if a single entry of it is no
identifier, wherever in the list that is and however the body is laid out (`Lists`).
-/

namespace Tollgate

/-! ## Bodies that list -/

def readIds (n : Nat) : Json.Reader (List TokenId) := Json.readList (TokenId.read n) n

/-- A body lists entries as revoked tokens: it is an object, in which the reader of the answer comes
    to the list, or it is a list of that list. -/
inductive ListsRevoked (body : Octets) (entries : List Octets) : Prop
  | object {t u l rest : Octets} {seen : Option (List TokenId)}
      (opened : Json.skipBlanks body = 123 :: t)
      (finds : Json.Finds (onlyMember "revoked" readIds (body.length + 1)) "revoked"
        (body.length + 1) true none t seen u) (place : u <:+ body)
      (list : Json.skipBlanks u = 91 :: l) (lists : Json.Lists true l entries rest)
  | list {t u l rest : Octets} (opened : Json.skipBlanks body = 91 :: t)
      (next : Json.nextItem true t = .ok (some u)) (list : Json.skipBlanks u = 91 :: l)
      (lists : Json.Lists true l entries rest)

/-- Every text in a list of identifiers that was read is an identifier. -/
theorem decoded_of_readIds {n : Nat} {u l rest w : Octets} {entries : List Octets}
    {ids : List TokenId} (list : Json.skipBlanks u = 91 :: l)
    (lists : Json.Lists true l entries rest) (within : u.length < n)
    (read : readIds n u = .ok (ids, w)) :
    ∀ v ∈ entries, ∃ id, Json.document TokenId.read v = .ok id := by
  have shorter := Json.length_lt_of_skipBlanks list
  rw [readIds, Json.readList_of_list n list] at read
  refine Json.of_elements_of_lists n (fun v y id w text stops enough found => ?_) lists
    (by omega) read
  obtain ⟨shape, scalar, judged⟩ := TokenId.read_eq_ok_iff.mp found
  obtain ⟨⟨shape, reads, judged⟩, rfl⟩ := TokenId.written_of_judged text stops enough scalar judged
  have identifier : Json.Reads TokenId.read v id := (reads.judged judged).into
  exact ⟨rfl, identifier.document⟩

theorem decoded_of_readRevoked {d : Delivery} {entries : List Octets} {ids : List TokenId}
    (lists : ListsRevoked d.body entries) (read : readRevoked (.ok d) = .ok ids) :
    ∀ v ∈ entries, ∃ id, Json.document TokenId.read v = .ok id := by
  obtain ⟨-, decoded⟩ := readDone_eq_ok_iff.mp read
  obtain ⟨w, found, -⟩ := Json.document_eq_ok_iff.mp decoded
  -- The list stands in the only member of an object, or as the only field of a record written as a
  -- list.
  cases lists with
  | object opened finds place list lists =>
    have within := place.length_le
    obtain ⟨last, members⟩ := members_of_readOnlyMember opened found
    obtain ⟨state, w', member⟩ := Json.of_members_of_finds finds members
    rw [onlyMember, if_pos rfl] at member
    obtain ⟨-, value⟩ := Json.unlessSeen_eq_ok_iff.mp member
    obtain ⟨ids', listed, -⟩ := Json.into_eq_ok_iff.mp value
    exact decoded_of_readIds list lists (by omega) listed
  | list opened next list lists =>
    have first := Json.length_lt_of_skipBlanks opened
    have second := Json.length_le_of_nextItem next
    rw [readOnlyMember, Json.readRecord_of_list _ opened] at found
    simp only [Json.nextField, decide_true, next] at found
    split at found
    · contradiction
    · next listed => exact decoded_of_readIds list lists (by omega) listed

/-! ## Taking over a list -/

namespace ProxyNode

variable {p : ProxyNode} {link : ControlLink} {t : Transport} {ids : List TokenId}
  {fault : ClientFault}

theorem sync_of_read (controlled : p.config.control = some link) (read : readRevoked t = .ok ids) :
    p.sync t = (.ok (ids.toFinset \ p.revoked.ids.toFinset).card,
      { p with revoked := (p.revoked.extend ids).2 }) := by
  simp only [sync, controlled, read, RevokedSet.extend_count]

/-- What is known already changes nothing. -/
theorem sync_of_known (controlled : p.config.control = some link) (read : readRevoked t = .ok ids)
    (known : ∀ id ∈ ids, id ∈ p.revoked.ids) : p.sync t = (.ok 0, p) := by
  simp only [sync, controlled, read, RevokedSet.extend_of_subset known]

theorem sync_of_unread (controlled : p.config.control = some link)
    (unread : ∀ ids, readRevoked t ≠ .ok ids) : ∃ fault, p.sync t = (.error fault, p) := by
  cases read : readRevoked t with
  | ok ids => exact absurd read (unread ids)
  | error fault => exact ⟨fault, by simp only [sync, controlled, read]⟩

theorem sync_of_failed (failed : (p.sync t).1 = .error fault) : (p.sync t).2 = p := by
  unfold sync at failed ⊢
  split
  · rfl
  · split
    · rfl
    · next controlled _ _ read => simp [controlled, read] at failed

/-- What a proxy does with a list of identifiers that it got: it counts those that are new to it,
    adds them to its own, and changes nothing else.  When it gets the same list again there is
    nothing left to do. -/
structure TakesOver (p : ProxyNode) (t : Transport) (ids : List TokenId) : Prop where
  count : (p.sync t).1 = .ok (ids.toFinset \ p.revoked.ids.toFinset).card
  union : ∀ id, id ∈ (p.sync t).2.revoked.ids ↔ id ∈ p.revoked.ids ∨ id ∈ ids
  rest : (p.sync t).2 = { p with revoked := (p.sync t).2.revoked }
  again : ∀ t', readRevoked t' = .ok ids → (p.sync t).2.sync t' = (.ok 0, (p.sync t).2)

theorem takesOver (controlled : p.config.control = some link) (read : readRevoked t = .ok ids) :
    p.TakesOver t ids := by
  have done := sync_of_read controlled read
  have union : ∀ id, id ∈ (p.sync t).2.revoked.ids ↔ id ∈ p.revoked.ids ∨ id ∈ ids := by
    intro id
    rw [done, RevokedSet.mem_extend, or_comm]
  refine ⟨by rw [done], union, by rw [done], fun t' read' => ?_⟩
  have controlled' : (p.sync t).2.config.control = some link := by rw [done, controlled]
  exact sync_of_known controlled' read' fun id member => (union id).mpr (.inr member)

/-- Whatever a control server was asked, the list that it then shows to a proxy is read there as what
    was registered with its revocation route, in strict order.  The proxy takes it over completely,
    whatever it had revoked before, and asking once more changes nothing.  If it gets no list, or one
    with an entry that is no identifier, it goes on as it was. -/
theorem replicates (controlled : p.config.control = some link) (config : ControlConfig)
    (authority : AuthorityConfig) (calls : List ControlServer.Call) :
    let start := ControlServer.start config authority
    let s := start.after calls
    (∀ asking : ControlServer.Call, s.Admits asking.request .revoked →
      ∃ ids, readRevoked (s.answer asking).1.delivered = .ok ids ∧ ids.Pairwise (· < ·) ∧
        (∀ id, id ∈ ids ↔ ∃ call ∈ calls, start.Registers call id) ∧
        ∀ asking' : ControlServer.Call, s.Admits asking'.request .revoked →
          let q := (p.sync (s.answer asking).1.delivered).2
          q.sync ((s.answer asking).2.answer asking').1.delivered = (.ok 0, q)) ∧
    (∀ t ids, readRevoked t = .ok ids → p.TakesOver t ids) ∧
    (∀ t fault, (p.sync t).1 = .error fault → (p.sync t).2 = p) ∧
    (∀ d : Delivery, d.isSuccess = false → ∃ fault, p.sync (.ok d) = (.error fault, p)) ∧
    ∀ (d : Delivery) entries, ListsRevoked d.body entries →
      (∃ v ∈ entries, ∀ id, Json.document TokenId.read v ≠ .ok id) →
        ∃ fault, p.sync (.ok d) = (.error fault, p) := by
  intro start s
  have registered : ∀ id, id ∈ s.revoked.ids ↔ ∃ call ∈ calls, start.Registers call id :=
    fun id => ControlServer.mem_revoked_after_start
  have named : ∀ id ∈ s.revoked.ids, id.text ≠ "" := by
    intro id member
    obtain ⟨call, -, registers⟩ := (registered id).mp member
    exact ControlServer.named_of_registers registers
  refine ⟨fun asking admitted => ?_, fun t ids => takesOver controlled, fun t fault =>
    sync_of_failed, fun d failed => ?_, fun d entries lists ⟨v, member, undecodable⟩ => ?_⟩
  · have read := ControlServer.readRevoked_answer named admitted
    refine ⟨s.revoked.ids, read, s.revoked.increasing, registered, fun asking' admitted' => ?_⟩
    -- Showing the list does not change it.
    have same : (s.answer asking).2 = s := by
      rw [ControlServer.answer_of_admits_revoked admitted]
    rw [same]
    exact (takesOver controlled read).again _ (ControlServer.readRevoked_answer named admitted')
  · refine sync_of_unread controlled fun ids read => ?_
    obtain ⟨done, -⟩ := readDone_eq_ok_iff.mp read
    rw [failed] at done
    contradiction
  · refine sync_of_unread controlled fun ids read => ?_
    obtain ⟨id, decoded⟩ := decoded_of_readRevoked lists read v member
    exact undecodable id decoded

def informed : ProxyNode where
  config := { control := some ⟨"https://control.example", "s"⟩ }
  revoked := (RevokedSet.empty.revoke ⟨"a"⟩).2

def bearing (secret method path body : String) : ControlServer.Call where
  now := .ofSeconds 0
  draws := ⟨.error "no key", ⟨"1"⟩, ⟨"r"⟩⟩
  request := ⟨method, ⟨none, path⟩, [("content-type", Octets.ofString "application/json"),
    ("authorization", Octets.ofString ("Bearer " ++ secret))], Octets.ofString body⟩

/-- An operator revokes two tokens, and somebody without the secret tries to revoke a third one. -/
def revocations : List ControlServer.Call :=
  [bearing "s" "POST" "/api/v1/revoke" "\x7b\"jti\":7\x7d",
    bearing "s" "POST" "/api/v1/revoke" "\x7b\"jti\":\"a\"\x7d",
    bearing "t" "POST" "/api/v1/revoke" "\x7b\"jti\":\"b\"\x7d"]

def spoiled : Delivery := ⟨200, ControlServer.listing "revoked" [Json.renderText "c", Json.trueWord]⟩

theorem listsRevoked_spoiled :
    ListsRevoked spoiled.body [Json.renderText "c", Json.trueWord] := by
  have isItem : ∀ v ∈ [Json.renderText "c", Json.trueWord], Json.IsItem v := by
    simp only [List.forall_mem_cons, List.not_mem_nil, false_implies, implies_true, and_true]
    exact ⟨⟨34, _, rfl, rfl, by decide⟩, 116, _, rfl, rfl, by decide⟩
  have isText : ∀ v ∈ [Json.renderText "c", Json.trueWord], Json.IsText v := by
    simp only [List.forall_mem_cons, List.not_mem_nil, false_implies, implies_true, and_true]
    exact ⟨⟨9, rfl⟩, 9, rfl⟩
  exact .object rfl (.here rfl rfl rfl) ⟨Octets.ofString "\x7b\"revoked\":", rfl⟩ rfl
    (Json.lists_joined isItem isText true [125])

theorem replicates_informed :
    let s := (ControlServer.start { adminSecret := some "s" } {}).after revocations
    let asking := bearing "s" "GET" "/api/v1/revoked" ""
    (∃ ids, readRevoked (s.answer asking).1.delivered = .ok ids ∧
      ⟨"7"⟩ ∈ ids ∧ ⟨"a"⟩ ∈ ids ∧ ⟨"b"⟩ ∉ ids ∧
      ⟨"7"⟩ ∈ (informed.sync (s.answer asking).1.delivered).2.revoked.ids) ∧
    ∃ fault, informed.sync (.ok spoiled) = (.error fault, informed) := by
  intro s asking
  obtain ⟨shown, taken, -, -, refused⟩ :=
    replicates (p := informed) rfl { adminSecret := some "s" } {} revocations
  have admitted : s.Admits asking.request .revoked := ⟨⟨rfl, rfl⟩, rfl⟩
  obtain ⟨ids, read, -, registered, -⟩ := shown asking admitted
  have revoked : s.revoked.ids = [⟨"7"⟩, ⟨"a"⟩] := by decide +kernel
  have members : ∀ id, id ∈ ids ↔ id = ⟨"7"⟩ ∨ id = ⟨"a"⟩ := by
    intro id
    rw [registered, ← ControlServer.mem_revoked_after_start, revoked]
    simp
  refine ⟨⟨ids, read, by simp [members], by simp [members], by simp [members], ?_⟩, ?_⟩
  · exact ((taken _ ids read).union ⟨"7"⟩).mpr (.inr (by simp [members]))
  · -- The word for true is no identifier.
    refine refused spoiled _ listsRevoked_spoiled ⟨Json.trueWord, by simp, fun id decoded => ?_⟩
    have undecodable : (Json.document TokenId.read Json.trueWord).toOption = none := by
      decide +kernel
    rw [decoded] at undecodable
    contradiction

end ProxyNode

end Tollgate
