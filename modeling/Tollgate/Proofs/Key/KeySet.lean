import Tollgate.Control.Client
import Tollgate.Control.Server
import Tollgate.Proofs.Json.Loops
import Tollgate.Proofs.Token.Identifier

/-! # A key set on its way

The control server writes the published keys as one JSON text, and whoever asks for them reads that
text.  The records come out as they went in (`readKeys_listing`) if each of them is `Readable`: it
has a name, as an empty name is refused, and its end is an integer of 64 bits.
-/

namespace Tollgate

namespace PublishedKey

/-- What a record needs to be read as it was written. -/
structure Readable (k : PublishedKey) : Prop where
  named : k.keyId.text ≠ ""
  notBefore : -twoTo 63 ≤ k.expires
  notAfter : k.expires < twoTo 63

theorem reads_render {k : PublishedKey} (readable : k.Readable) : Json.Reads read k.render k := by
  refine Json.Reads.record (show Json.Reads readObject _ k from fun n y enough stops => ?_)
  -- Each member fills one more place of the draft.
  have kind : Json.Reads (fun n => readMember n {} "kty") (Json.renderText k.kind)
      { kind := some k.kind } := (Json.reads_readString k.kind).into.unlessSeen rfl
  have encoded : Json.Reads (fun n => readMember n { kind := some k.kind } "k")
      (Json.renderText k.encoded) { kind := some k.kind, encoded := some k.encoded } :=
    (Json.reads_readString k.encoded).into.unlessSeen rfl
  have keyId : Json.Reads
      (fun n => readMember n { kind := some k.kind, encoded := some k.encoded } "kid")
      k.keyId.render ⟨some k.kind, some k.encoded, some k.keyId, none⟩ :=
    (KeyId.reads_render readable.named).into.unlessSeen rfl
  have expires : Json.Reads
      (fun n => readMember n ⟨some k.kind, some k.encoded, some k.keyId, none⟩ "expiresAt")
      (Json.renderInt k.expires) ⟨some k.kind, some k.encoded, some k.keyId, some k.expires⟩ :=
    (Json.reads_readInt64 readable.notBefore readable.notAfter).into.unlessSeen rfl
  have fills : Json.Fills readMember {} _ _ := .cons kind (.cons encoded (.cons keyId
    (.cons expires .nil)))
  have read := fills.reads n y enough stops
  simp only [readObject, read]
  rfl

theorem isItem_render (k : PublishedKey) : Json.IsItem k.render :=
  ⟨123, _, rfl, rfl, by decide⟩

end PublishedKey

/-- How a record whose only known member has a given name reads its members. -/
def onlyMember {α : Type} (name : String) (reader : Nat → Json.Reader α) (n : Nat) (seen : Option α)
    (found : String) : Json.Reader (Option α) :=
  if found = name then Json.unlessSeen seen name (Json.into some (reader n))
  else Json.ignore seen n

theorem reads_onlyMember {α : Type} {name record : String} {reader : Nat → Json.Reader α}
    {v : Octets} {a : α} (reads : Json.Reads reader v a) :
    Json.Reads (readOnlyMember name record reader) (Json.renderMembers [(name, v)]) a := by
  have only : Json.Reads (fun n => onlyMember name reader n none name) v (some a) := by
    simp only [onlyMember, if_true]
    exact reads.into.unlessSeen rfl
  have fills : Json.Fills (onlyMember name reader) none [(name, v)] (some a) := .cons only .nil
  refine Json.Reads.record fun n y enough stops => ?_
  have read := fills.reads n y enough stops
  unfold onlyMember at read
  simp only [read]
  rfl

/-- Where a record whose only known member has a given name was read from an object, the members of
    that object were read. -/
theorem members_of_readOnlyMember {α : Type} {name record : String} {reader : Nat → Json.Reader α}
    {n : Nat} {s t rest : Octets} {a : α} (opened : Json.skipBlanks s = 123 :: t)
    (read : readOnlyMember name record reader n s = .ok (a, rest)) :
    ∃ last, Json.members (onlyMember name reader n) n true none t = .ok (last, rest) := by
  rw [readOnlyMember, Json.readRecord_of_object _ opened] at read
  change (Json.members (onlyMember name reader n) n true none t >>= fun found =>
    Json.require found.1 name >>= fun value => pure (value, found.2)) = _ at read
  cases members : Json.members (onlyMember name reader n) n true none t with
  | error fault =>
    rw [members] at read
    contradiction
  | ok found =>
    obtain ⟨last, w⟩ := found
    rw [members] at read
    cases required : Json.require last name with
    | error fault => simp [bind, Except.bind, required] at read
    | ok value =>
      simp only [bind, Except.bind, required, pure, Except.pure, Except.ok.injEq,
        Prod.mk.injEq] at read
      exact ⟨last, by rw [read.2]⟩

theorem readDone_eq_ok_iff {α : Type} {reader : Nat → Json.Reader α} {d : Delivery} {a : α} :
    readDone reader (.ok d) = .ok a ↔
      d.isSuccess = true ∧ Json.document reader d.body = .ok a := by
  unfold readDone doneBody
  by_cases done : d.isSuccess = true
  · cases read : Json.document reader d.body <;> simp [done, read]
  · simp [done]

/-- The published keys are read as they were written. -/
theorem readKeys_listing {keys : List PublishedKey} (readable : ∀ k ∈ keys, k.Readable) :
    readKeys (.ok ⟨200, ControlServer.listing "keys" (keys.map PublishedKey.render)⟩) =
      .ok keys := by
  have items : Json.Reads (fun n => Json.readList (PublishedKey.read n) n)
      (Json.renderItems (keys.map PublishedKey.render)) keys :=
    Json.reads_renderItems (fun k member => PublishedKey.reads_render (readable k member))
      fun k _ => k.isItem_render
  exact readDone_eq_ok_iff.mpr ⟨rfl, (reads_onlyMember items).document⟩

/-- Asked over HTTP, the control server is the source that its authority is. -/
theorem keyAnswer_listing {keys : List PublishedKey} (readable : ∀ k ∈ keys, k.Readable) :
    keyAnswer (.ok ⟨200, ControlServer.listing "keys" (keys.map PublishedKey.render)⟩) =
      .ok (keyMap keys) := by
  simp only [keyAnswer, readKeys_listing readable]

end Tollgate
