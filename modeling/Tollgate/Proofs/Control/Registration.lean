import Mathlib.Data.List.TakeWhile
import Tollgate.Control.Endpoint
import Tollgate.Proofs.Base64
import Tollgate.Proofs.Key.KeySet
import Tollgate.Proofs.Octets

/-! # A registration on its way

A proxy sends its record as JSON, and gets a removal token as JSON, which it puts into the path of
another request.  The record is read as it was written (`ProxyServer.reads_render`), as far as its
coordinates are (`Binary64.ReadsBack`), and so is any token.

A token of random octets consists of symbols that stand for themselves in a path: it is a segment of
its own, and there is no percent sign in it.  So it is found again in that path
(`RemovalToken.travels_ofDraw`).
-/

namespace Tollgate

/-! ## The record -/

/-- Wherever a number stands as it is written, it is read as itself. -/
def Binary64.ReadsBack (x : Binary64) : Prop :=
  Json.Reads Json.readFloat (Json.Number.float x).render x

/-- It is enough that what is written is a number, and that it is this one. -/
theorem Binary64.readsBack_of_numeral {x : Binary64} {b : UInt8} {s : Octets}
    {numeral : Json.Numeral} (written : (Json.Number.float x).render = b :: s)
    (mark : (b = 45 || Octets.isDigit b) = true)
    (read : Json.readNumeral (b :: s) = .ok (numeral, []))
    (value : numeral.value? = some (.float x)) : x.ReadsBack := by
  rw [ReadsBack, written]
  exact (Json.reads_numeral rfl mark read value).judged rfl

namespace ProxyServer

theorem reads_render {s : ProxyServer} (latitude : s.latitude.ReadsBack)
    (longitude : s.longitude.ReadsBack) : Json.Reads read s.render s := by
  refine Json.Reads.record (show Json.Reads readObject _ s from fun n y enough stops => ?_)
  have truth : ∀ b, Json.Reads Json.readTruth (Json.renderBool b) b := fun b =>
    (Json.reads_renderBool b).judged rfl
  -- A member fills its place of a draft where that is still empty.
  have atUrl : ∀ d : Draft, d.proxyUrl = none → Json.Reads (fun n => readMember n d "proxyUrl")
      (Json.renderText s.proxyUrl) { d with proxyUrl := some s.proxyUrl } :=
    fun d empty => (Json.reads_readString s.proxyUrl).into.unlessSeen empty
  have atLatitude : ∀ d : Draft, d.latitude = none →
      Json.Reads (fun n => readMember n d "latitude") (Json.Number.float s.latitude).render
        { d with latitude := some s.latitude } :=
    fun d empty => latitude.into.unlessSeen empty
  have atLongitude : ∀ d : Draft, d.longitude = none →
      Json.Reads (fun n => readMember n d "longitude") (Json.Number.float s.longitude).render
        { d with longitude := some s.longitude } :=
    fun d empty => longitude.into.unlessSeen empty
  have atCity : ∀ d : Draft, d.city = none → Json.Reads (fun n => readMember n d "city")
      (Json.renderText s.city) { d with city := some s.city } :=
    fun d empty => (Json.reads_readString s.city).into.unlessSeen empty
  have atCountry : ∀ d : Draft, d.country = none → Json.Reads (fun n => readMember n d "country")
      (Json.renderText s.country) { d with country := some s.country } :=
    fun d empty => (Json.reads_readString s.country).into.unlessSeen empty
  have atTcp : ∀ d : Draft, d.supportsTcp = none →
      Json.Reads (fun n => readMember n d "supportsConnectTcp") (Json.renderBool s.supportsTcp)
        { d with supportsTcp := some s.supportsTcp } :=
    fun d empty => (truth s.supportsTcp).into.unlessSeen empty
  have atUdp : ∀ d : Draft, d.supportsUdp = none →
      Json.Reads (fun n => readMember n d "supportsConnectUdp") (Json.renderBool s.supportsUdp)
        { d with supportsUdp := some s.supportsUdp } :=
    fun d empty => (truth s.supportsUdp).into.unlessSeen empty
  have atIp : ∀ d : Draft, d.supportsIp = none →
      Json.Reads (fun n => readMember n d "supportsConnectIp") (Json.renderBool s.supportsIp)
        { d with supportsIp := some s.supportsIp } :=
    fun d empty => (truth s.supportsIp).into.unlessSeen empty
  have fills : Json.Fills readMember {} _ _ := .cons (atUrl _ rfl) (.cons (atLatitude _ rfl)
    (.cons (atLongitude _ rfl) (.cons (atCity _ rfl) (.cons (atCountry _ rfl) (.cons (atTcp _ rfl)
      (.cons (atUdp _ rfl) (.cons (atIp _ rfl) .nil)))))))
  have read := fills.reads n y enough stops
  simp only [readObject, Json.into, read]
  rfl

end ProxyServer

/-! ## The removal token -/

/-- The answer to a registration is read as the token that was given out. -/
theorem readRemovalToken_given (token : RemovalToken) :
    readRemovalToken
      (.ok ⟨200, Json.renderMembers [("revocationToken", Json.renderText token.text)]⟩) =
        .ok token := by
  have reads : Json.Reads (fun n => Json.into RemovalToken.mk (Json.readString n))
      (Json.renderText token.text) token := (Json.reads_readString token.text).into
  exact readDone_eq_ok_iff.mpr ⟨rfl, (reads_onlyMember reads).document⟩

/-- Without percent signs all octets stand for themselves. -/
theorem percentDecode_of_notMem {o : Octets} (absent : 37 ∉ o) : percentDecode o = o := by
  induction o with
  | nil => rfl
  | cons a rest ih =>
    obtain ⟨other, later⟩ : 37 ≠ a ∧ 37 ∉ rest := by simpa using absent
    match rest with
    | [] => rfl
    | [_] => rfl
    | b :: c :: rest => rw [percentDecode, if_neg (Ne.symm other), ih later]

/-- A path of octets that may stand in a path is a target of its own. -/
theorem Uri.ofOctets_path {path : String} {rest : Octets}
    (begins : Octets.ofString path = 47 :: rest)
    (allowed : ∀ b ∈ Octets.ofString path, isPathOctet b = true) :
    ofOctets (Octets.ofString path) = .ok ⟨none, path⟩ := by
  -- Neither a question mark nor a number sign may stand in a path.
  have noMark : ∀ b ∈ Octets.ofString path, (b ≠ 63 && b ≠ 35) = true := by
    intro b member
    have fits := allowed b member
    by_cases question : b = 63
    · subst question
      contradiction
    · by_cases fragment : b = 35
      · subst fragment
        contradiction
      · simp [question, fragment]
  have whole : (Octets.ofString path).takeWhile (fun b => b ≠ 63 && b ≠ 35) =
      Octets.ofString path := List.takeWhile_eq_self_iff.mpr noMark
  have present : path.isEmpty = false := by
    apply Bool.eq_false_iff.mpr
    intro empty
    obtain rfl : path = "" := by simpa using empty
    contradiction
  have found : pathOf (Octets.ofString path) = .ok path := by
    simp only [pathOf, whole, List.drop_length, List.all_nil, Bool.and_true, List.append_nil,
      List.all_eq_true.mpr allowed, if_true, Octets.toText?_ofString, present, Bool.false_eq_true,
      if_false]
  rw [begins] at found ⊢
  simp only [ofOctets, found]

namespace Endpoint

theorem afterStart?_append (start rest : List Char) :
    afterStart? start (start ++ rest) = some rest := by
  induction start with
  | nil => rfl
  | cons c start ih => simp [afterStart?, ih]

/-- A text that is one segment names a token, and no other endpoint has its path. -/
theorem ofPath?_removalPath {text : String} (nonempty : text ≠ "") (single : '/' ∉ text.toList) :
    ofPath? (removalPath ++ text) = some (.deregister text) := by
  have segment : removalSegment? (removalPath ++ text) = some text := by
    simp [removalSegment?, afterStart?_append, nonempty, single]
  unfold ofPath?
  split
  case h_9 => simp [segment]
  -- The other paths have no segment for a token.
  all_goals
    rename_i same
    rw [same] at segment
    cases segment

end Endpoint

namespace RemovalToken

/-- A symbol of a token stands for itself in a path, and does not end a segment. -/
theorem plain_of_mem_encode {draw : Octets} {b : UInt8}
    (member : b ∈ Base64.encode .urlSafe .required draw) :
    Uri.isPathOctet b = true ∧ b ≠ 37 ∧ b ≠ 47 := by
  have each : ∀ n : Fin 64, Uri.isPathOctet (Base64.Alphabet.urlSafe.symbol n) = true ∧
      Base64.Alphabet.urlSafe.symbol n ≠ 37 ∧ Base64.Alphabet.urlSafe.symbol n ≠ 47 := by decide
  rw [Base64.encode_eq] at member
  rcases List.mem_append.mp member with symbol | pad
  · obtain ⟨n, among, rfl⟩ := List.mem_map.mp symbol
    exact each ⟨n, Base64.sextets_lt draw n among⟩
  · obtain rfl := List.eq_of_mem_replicate pad
    decide

theorem ofString_ofDraw (draw : Octets) :
    Octets.ofString (ofDraw draw).text = Base64.encode .urlSafe .required draw := by
  have ascii : ∀ b ∈ Base64.encode .urlSafe .required draw, b < 128 := fun b =>
    Base64.lt_of_mem_encode
  rw [ofDraw, Octets.toTextLossy_of_ascii ascii, Octets.ofString_asciiText ascii]

/-- What is put into the path of a request is found in it again. -/
structure Travels (token : RemovalToken) : Prop where
  target : Uri.ofOctets (Octets.ofString (Question.deregister token).path) =
    .ok ⟨none, (Question.deregister token).path⟩
  endpoint : Endpoint.ofPath? (Question.deregister token).path = some (.deregister token.text)
  decoded : Octets.toText? (percentDecode (Octets.ofString token.text)) = some token.text

theorem travels_ofDraw {draw : Octets} (nonempty : draw ≠ []) : (ofDraw draw).Travels := by
  have octets := ofString_ofDraw draw
  have path : Octets.ofString (Question.deregister (ofDraw draw)).path =
      Octets.ofString Endpoint.removalPath ++ Base64.encode .urlSafe .required draw := by
    rw [← octets, ← Octets.ofString_append]
    rfl
  refine ⟨?_, ?_, ?_⟩
  · -- No octet of it has to be escaped.
    refine Uri.ofOctets_path (path.trans rfl) fun b member => ?_
    rw [path] at member
    rcases List.mem_append.mp member with start | symbol
    · have allowed : ∀ b ∈ Octets.ofString Endpoint.removalPath, Uri.isPathOctet b = true := by
        decide +kernel
      exact allowed b start
    · exact (plain_of_mem_encode symbol).1
  · -- Without a slash it is one segment.
    apply Endpoint.ofPath?_removalPath
    · intro empty
      rw [empty] at octets
      exact Base64.encode_ne_nil _ _ nonempty octets.symm
    · intro slash
      have member : 47 ∈ Octets.ofString (ofDraw draw).text := by
        rw [← String.ofList_toList (s := (ofDraw draw).text), Octets.ofString_ofList]
        exact List.mem_flatMap.mpr ⟨'/', slash, by decide⟩
      rw [octets] at member
      exact (plain_of_mem_encode member).2.2 rfl
  · -- Without a percent sign there is nothing to decode.
    have absent : 37 ∉ Octets.ofString (ofDraw draw).text := by
      rw [octets]
      exact fun member => (plain_of_mem_encode member).2.1 rfl
    rw [percentDecode_of_notMem absent, Octets.toText?_ofString]

end RemovalToken

end Tollgate
