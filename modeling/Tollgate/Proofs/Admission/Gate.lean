import Tollgate.Admission.Gate
import Tollgate.Proofs.Http.Readable
import Tollgate.Proofs.Key.Lookup
import Tollgate.Proofs.Token.Segments
import Tollgate.Proofs.Token.Verification

/-! # What passes the gate

The conditions under which the gate lets a request through, said without the order of its checks:

* `GateConfig.Presents`, `GateConfig.Carries` — the header holds the scheme and a token;
* `GateConfig.Trusts` — the token is unsigned and that is accepted, or it is signed under the key
  that its identifier leads to;
* `GateConfig.judge_eq_ok_iff` — the claims name the token, it is not revoked, and every wanted
  capability is among them;
* `GateConfig.authorize_eq_ok_iff` — all of it together, and what the gate hands on.
-/

namespace Tollgate

/-! ## Blanks -/

/-- A text without the blanks before and after it. -/
structure Trimmed (text inner : List Char) : Prop where
  split : ∃ before after, text = before ++ inner ++ after ∧
    (∀ c ∈ before, isBlank c = true) ∧ (∀ c ∈ after, isBlank c = true)
  first : ∀ c, inner.head? = some c → isBlank c = false
  last : ∀ c, inner.getLast? = some c → isBlank c = false

theorem head?_dropWhile {p : Char → Bool} {cs : List Char} {c : Char}
    (first : (cs.dropWhile p).head? = some c) : p c = false := by
  have unwanted := List.head?_dropWhile_not p cs
  rw [first] at unwanted
  simpa using unwanted

theorem dropWhile_append_of_start {p : Char → Bool} {before rest : List Char}
    (wanted : ∀ c ∈ before, p c = true) (first : ∀ c, rest.head? = some c → p c = false) :
    (before ++ rest).dropWhile p = rest := by
  rw [List.dropWhile_append_of_pos wanted]
  cases rest with
  | nil => rfl
  | cons c rest => simp [first c rfl]

theorem trimBlanks_append (text : List Char) :
    ∃ after, trimBlanks text ++ after = text.dropWhile isBlank ∧
      ∀ c ∈ after, isBlank c = true := by
  refine ⟨((text.dropWhile isBlank).reverse.takeWhile isBlank).reverse, ?_, ?_⟩
  · unfold trimBlanks
    rw [← List.reverse_append, List.takeWhile_append_dropWhile, List.reverse_reverse]
  · intro c member
    exact List.all_eq_true.mp List.all_takeWhile c (List.mem_reverse.mp member)

theorem trimmed_trimBlanks (text : List Char) : Trimmed text (trimBlanks text) := by
  obtain ⟨after, behind, blankAfter⟩ := trimBlanks_append text
  refine ⟨⟨text.takeWhile isBlank, after, ?_, ?_, blankAfter⟩, ?_, ?_⟩
  · rw [List.append_assoc, behind, List.takeWhile_append_dropWhile]
  · exact List.all_eq_true.mp List.all_takeWhile
  · intro c first
    -- What is left begins where the text after the blanks begins.
    have start : (text.dropWhile isBlank).head? = some c := by
      rw [← behind, List.head?_append, first, Option.some_or]
    exact head?_dropWhile start
  · intro c last
    unfold trimBlanks at last
    rw [List.getLast?_reverse] at last
    exact head?_dropWhile last

theorem Trimmed.trimBlanks_eq {text inner : List Char} (trimmed : Trimmed text inner) :
    trimBlanks text = inner := by
  obtain ⟨⟨before, after, rfl, blankBefore, blankAfter⟩, first, last⟩ := trimmed
  have blankBehind : ∀ c ∈ after.reverse, isBlank c = true :=
    fun c member => blankAfter c (List.mem_reverse.mp member)
  unfold trimBlanks
  cases inner with
  | nil =>
    have gone : (after ++ []).dropWhile isBlank = [] :=
      dropWhile_append_of_start blankAfter (by simp)
    rw [List.append_nil, List.dropWhile_append_of_pos blankBefore, ← List.append_nil after, gone]
    rfl
  | cons c rest =>
    have start : (before ++ (c :: rest) ++ after).dropWhile isBlank = c :: rest ++ after := by
      rw [List.append_assoc]
      exact dropWhile_append_of_start blankBefore first
    rw [start, List.reverse_append, dropWhile_append_of_start blankBehind, List.reverse_reverse]
    rwa [List.head?_reverse]

/-! ## The header -/

def IsTokenOctet (b : UInt8) : Prop := 33 ≤ b ∧ b ≤ 126

theorem IsTokenOctet.lt {b : UInt8} (visible : IsTokenOctet b) : b < 128 :=
  UInt8.lt_of_le_of_lt visible.2 (by decide)

namespace GateConfig

/-- The header holds a text: its first line is readable, what stands before the first space is the
    scheme, and the rest without blanks is that text, which is not empty. -/
def Presents (g : GateConfig) (h : Headers) (raw : String) : Prop :=
  ∃ value scheme rest, h.first? g.header = some value ∧
    readable? value = some (String.ofList (scheme ++ ' ' :: rest)) ∧ ' ' ∉ scheme ∧
    equalIgnoringCase (String.ofList scheme) g.scheme = true ∧
    Trimmed rest raw.toList ∧ raw.toList ≠ []

theorem splitAtSpace_iff (text scheme rest : List Char) :
    text.takeWhile (· ≠ ' ') = scheme ∧ text.dropWhile (· ≠ ' ') = ' ' :: rest ↔
      text = scheme ++ ' ' :: rest ∧ ' ' ∉ scheme := by
  constructor
  · rintro ⟨rfl, behind⟩
    refine ⟨?_, fun member => ?_⟩
    · rw [← behind, List.takeWhile_append_dropWhile]
    · have spaceless := List.all_eq_true.mp List.all_takeWhile ' ' member
      simp at spaceless
  · rintro ⟨rfl, absent⟩
    have spaceless : ∀ c ∈ scheme, decide (c ≠ ' ') = true := by
      intro c member
      simp only [ne_eq, decide_eq_true_eq]
      rintro rfl
      exact absent member
    rw [List.takeWhile_append_of_pos spaceless, List.dropWhile_append_of_pos spaceless]
    simp

theorem presents_of_extract {g : GateConfig} {h : Headers} {raw : String}
    (extracted : g.extract h = .ok raw) : g.Presents h raw := by
  unfold extract at extracted
  split at extracted
  · contradiction
  · next value first =>
    split at extracted
    · contradiction
    · next text readable =>
      split at extracted
      · contradiction
      · next space rest behind =>
        -- What is left behind the scheme begins with the space that ended it.
        obtain rfl : space = ' ' := by
          simpa using head?_dropWhile (congrArg List.head? behind)
        obtain ⟨whole, absent⟩ := (splitAtSpace_iff text.toList _ rest).mp ⟨rfl, behind⟩
        generalize text.toList.takeWhile (· ≠ ' ') = scheme at extracted whole absent
        by_cases sameScheme : equalIgnoringCase (String.ofList scheme) g.scheme = true
        · by_cases empty : trimBlanks rest = []
          · simp [sameScheme, empty] at extracted
          · simp only [sameScheme, Bool.not_true, Bool.false_eq_true, if_false, List.isEmpty_iff,
              empty, Except.ok.injEq] at extracted
            subst extracted
            refine ⟨value, scheme, rest, first, ?_, absent, sameScheme, ?_, ?_⟩
            · rw [readable, ← whole, String.ofList_toList]
            · rw [String.toList_ofList]
              exact trimmed_trimBlanks rest
            · rwa [String.toList_ofList]
        · simp [sameScheme] at extracted

theorem extract_of_presents {g : GateConfig} {h : Headers} {raw : String}
    (presents : g.Presents h raw) : g.extract h = .ok raw := by
  obtain ⟨value, scheme, rest, first, readable, absent, sameScheme, trimmed, nonempty⟩ := presents
  obtain ⟨before, behind⟩ := (splitAtSpace_iff _ scheme rest).mpr ⟨rfl, absent⟩
  have inner : trimBlanks rest = raw.toList := trimmed.trimBlanks_eq
  simp only [extract, first, readable, String.toList_ofList, before, behind, sameScheme, inner,
    Bool.not_true, Bool.false_eq_true, if_false, List.isEmpty_iff, nonempty, String.ofList_toList]

theorem extract_eq_ok_iff {g : GateConfig} {h : Headers} {raw : String} :
    g.extract h = .ok raw ↔ g.Presents h raw :=
  ⟨presents_of_extract, extract_of_presents⟩

/-- The gate looks for a token where clients put it unless they are told otherwise. -/
def UsesDefaultHeader (g : GateConfig) : Prop :=
  g.header = ({} : GateConfig).header ∧ g.scheme = ({} : GateConfig).scheme

def Bears (g : GateConfig) (h : Headers) (token : Octets) : Prop :=
  h.first? g.header = some (Octets.ofString "Bearer " ++ token)

theorem presents_of_bears {g : GateConfig} {h : Headers} {token : Octets}
    (defaults : g.UsesDefaultHeader) (bears : g.Bears h token) (nonempty : token ≠ [])
    (visible : ∀ b ∈ token, IsTokenOctet b) :
    g.Presents h (Octets.asciiText token) := by
  have ascii : ∀ b ∈ token, b < 128 := fun b member => (visible b member).lt
  have chars : (Octets.asciiText token).toList = token.map fun b => Char.ofNat b.toNat :=
    String.toList_ofList
  have solid : ∀ c ∈ (Octets.asciiText token).toList, isBlank c = false := by
    have each : ∀ n : Fin 127, 33 ≤ n.val → isBlank (Char.ofNat n.val) = false := by decide
    intro c member
    rw [chars] at member
    obtain ⟨b, among, rfl⟩ := List.mem_map.mp member
    obtain ⟨low, high⟩ := visible b among
    rw [UInt8.le_iff_toNat_le] at low high
    exact each ⟨b.toNat, Nat.lt_succ_of_le high⟩ low
  have text : String.ofList ("Bearer".toList ++ ' ' :: (Octets.asciiText token).toList) =
      "Bearer " ++ Octets.asciiText token := by
    rw [← String.toList_inj]
    simp
  -- The scheme is `Bearer`, there is no padding, and a token has no blank at either end.
  refine ⟨_, "Bearer".toList, (Octets.asciiText token).toList, bears, ?_, by decide, ?_,
    ⟨⟨[], [], by simp, by simp, by simp⟩, fun c first => ?_, fun c last => ?_⟩, ?_⟩
  · rw [text, readable?_eq_some_iff, Octets.ofString_append, Octets.ofString_asciiText ascii]
    refine ⟨rfl, fun b member => ?_⟩
    rcases List.mem_append.mp member with word | member
    · exact List.all_eq_true.mp (show (Octets.ofString "Bearer ").all isReadableOctet from by
        decide +kernel) b word
    · obtain ⟨low, high⟩ := visible b member
      have low : 32 ≤ b := UInt8.le_trans (by decide) low
      simp [isReadableOctet, low, high]
  · rw [defaults.2]
    decide
  · exact solid c (List.mem_of_mem_head? first)
  · exact solid c (List.mem_of_getLast? last)
  · rw [chars]
    simpa using nonempty

def Carries (g : GateConfig) (h : Headers) (token : UnverifiedToken) : Prop :=
  ∃ raw, g.Presents h raw ∧ UnverifiedToken.Written (Octets.ofString raw) token

def Shows (g : GateConfig) (h : Headers) (claims : Claims) : Prop :=
  ∃ token, g.Carries h token ∧ Claims.decode token.payload = .ok claims

def Names (g : GateConfig) (h : Headers) (id : TokenId) : Prop :=
  ∃ claims, g.Shows h claims ∧ claims.tokenId = some id

/-! ## The verdict -/

/-- The token may be believed: it says that it is unsigned and that is accepted, or it is signed
    under the key that its key identifier leads to. -/
def Trusts (g : GateConfig) (cache : KeyCache) (answer : KeyAnswer) (token : UnverifiedToken) :
    Prop :=
  (g.allowUnsigned = true ∧ equalIgnoringCase token.header.algorithm "none" = true) ∨
    ∃ id key, token.header.keyId = some id ∧ cache.Yields answer id key ∧ token.SignedUnder key

theorem judge_eq_ok_iff {g : GateConfig} {r : RevokedSet} {claims : Claims} {key : Option KeyId}
    {unsigned : Bool} {admitted : AuthorizedToken} :
    g.judge r claims key unsigned = .ok admitted ↔
      ∃ id, claims.tokenId = some id ∧ id ∉ r.ids ∧ (∀ c ∈ g.required, claims.Holds c) ∧
        admitted = ⟨id, key, claims, unsigned⟩ := by
  unfold judge
  cases named : claims.tokenId with
  | none => simp
  | some id =>
    by_cases revoked : id ∈ r.ids
    · simp [RevokedSet.isRevoked_iff.mpr revoked, revoked]
    · have unrevoked : r.isRevoked id = false :=
        Bool.eq_false_iff.mpr fun found => revoked (RevokedSet.isRevoked_iff.mp found)
      -- The first capability that is wanting decides.
      cases lacking : g.required.find? fun c => !claims.grants c with
      | some c =>
        have refused : ¬∀ c ∈ g.required, claims.Holds c := by
          intro all
          have granted := Claims.grants_iff.mpr (all c (List.mem_of_find?_eq_some lacking))
          simpa [granted] using List.find?_some lacking
        simp [unrevoked, refused]
      | none =>
        have all : ∀ c ∈ g.required, claims.Holds c := by
          intro c member
          simpa [Claims.grants_iff] using List.find?_eq_none.mp lacking c member
        simp only [unrevoked, Bool.false_eq_true, if_false, Except.ok.injEq, Option.some.injEq]
        constructor
        · rintro rfl
          exact ⟨id, rfl, revoked, all, rfl⟩
        · rintro ⟨_, rfl, -, -, rfl⟩
          rfl

theorem judge_eq_revoked_iff {g : GateConfig} {r : RevokedSet} {claims : Claims}
    {key : Option KeyId} {unsigned : Bool} :
    g.judge r claims key unsigned = .error .revoked ↔
      ∃ id, claims.tokenId = some id ∧ id ∈ r.ids := by
  unfold judge
  cases claims.tokenId with
  | none => simp
  | some id =>
    by_cases revoked : r.isRevoked id = true
    · simpa [revoked] using RevokedSet.isRevoked_iff.mp revoked
    · have unrevoked : id ∉ r.ids := fun member => revoked (RevokedSet.isRevoked_iff.mpr member)
      cases lacking : g.required.find? fun c => !claims.grants c <;> simp [revoked, unrevoked]

theorem judgeSigned_eq_ok_iff {g : GateConfig} {r : RevokedSet} {now : Instant}
    {token : UnverifiedToken} {id : KeyId} {resolution : Resolution}
    {admitted : AuthorizedToken} :
    g.judgeSigned r now token id resolution = .ok admitted ↔
      ∃ key claims, resolution = .ok key ∧ token.verify key now = .ok claims ∧
        g.judge r claims (some id) false = .ok admitted := by
  unfold judgeSigned
  cases resolution with
  | error fault => simp
  | ok key => cases verified : token.verify key now <;> simp [verified]

theorem carries_iff {g : GateConfig} {h : Headers} {token : UnverifiedToken} :
    g.Carries h token ↔
      ∃ raw, g.extract h = .ok raw ∧ UnverifiedToken.parse (Octets.ofString raw) = .ok token := by
  simp only [Carries, extract_eq_ok_iff, UnverifiedToken.parse_eq_ok_iff]

theorem Carries.unique {g : GateConfig} {h : Headers} {token token' : UnverifiedToken}
    (carried : g.Carries h token) (carried' : g.Carries h token') : token = token' := by
  obtain ⟨raw, extracted, parsed⟩ := carries_iff.mp carried
  obtain ⟨raw', extracted', parsed'⟩ := carries_iff.mp carried'
  obtain rfl : raw = raw' := Except.ok.inj (extracted.symm.trans extracted')
  exact Except.ok.inj (parsed.symm.trans parsed')

theorem Shows.unique {g : GateConfig} {h : Headers} {claims claims' : Claims}
    (shown : g.Shows h claims) (shown' : g.Shows h claims') : claims = claims' := by
  obtain ⟨token, carried, decoded⟩ := shown
  obtain ⟨token', carried', decoded'⟩ := shown'
  obtain rfl := carried.unique carried'
  exact Except.ok.inj (decoded.symm.trans decoded')

/-- What the gate makes of a token that can be taken apart, before it looks for a key. -/
theorem present_eq {g : GateConfig} {h : Headers} {token : UnverifiedToken}
    (carried : g.Carries h token) (now : Instant) :
    g.present h now =
      if (g.allowUnsigned && token.header.isUnsigned) = true then
        match token.unsignedClaims now with
        | .ok claims => .ok (.unsigned token claims)
        | .error fault => .error (.invalidToken (.rejected fault))
      else
        match token.header.keyId with
        | some id => .ok (.signed token id)
        | none => .error (.invalidToken .missingKeyId) := by
  obtain ⟨raw, extracted, parsed⟩ := carries_iff.mp carried
  cases bypass : g.allowUnsigned && token.header.isUnsigned with
  | true =>
    cases read : token.unsignedClaims now with
    | error fault => simp only [present, extracted, parsed, bypass, read, if_true]
    | ok claims => simp only [present, extracted, parsed, bypass, read, if_true]
  | false =>
    cases named : token.header.keyId with
    | none => simp only [present, extracted, parsed, bypass, named, Bool.false_eq_true, if_false]
    | some id => simp only [present, extracted, parsed, bypass, named, Bool.false_eq_true, if_false]

/-- Before the claims of a token count, nobody is told that it is revoked. -/
theorem present_ne_revoked (g : GateConfig) (h : Headers) (now : Instant) :
    g.present h now ≠ .error .revoked := by
  have extracted : ∀ refusal, g.extract h = .error refusal → refusal ≠ .revoked := by
    unfold extract
    grind
  intro refused
  unfold present at refused
  split at refused
  · next refusal unextracted =>
    cases refused
    exact extracted _ unextracted rfl
  · grind

theorem carries_of_present {g : GateConfig} {h : Headers} {now : Instant} {p : Presented}
    (presented : g.present h now = .ok p) : ∃ token, g.Carries h token := by
  unfold present at presented
  split at presented
  · contradiction
  · next raw extracted =>
    split at presented
    · contradiction
    · next token parsed => exact ⟨token, carries_iff.mpr ⟨raw, extracted, parsed⟩⟩

theorem present_eq_unsigned_iff {g : GateConfig} {h : Headers} {now : Instant}
    {token : UnverifiedToken} {claims : Claims} :
    g.present h now = .ok (.unsigned token claims) ↔
      g.Carries h token ∧ (g.allowUnsigned && token.header.isUnsigned) = true ∧
        token.unsignedClaims now = .ok claims := by
  constructor
  · intro presented
    obtain ⟨token', carried⟩ := carries_of_present presented
    rw [present_eq carried] at presented
    split at presented
    · next bypass =>
      split at presented
      · next claims' read =>
        cases presented
        exact ⟨carried, bypass, read⟩
      · contradiction
    · split at presented <;> cases presented
  · rintro ⟨carried, bypass, read⟩
    simp only [present_eq carried, bypass, if_true, read]

theorem present_eq_signed_iff {g : GateConfig} {h : Headers} {now : Instant}
    {token : UnverifiedToken} {id : KeyId} :
    g.present h now = .ok (.signed token id) ↔
      g.Carries h token ∧ (g.allowUnsigned && token.header.isUnsigned) = false ∧
        token.header.keyId = some id := by
  constructor
  · intro presented
    obtain ⟨token', carried⟩ := carries_of_present presented
    rw [present_eq carried] at presented
    split at presented
    · split at presented <;> cases presented
    · next noBypass =>
      split at presented
      · next id' named =>
        cases presented
        exact ⟨carried, Bool.eq_false_iff.mpr noBypass, named⟩
      · contradiction
  · rintro ⟨carried, noBypass, named⟩
    simp only [present_eq carried, noBypass, Bool.false_eq_true, if_false, named]

/-- A signed token is not taken for an unsigned one. -/
theorem present_of_signed {g : GateConfig} {h : Headers} {token : UnverifiedToken} {id : KeyId}
    {key : Rsa.PublicKey} (carried : g.Carries h token) (signed : token.SignedUnder key)
    (keyed : token.header.keyId = some id) (now : Instant) :
    g.present h now = .ok (.signed token id) := by
  obtain ⟨_, _, accepted, _⟩ := signed
  have noBypass : (g.allowUnsigned && token.header.isUnsigned) = false := by
    rw [TokenHeader.isUnsigned_eq_false accepted, Bool.and_false]
  exact present_eq_signed_iff.mpr ⟨carried, noBypass, keyed⟩

/-- With the key that a token was signed under, its claims are judged. -/
theorem authorize_of_signed {g : GateConfig} {h : Headers} {cache : KeyCache} {answer : KeyAnswer}
    {token : UnverifiedToken} {id : KeyId} {key : Rsa.PublicKey} (carried : g.Carries h token)
    (signed : token.SignedUnder key) (keyed : token.header.keyId = some id)
    (yields : cache.Yields answer id key) (r : RevokedSet) (now : Instant) :
    (g.authorize h cache r now answer).1 = g.judgeSigned r now token id (.ok key) := by
  simp only [authorize, present_of_signed carried signed keyed now,
    KeyCache.resolve_eq_ok_iff.mpr yields]

/-- Keys that are not fetched do not matter. -/
theorem authorize_of_unfetched {g : GateConfig} {h : Headers} {cache : KeyCache}
    {r : RevokedSet} {now : Instant} {answer : KeyAnswer}
    (unfetched : (g.authorize h cache r now answer).2.2 = false) (other : KeyAnswer) :
    g.authorize h cache r now other = g.authorize h cache r now answer := by
  unfold authorize at unfetched ⊢
  cases presented : g.present h now with
  | error refusal => rfl
  | ok shown =>
    cases shown with
    | unsigned token claims => rfl
    | signed token key =>
      simp only [presented, KeyCache.resolve_eq] at unfetched ⊢
      cases cached : Sorted.find? key cache.value with
      | some k => rfl
      | none => simp [cached] at unfetched

/-- The gate lets a request through exactly if its header carries a token that may be believed,
    whose claims decode and are still valid, which has a name that is not revoked, and which holds
    every required capability.  It hands on the claims, the name and the key identifier of that
    token, and whether it went without a signature. -/
theorem authorize_eq_ok_iff (g : GateConfig) (h : Headers) (cache : KeyCache) (r : RevokedSet)
    (now : Instant) (answer : KeyAnswer) (admitted : AuthorizedToken) :
    (g.authorize h cache r now answer).1 = .ok admitted ↔
      ∃ token claims id, g.Carries h token ∧ g.Trusts cache answer token ∧
        Claims.decode token.payload = .ok claims ∧ now.seconds < claims.expires ∧
        claims.tokenId = some id ∧ id ∉ r.ids ∧ (∀ c ∈ g.required, claims.Holds c) ∧
        admitted = ⟨id, token.header.keyId, claims,
          g.allowUnsigned && token.header.isUnsigned⟩ := by
  constructor
  · intro accepted
    unfold authorize at accepted
    split at accepted
    · contradiction
    · next token claims presented =>
      obtain ⟨carried, bypass, read⟩ := present_eq_unsigned_iff.mp presented
      obtain ⟨unsigned, lasting⟩ := UnverifiedToken.unsignedClaims_eq_ok_iff.mp read
      obtain ⟨decoded, unexpired⟩ := UnverifiedToken.unexpiredClaims_eq_ok_iff.mp lasting
      obtain ⟨id, named, unrevoked, held, same⟩ := judge_eq_ok_iff.mp accepted
      have allowed : g.allowUnsigned = true := (Bool.and_eq_true_iff.mp bypass).1
      exact ⟨token, claims, id, carried, .inl ⟨allowed, unsigned⟩, decoded, unexpired, named,
        unrevoked, held, by rw [same, bypass]⟩
    · next token keyId presented =>
      obtain ⟨carried, noBypass, keyed⟩ := present_eq_signed_iff.mp presented
      obtain ⟨key, claims, resolved, verified, judged⟩ := judgeSigned_eq_ok_iff.mp accepted
      obtain ⟨signed, lasting⟩ := UnverifiedToken.verify_eq_ok_iff.mp verified
      obtain ⟨decoded, unexpired⟩ := UnverifiedToken.unexpiredClaims_eq_ok_iff.mp lasting
      obtain ⟨id, named, unrevoked, held, same⟩ := judge_eq_ok_iff.mp judged
      have yielded := KeyCache.resolve_eq_ok_iff.mp resolved
      exact ⟨token, claims, id, carried, .inr ⟨keyId, key, keyed, yielded, signed⟩, decoded,
        unexpired, named, unrevoked, held, by rw [same, noBypass, keyed]⟩
  · rintro ⟨token, claims, id, carried, trusted, decoded, unexpired, named, unrevoked, held, rfl⟩
    have lasting := UnverifiedToken.unexpiredClaims_eq_ok_iff.mpr ⟨decoded, unexpired⟩
    rcases trusted with ⟨allowed, unsigned⟩ | ⟨keyId, key, keyed, yielded, signed⟩
    · have bypass : (g.allowUnsigned && token.header.isUnsigned) = true :=
        Bool.and_eq_true_iff.mpr ⟨allowed, unsigned⟩
      have read := UnverifiedToken.unsignedClaims_eq_ok_iff.mpr ⟨unsigned, lasting⟩
      rw [authorize, present_eq_unsigned_iff.mpr ⟨carried, bypass, read⟩, bypass]
      exact judge_eq_ok_iff.mpr ⟨id, named, unrevoked, held, rfl⟩
    · have ⟨_, _, accepted, _⟩ := signed
      -- Whatever is signed is not unsigned, so the bypass does not open for it.
      have noBypass : (g.allowUnsigned && token.header.isUnsigned) = false := by
        rw [TokenHeader.isUnsigned_eq_false accepted, Bool.and_false]
      have resolved := KeyCache.resolve_eq_ok_iff.mpr yielded
      have verified := UnverifiedToken.verify_eq_ok_iff.mpr ⟨signed, lasting⟩
      rw [authorize, present_eq_signed_iff.mpr ⟨carried, noBypass, keyed⟩, noBypass, keyed]
      refine judgeSigned_eq_ok_iff.mpr ⟨key, claims, resolved, verified, ?_⟩
      exact judge_eq_ok_iff.mpr ⟨id, named, unrevoked, held, rfl⟩

theorem exists_ok_of_bind {ε α β : Type} {x : Except ε α} {f : α → Except ε β} {b : β}
    (some : (x.bind f).toOption = some b) : ∃ a, x = .ok a ∧ (f a).toOption = .some b := by
  cases x with
  | error e => simp [Except.bind, Except.toOption] at some
  | ok a => exact ⟨a, rfl, some⟩

theorem exists_ok_of_map {ε α β : Type} {x : Except ε α} {f : α → β} {b : β}
    (some : (x.map f).toOption = some b) : ∃ a, x = .ok a ∧ f a = b := by
  cases x with
  | error e => simp [Except.map, Except.toOption] at some
  | ok a => exact ⟨a, rfl, Option.some.inj some⟩

/-- A token of the name `t`, valid until the year 2100 and signed under the key `k`. -/
def sampleToken : Octets :=
  Octets.ofString (
    "eyJ0eXAiOiJKV1QiLCJhbGciOiJSUzI1NiIsImtpZCI6ImsifQ." ++
    "eyJpc3MiOiJhIiwiZXhwIjo0MTAyNDQ0ODAwLCJqdGkiOiJ0Iiwia2lkIjoiayIsImNvbm5lY3QtdGNwIjp0cnVlfQ." ++
    "pYTknA7uT6e66T2oxss0cAkG-KVEZcG_PgAnDc0ZV8Y-pzrGy39cptSd13Pc-uc-qKMolUteGXRiziC_FicyOAPlaz" ++
    "_BOR2Chs_Qp7DeZ6pzhIDFBn3wqhMLySrGwN0tYpYVXIUPDvGOnWvO7zq09CLpe_-wBo-jiJMb99Crin_Ndm1aUK4G" ++
    "-x4CA8XbM1_x7BvWpMqNkd9gxzp6qvhyVlbFUUoIWLlLBOy1-RIipHdEV1peyw9K7_f7vaVB6fnebR4ic73QkT52ds" ++
    "oH233xu2b92vF8SCxlCHFdhQbB_3B3XDjPRWjuSaHCbmUGlkPwEUc7SmSZRvL8mTaaSRNm_g")

def samplePublicKey : Rsa.PublicKey := ⟨(3931 * 2 ^ 1012 + 1) * (7547 * 2 ^ 1011 + 1), 65537⟩

theorem authorize_sampleToken : ∃ claims,
    claims.Holds .connectTcp ∧
    (({} : GateConfig).authorize
      [("proxy-authorization", Octets.ofString "Bearer " ++ sampleToken)]
      (.fresh [(⟨"k"⟩, samplePublicKey)]) .empty (.ofSeconds 0) (.error (.unavailable ""))).1 =
        .ok ⟨⟨"t"⟩, some ⟨"k"⟩, claims, false⟩ := by
  have ⟨nonempty, visible⟩ : sampleToken ≠ [] ∧ ∀ b ∈ sampleToken, 33 ≤ b ∧ b ≤ 126 := by
    decide +kernel
  have visible : ∀ b ∈ sampleToken, IsTokenOctet b := visible
  have ascii : ∀ b ∈ sampleToken, b < 128 := fun b member => (visible b member).lt
  have bears : ({} : GateConfig).Bears
      [("proxy-authorization", Octets.ofString "Bearer " ++ sampleToken)] sampleToken := rfl
  have presents := presents_of_bears ⟨rfl, rfl⟩ bears nonempty visible
  -- Only the octets of the token are evaluated; the gate is taken apart by its lemmas.
  have verifies : ((UnverifiedToken.parse sampleToken).bind fun token =>
      (token.verify samplePublicKey (.ofSeconds 0)).map fun claims =>
        (token.header.keyId, claims.tokenId, claims.grants .connectTcp)).toOption =
      some (some ⟨"k"⟩, some ⟨"t"⟩, true) := by decide +kernel
  obtain ⟨token, parsed, mapped⟩ := exists_ok_of_bind verifies
  obtain ⟨claims, verified, same⟩ := exists_ok_of_map mapped
  simp only [Prod.mk.injEq] at same
  obtain ⟨keyed, named, granted⟩ := same
  obtain ⟨signed, lasting⟩ := UnverifiedToken.verify_eq_ok_iff.mp verified
  obtain ⟨decoded, unexpired⟩ := UnverifiedToken.unexpiredClaims_eq_ok_iff.mp lasting
  have carried := carries_iff.mpr ⟨_, extract_of_presents presents,
    (Octets.ofString_asciiText ascii).symm ▸ parsed⟩
  have held : claims.Holds .connectTcp := Claims.grants_iff.mp granted
  refine ⟨claims, held, (authorize_eq_ok_iff _ _ _ _ _ _ _).mpr ⟨token, claims, ⟨"t"⟩, carried,
    .inr ⟨⟨"k"⟩, samplePublicKey, keyed, .inl rfl, signed⟩, decoded, unexpired, named, nofun,
    fun capability wanted => ?_, by rw [keyed]; rfl⟩⟩
  obtain rfl := List.mem_singleton.mp wanted
  exact held

end GateConfig

end Tollgate
