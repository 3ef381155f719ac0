import Tollgate.Proofs.Admission.Gate
import Tollgate.Proofs.Key.Lookup
import Tollgate.Proxy.Node

/-! # Admissions at the same time

An admission is not done at once: while a key is looked up for its token, others are admitted and
tokens are revoked.  `AdmissionRun` cuts `GateConfig.authorize` where somebody else can have a turn:
the request is presented, the lookup of its key goes through its own moves, the token is verified,
and at last its claims are checked against the revoked tokens.  A move is undivided because what it
reads and writes of the cache and of the revoked tokens stands under one lock.  `run_alone` shows
that an admission that nobody interrupts is the one of `GateConfig.authorize`.

As for lookups, `AdmissionRun.Change` lists everything that a move can do, and later proofs take a
move apart by its cases.
-/

namespace Tollgate

/-! ## Revocations -/

/-- A change of the revoked tokens: one identifier, several, or what the control server lists. -/
inductive Revocation where
  | revoke (id : TokenId)
  | extend (ids : List TokenId)
  | sync (transport : Transport)

namespace Revocation

def ids : Revocation → List TokenId
  | .revoke id => [id]
  | .extend ids => ids
  | .sync transport =>
    match readRevoked transport with
    | .ok ids => ids
    | .error _ => []

def apply (r : RevokedSet) : Revocation → RevokedSet
  | .revoke id => (r.revoke id).2
  | .extend ids => (r.extend ids).2
  | .sync transport =>
    match readRevoked transport with
    | .ok ids => (r.extend ids).2
    | .error _ => r

theorem mem_apply {r : RevokedSet} {v : Revocation} {id : TokenId} :
    id ∈ (v.apply r).ids ↔ id ∈ v.ids ∨ id ∈ r.ids := by
  cases v with
  | revoke id' => simp [apply, ids, RevokedSet.mem_revoke]
  | extend ids' => simp [apply, ids, RevokedSet.mem_extend]
  | sync transport =>
    cases read : readRevoked transport with
    | ok ids' => simp [apply, ids, read, RevokedSet.mem_extend]
    | error fault => simp [apply, ids, read]

/-- A proxy takes over what its control server lists. -/
theorem apply_sync {p : ProxyNode} {link : ControlLink} (controlled : p.config.control = some link)
    (transport : Transport) :
    (Revocation.sync transport).apply p.revoked = (p.sync transport).2.revoked := by
  cases read : readRevoked transport with
  | ok ids => simp [apply, ProxyNode.sync, controlled, read]
  | error fault => simp [apply, ProxyNode.sync, controlled, read]

/-- A request to the revocation route revokes the identifier in its body, or nothing. -/
theorem apply_route (r : RevokedSet) (request : Request) :
    (Tollgate.revoke r request).2 = r ∨
      ∃ id, (Tollgate.revoke r request).2 = (Revocation.revoke id).apply r := by
  unfold Tollgate.revoke
  split
  · exact .inl rfl
  · exact .inl rfl
  · next id _ => exact .inr ⟨id, rfl⟩

end Revocation

/-! ## The run -/

inductive AdmissionStage where
  | arrived
  | resolving (token : UnverifiedToken) (key : KeyId) (lookup : Nat)
  /-- The claims count, unless their token is revoked. -/
  | checking (claims : Claims) (key : Option KeyId) (unsigned : Bool)
  | done (verdict : Except Refusal AuthorizedToken)

namespace AdmissionStage

def ofResolution (token : UnverifiedToken) (key : KeyId) (now : Instant) :
    Resolution → AdmissionStage
  | .error fault => .done (.error (.keyNotFound fault))
  | .ok k =>
    match token.verify k now with
    | .error fault => .done (.error (.invalidToken (.rejected fault)))
    | .ok claims => .checking claims (some key) false

/-- What is known of an admission on its way: the token, then the claims, are those that the
    header of its request shows. -/
def Genuine (g : GateConfig) (h : Headers) : AdmissionStage → Prop
  | .resolving token _ _ => g.Carries h token
  | .checking claims _ _ => g.Shows h claims
  | _ => True

/-- A token in the header, once verified, gives the claims that the header shows. -/
theorem genuine_ofResolution {g : GateConfig} {h : Headers} {token : UnverifiedToken}
    (carried : g.Carries h token) (key : KeyId) (now : Instant) (resolution : Resolution) :
    (ofResolution token key now resolution).Genuine g h := by
  unfold ofResolution
  split
  · trivial
  · next k =>
    cases verified : token.verify k now with
    | error fault => trivial
    | ok claims =>
      obtain ⟨_, lasting⟩ := UnverifiedToken.verify_eq_ok_iff.mp verified
      exact ⟨token, carried, (UnverifiedToken.unexpiredClaims_eq_ok_iff.mp lasting).1⟩

/-- No verdict that lets a request through or calls its token revoked comes from a lookup. -/
theorem ofResolution_done {token : UnverifiedToken} {key : KeyId} {now : Instant}
    {resolution : Resolution} {verdict : Except Refusal AuthorizedToken}
    (finished : ofResolution token key now resolution = .done verdict) :
    ∃ refusal, verdict = .error refusal ∧ refusal ≠ .revoked := by
  unfold ofResolution at finished
  split at finished
  · cases finished
    exact ⟨_, rfl, by simp⟩
  · split at finished
    · cases finished
      exact ⟨_, rfl, by simp⟩
    · cases finished

end AdmissionStage

structure Admission where
  headers : Headers
  stage : AdmissionStage := .arrived

/-- Admissions under way at one gate, with the lookups that they made. -/
structure AdmissionRun where
  gate : GateConfig
  lookups : LookupRun
  revoked : RevokedSet
  admissions : List Admission

inductive AdmissionMove where
  | present (index : Nat) (now : Instant)
  | lookup (move : LookupMove)
  | verify (index : Nat) (now : Instant)
  | check (index : Nat)
  | revoke (revocation : Revocation)

def LookupRun.join (r : LookupRun) (key : KeyId) : LookupRun :=
  { r with lookups := r.lookups ++ [{ key }] }

namespace AdmissionRun

def setStage (r : AdmissionRun) (index : Nat) (stage : AdmissionStage) : AdmissionRun :=
  { r with admissions := r.admissions.modify index fun a => { a with stage } }

def step (r : AdmissionRun) : AdmissionMove → Option AdmissionRun
  | .present i now =>
    match r.admissions[i]? with
    | some ⟨h, .arrived⟩ =>
      match r.gate.present h now with
      | .error refusal => some (r.setStage i (.done (.error refusal)))
      | .ok (.unsigned token claims) =>
        some (r.setStage i (.checking claims token.header.keyId true))
      | .ok (.signed token key) =>
        some { r.setStage i (.resolving token key r.lookups.lookups.length) with
          lookups := r.lookups.join key }
    | _ => none
  | .lookup m => (r.lookups.step m).map fun lookups => { r with lookups }
  | .verify i now =>
    match r.admissions[i]? with
    | some ⟨_, .resolving token key l⟩ =>
      match r.lookups.lookups[l]? with
      | some ⟨_, .done resolution⟩ =>
        some (r.setStage i (.ofResolution token key now resolution))
      | _ => none
    | _ => none
  | .check i =>
    match r.admissions[i]? with
    | some ⟨_, .checking claims key unsigned⟩ =>
      some (r.setStage i (.done (r.gate.judge r.revoked claims key unsigned)))
    | _ => none
  | .revoke v => some { r with revoked := v.apply r.revoked }

def advance (r : AdmissionRun) (m : AdmissionMove) : AdmissionRun := (r.step m).getD r

def start (gate : GateConfig) (cache : KeyCache) (revoked : RevokedSet)
    (requests : List Headers) : AdmissionRun :=
  { gate, lookups := { cache, lookups := [] }, revoked
    admissions := requests.map fun headers => { headers } }

/-! ## An admission that nobody interrupts -/

theorem advance_lookup (r : AdmissionRun) (m : LookupMove) :
    r.advance (.lookup m) = { r with lookups := r.lookups.advance m } := by
  cases made : r.lookups.step m with
  | none => simp [advance, step, LookupRun.advance, made]
  | some lookups => simp [advance, step, LookupRun.advance, made]

/-- The moves of the only admission of a run: the lookup of its key has all its moves at once. -/
def aloneMoves (now : Instant) (answer : KeyAnswer) : List AdmissionMove :=
  [.present 0 now, .lookup (.glance 0), .lookup (.turn 0), .lookup (.delivered answer),
    .verify 0 now, .check 0]

theorem run_alone (g : GateConfig) (h : Headers) (cache : KeyCache) (r : RevokedSet)
    (now : Instant) (answer : KeyAnswer) :
    let run := (aloneMoves now answer).foldl advance (start g cache r [h])
    run.admissions[0]? = some ⟨h, .done (g.authorize h cache r now answer).1⟩ ∧
      run.lookups.cache = (g.authorize h cache r now answer).2.1 ∧ run.revoked = r := by
  intro run
  cases presented : g.present h now with
  | error refusal =>
    simp [run, aloneMoves, start, advance, step, presented, setStage, LookupRun.step,
      GateConfig.authorize]
  | ok p =>
    cases p with
    | unsigned token claims =>
      simp [run, aloneMoves, start, advance, step, presented, setStage, LookupRun.step,
        GateConfig.authorize]
    | signed token key =>
      -- The lookup goes first, as a run of its own; its result decides the other moves.
      obtain ⟨resolved, cached⟩ := LookupRun.run_alone cache key answer
      simp only [LookupRun.run, List.foldl_cons, List.foldl_nil] at resolved cached
      simp only [run, aloneMoves, List.foldl_cons, List.foldl_nil, advance_lookup]
      cases resolution : (cache.resolve key answer).1 with
      | error fault =>
        simp [start, advance, step, presented, setStage, LookupRun.join, resolved, cached,
          resolution, AdmissionStage.ofResolution, GateConfig.authorize, GateConfig.judgeSigned]
      | ok k =>
        cases verified : token.verify k now with
        | error fault =>
          simp [start, advance, step, presented, setStage, LookupRun.join, resolved, cached,
            resolution, verified, AdmissionStage.ofResolution, GateConfig.authorize,
            GateConfig.judgeSigned]
        | ok claims =>
          simp [start, advance, step, presented, setStage, LookupRun.join, resolved, cached,
            resolution, verified, AdmissionStage.ofResolution, GateConfig.authorize,
            GateConfig.judgeSigned]

/-! ## The changes of a run -/

inductive Change (r : AdmissionRun) : AdmissionMove → AdmissionRun → Prop
  | refuse {i now h refusal} (present : r.admissions[i]? = some ⟨h, .arrived⟩)
      (presented : r.gate.present h now = .error refusal) :
      Change r (.present i now) (r.setStage i (.done (.error refusal)))
  | waive {i now h token claims} (present : r.admissions[i]? = some ⟨h, .arrived⟩)
      (presented : r.gate.present h now = .ok (.unsigned token claims)) :
      Change r (.present i now) (r.setStage i (.checking claims token.header.keyId true))
  | seek {i now h token key} (present : r.admissions[i]? = some ⟨h, .arrived⟩)
      (presented : r.gate.present h now = .ok (.signed token key)) :
      Change r (.present i now)
        { r.setStage i (.resolving token key r.lookups.lookups.length) with
          lookups := r.lookups.join key }
  | lookup {m lookups} (change : r.lookups.Change m lookups) :
      Change r (.lookup m) { r with lookups }
  | verify {i now h token key l id resolution}
      (present : r.admissions[i]? = some ⟨h, .resolving token key l⟩)
      (resolved : r.lookups.lookups[l]? = some ⟨id, .done resolution⟩) :
      Change r (.verify i now) (r.setStage i (.ofResolution token key now resolution))
  | check {i h claims key unsigned}
      (present : r.admissions[i]? = some ⟨h, .checking claims key unsigned⟩) :
      Change r (.check i) (r.setStage i (.done (r.gate.judge r.revoked claims key unsigned)))
  | revoke {v} : Change r (.revoke v) { r with revoked := v.apply r.revoked }

theorem change_of_step {r r' : AdmissionRun} {m : AdmissionMove} (made : r.step m = some r') :
    r.Change m r' := by
  cases m with
  | present i now =>
    simp only [step] at made
    split at made
    · next h present =>
      split at made
      · next refusal presented =>
        cases made
        exact .refuse present presented
      · next token claims presented =>
        cases made
        exact .waive present presented
      · next token key presented =>
        cases made
        exact .seek present presented
    · contradiction
  | lookup m =>
    simp only [step, Option.map_eq_some_iff] at made
    obtain ⟨lookups, moved, rfl⟩ := made
    exact .lookup (LookupRun.change_of_step moved)
  | verify i now =>
    simp only [step] at made
    split at made
    · next token key l present =>
      split at made
      · next resolution resolved =>
        cases made
        exact .verify present resolved
      · contradiction
    · contradiction
  | check i =>
    simp only [step] at made
    split at made
    · next claims key unsigned present =>
      cases made
      exact .check present
    · contradiction
  | revoke v =>
    cases made
    exact .revoke

theorem step_of_change {r r' : AdmissionRun} {m : AdmissionMove} (change : r.Change m r') :
    r.step m = some r' := by
  cases change with
  | refuse present presented => simp [step, present, presented]
  | waive present presented => simp [step, present, presented]
  | seek present presented => simp [step, present, presented]
  | lookup change => simp [step, LookupRun.step_of_change change]
  | verify present resolved => simp [step, present, resolved]
  | check present => simp [step, present]
  | revoke => rfl

/-- The functional step and the list of changes agree. -/
theorem step_eq_some_iff {r r' : AdmissionRun} {m : AdmissionMove} :
    r.step m = some r' ↔ r.Change m r' :=
  ⟨change_of_step, step_of_change⟩

theorem change_or_advance_eq (r : AdmissionRun) (m : AdmissionMove) :
    r.Change m (r.advance m) ∨ r.advance m = r := by
  unfold advance
  cases made : r.step m with
  | none => exact .inr rfl
  | some r' => exact .inl (change_of_step made)

/-- Only revocations change what is revoked, and they take nothing back. -/
theorem mem_revoked_advance {r : AdmissionRun} {m : AdmissionMove} {id : TokenId} :
    id ∈ (r.advance m).revoked.ids ↔
      (∃ v, m = .revoke v ∧ id ∈ v.ids) ∨ id ∈ r.revoked.ids := by
  obtain change | same := r.change_or_advance_eq m
  · generalize r.advance m = r' at change
    cases change with
    | revoke => simp [Revocation.mem_apply]
    | _ => simp [setStage]
  · -- A revocation can always be made, so that this is only left for the other moves.
    cases m with
    | revoke v => simp [advance, step, Revocation.mem_apply]
    | _ => simp [same]

/-! ## What a change does to one admission -/

theorem of_getElem?_setStage {r : AdmissionRun} {i j : Nat} {stage : AdmissionStage} {a : Admission}
    (present : (r.setStage i stage).admissions[j]? = some a) :
    r.admissions[j]? = some a ∨
      j = i ∧ a.stage = stage ∧ ∃ old, r.admissions[i]? = some ⟨a.headers, old⟩ := by
  obtain before | ⟨mine, old, before, rfl⟩ := of_getElem?_modify present
  · exact .inl before
  · exact .inr ⟨mine, rfl, old.stage, before⟩

theorem getElem?_setStage_of_done {r : AdmissionRun} {i j : Nat} {stage old : AdmissionStage}
    {h other : Headers} {verdict : Except Refusal AuthorizedToken}
    (finished : r.admissions[i]? = some ⟨h, .done verdict⟩)
    (present : r.admissions[j]? = some ⟨other, old⟩) (pending : ∀ verdict, old ≠ .done verdict) :
    (r.setStage j stage).admissions[i]? = some ⟨h, .done verdict⟩ := by
  have different : j ≠ i := by
    rintro rfl
    rw [present] at finished
    cases finished
    exact pending verdict rfl
  simpa [setStage, different] using finished

namespace Change

variable {r r' : AdmissionRun} {m : AdmissionMove}

theorem gate_eq (change : r.Change m r') : r'.gate = r.gate := by
  cases change <;> rfl

/-- An admission that is done stays as it is. -/
theorem done (change : r.Change m r') {i : Nat} {h : Headers}
    {verdict : Except Refusal AuthorizedToken}
    (before : r.admissions[i]? = some ⟨h, .done verdict⟩) :
    r'.admissions[i]? = some ⟨h, .done verdict⟩ := by
  cases change with
  | lookup => exact before
  | revoke => exact before
  | _ present => exact getElem?_setStage_of_done before present (by simp)

/-- A change keeps an admission genuine, and the request stays the one that arrived. -/
theorem genuine (change : r.Change m r') {i : Nat} {h : Headers} {stage : AdmissionStage}
    (after : r'.admissions[i]? = some ⟨h, stage⟩) :
    ∃ old, r.admissions[i]? = some ⟨h, old⟩ ∧ (old.Genuine r.gate h → stage.Genuine r.gate h) := by
  cases change with
  | lookup => exact ⟨stage, after, id⟩
  | revoke => exact ⟨stage, after, id⟩
  | waive present presented =>
    obtain before | ⟨rfl, rfl, _, before⟩ := of_getElem?_setStage after
    · exact ⟨stage, before, id⟩
    · rw [present] at before
      cases before
      refine ⟨_, present, fun _ => ?_⟩
      obtain ⟨carried, _, read⟩ := GateConfig.present_eq_unsigned_iff.mp presented
      obtain ⟨_, lasting⟩ := UnverifiedToken.unsignedClaims_eq_ok_iff.mp read
      exact ⟨_, carried, (UnverifiedToken.unexpiredClaims_eq_ok_iff.mp lasting).1⟩
  | seek present presented =>
    obtain before | ⟨rfl, rfl, _, before⟩ := of_getElem?_setStage after
    · exact ⟨stage, before, id⟩
    · rw [present] at before
      cases before
      exact ⟨_, present, fun _ => (GateConfig.present_eq_signed_iff.mp presented).1⟩
  | @verify _ now _ token key _ _ resolution present =>
    obtain before | ⟨rfl, rfl, _, before⟩ := of_getElem?_setStage after
    · exact ⟨stage, before, id⟩
    · rw [present] at before
      cases before
      exact ⟨_, present, fun carried =>
        AdmissionStage.genuine_ofResolution carried key now resolution⟩
  | refuse =>
    obtain before | ⟨rfl, rfl, _, before⟩ := of_getElem?_setStage after
    · exact ⟨stage, before, id⟩
    · exact ⟨_, before, fun _ => trivial⟩
  | check =>
    obtain before | ⟨rfl, rfl, _, before⟩ := of_getElem?_setStage after
    · exact ⟨stage, before, id⟩
    · exact ⟨_, before, fun _ => trivial⟩

/-- A verdict that lets a request through, or calls its token revoked, is made in the check. -/
theorem verdict (change : r.Change m r') {i : Nat} {h : Headers}
    {verdict : Except Refusal AuthorizedToken}
    (after : r'.admissions[i]? = some ⟨h, .done verdict⟩) :
    r.admissions[i]? = some ⟨h, .done verdict⟩ ∨
      (∃ refusal, verdict = .error refusal ∧ refusal ≠ .revoked) ∨
      ∃ claims key unsigned, r.admissions[i]? = some ⟨h, .checking claims key unsigned⟩ ∧
        verdict = r.gate.judge r.revoked claims key unsigned := by
  cases change with
  | refuse present presented =>
    obtain before | ⟨rfl, staged, _⟩ := of_getElem?_setStage after
    · exact .inl before
    · cases staged
      refine .inr (.inl ⟨_, rfl, ?_⟩)
      rintro rfl
      exact GateConfig.present_ne_revoked _ _ _ presented
  | verify =>
    obtain before | ⟨rfl, staged, _⟩ := of_getElem?_setStage after
    · exact .inl before
    · exact .inr (.inl (AdmissionStage.ofResolution_done staged.symm))
  | check present =>
    obtain before | ⟨rfl, staged, _, present'⟩ := of_getElem?_setStage after
    · exact .inl before
    · rw [present] at present'
      cases present'
      cases staged
      exact .inr (.inr ⟨_, _, _, present, rfl⟩)
  | lookup => exact .inl after
  | revoke => exact .inl after
  -- Any other move leaves its request in a stage without a verdict.
  | _ =>
    obtain before | ⟨_, staged, _⟩ := of_getElem?_setStage after
    · exact .inl before
    · cases staged

end Change

end AdmissionRun

end Tollgate
