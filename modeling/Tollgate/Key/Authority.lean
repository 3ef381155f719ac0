import Tollgate.Key.Directory
import Tollgate.Key.Signing
import Tollgate.Fleet.Store

/-! # The token authority

The authority owns the key that signs tokens.  When that key has ended, the next caller
makes another one; it is used only after the store has accepted its public half for as long
as the key signs and a grace period after that.

* `KeyStore` — what the authority needs of a store;
* `SigningSlot.glance`, `SigningSlot.turn`, `SigningSlot.settle` — the moments of getting
  the current key, as for lookups of verification keys;
* `Authority.currentKey`, `Authority.issueToken`, `Authority.publishableKeys` — the
  operations, when nobody interrupts them;
* `RotationRun` — callers at the same time.
-/

namespace Tollgate

/-! ## Configuration and store -/

structure AuthorityConfig where
  issuer : String := "waypost-control"
  keyValidity : Span := .ofHours 24
  /-- How long a key is published after it has ceased to sign. -/
  gracePeriod : Span := .ofHours 25
  deriving DecidableEq, Repr, Inhabited

/-- How long the store is asked to keep a key. -/
def AuthorityConfig.keyLifetime (c : AuthorityConfig) : Span := c.keyValidity.add c.gracePeriod

structure KeyStore (σ : Type) where
  put : σ → Instant → PublishedKey → Span → Except StoreFault Unit × σ
  active : σ → Instant → Except StoreFault (List PublishedKey) × σ

def FleetStore.keyStore : KeyStore FleetStore where
  put f now k ttl :=
    match f.putKey now k ttl with
    | .ok f => (.ok (), f)
    | .error e => (.error e, f)
  active f now :=
    let (keys, f) := f.activeKeys now
    (.ok keys, f)

inductive AuthorityFault where
  | key (fault : KeyFault)
  | store (fault : StoreFault)
  | token (fault : TokenFault)
  deriving DecidableEq, Repr

def AuthorityFault.message : AuthorityFault → String
  | .key fault => fault.message
  | .store fault => fault.message
  | .token fault => fault.message

/-! ## The current key -/

/-- What making a key gives: an identifier and a private key, or the reason of a failure. -/
abbrev NewKey := Except String (KeyId × Rsa.PrivateKey)

/-- The key that signs, and how often it was replaced. -/
abbrev SigningSlot := Slot (Option SigningKey)

/-- What a glance at the slot shows. -/
inductive SigningGlance where
  | live (key : SigningKey)
  | stale (generation : Nat)

/-- What a caller does whose turn to rotate has come. -/
inductive SigningTurn where
  | answer (key : SigningKey)
  | rotate

namespace SigningSlot

def empty : SigningSlot := Slot.fresh none

/-- The key in the slot, if it still signs. -/
def live? (s : SigningSlot) (now : Instant) : Option SigningKey :=
  s.value.filter fun k => !k.isExpired now

/-- Look for a key that signs, and remember the generation if there is none. -/
def glance (s : SigningSlot) (now : Instant) : SigningGlance :=
  match s.live? now with
  | some key => .live key
  | none => .stale s.generation

/-- Look again when the turn to rotate has come: a key that was put in since the glance is
    taken if it signs. -/
def turn (s : SigningSlot) (now : Instant) (seen : Nat) : SigningTurn :=
  if s.changedSince seen then
    match s.live? now with
    | some key => .answer key
    | none => .rotate
  else .rotate

/-- Take what the store answered: an accepted key is put into the slot. -/
def settle (s : SigningSlot) (key : SigningKey) (stored : Except StoreFault Unit) :
    Except AuthorityFault SigningKey × SigningSlot :=
  match stored with
  | .ok () => (.ok key, s.replace (some key))
  | .error e => (.error (.store e), s)

end SigningSlot

/-- A key that signs from now on for as long as the configuration says. -/
def AuthorityConfig.newKey (c : AuthorityConfig) (now : Instant) :
    NewKey → Except AuthorityFault SigningKey
  | .ok (keyId, secret) => .ok ⟨keyId, secret, now.add c.keyValidity⟩
  | .error reason => .error (.key (.generation reason))

/-! ## The authority -/

structure Authority (σ : Type) where
  config : AuthorityConfig
  store : KeyStore σ
  stored : σ
  current : SigningSlot := .empty

namespace Authority

variable {σ : Type}

/-- Make a key, have it stored, and put it into the slot. -/
def rotate (a : Authority σ) (now : Instant) (fresh : NewKey) :
    Except AuthorityFault SigningKey × Authority σ :=
  match a.config.newKey now fresh with
  | .error e => (.error e, a)
  | .ok key =>
    -- The store is asked first, so that no key signs that was not published.
    let (outcome, stored) := a.store.put a.stored now key.published a.config.keyLifetime
    let (result, current) := a.current.settle key outcome
    (result, { a with stored, current })

/-- The key that signs now; `fresh` is what making a key gives, if one has to be made. -/
def currentKey (a : Authority σ) (now : Instant) (fresh : NewKey) :
    Except AuthorityFault SigningKey × Authority σ :=
  match a.current.glance now with
  | .live key => (.ok key, a)
  | .stale seen =>
    match a.current.turn now seen with
    | .answer key => (.ok key, a)
    | .rotate => a.rotate now fresh

def issueToken (a : Authority σ) (now : Instant) (fresh : NewKey) (id : TokenId)
    (validity : Span) (capabilities : List Capability) :
    Except AuthorityFault Octets × Authority σ :=
  match a.currentKey now fresh with
  | (.error e, a) => (.error e, a)
  | (.ok key, a) =>
    let claims := (Claims.mint a.config.issuer validity now id).withCapabilities capabilities
    match key.sign claims with
    | .ok token => (.ok token, a)
    | .error e => (.error (.token e), a)

/-- Put a record into a list in the order of identifiers, after those it is equal to. -/
def insertRecord (k : PublishedKey) : List PublishedKey → List PublishedKey
  | [] => [k]
  | x :: rest => if k.keyId < x.keyId then k :: x :: rest else x :: insertRecord k rest

def sortRecords (records : List PublishedKey) : List PublishedKey :=
  records.foldl (fun sorted k => insertRecord k sorted) []

/-- The records of all keys that may have signed a valid token, in the order of their
    identifiers.  The current key is among them: it is made first if there is none. -/
def publishableKeys (a : Authority σ) (now : Instant) (fresh : NewKey) :
    Except AuthorityFault (List PublishedKey) × Authority σ :=
  match a.currentKey now fresh with
  | (.error e, a) => (.error e, a)
  | (.ok _, a) =>
    let (outcome, stored) := a.store.active a.stored now
    let a := { a with stored }
    match outcome with
    | .ok keys => (.ok (sortRecords keys), a)
    | .error e => (.error (.store e), a)

/-- The authority as a source of verification keys. -/
def publicKeys (a : Authority σ) (now : Instant) (fresh : NewKey) : KeyAnswer × Authority σ :=
  match a.publishableKeys now fresh with
  | (.ok keys, a) => (.ok (keyMap keys), a)
  | (.error e, a) => (.error (.unavailable e.message), a)

end Authority

/-! ## Callers at the same time -/

/-- How far a caller that wants the current key has come. -/
inductive RotationStage where
  | started
  | waiting (seen : Nat)
  | generating
  | storing (key : SigningKey)
  | done (result : Except AuthorityFault SigningKey)

structure RotationRun where
  config : AuthorityConfig
  current : SigningSlot := .empty
  callers : List RotationStage
  /-- The caller that has its turn and makes a key, or waits for the store. -/
  holder : Option Nat := none
  /-- What was handed to the store, and for how long, last first. -/
  handed : List (PublishedKey × Span) := []
  /-- What the store accepted, last first. -/
  accepted : List (PublishedKey × Span) := []

inductive RotationMove where
  | glance (index : Nat) (now : Instant)
  | turn (index : Nat) (now : Instant)
  | generated (now : Instant) (fresh : NewKey)
  | stored (outcome : Except StoreFault Unit)

namespace RotationRun

def setStage (r : RotationRun) (index : Nat) (stage : RotationStage) : RotationRun :=
  { r with callers := r.callers.set index stage }

/-- Make a move, if it can be made: glances and turns only while nobody rotates, and the moves of a
    rotation only for the one who does. -/
def step (r : RotationRun) : RotationMove → Option RotationRun
  | .glance i now =>
    match r.holder, r.callers[i]? with
    | none, some .started =>
      match r.current.glance now with
      | .live key => some (r.setStage i (.done (.ok key)))
      | .stale seen => some (r.setStage i (.waiting seen))
    | _, _ => none
  | .turn i now =>
    match r.holder, r.callers[i]? with
    | none, some (.waiting seen) =>
      match r.current.turn now seen with
      | .answer key => some (r.setStage i (.done (.ok key)))
      | .rotate => some { r.setStage i .generating with holder := some i }
    | _, _ => none
  | .generated now fresh =>
    match r.holder with
    | none => none
    | some i =>
      match r.callers[i]? with
      | some .generating =>
        match r.config.newKey now fresh with
        | .error e => some { r.setStage i (.done (.error e)) with holder := none }
        | .ok key =>
          some { r.setStage i (.storing key) with
            handed := (key.published, r.config.keyLifetime) :: r.handed }
      | _ => none
  | .stored outcome =>
    match r.holder with
    | none => none
    | some i =>
      match r.callers[i]? with
      | some (.storing key) =>
        let (result, current) := r.current.settle key outcome
        let accepted := match outcome with
          | .ok () => (key.published, r.config.keyLifetime) :: r.accepted
          | .error _ => r.accepted
        some { r.setStage i (.done result) with current, accepted, holder := none }
      | _ => none

/-- Make a move, or none where it cannot be made. -/
def advance (r : RotationRun) (m : RotationMove) : RotationRun := (r.step m).getD r

end RotationRun

end Tollgate
