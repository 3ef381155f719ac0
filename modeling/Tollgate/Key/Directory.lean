import Tollgate.Key.Published
import Tollgate.Key.Slot

/-! # Looking up verification keys

Keys are looked up in a cache that is refreshed as a whole.  A caller glances at the cache
first.  If the key is not there, the caller waits for its turn to refresh; it then looks
again, and fetches only if nobody refreshed the cache since its glance.

* `KeyCache.glance`, `KeyCache.turn`, `KeyCache.settle` — the three moments of a lookup;
* `KeyCache.resolve` — a lookup that nobody interrupts;
* `LookupRun` — lookups under way at the same time: each `Move` is one moment of one of
  them, and only one at a time may have its turn;
* `KeyCache.resolveTogether` — lookups that start at the same time.
-/

namespace Tollgate

/-! ## Faults -/

inductive ProviderFault where
  | unavailable (reason : String)
  | invalidResponse (reason : String)
  deriving DecidableEq, Repr

def ProviderFault.message : ProviderFault → String
  | .unavailable reason => "Key source unavailable: " ++ reason
  | .invalidResponse reason => "Invalid key set: " ++ reason

inductive ResolveFault where
  | notFound (key : KeyId)
  | provider (fault : ProviderFault)
  deriving DecidableEq, Repr

def ResolveFault.message : ResolveFault → String
  | .notFound key => "No key with id " ++ key.text
  | .provider fault => fault.message

abbrev KeyAnswer := Except ProviderFault KeyMap

abbrev Resolution := Except ResolveFault Rsa.PublicKey

/-! ## One lookup -/

/-- The keys that were fetched last, and how often keys were fetched. -/
abbrev KeyCache := Slot KeyMap

/-- What the first glance at the cache shows. -/
inductive Glance where
  | found (key : Rsa.PublicKey)
  | missed (generation : Nat)
  deriving DecidableEq, Repr

/-- What a caller does whose turn to refresh has come. -/
inductive Turn where
  | answer (result : Resolution)
  | fetch

namespace KeyCache

def empty : KeyCache := Slot.fresh []

/-- Look whether a key is there, and remember the generation if it is not. -/
def glance (c : KeyCache) (k : KeyId) : Glance :=
  match Sorted.find? k c.value with
  | some key => .found key
  | none => .missed c.generation

/-- Look again when the turn to refresh has come: the key may be there now, and if the
    cache was refreshed since the glance its absence is final. -/
def turn (c : KeyCache) (k : KeyId) (seen : Nat) : Turn :=
  match Sorted.find? k c.value with
  | some key => .answer (.ok key)
  | none => if c.changedSince seen then .answer (.error (.notFound k)) else .fetch

/-- Take what the source answered: a key set replaces the cache, a fault leaves it. -/
def settle (c : KeyCache) (k : KeyId) (answer : KeyAnswer) : Resolution × KeyCache :=
  match answer with
  | .error fault => (.error (.provider fault), c)
  | .ok keys =>
    match Sorted.find? k keys with
    | some key => (.ok key, c.replace keys)
    | none => (.error (.notFound k), c.replace keys)

/-- A lookup that nobody interrupts.  `answer` is what the source answers if it is asked;
    the last part of the result tells whether it was. -/
def resolve (c : KeyCache) (k : KeyId) (answer : KeyAnswer) : Resolution × KeyCache × Bool :=
  match c.glance k with
  | .found key => (.ok key, c, false)
  | .missed seen =>
    match c.turn k seen with
    | .answer result => (result, c, false)
    | .fetch =>
      let (result, c) := c.settle k answer
      (result, c, true)

end KeyCache

/-! ## Lookups at the same time -/

inductive LookupStage where
  | started
  | waiting (seen : Nat)
  | fetching
  | done (result : Resolution)

structure Lookup where
  key : KeyId
  stage : LookupStage := .started

structure LookupRun where
  cache : KeyCache
  lookups : List Lookup
  /-- The lookup that has its turn and waits for the source. -/
  holder : Option Nat := none
  fetches : Nat := 0

inductive LookupMove where
  | glance (index : Nat)
  | turn (index : Nat)
  | delivered (answer : KeyAnswer)

namespace LookupRun

def setStage (r : LookupRun) (index : Nat) (stage : LookupStage) : LookupRun :=
  { r with lookups := r.lookups.modify index fun l => { l with stage } }

/-- Make a move, if it can be made: glances and turns only while nobody waits for the
    source, and answers only to the one who asked. -/
def step (r : LookupRun) : LookupMove → Option LookupRun
  | .glance i =>
    match r.holder, r.lookups[i]? with
    | none, some ⟨key, .started⟩ =>
      match r.cache.glance key with
      | .found k => some (r.setStage i (.done (.ok k)))
      | .missed seen => some (r.setStage i (.waiting seen))
    | _, _ => none
  | .turn i =>
    match r.holder, r.lookups[i]? with
    | none, some ⟨key, .waiting seen⟩ =>
      match r.cache.turn key seen with
      | .answer result => some (r.setStage i (.done result))
      | .fetch =>
        some { r.setStage i .fetching with holder := some i, fetches := r.fetches + 1 }
    | _, _ => none
  | .delivered answer =>
    match r.holder with
    | none => none
    | some i =>
      match r.lookups[i]? with
      | some ⟨key, .fetching⟩ =>
        let (result, cache) := r.cache.settle key answer
        some { r.setStage i (.done result) with cache, holder := none }
      | _ => none

/-- Make a move, or none where it cannot be made. -/
def advance (r : LookupRun) (m : LookupMove) : LookupRun := (r.step m).getD r

def run (r : LookupRun) (moves : List LookupMove) : LookupRun := moves.foldl advance r

/-- Give a lookup its turn; if it fetches, the source answers at once.  `answers` gives the
    answer to each fetch by its number. -/
def takeTurn (answers : Nat → KeyAnswer) (r : LookupRun) (index : Nat) : LookupRun :=
  (r.advance (.turn index)).advance (.delivered (answers r.fetches))

def results (r : LookupRun) : List Resolution :=
  r.lookups.filterMap fun l =>
    match l.stage with
    | .done result => some result
    | _ => none

end LookupRun

def LookupRun.firstWaiting? (r : LookupRun) : Option Nat :=
  r.lookups.findIdx? fun l => match l.stage with | .waiting _ => true | _ => false

/-- Let a lookup glance at the cache, unless one that glanced before it waits for its turn
    already. -/
def LookupRun.glanceUnlessWaiting (r : LookupRun) (index : Nat) : LookupRun :=
  if r.firstWaiting?.isSome then r else r.advance (.glance index)

/-- Lookups that start at the same time and are served in their order.  The first one that
    misses has its turn while those after it have not glanced yet; all others glance when
    it is done, and then take turns.  Answers the results, the cache, and how often the
    source was asked. -/
def KeyCache.resolveTogether (c : KeyCache) (keys : List KeyId) (answers : Nat → KeyAnswer) :
    List Resolution × KeyCache × Nat :=
  let start : LookupRun := { cache := c, lookups := keys.map fun key => { key } }
  let indices := List.range keys.length
  let glanced := indices.foldl LookupRun.glanceUnlessWaiting start
  let first := match glanced.firstWaiting? with
    | some i => LookupRun.takeTurn answers glanced i
    | none => glanced
  let done := indices.foldl (LookupRun.takeTurn answers) (first.run (indices.map .glance))
  (done.results, done.cache, done.fetches)

end Tollgate
