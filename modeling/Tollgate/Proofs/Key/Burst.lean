import Mathlib.Algebra.Ring.Nat
import Mathlib.Data.Nat.Count
import Tollgate.Proofs.Key.Rotation
import Tollgate.Proofs.Moments

/-! # One rotation for a burst of callers

When the key of an authority ends, many callers may notice it at once.  `RotationSchedule.Burst`
describes such callers: all of them see the slot without a key that signs, in the same generation,
and of the keys that are handed to the store the first ones are not taken.
`RotationSchedule.one_rotation` counts what comes of it in every order of turns: each refusal of the
store is told to one caller, the first key that the store takes is given to all others, and nothing
is handed to the store after that.

The proof goes along the turns.  Until the store takes a key, the slot is as it was at first, and
every key that was handed over was refused or waits for the store (`Trying`); from then on the key
in the slot is the one that every further caller gets (`Served`).
-/

namespace Tollgate

/-! ## Tallies -/

namespace RotationStage

def isGiven : RotationStage → Bool
  | .done (.ok _) => true
  | _ => false

/-- The caller has got the store's fault. -/
def isRejected : RotationStage → Bool
  | .done (.error (.store _)) => true
  | _ => false

/-- The caller has got another fault: no key could be made. -/
def isBarren : RotationStage → Bool
  | .done (.error (.store _)) => false
  | .done (.error _) => true
  | _ => false

def isBusy : RotationStage → Bool
  | .generating | .storing _ => true
  | _ => false

def remaining : RotationStage → Nat
  | .started => 4
  | .waiting _ => 3
  | .generating => 2
  | .storing _ => 1
  | .done _ => 0

end RotationStage

theorem sum_map_set {α : Type} {l : List α} {i : Nat} {a : α} (f : α → Nat) (b : α)
    (present : l[i]? = some a) : ((l.set i b).map f).sum + f a = (l.map f).sum + f b := by
  induction l generalizing i with
  | nil => contradiction
  | cons x rest ih =>
    cases i with
    | zero =>
      cases present
      simp only [List.set_cons_zero, List.map_cons, List.sum_cons]
      omega
    | succ i =>
      have inner := ih present
      simp only [List.set_cons_succ, List.map_cons, List.sum_cons]
      omega

/-- Whoever is done has got a key, the store's fault, or another fault. -/
theorem length_eq_of_done {stages : List RotationStage}
    (settled : ∀ stage ∈ stages, ∃ result, stage = .done result) :
    stages.countP RotationStage.isGiven + stages.countP RotationStage.isRejected +
      stages.countP RotationStage.isBarren = stages.length := by
  induction stages with
  | nil => rfl
  | cons stage rest ih =>
    have counted := ih fun other member => settled other (List.mem_cons_of_mem stage member)
    obtain ⟨result, rfl⟩ := settled stage List.mem_cons_self
    simp only [List.countP_cons, List.length_cons]
    rcases result with (fault | fault | fault) | key <;>
      simp only [RotationStage.isGiven, RotationStage.isRejected, RotationStage.isBarren, if_true,
        Bool.false_eq_true, if_false] <;> omega

namespace RotationRun

def tally (r : RotationRun) (size : Nat) (kind : RotationStage → Bool) : Nat :=
  (r.callers.take size).countP kind

def remaining (r : RotationRun) : Nat := (r.callers.map RotationStage.remaining).sum

def pending (r : RotationRun) : Nat :=
  match r.holder.bind fun i => r.callers[i]? with
  | some (.storing _) => 1
  | _ => 0

theorem tally_setStage {r : RotationRun} {i : Nat} {old : RotationStage} (size : Nat)
    (kind : RotationStage → Bool) (present : r.callers[i]? = some old) (before : kind old = false)
    (stage : RotationStage) :
    (r.setStage i stage).tally size kind =
      r.tally size kind + if i < size ∧ kind stage = true then 1 else 0 := by
  obtain ⟨inside, rfl⟩ := List.getElem?_eq_some_iff.mp present
  unfold tally setStage
  rw [List.take_set]
  by_cases member : i < size
  · have taken : i < (r.callers.take size).length := by
      rw [List.length_take]
      omega
    rw [List.countP_set taken, List.getElem_take, before]
    simp [member]
  · rw [List.set_eq_of_length_le (by rw [List.length_take]; omega)]
    simp [member]

theorem tally_setStage_of_marked {r : RotationRun} {i size : Nat} {old stage : RotationStage}
    {kind : RotationStage → Bool} (present : r.callers[i]? = some old) (before : kind old = false)
    (member : i < size) (marked : kind stage = true) :
    (r.setStage i stage).tally size kind = r.tally size kind + 1 := by
  rw [tally_setStage size kind present before, if_pos ⟨member, marked⟩]

theorem tally_setStage_of_unmarked {r : RotationRun} {i size : Nat} {old stage : RotationStage}
    {kind : RotationStage → Bool} (present : r.callers[i]? = some old) (before : kind old = false)
    (unmarked : i < size → kind stage = false) :
    (r.setStage i stage).tally size kind = r.tally size kind := by
  rw [tally_setStage size kind present before, if_neg, Nat.add_zero]
  exact fun marked => by simp [unmarked marked.1] at marked

theorem kind_eq_false_of_tally_eq_zero {r : RotationRun} {i size : Nat} {stage : RotationStage}
    {kind : RotationStage → Bool} (none : r.tally size kind = 0) (member : i < size)
    (present : r.callers[i]? = some stage) : kind stage = false := by
  have taken : (r.callers.take size)[i]? = some stage := by
    rw [List.getElem?_take, if_pos member, present]
  simpa using List.countP_eq_zero.mp none stage (List.mem_of_getElem? taken)

theorem pending_of_idle {r : RotationRun} (idle : r.holder = none) : r.pending = 0 := by
  simp [pending, idle]

theorem pending_of_generating {r : RotationRun} {i : Nat} (held : r.holder = some i)
    (present : r.callers[i]? = some .generating) : r.pending = 0 := by
  simp [pending, held, present]

theorem pending_of_storing {r : RotationRun} {i : Nat} {key : SigningKey}
    (held : r.holder = some i) (present : r.callers[i]? = some (.storing key)) : r.pending = 1 := by
  simp [pending, held, present]

/-- Whoever is busy holds the turn. -/
theorem Change.busy {r r' : RotationRun} {m : RotationMove} (change : r.Change m r') {i : Nat}
    (before : ∀ stage, r.callers[i]? = some stage → stage.isBusy = true → r.holder = some i)
    {stage : RotationStage} (after : r'.callers[i]? = some stage) (busy : stage.isBusy = true) :
    r'.holder = some i := by
  -- A move changes the stage of one caller, and the cases differ in whether that one is `i`.
  have elsewhere : ∀ {j other}, i ≠ j → (r.setStage j other).callers[i]? = some stage →
      r.holder = some i := by
    intro j other different found
    rw [setStage, List.getElem?_set_ne (Ne.symm different)] at found
    exact before stage found busy
  have here : ∀ {j other old}, i = j → r.callers[j]? = some old →
      (r.setStage j other).callers[i]? = some stage → other.isBusy = true := by
    rintro j other old rfl present found
    rw [getElem?_setStage_self present] at found
    cases found
    exact busy
  cases change with
  | @begin j _ _ idle present =>
    by_cases same : i = j
    · rw [same]
    · have held := elsewhere same after
      simp [idle] at held
  | @hand j _ _ _ held present =>
    by_cases same : i = j
    · rw [same]
      exact held
    · exact elsewhere same after
  | @hit j _ _ idle present | @miss j _ idle present | @lateHit j _ _ _ idle present =>
    by_cases same : i = j
    · exact absurd (here same present after) Bool.false_ne_true
    · have held := elsewhere same after
      simp [idle] at held
  | @barren j _ _ held present | @reject j _ _ held present | @install j _ held present =>
    by_cases same : i = j
    · exact absurd (here same present after) Bool.false_ne_true
    · exact absurd (Option.some.inj ((elsewhere same after).symm.trans held)) same

/-- Every move brings its caller nearer to the end. -/
theorem Change.remaining_lt {r r' : RotationRun} {m : RotationMove} (change : r.Change m r') :
    r'.remaining < r.remaining := by
  have shrinks : ∀ {i old} {stage : RotationStage}, r.callers[i]? = some old →
      stage.remaining < old.remaining → (r.setStage i stage).remaining < r.remaining := by
    intro i old stage present less
    have sum := sum_map_set RotationStage.remaining stage present
    simp only [RotationRun.remaining, setStage]
    omega
  cases change with
  | _ _ present => exact shrinks present (by simp [RotationStage.remaining])

end RotationRun

/-! ## The burst -/

structure RotationSchedule where
  start : RotationRun
  moves : Nat → RotationMove

namespace RotationSchedule

def moment (s : RotationSchedule) (n : Nat) : RotationRun :=
  stateAt RotationRun.advance s.start s.moves n

def Makes (s : RotationSchedule) (n : Nat) (m : RotationMove) : Prop :=
  s.moves n = m ∧ (s.moment n).Change m (s.moment (n + 1))

/-- The first callers see at the same time that the key has ended, and the first keys that are
    handed to the store are not taken. -/
structure Burst (s : RotationSchedule) (size failures : Nat) : Prop where
  idle : s.start.holder = none
  started : ∀ i < size, s.start.callers[i]? = some .started
  fresh : s.start.handed = [] ∧ s.start.accepted = []
  /-- Whoever belongs to the burst sees no key that signs, and the generation of the start. -/
  observed : ∀ n, ∀ i < size, ∀ now, s.Makes n (.glance i now) →
    (s.moment n).current.glance now = .stale s.start.current.generation
  alone : ∀ n i, (s.moment n).holder = some i → i < size
  lasting : ∀ n, ∀ i < size, ∀ now key, s.Makes n (.turn i now) →
    (s.moment n).current = s.start.current.replace (some key) → key.isExpired now = false
  outage : ∀ n outcome, s.Makes n (.stored outcome) →
    ((∃ fault, outcome = .error fault) ↔ (s.moment n).handed.length ≤ failures)

def Settled (s : RotationSchedule) (size n : Nat) : Prop :=
  ∀ i < size, ∃ result, (s.moment n).callers[i]? = some (.done result)

/-- What comes of a burst.  `barren` callers could make no key, which none of the others noticed. -/
structure OneRotation (s : RotationSchedule) (size failures barren n : Nat) : Prop where
  rejected : (s.moment n).tally size RotationStage.isRejected = min failures (size - barren)
  given : (s.moment n).tally size RotationStage.isGiven =
    size - barren - min failures (size - barren)
  handed : (s.moment n).handed.length = min (failures + 1) (size - barren)
  same : ∀ i < size, ∀ key, (s.moment n).callers[i]? = some (.done (.ok key)) →
    (s.moment n).current.value = some key
  stored : (s.moment n).accepted.length ≤ 1 ∧ ∀ record ttl, (record, ttl) ∈ (s.moment n).accepted →
    ∃ key, (s.moment n).current.value = some key ∧ record = key.published

variable {s : RotationSchedule} {size failures : Nat}

theorem makes_or_same (s : RotationSchedule) (n : Nat) :
    s.Makes n (s.moves n) ∨ s.moment (n + 1) = s.moment n := by
  unfold Makes
  rw [show s.moment (n + 1) = (s.moment n).advance (s.moves n) from stateAt_succ]
  obtain change | same := (s.moment n).change_or_advance_eq (s.moves n)
  · exact .inl ⟨rfl, change⟩
  · exact .inr same

/-! ## What holds along a burst -/

structure Trying (s : RotationSchedule) (size failures : Nat) (r : RotationRun) : Prop where
  unchanged : r.current = s.start.current
  accepted : r.accepted = []
  given : r.tally size RotationStage.isGiven = 0
  handed : r.handed.length = r.tally size RotationStage.isRejected + r.pending
  within : r.tally size RotationStage.isRejected ≤ failures

structure Served (s : RotationSchedule) (size failures : Nat) (key : SigningKey) (r : RotationRun) :
    Prop where
  replaced : r.current = s.start.current.replace (some key)
  accepted : ∃ ttl, r.accepted = [(key.published, ttl)]
  idle : r.holder = none
  given : 0 < r.tally size RotationStage.isGiven
  same : ∀ i < size, ∀ other, r.callers[i]? = some (.done (.ok other)) → other = key
  handed : r.handed.length = failures + 1
  rejected : r.tally size RotationStage.isRejected = failures

/-- Whoever holds the turn is making a key or waits for the store, and nobody else is; and whoever
    waits for a turn noted the generation of the start. -/
structure Orderly (s : RotationSchedule) (size : Nat) (r : RotationRun) : Prop where
  turn : ∀ i, r.holder = some i → r.callers[i]? = some .generating ∨
    ∃ key, r.callers[i]? = some (.storing key)
  busy : ∀ i < size, ∀ stage, r.callers[i]? = some stage → stage.isBusy = true → r.holder = some i
  seen : ∀ i < size, ∀ seen, r.callers[i]? = some (.waiting seen) →
    seen = s.start.current.generation

theorem orderly_moment (burst : s.Burst size failures) (n : Nat) : s.Orderly size (s.moment n) := by
  induction n with
  | zero =>
    refine ⟨fun i held => ?_, fun i member stage present busy => ?_, fun i member seen waits => ?_⟩
    · rw [show (s.moment 0).holder = none from burst.idle] at held
      contradiction
    · rw [show (s.moment 0).callers[i]? = _ from burst.started i member] at present
      cases present
      contradiction
    · rw [show (s.moment 0).callers[i]? = _ from burst.started i member] at waits
      cases waits
  | succ n ih =>
    obtain made | same := s.makes_or_same n
    · refine ⟨fun i held => made.2.turn held, fun i member stage => ?_,
        fun i member seen waits => ?_⟩
      · exact made.2.busy (ih.busy i member)
      · obtain before | ⟨now, looked, noted⟩ := made.2.waiting waits
        · exact ih.seen i member seen before
        · rw [looked] at made
          -- Whoever begins to wait found no key that signs, and noted the generation of the start.
          have stale := burst.observed n i member now made
          rw [noted]
          exact (SigningSlot.glance_eq_stale_iff.mp stale).2.symm
    · rw [same]
      exact ih

theorem tally_start (burst : s.Burst size failures) (kind : RotationStage → Bool)
    (unmarked : kind .started = false) : s.start.tally size kind = 0 := by
  refine List.countP_eq_zero.mpr fun stage member => ?_
  obtain ⟨i, inside, rfl⟩ := List.mem_take_iff_getElem.mp member
  have started := burst.started i (by omega)
  rw [List.getElem?_eq_getElem (by omega), Option.some.injEq] at started
  simp [started, unmarked]

theorem trying_start (burst : s.Burst size failures) : s.Trying size failures s.start := by
  have rejected := tally_start burst RotationStage.isRejected rfl
  refine ⟨rfl, burst.fresh.2, tally_start burst _ rfl, ?_, ?_⟩
  · rw [burst.fresh.1, rejected, RotationRun.pending_of_idle burst.idle, List.length_nil]
  · rw [rejected]
    exact Nat.zero_le failures

/-- A move that tells nobody in the burst about a key or a refusal, and leaves the slot and the
    store alone. -/
theorem Trying.keep {r r' : RotationRun} (trying : s.Trying size failures r) {i : Nat}
    {old stage : RotationStage} (present : r.callers[i]? = some old)
    (pending : old.isGiven = false ∧ old.isRejected = false)
    (silent : i < size → stage.isGiven = false ∧ stage.isRejected = false)
    (callers : r'.callers = (r.setStage i stage).callers)
    (same : r'.current = r.current ∧ r'.accepted = r.accepted)
    (handed : r'.handed.length + r.pending = r.handed.length + r'.pending) :
    s.Trying size failures r' := by
  have tallied : ∀ kind : RotationStage → Bool, kind old = false → (i < size → kind stage = false) →
      r'.tally size kind = r.tally size kind := by
    intro kind unmarked unmarked'
    rw [← RotationRun.tally_setStage_of_unmarked present unmarked unmarked']
    exact congrArg (fun callers => (callers.take size).countP kind) callers
  have given := tallied _ pending.1 fun member => (silent member).1
  have rejected := tallied _ pending.2 fun member => (silent member).2
  refine ⟨same.1.trans trying.unchanged, same.2.trans trying.accepted, given.trans trying.given, ?_,
    rejected.trans_le trying.within⟩
  have before := trying.handed
  omega

/-- A refusal, which goes to the caller whose key it is. -/
theorem Trying.reject {r : RotationRun} (trying : s.Trying size failures r) {i : Nat}
    {key : SigningKey} {fault : StoreFault} (held : r.holder = some i)
    (present : r.callers[i]? = some (.storing key)) (member : i < size)
    (early : r.handed.length ≤ failures) :
    s.Trying size failures
      { r.setStage i (.done (.error (.store fault))) with holder := none } := by
  have handed := trying.handed
  rw [RotationRun.pending_of_storing held present] at handed
  have given :
      (r.setStage i (.done (.error (.store fault)))).tally size RotationStage.isGiven = _ :=
    RotationRun.tally_setStage_of_unmarked present rfl fun _ => rfl
  have rejected :
      (r.setStage i (.done (.error (.store fault)))).tally size RotationStage.isRejected = _ :=
    RotationRun.tally_setStage_of_marked present rfl member rfl
  refine ⟨trying.unchanged, trying.accepted, given.trans trying.given, ?_, ?_⟩
  · rw [RotationRun.pending_of_idle rfl]
    exact handed.trans rejected.symm
  · exact rejected.trans_le (by omega)

/-- The store takes the first key that is handed over after as many refusals as there are. -/
theorem Trying.install {r : RotationRun} (trying : s.Trying size failures r) {i : Nat}
    {key : SigningKey} (held : r.holder = some i)
    (present : r.callers[i]? = some (.storing key)) (member : i < size)
    (late : ¬ r.handed.length ≤ failures) :
    s.Served size failures key
      { r.setStage i (.done (.ok key)) with
        current := r.current.replace (some key)
        accepted := (key.published, r.config.keyLifetime) :: r.accepted
        holder := none } := by
  have handed := trying.handed
  have within := trying.within
  rw [RotationRun.pending_of_storing held present] at handed
  have given : (r.setStage i (.done (.ok key))).tally size RotationStage.isGiven = _ :=
    RotationRun.tally_setStage_of_marked present rfl member rfl
  have rejected : (r.setStage i (.done (.ok key))).tally size RotationStage.isRejected = _ :=
    RotationRun.tally_setStage_of_unmarked present rfl fun _ => rfl
  refine ⟨?_, ⟨r.config.keyLifetime, ?_⟩, rfl, ?_, fun j among other got => ?_, ?_, ?_⟩
  · rw [← trying.unchanged]
  · rw [trying.accepted]
  · exact Nat.lt_of_lt_of_eq (Nat.succ_pos _) given.symm
  · -- Nobody had been given a key before.
    obtain before | ⟨_, staged⟩ := RotationRun.of_getElem?_setStage got
    · have none := RotationRun.kind_eq_false_of_tally_eq_zero trying.given among before
      contradiction
    · cases staged
      rfl
  · show r.handed.length = failures + 1
    omega
  · exact rejected.trans (by omega)

/-- Until the store takes a key, a move changes nothing but the count of refusals. -/
theorem Trying.step (burst : s.Burst size failures) {n : Nat} {m : RotationMove}
    (trying : s.Trying size failures (s.moment n)) (made : s.Makes n m) :
    s.Trying size failures (s.moment (n + 1)) ∨
      ∃ key, s.Served size failures key (s.moment (n + 1)) := by
  have change := made.2
  have orderly := orderly_moment burst n
  generalize s.moment (n + 1) = r' at change ⊢
  cases change with
  -- Nobody in the burst finds a key: there was none at the first look, and none was put in since.
  | @hit i now key idle present live =>
    refine .inl (trying.keep present ⟨rfl, rfl⟩ (fun member => ?_) rfl ⟨rfl, rfl⟩ ?_)
    · obtain ⟨stale, _⟩ := SigningSlot.glance_eq_stale_iff.mp (burst.observed n i member now made)
      simp [stale] at live
    · simp [RotationRun.pending_of_idle, idle]
  | miss idle present =>
    refine .inl (trying.keep present ⟨rfl, rfl⟩ (fun _ => ⟨rfl, rfl⟩) rfl ⟨rfl, rfl⟩ ?_)
    simp [RotationRun.pending_of_idle, idle]
  | lateHit idle present rotated =>
    refine .inl (trying.keep present ⟨rfl, rfl⟩ (fun member => ?_) rfl ⟨rfl, rfl⟩ ?_)
    · rw [orderly.seen _ member _ present, trying.unchanged] at rotated
      exact absurd rfl rotated
    · simp [RotationRun.pending_of_idle, idle]
  | begin idle present =>
    refine .inl (trying.keep present ⟨rfl, rfl⟩ (fun _ => ⟨rfl, rfl⟩) rfl ⟨rfl, rfl⟩ ?_)
    rw [RotationRun.pending_of_idle idle, RotationRun.pending_of_generating rfl]
    · rfl
    · exact RotationRun.getElem?_setStage_self present _
  | barren held present =>
    -- A key that could not be made was never handed over, and its fault is none of the store's.
    refine .inl (trying.keep present ⟨rfl, rfl⟩ (fun _ => ⟨rfl, rfl⟩) rfl ⟨rfl, rfl⟩ ?_)
    rw [RotationRun.pending_of_generating held present, RotationRun.pending_of_idle rfl]
    rfl
  | hand held present =>
    refine .inl (trying.keep present ⟨rfl, rfl⟩ (fun _ => ⟨rfl, rfl⟩) rfl ⟨rfl, rfl⟩ ?_)
    rw [RotationRun.pending_of_generating held present, RotationRun.pending_of_storing]
    · rfl
    · exact held
    · exact RotationRun.getElem?_setStage_self present _
  -- The store's answer depends on the number of keys it was handed, this one included.
  | @reject i key fault held present =>
    have early := (burst.outage n _ made).mp ⟨fault, rfl⟩
    exact .inl (trying.reject held present (burst.alone n i held) early)
  | @install i key held present =>
    have late := mt (burst.outage n _ made).mpr (by simp)
    exact .inr ⟨key, trying.install held present (burst.alone n i held) late⟩

/-- A move after the store has taken the key: it gives that key to whoever asks in time. -/
theorem Served.keep {r : RotationRun} {key : SigningKey} (served : s.Served size failures key r)
    {i : Nat} {old stage : RotationStage} (present : r.callers[i]? = some old)
    (pending : old.isGiven = false ∧ old.isRejected = false) (accepted : stage.isRejected = false)
    (same : i < size → ∀ other, stage = .done (.ok other) → other = key) :
    s.Served size failures key (r.setStage i stage) := by
  have given := RotationRun.tally_setStage size RotationStage.isGiven present pending.1 stage
  have rejected := RotationRun.tally_setStage_of_unmarked present pending.2
    fun _ : i < size => accepted
  refine ⟨served.replaced, served.accepted, served.idle, ?_, fun j member other got => ?_,
    served.handed, rejected.trans served.rejected⟩
  · rw [given]
    exact Nat.lt_add_right _ served.given
  · obtain before | ⟨rfl, staged⟩ := RotationRun.of_getElem?_setStage got
    · exact served.same j member other before
    · exact same member other staged.symm

/-- Once the store has taken a key, nobody rotates again. -/
theorem Served.step (burst : s.Burst size failures) {n : Nat} {m : RotationMove} {key : SigningKey}
    (served : s.Served size failures key (s.moment n)) (made : s.Makes n m) :
    s.Served size failures key (s.moment (n + 1)) := by
  have orderly := orderly_moment burst n
  have alone := burst.alone (n + 1)
  have change := made.2
  generalize s.moment (n + 1) = r' at change alone ⊢
  cases change with
  | @hit i now other _ present live =>
    refine served.keep present ⟨rfl, rfl⟩ rfl fun member => ?_
    obtain ⟨stale, _⟩ := SigningSlot.glance_eq_stale_iff.mp (burst.observed n i member now made)
    simp [stale] at live
  | miss _ present => exact served.keep present ⟨rfl, rfl⟩ rfl (by simp)
  | lateHit _ present _ live =>
    refine served.keep present ⟨rfl, rfl⟩ rfl fun _ other staged => ?_
    obtain ⟨current, _⟩ := SigningSlot.live?_eq_some_iff.mp live
    rw [served.replaced] at current
    cases current
    cases staged
    rfl
  | @begin i now seen _ present due =>
    -- Whoever waits noted the generation of the start, and the slot has a later one.
    have member := alone i rfl
    have live : (s.moment n).current.live? now = some key := by
      have lasting := burst.lasting n i member now key made served.replaced
      exact SigningSlot.live?_eq_some_iff.mpr ⟨by rw [served.replaced]; rfl, lasting⟩
    rw [orderly.seen i member seen present, live, served.replaced] at due
    simp [Slot.replace] at due
  -- Nobody holds the turn any more.
  | barren held => simp [served.idle] at held
  | hand held => simp [served.idle] at held
  | reject held => simp [served.idle] at held
  | install held => simp [served.idle] at held

theorem trying_or_served (burst : s.Burst size failures) (n : Nat) :
    s.Trying size failures (s.moment n) ∨ ∃ key, s.Served size failures key (s.moment n) := by
  induction n with
  | zero => exact .inl (trying_start burst)
  | succ n ih =>
    obtain made | same := s.makes_or_same n
    · obtain trying | ⟨key, served⟩ := ih
      · exact trying.step burst made
      · exact .inr ⟨key, served.step burst made⟩
    · rw [same]
      exact ih

/-- Nobody lacks a key to hand over if every key can be made. -/
theorem barren_eq_zero (burst : s.Burst size failures)
    (fertile : ∀ n now reason, ¬ s.Makes n (.generated now (.error reason))) (n : Nat) :
    (s.moment n).tally size RotationStage.isBarren = 0 := by
  induction n with
  | zero => exact tally_start burst _ rfl
  | succ n ih =>
    obtain made | same := s.makes_or_same n
    · generalize s.moves n = m at made
      have change := made.2
      generalize s.moment (n + 1) = r' at change ⊢
      cases change with
      -- This is the only move that gives a caller that fault.
      | barren => exact absurd made (fertile n _ _)
      | _ _ present =>
        exact (RotationRun.tally_setStage_of_unmarked present rfl fun _ => rfl).trans ih
    · rw [same]
      exact ih

/-! ## Every burst settles -/

theorem length_callers (s : RotationSchedule) (n : Nat) :
    (s.moment n).callers.length = s.start.callers.length := by
  induction n with
  | zero => rfl
  | succ n ih =>
    obtain made | same := s.makes_or_same n
    · rw [made.2.length_eq, ih]
    · rw [same, ih]

theorem size_le_length (burst : s.Burst size failures) : size ≤ s.start.callers.length := by
  by_contra longer
  have started := burst.started s.start.callers.length (by omega)
  simp at started

/-- There is no deadlock: while somebody is not done, somebody can go on, whatever the clock
    shows. -/
theorem exists_change (burst : s.Burst size failures) (now : Instant) {n : Nat}
    (unsettled : ¬ s.Settled size n) : ∃ m r', (s.moment n).Change m r' := by
  have orderly := orderly_moment burst n
  cases held : (s.moment n).holder with
  | some i =>
    obtain present | ⟨key, present⟩ := orderly.turn i held
    · exact ⟨.generated now (.error ""), _, .barren held present⟩
    · exact ⟨.stored (.ok ()), _, .install held present⟩
  | none =>
    obtain ⟨i, member, pending⟩ : ∃ i, i < size ∧ ∀ result,
        (s.moment n).callers[i]? ≠ some (.done result) := by
      simpa [Settled] using unsettled
    have inside : i < (s.moment n).callers.length := by
      rw [length_callers]
      exact Nat.lt_of_lt_of_le member (size_le_length burst)
    have present := List.getElem?_eq_getElem inside
    generalize (s.moment n).callers[i] = stage at present
    -- Nobody holds the turn, so that nobody is in the middle of a rotation.
    have idle : stage.isBusy = false := by
      by_contra busy
      have turn := orderly.busy i member stage present (Bool.eq_true_of_not_eq_false busy)
      simp [held] at turn
    cases stage with
    | started =>
      cases looked : (s.moment n).current.live? now with
      | some key => exact ⟨.glance i now, _, .hit held present looked⟩
      | none => exact ⟨.glance i now, _, .miss held present looked⟩
    | waiting seen =>
      by_cases due : (s.moment n).current.generation = seen ∨ (s.moment n).current.live? now = none
      · exact ⟨.turn i now, _, .begin held present due⟩
      · obtain ⟨rotated, live⟩ := not_or.mp due
        obtain ⟨key, live⟩ := Option.ne_none_iff_exists'.mp live
        exact ⟨.turn i now, _, .lateHit held present rotated live⟩
    | generating => contradiction
    | storing key => contradiction
    | done result => exact absurd present (pending result)

/-- As long as somebody in the burst is not done, some later move can be made. -/
def Driven (s : RotationSchedule) (size : Nat) : Prop :=
  ∀ n, ¬ s.Settled size n → ∃ t, n ≤ t ∧ s.Makes t (s.moves t)

/-- Everybody in the burst comes to an end, as every move uses up one of finitely many. -/
theorem settles (driven : s.Driven size) (n : Nat) : ∃ t, n ≤ t ∧ s.Settled size t := by
  refine exists_of_falling (fun t => (s.moment t).remaining) (fun t => ?_) (fun t unsettled => ?_) n
  · obtain made | same := s.makes_or_same t
    · exact Nat.le_of_lt made.2.remaining_lt
    · rw [same]
  · obtain ⟨u, later, made⟩ := driven t unsettled
    exact ⟨u, later, made.2.remaining_lt⟩

/-! ## The count -/

theorem settled_count (burst : s.Burst size failures) {n : Nat} (settled : s.Settled size n) :
    (s.moment n).tally size RotationStage.isGiven +
      (s.moment n).tally size RotationStage.isRejected +
      (s.moment n).tally size RotationStage.isBarren = size := by
  have everybody : ((s.moment n).callers.take size).length = size := by
    rw [List.length_take, length_callers]
    exact Nat.min_eq_left (size_le_length burst)
  refine (length_eq_of_done fun stage member => ?_).trans everybody
  obtain ⟨i, inside, rfl⟩ := List.mem_take_iff_getElem.mp member
  obtain ⟨result, done⟩ := settled i (by omega)
  rw [List.getElem?_eq_getElem (by omega), Option.some.injEq] at done
  exact ⟨result, done⟩

theorem idle_of_settled (burst : s.Burst size failures) {n : Nat} (settled : s.Settled size n) :
    (s.moment n).holder = none := by
  cases held : (s.moment n).holder with
  | none => rfl
  | some i =>
    obtain ⟨result, done⟩ := settled i (burst.alone n i held)
    have busy := (orderly_moment burst n).turn i held
    simp [done] at busy

theorem oneRotation_of_settled (burst : s.Burst size failures) {n : Nat}
    (settled : s.Settled size n) :
    s.OneRotation size failures ((s.moment n).tally size RotationStage.isBarren) n := by
  have count := settled_count burst settled
  obtain trying | ⟨key, served⟩ := trying_or_served burst n
  · -- All keys that were handed over were refused: there were too few for the store to take one.
    have handed := trying.handed
    have within := trying.within
    rw [RotationRun.pending_of_idle (idle_of_settled burst settled)] at handed
    rw [trying.given] at count
    refine ⟨by omega, ?_, by omega, fun i member key got => ?_, ?_⟩
    · rw [trying.given]
      omega
    · have unmarked := RotationRun.kind_eq_false_of_tally_eq_zero trying.given member got
      contradiction
    · simp [trying.accepted]
  · have given := served.given
    have rejected := served.rejected
    have handed := served.handed
    have current : (s.moment n).current.value = some key := by rw [served.replaced]; rfl
    obtain ⟨ttl, accepted⟩ := served.accepted
    refine ⟨by omega, by omega, by omega, fun i member other got => ?_, ?_, ?_⟩
    · rw [served.same i member other got]
      exact current
    · simp [accepted]
    · intro record ttl' member
      rw [accepted, List.mem_singleton, Prod.mk.injEq] at member
      exact ⟨key, current, member.1⟩

/-- A burst leads to exactly one rotation, however its callers take turns.  While one of them is not
    done one of them can go on; if they do go on they all come to an end; and then the store's first
    faults were told to one caller each, all others have the key in the slot, and nothing else was
    handed to the store. -/
theorem one_rotation (burst : s.Burst size failures) :
    (∀ n, ¬ s.Settled size n → ∃ m r', (s.moment n).Change m r') ∧
    (s.Driven size → ∃ n, s.Settled size n) ∧
    ∀ n, s.Settled size n →
      s.OneRotation size failures ((s.moment n).tally size RotationStage.isBarren) n ∧
      ((∀ t now reason, ¬ s.Makes t (.generated now (.error reason))) →
        s.OneRotation size failures 0 n) := by
  refine ⟨fun n => exists_change burst (.ofSeconds 0), fun driven => ?_, fun n settled => ?_⟩
  · obtain ⟨n, _, settled⟩ := settles driven 0
    exact ⟨n, settled⟩
  · have counted := oneRotation_of_settled burst settled
    refine ⟨counted, fun fertile => ?_⟩
    rw [barren_eq_zero burst fertile n] at counted
    exact counted

/-- Nobody else rotates where everybody belongs to the burst. -/
theorem holder_lt_length (idle : s.start.holder = none) (n i : Nat)
    (held : (s.moment n).holder = some i) : i < s.start.callers.length := by
  rw [← s.length_callers n]
  induction n with
  | zero => exact absurd (idle.symm.trans held) nofun
  | succ n ih =>
    obtain made | same := s.makes_or_same n
    · obtain present | ⟨key, present⟩ := made.2.turn held <;>
        exact (List.getElem?_eq_some_iff.mp present).1
    · rw [same] at held ⊢
      exact ih held

/-- Three callers see an empty slot.  The store does not take the key of the first one; it takes
    that of the second one, which the third one is given as well. -/
def crowded : RotationSchedule where
  start := { config := { keyValidity := .ofSeconds 1 }, callers := [.started, .started, .started] }
  moves n :=
    [.glance 0 (.ofSeconds 0), .glance 1 (.ofSeconds 0), .glance 2 (.ofSeconds 0),
      .turn 0 (.ofSeconds 0), .generated (.ofSeconds 0) (.ok (⟨"a"⟩, ⟨33, 3, 7, 3, 11⟩)),
      .stored (.error (.unavailable "refused")), .turn 1 (.ofSeconds 0),
      .generated (.ofSeconds 0) (.ok (⟨"b"⟩, ⟨35, 5, 5, 5, 7⟩)),
      .stored (.ok ())].getD n (.turn 2 (.ofSeconds 0))

theorem crowded_over (n : Nat) : crowded.moment (n + 10) = crowded.moment 10 := by
  induction n with
  | zero => rfl
  | succ n ih =>
    show stateAt _ _ _ (n + 10 + 1) = _
    rw [stateAt_succ]
    exact (congrArg (fun r : RotationRun => r.advance (.turn 2 (.ofSeconds 0))) ih).trans rfl

theorem burst_crowded : crowded.Burst 3 1 where
  idle := rfl
  started i member := by
    match i with
    | 0 | 1 | 2 => rfl
  fresh := ⟨rfl, rfl⟩
  observed := by
    rintro n i - now ⟨tried, -⟩
    match n with
    | 0 | 1 | 2 => rfl
    | 3 | 4 | 5 | 6 | 7 | 8 => cases tried
    | n + 9 => simp [crowded] at tried
  alone n i := holder_lt_length rfl n i
  lasting := by
    rintro n i - now key ⟨tried, -⟩ replaced
    match n with
    | 0 | 1 | 2 | 4 | 5 | 7 | 8 => cases tried
    | 3 | 6 => exact absurd (congrArg Slot.generation replaced) nofun
    | 9 =>
      cases tried
      cases replaced
      rfl
    | n + 10 =>
      -- Nothing happens any more.
      simp only [crowded, List.getD] at tried
      cases tried
      rw [crowded_over] at replaced
      cases replaced
      rfl
  outage := by
    rintro n outcome ⟨tried, -⟩
    match n with
    | 0 | 1 | 2 | 3 | 4 | 6 | 7 => cases tried
    | 5 =>
      cases tried
      exact ⟨fun _ => by decide, fun _ => ⟨_, rfl⟩⟩
    | 8 =>
      cases tried
      exact ⟨nofun, fun early => absurd early (by decide)⟩
    | n + 9 => simp [crowded] at tried

theorem settled_crowded : crowded.Settled 3 10 := by
  intro i member
  match i with
  | 0 | 1 | 2 => exact ⟨_, rfl⟩

theorem driven_crowded : crowded.Driven 3 := by
  intro n unsettled
  by_cases early : n ≤ 9
  · exact ⟨9, early, rfl, RotationRun.change_of_step rfl⟩
  · obtain ⟨n, rfl⟩ := Nat.exists_eq_add_of_le' (Nat.lt_of_not_le early)
    exact absurd (fun i member => (crowded_over n).symm ▸ settled_crowded i member) unsettled

theorem one_rotation_crowded :
    crowded.Burst 3 1 ∧ crowded.Driven 3 ∧ (∃ n, crowded.Settled 3 n) ∧
      crowded.OneRotation 3 1 0 10 := by
  obtain ⟨_, settles, counted⟩ := one_rotation burst_crowded
  refine ⟨burst_crowded, driven_crowded, settles driven_crowded, (counted 10 settled_crowded).2 ?_⟩
  rintro n now reason ⟨tried, -⟩
  match n with
  | 0 | 1 | 2 | 3 | 4 | 5 | 6 | 7 | 8 => cases tried
  | n + 9 => simp [crowded] at tried

end RotationSchedule

end Tollgate
