import Mathlib.Algebra.Order.BigOperators.Group.Finset
import Mathlib.Data.Finset.Card
import Mathlib.Data.Nat.Count
import Tollgate.Proofs.Key.Freshness

/-! # What lookups cost the source of keys

However many lookups share a cache, and whatever the source answers, the source is asked as rarely
as can be: `LookupSchedule.economical` says that a lookup asks at most once, that one question is
answered before the next one is asked, that the generation of the cache counts the key sets, and
that the lookups whose first look was at one generation obtain at most one key set together.

Its last part counts what a `Burst` costs, many lookups that miss at one generation while the source
fails for some time.  Every failure is told to one lookup, the first key set ends the questions, and
every other lookup goes by that key set, whether it has the key or not.

The count goes along the moves.  Until the source hands out a key set, every question was answered
by a failure or waits for its answer (`Trying`); from then on the generation is past the one that
the lookups noted, so that nobody may ask again (`Served`).
-/

namespace Tollgate

/-! ## Tallies -/

namespace LookupStage

def isFailed : LookupStage → Bool
  | .done (.error (.provider _)) => true
  | _ => false

def remaining : LookupStage → Nat
  | .started => 3
  | .waiting _ => 2
  | .fetching => 1
  | .done _ => 0

end LookupStage

def resolutionIn (keys : KeyMap) (key : KeyId) : Resolution :=
  match Sorted.find? key keys with
  | some found => .ok found
  | none => .error (.notFound key)

theorem KeyCache.settle_ok (c : KeyCache) (key : KeyId) (keys : KeyMap) :
    (c.settle key (.ok keys)).1 = resolutionIn keys key := by
  simp only [KeyCache.settle, resolutionIn]
  cases Sorted.find? key keys <;> rfl

theorem isFailed_resolutionIn (keys : KeyMap) (key : KeyId) :
    (LookupStage.done (resolutionIn keys key)).isFailed = false := by
  unfold resolutionIn
  cases Sorted.find? key keys <;> rfl

namespace LookupRun

def failed (r : LookupRun) (members : Finset Nat) : Finset Nat :=
  members.filter fun i => ∃ l ∈ r.lookups[i]?, l.stage.isFailed = true

def pending (r : LookupRun) : Nat := if r.holder.isSome then 1 else 0

def left (r : LookupRun) (i : Nat) : Nat :=
  match r.lookups[i]? with
  | some l => l.stage.remaining
  | none => 0

def remaining (r : LookupRun) : Nat := ∑ i ∈ Finset.range r.lookups.length, r.left i

variable {r r' : LookupRun} {m : LookupMove} {members : Finset Nat}

theorem left_of_present {i : Nat} {l : Lookup} (present : r.lookups[i]? = some l) :
    r.left i = l.stage.remaining := by
  simp only [left, present]

theorem mem_failed_of_present {i : Nat} {l : Lookup} (present : r.lookups[i]? = some l) :
    i ∈ r.failed members ↔ i ∈ members ∧ l.stage.isFailed = true := by
  simp [failed, present]

theorem mem_failed_setStage_of_ne {i j : Nat} (different : i ≠ j) (stage : LookupStage) :
    j ∈ (r.setStage i stage).failed members ↔ j ∈ r.failed members := by
  simp only [failed, Finset.mem_filter, getElem?_setStage_of_ne different]

/-! ## What a move does to the tallies -/

namespace Change

theorem length_eq (change : r.Change m r') : r'.lookups.length = r.lookups.length := by
  cases change <;> exact List.length_modify _ _ _

theorem left_lt (change : r.Change m r') :
    (∃ i, i < r.lookups.length ∧ r'.left i < r.left i) ∧ ∀ j, r'.left j ≤ r.left j := by
  -- Only the lookup whose move it is comes to another stage, and that stage is a later one.
  have lowers : ∀ {i id old} {stage : LookupStage}, r.lookups[i]? = some ⟨id, old⟩ →
      stage.remaining < old.remaining → (r.setStage i stage).lookups = r'.lookups →
      (∃ i, i < r.lookups.length ∧ r'.left i < r.left i) ∧ ∀ j, r'.left j ≤ r.left j := by
    intro i id old stage present less same
    have mine : r'.lookups[i]? = some ⟨id, stage⟩ := by
      rw [← same]
      exact getElem?_setStage_self present stage
    have fell : r'.left i < r.left i := by
      rw [left_of_present mine, left_of_present present]
      exact less
    have inside : i < r.lookups.length := (List.getElem?_eq_some_iff.mp present).1
    refine ⟨⟨i, inside, fell⟩, fun j => ?_⟩
    by_cases other : i = j
    · subst other
      exact Nat.le_of_lt fell
    · apply Nat.le_of_eq
      unfold left
      rw [← same, getElem?_setStage_of_ne other]
  cases change with
  | _ _ present => exact lowers present (by simp [LookupStage.remaining]) rfl

theorem remaining_lt (change : r.Change m r') : r'.remaining < r.remaining := by
  obtain ⟨⟨i, inside, fell⟩, falls⟩ := change.left_lt
  unfold remaining
  rw [change.length_eq]
  exact Finset.sum_lt_sum (fun j _ => falls j) ⟨i, Finset.mem_range.mpr inside, fell⟩

theorem failed_eq (change : r.Change m r') (unfailing : ∀ fault, m ≠ .delivered (.error fault)) :
    r'.failed members = r.failed members := by
  have same : ∀ {i id old} {stage : LookupStage}, r.lookups[i]? = some ⟨id, old⟩ →
      old.isFailed = false → stage.isFailed = false →
      (r.setStage i stage).failed members = r.failed members := by
    intro i id old stage present before after
    ext j
    by_cases mine : i = j
    · subst mine
      rw [mem_failed_of_present present, mem_failed_of_present (getElem?_setStage_self present _)]
      simp [before, after]
    · exact mem_failed_setStage_of_ne mine stage
  cases change with
  | fail => exact absurd rfl (unfailing _)
  | refresh _ present =>
    refine same present rfl ?_
    rw [KeyCache.settle_ok]
    exact isFailed_resolutionIn _ _
  | _ _ present => exact same present rfl rfl

theorem card_failed {fault : ProviderFault} (change : r.Change (.delivered (.error fault)) r')
    (mine : ∀ i, r.holder = some i → i ∈ members) :
    (r'.failed members).card = (r.failed members).card + 1 := by
  cases change with
  | @fail i id _ held present =>
    have fresh : i ∉ r.failed members := by
      rw [mem_failed_of_present present]
      simp [LookupStage.isFailed]
    rw [← Finset.card_insert_of_notMem fresh]
    congr 1
    ext j
    by_cases same : i = j
    · subst same
      have now := getElem?_setStage_self present (.done (.error (.provider fault)))
      rw [Finset.mem_insert]
      refine (mem_failed_of_present now).trans ?_
      simp [mine i held, LookupStage.isFailed]
    · rw [Finset.mem_insert, or_iff_right (Ne.symm same)]
      exact mem_failed_setStage_of_ne same _

/-- Whoever asks waits, and nothing but an answer ends the wait. -/
theorem balance (change : r.Change m r') (unanswered : ∀ answer, m ≠ .delivered answer) :
    r'.fetches + r.pending = r.fetches + r'.pending := by
  cases change with
  | ask idle => simp [pending, idle]
  | fail => exact absurd rfl (unanswered _)
  | refresh => exact absurd rfl (unanswered _)
  | _ => rfl

theorem answered {answer : KeyAnswer} (change : r.Change (.delivered answer) r') :
    r.pending = 1 ∧ r'.holder = none ∧ r'.fetches = r.fetches := by
  cases change with
  | fail held => exact ⟨by simp [pending, held], rfl, rfl⟩
  | refresh held => exact ⟨by simp [pending, held], rfl, rfl⟩

/-! ## Who waits for the source -/

theorem delivered_of_held {i : Nat} (change : r.Change m r') (held : r.holder = some i) :
    ∃ answer, m = .delivered answer := by
  cases change with
  | fail => exact ⟨_, rfl⟩
  | refresh => exact ⟨_, rfl⟩
  | _ idle => simp [idle] at held

theorem asked {i : Nat} (change : r.Change (.turn i) r') (held : r'.holder = some i) :
    ∃ id seen, r.holder = none ∧ r.lookups[i]? = some ⟨id, .waiting seen⟩ ∧
      r.cache.generation = seen ∧
      r' = { r.setStage i .fetching with holder := some i, fetches := r.fetches + 1 } := by
  cases change with
  | ask idle present _ same => exact ⟨_, _, idle, present, same, rfl⟩
  | _ idle => simp [idle] at held

theorem fetching_of_held {i : Nat} (change : r.Change m r') (held : r'.holder = some i) :
    ∃ id, r'.lookups[i]? = some ⟨id, .fetching⟩ := by
  obtain ⟨rfl, _⟩ := change.holder_eq_some held
  obtain ⟨id, _, _, present, _, rfl⟩ := change.asked held
  exact ⟨id, getElem?_setStage_self present _⟩

theorem held_of_fetching {i : Nat} {id : KeyId} (change : r.Change m r')
    (before : ∀ id, r.lookups[i]? = some ⟨id, .fetching⟩ → r.holder = some i)
    (after : r'.lookups[i]? = some ⟨id, .fetching⟩) : r'.holder = some i := by
  cases change with
  | ask =>
    obtain still | ⟨rfl, _⟩ := of_getElem?_setStage after
    · have held := before id still
      simp_all
    · rfl
  | @fail j _ _ held present | @refresh j _ _ held present =>
    -- The one that waited is done.
    obtain still | ⟨_, staged, _⟩ := of_getElem?_setStage after
    · obtain rfl : i = j := Option.some.inj ((before id still).symm.trans held)
      rw [show ((_ : LookupRun).lookups[i]?) = _ from getElem?_setStage_self present _] at after
      cases after
    · cases staged
  | _ idle =>
    obtain still | ⟨_, staged, _⟩ := of_getElem?_setStage after
    · exact before id still
    · cases staged

theorem noted {i seen : Nat} {id : KeyId} (change : r.Change (.glance i) r')
    (waits : r'.lookups[i]? = some ⟨id, .waiting seen⟩) :
    r.cache.generation = seen ∧ Sorted.find? id r.cache.value = none := by
  cases change with
  | hit _ present =>
    rw [getElem?_setStage_self present] at waits
    cases waits
  | miss _ present missing =>
    rw [getElem?_setStage_self present] at waits
    cases waits
    exact ⟨rfl, missing⟩

theorem waiting_of_turn {i : Nat} {l : Lookup} (change : r.Change (.turn i) r')
    (present : r'.lookups[i]? = some l) : ∃ seen, r.lookups[i]? = some ⟨l.key, .waiting seen⟩ := by
  cases change with
  | _ _ before =>
    cases (getElem?_setStage_self before _).symm.trans present
    exact ⟨_, before⟩

/-- A lookup that is done was done before, or this move was the one that ended it. -/
theorem done_or_answers {i : Nat} {id : KeyId} {result : Resolution} (change : r.Change m r')
    (finished : r'.lookups[i]? = some ⟨id, .done result⟩) :
    r.lookups[i]? = some ⟨id, .done result⟩ ∨ r.Answers i id m result := by
  obtain ⟨old, present⟩ : ∃ old, r.lookups[i]? = some ⟨id, old⟩ := by
    cases change <;>
      obtain before | ⟨rfl, _, old, before⟩ := of_getElem?_setStage finished <;>
      exact ⟨_, before⟩
  by_cases ended : ∃ result, old = .done result
  · obtain ⟨result', rfl⟩ := ended
    rw [change.done present] at finished
    cases finished
    exact .inl present
  · exact .inr (change.answers present (fun result same => ended ⟨result, same⟩) finished)

end Change

end LookupRun

namespace LookupSchedule

/-! ## One question, one answer -/

variable {s : LookupSchedule}

theorem left_le {m n : Nat} (later : m ≤ n) (i : Nat) :
    (s.moment n).left i ≤ (s.moment m).left i := by
  induction later with
  | refl => exact Nat.le_refl _
  | @step n _ ih =>
    obtain made | same := s.makes_or_same n
    · exact Nat.le_trans (made.2.left_lt.2 i) ih
    · rw [Nat.succ_eq_add_one, same]
      exact ih

/-- What takes one of its moves from a lookup happens once. -/
theorem eq_of_spends {P : Nat → Prop} {i k a b : Nat}
    (spends : ∀ n, P n → (s.moment n).left i = k ∧ (s.moment (n + 1)).left i < k)
    (first : P a) (second : P b) : a = b := by
  obtain ⟨all, fewer⟩ := spends a first
  obtain ⟨all', fewer'⟩ := spends b second
  obtain earlier | same | later := Nat.lt_trichotomy a b
  · have fell := left_le (s := s) (show a + 1 ≤ b by omega) i
    omega
  · exact same
  · have fell := left_le (s := s) (show b + 1 ≤ a by omega) i
    omega

theorem begins_unique {i a b : Nat} (begun : s.Begins i a) (begun' : s.Begins i b) : a = b := by
  have spends : ∀ n, s.Begins i n → (s.moment n).left i = 3 ∧ (s.moment (n + 1)).left i < 3 := by
    intro n begun
    have change := begun.2
    generalize s.moment (n + 1) = r' at change ⊢
    cases change with
    | hit _ present | miss _ present =>
      rw [LookupRun.left_of_present present]
      refine ⟨rfl, ?_⟩
      rw [LookupRun.left_of_present (LookupRun.getElem?_setStage_self present _)]
      simp [LookupStage.remaining]
  exact eq_of_spends spends begun begun'

theorem asks_unique {i a b : Nat} (asked : s.Asks i a) (asked' : s.Asks i b) : a = b := by
  have spends : ∀ n, s.Asks i n → (s.moment n).left i = 2 ∧ (s.moment (n + 1)).left i < 2 := by
    intro n asked
    obtain ⟨id, seen, _, present, _, next⟩ := asked.1.2.asked asked.2
    have now : (s.moment (n + 1)).lookups[i]? = some ⟨id, .fetching⟩ := by
      rw [next]
      exact LookupRun.getElem?_setStage_self present _
    rw [LookupRun.left_of_present present, LookupRun.left_of_present now]
    simp [LookupStage.remaining]
  exact eq_of_spends spends asked asked'

/-- A lookup that asked waits until its answer is there. -/
theorem held_or_answered {i a n : Nat} (asked : s.Asks i a) (later : a < n) :
    (s.moment n).holder = some i ∨
      ∃ o answer, a < o ∧ o < n ∧ s.Makes o (.delivered answer) ∧ (s.moment o).holder = some i := by
  induction later with
  | refl => exact .inl asked.2
  | @step n later ih =>
    obtain held | ⟨o, answer, after, before, answered⟩ := ih
    · obtain made | same := s.makes_or_same n
      · obtain ⟨answer, moved⟩ := made.2.delivered_of_held held
        rw [moved] at made
        exact .inr ⟨n, answer, later, Nat.lt_succ_self n, made, held⟩
      · rw [← same] at held
        exact .inl held
    · exact .inr ⟨o, answer, after, Nat.lt_succ_of_lt before, answered⟩

/-- The answer to a question is there before anybody asks the next one. -/
theorem answered_between {i j a c : Nat} (asked : s.Asks i a) (next : s.Asks j c) (later : a < c) :
    ∃ o answer, a < o ∧ o < c ∧ s.Makes o (.delivered answer) ∧ (s.moment o).holder = some i := by
  obtain held | answered := held_or_answered asked later
  · obtain ⟨_, _, idle, _⟩ := next.1.2.asked next.2
    rw [idle] at held
    contradiction
  · exact answered

theorem fetching_of_held {i n : Nat} (held : (s.moment n).holder = some i) :
    ∃ key, (s.moment n).lookups[i]? = some ⟨key, .fetching⟩ := by
  induction n with
  | zero => contradiction
  | succ n ih =>
    obtain made | same := s.makes_or_same n
    · exact made.2.fetching_of_held held
    · rw [same] at held ⊢
      exact ih held

theorem held_of_fetching {i n : Nat} {key : KeyId}
    (fetching : (s.moment n).lookups[i]? = some ⟨key, .fetching⟩) :
    (s.moment n).holder = some i := by
  induction n generalizing key with
  | zero => simp [moment, stateAt] at fetching
  | succ n ih =>
    obtain made | same := s.makes_or_same n
    · exact made.2.held_of_fetching (fun _ before => ih before) fetching
    · rw [same] at fetching ⊢
      exact ih fetching

/-! ## What the generation counts -/

theorem generation_of_obtained {i n : Nat} {keys : KeyMap} (obtained : s.Obtains i keys n) :
    (s.moment (n + 1)).cache.generation = (s.moment n).cache.generation + 1 := by
  obtain ⟨replaced, _⟩ := obtained.1.2.refreshed
  rw [replaced]
  rfl

open Classical in
theorem generation_eq_count (s : LookupSchedule) (n : Nat) :
    (s.moment n).cache.generation = Nat.count (fun t => ∃ i keys, s.Obtains i keys t) n := by
  induction n with
  | zero => rfl
  | succ n ih =>
    rw [Nat.count_succ, ← ih]
    split
    · next obtained =>
      obtain ⟨i, keys, obtained⟩ := obtained
      exact generation_of_obtained obtained
    · next silent =>
      rw [cache_eq_of_silent fun i keys obtained => silent ⟨i, keys, obtained⟩]
      rfl

theorem generation_le {m n : Nat} (later : m ≤ n) :
    (s.moment m).cache.generation ≤ (s.moment n).cache.generation := by
  classical
  rw [generation_eq_count, generation_eq_count]
  exact Nat.count_monotone _ later

open Classical in
theorem fetches_eq_count (s : LookupSchedule) (n : Nat) :
    (s.moment n).fetches = Nat.count (fun t => ∃ i, s.Asks i t) n := by
  induction n with
  | zero => rfl
  | succ n ih =>
    rw [Nat.count_succ, ← ih]
    split
    · next asked =>
      obtain ⟨i, asked⟩ := asked
      obtain ⟨_, _, _, _, _, next⟩ := asked.1.2.asked asked.2
      rw [next]
    · next unasked =>
      obtain made | same := s.makes_or_same n
      · have change := made.2
        generalize moved : s.moves n = m at change
        generalize next : s.moment (n + 1) = r' at change ⊢
        cases change with
        | @ask i =>
          -- This is the only move that is a question.
          refine absurd ⟨i, ?_, ?_⟩ unasked
          · rw [← moved]
            exact made
          · rw [next]
        | _ => rfl
      · rw [same]
        rfl

/-- What a lookup obtains it obtains at the generation of its first look. -/
theorem generation_of_obtains {i b o : Nat} {keys : KeyMap} (begun : s.Begins i b)
    (obtained : s.Obtains i keys o) :
    (s.moment o).cache.generation = (s.moment b).cache.generation := by
  obtain ⟨a, earlier, asked, still⟩ := held_since obtained.2
  obtain ⟨id, seen, _, waits, same, next⟩ := asked.1.2.asked asked.2
  obtain ⟨b', _, begun', noted⟩ := begins_of_waiting waits
  obtain rfl := begins_unique begun begun'
  rw [← still (a + 1) (Nat.lt_succ_self a) earlier, next]
  exact same.trans noted.symm

/-- Lookups that began at one generation obtain at most one key set together. -/
theorem obtains_unique {i j b c o p : Nat} {keys keys' : KeyMap} (begun : s.Begins i b)
    (begun' : s.Begins j c)
    (together : (s.moment b).cache.generation = (s.moment c).cache.generation)
    (obtained : s.Obtains i keys o) (obtained' : s.Obtains j keys' p) : i = j ∧ o = p := by
  have first := generation_of_obtains begun obtained
  have second := generation_of_obtains begun' obtained'
  -- The generation goes on as soon as one of them obtains a key set.
  have passed := generation_of_obtained obtained
  have passed' := generation_of_obtained obtained'
  obtain earlier | rfl | later := Nat.lt_trichotomy o p
  · have rises := generation_le (s := s) (show o + 1 ≤ p by omega)
    omega
  · exact ⟨Option.some.inj (obtained.2.symm.trans obtained'.2), rfl⟩
  · have rises := generation_le (s := s) (show p + 1 ≤ o by omega)
    omega

/-! ## The burst -/

/-- From a moment on some lookups begin, all of them miss at the generation of that moment, nobody
    else asks the source, and it fails for its first questions from there on. -/
structure Burst (s : LookupSchedule) (b : Nat) (members : Finset Nat) (failures : Nat) : Prop where
  started : ∀ i ∈ members, ∃ key, (s.moment b).lookups[i]? = some ⟨key, .started⟩
  missed : ∀ n, ∀ i ∈ members, s.Begins i n → ∃ key, (s.moment (n + 1)).lookups[i]? =
    some ⟨key, .waiting (s.moment b).cache.generation⟩
  alone : ∀ n, b ≤ n → ∀ i, (s.moment n).holder = some i → i ∈ members
  outage : ∀ n, b ≤ n → ∀ answer, s.Makes n (.delivered answer) →
    ((∃ fault, answer = .error fault) ↔ (s.moment n).fetches ≤ (s.moment b).fetches + failures)

def Settled (s : LookupSchedule) (members : Finset Nat) (n : Nat) : Prop :=
  ∀ i ∈ members, ∃ key result, (s.moment n).lookups[i]? = some ⟨key, .done result⟩

/-- As long as somebody in the burst has no result, some later move can be made. -/
def Driven (s : LookupSchedule) (members : Finset Nat) : Prop :=
  ∀ n, ¬s.Settled members n → ∃ t, n ≤ t ∧ s.Makes t (s.moves t)

def OnlySet (s : LookupSchedule) (b n : Nat) (keys : KeyMap) : Prop :=
  ∃ i o, b ≤ o ∧ o < n ∧ s.Obtains i keys o ∧
    ∀ t, b ≤ t → t < n → ∀ j keys', s.Obtains j keys' t → t = o

/-- What comes of a burst. -/
structure OneFetch (s : LookupSchedule) (b : Nat) (members : Finset Nat) (failures n : Nat) :
    Prop where
  asked : (s.moment n).fetches = (s.moment b).fetches + min (failures + 1) members.card
  failed : ((s.moment n).failed members).card = min failures members.card
  served : ∀ i ∈ members, i ∉ (s.moment n).failed members →
    ∃ key keys, (s.moment n).lookups[i]? = some ⟨key, .done (resolutionIn keys key)⟩ ∧
      s.OnlySet b n keys

structure Trying (s : LookupSchedule) (b : Nat) (members : Finset Nat) (failures : Nat)
    (r : LookupRun) : Prop where
  unchanged : r.cache = (s.moment b).cache
  asked : r.fetches = (s.moment b).fetches + (r.failed members).card + r.pending
  within : (r.failed members).card ≤ failures
  results : ∀ i ∈ members, ∀ key result, r.lookups[i]? = some ⟨key, .done result⟩ →
    i ∈ r.failed members

structure Served (s : LookupSchedule) (b : Nat) (members : Finset Nat) (failures : Nat)
    (keys : KeyMap) (r : LookupRun) : Prop where
  replaced : r.cache = (s.moment b).cache.replace keys
  idle : r.holder = none
  asked : r.fetches = (s.moment b).fetches + failures + 1
  failed : (r.failed members).card = failures
  larger : failures < members.card
  results : ∀ i ∈ members, i ∉ r.failed members → ∀ key result,
    r.lookups[i]? = some ⟨key, .done result⟩ → result = resolutionIn keys key

variable {b : Nat} {members : Finset Nat} {failures : Nat}

theorem Quiet.onlySet {i n : Nat} {keys : KeyMap} (quiet : s.Quiet b n) (later : b ≤ n)
    (obtained : s.Obtains i keys n) : s.OnlySet b (n + 1) keys := by
  refine ⟨i, n, later, Nat.lt_succ_self n, obtained, fun t since before j keys' obtained' => ?_⟩
  obtain earlier | rfl := Nat.lt_succ_iff_lt_or_eq.mp before
  · exact absurd obtained' (quiet t since earlier j keys')
  · rfl

theorem OnlySet.succ {n : Nat} {keys : KeyMap} (only : s.OnlySet b n keys)
    (silent : ∀ i keys, ¬s.Obtains i keys n) : s.OnlySet b (n + 1) keys := by
  obtain ⟨i, o, since, before, obtained, single⟩ := only
  refine ⟨i, o, since, by omega, obtained, fun t since' before' j keys' obtained' => ?_⟩
  obtain earlier | rfl := Nat.lt_succ_iff_lt_or_eq.mp before'
  · exact single t since' earlier j keys' obtained'
  · exact absurd obtained' (silent j keys')

theorem cache_eq_of_generation_eq {n : Nat} (later : b ≤ n)
    (same : (s.moment n).cache.generation = (s.moment b).cache.generation) :
    (s.moment n).cache = (s.moment b).cache := by
  refine cache_eq_of_quiet later fun t since before i keys obtained => ?_
  have passed := generation_of_obtained obtained
  have rose := generation_le (s := s) since
  have rises := generation_le (s := s) (show t + 1 ≤ n from before)
  omega

/-- Whoever of the burst waits noted the generation of its beginning, and the cache of that moment
    lacks its key. -/
theorem missed_of_waiting (burst : s.Burst b members failures) {i seen n : Nat} {key : KeyId}
    (member : i ∈ members) (waits : (s.moment n).lookups[i]? = some ⟨key, .waiting seen⟩) :
    seen = (s.moment b).cache.generation ∧ Sorted.find? key (s.moment b).cache.value = none := by
  induction n with
  | zero => simp [moment, stateAt] at waits
  | succ n ih =>
    obtain made | same := s.makes_or_same n
    · obtain before | ⟨glanced, _⟩ := made.2.waiting waits
      · exact ih before
      · rw [glanced] at made
        obtain ⟨generation, missing⟩ := made.2.noted waits
        obtain ⟨key', noted⟩ := burst.missed n i member made
        rw [waits] at noted
        cases noted
        -- The burst began before this first look, as the lookup had not had it by then.
        have later : b ≤ n := by
          obtain ⟨_, unbegun⟩ := burst.started i member
          refine Nat.le_of_not_lt fun earlier => ?_
          have spent := left_le (s := s) (show n + 1 ≤ b from earlier) i
          rw [LookupRun.left_of_present unbegun, LookupRun.left_of_present waits] at spent
          simp [LookupStage.remaining] at spent
        rw [cache_eq_of_generation_eq later generation] at missing
        exact ⟨rfl, missing⟩
    · rw [same] at waits
      exact ih waits

theorem trying_start (burst : s.Burst b members failures) :
    s.Trying b members failures (s.moment b) := by
  have nobody : (s.moment b).failed members = ∅ := by
    refine Finset.filter_eq_empty_iff.mpr fun i member => ?_
    obtain ⟨key, present⟩ := burst.started i member
    simp [present, LookupStage.isFailed]
  have idle : (s.moment b).holder = none := by
    cases held : (s.moment b).holder with
    | none => rfl
    | some i =>
      obtain ⟨_, fetching⟩ := fetching_of_held held
      obtain ⟨_, present⟩ := burst.started i (burst.alone b (Nat.le_refl b) i held)
      rw [present] at fetching
      cases fetching
  refine ⟨rfl, ?_, ?_, fun i member key result finished => ?_⟩
  · simp [nobody, LookupRun.pending, idle]
  · simp [nobody]
  · obtain ⟨_, present⟩ := burst.started i member
    rw [present] at finished
    cases finished

/-- A key set ends the time of trying, if the source has failed often enough by then. -/
theorem Trying.served {n : Nat} {keys : KeyMap} (burst : s.Burst b members failures)
    (later : b ≤ n) (trying : s.Trying b members failures (s.moment n))
    (made : s.Makes n (.delivered (.ok keys))) :
    s.Served b members failures keys (s.moment (n + 1)) := by
  obtain ⟨replaced, i, id, held, fetching, _⟩ := made.2.refreshed
  obtain ⟨waited, idle, asked⟩ := made.2.answered
  have same : (s.moment (n + 1)).failed members = (s.moment n).failed members :=
    made.2.failed_eq (by simp)
  -- The source was asked once more than it failed, and it fails no more.
  have counted := trying.asked
  have within := trying.within
  have late : ¬(s.moment n).fetches ≤ (s.moment b).fetches + failures :=
    fun early => absurd ((burst.outage n later _ made).mpr early) nofun
  have failed : ((s.moment n).failed members).card = failures := by omega
  refine ⟨?_, idle, by omega, ?_, ?_, fun j member spared key result finished => ?_⟩
  · rw [replaced, trying.unchanged]
  · rw [same, failed]
  · -- The one that obtained the key set is not among those that the source failed.
    have member := burst.alone n later i held
    have spared : i ∉ (s.moment n).failed members := by
      rw [LookupRun.mem_failed_of_present fetching]
      simp [LookupStage.isFailed]
    have fewer := Finset.card_lt_card
      ((Finset.ssubset_iff_of_subset (Finset.filter_subset _ _)).mpr ⟨i, member, spared⟩)
    rw [← failed]
    exact fewer
  · rw [same] at spared
    obtain before | answers := made.2.done_or_answers finished
    · exact absurd (trying.results j member key result before) spared
    · unfold resolutionIn
      cases answers with
      | cached mine => simp at mine
      | handed _ found => rw [found]
      | lacking _ missing => rw [missing]

/-- Until then a move tells nobody anything but a failure of the source. -/
theorem Trying.keep {n : Nat} {m : LookupMove} (burst : s.Burst b members failures)
    (later : b ≤ n) (trying : s.Trying b members failures (s.moment n)) (made : s.Makes n m)
    (withheld : ∀ keys, m ≠ .delivered (.ok keys)) :
    s.Trying b members failures (s.moment (n + 1)) := by
  have unchanged := trying.unchanged
  have counted := trying.asked
  have ⟨asked, within⟩ : (s.moment (n + 1)).fetches = (s.moment b).fetches +
      ((s.moment (n + 1)).failed members).card + (s.moment (n + 1)).pending ∧
      ((s.moment (n + 1)).failed members).card ≤ failures := by
    -- The books balance: a fault that is delivered makes a failed fetch of the pending one, and
    -- no other move changes who has failed.
    by_cases answered : ∃ answer, m = .delivered answer
    · obtain ⟨answer, rfl⟩ := answered
      cases answer with
      | ok keys => exact absurd rfl (withheld keys)
      | error fault =>
        obtain ⟨waited, idle, same⟩ := made.2.answered
        have more := made.2.card_failed (burst.alone n later)
        have early := (burst.outage n later _ made).mp ⟨fault, rfl⟩
        have quiet : (s.moment (n + 1)).pending = 0 := by simp [LookupRun.pending, idle]
        omega
    · have unanswered : ∀ answer, m ≠ .delivered answer := fun answer same =>
        answered ⟨answer, same⟩
      have balance := made.2.balance unanswered
      have within := trying.within
      rw [made.2.failed_eq fun fault => unanswered _]
      omega
  refine ⟨?_, asked, within, fun i member key result finished => ?_⟩
  · rw [made.2.cache_eq withheld, unchanged]
  rw [LookupRun.mem_failed_of_present finished]
  refine ⟨member, ?_⟩
  obtain before | answers := made.2.done_or_answers finished
  · have failed := trying.results i member key result before
    rw [LookupRun.mem_failed_of_present before] at failed
    exact failed.2
  · cases answers with
    | cached mine found =>
      obtain rfl | rfl := mine
      · -- The first look misses.
        obtain ⟨_, noted⟩ := burst.missed n i member made
        rw [finished] at noted
        cases noted
      · obtain ⟨seen, waits⟩ := made.2.waiting_of_turn finished
        obtain ⟨_, missing⟩ := missed_of_waiting burst member waits
        rw [unchanged, missing] at found
        contradiction
    | outrun waits _ refreshed =>
      obtain ⟨noted, _⟩ := missed_of_waiting burst member waits
      rw [unchanged, noted] at refreshed
      exact absurd rfl refreshed
    | failed => rfl
    | handed => exact absurd rfl (withheld _)
    | lacking => exact absurd rfl (withheld _)

/-- After a key set nobody asks, and whoever comes to a result goes by that key set. -/
theorem Served.keep {n : Nat} {m : LookupMove} {keys : KeyMap}
    (burst : s.Burst b members failures) (later : b ≤ n)
    (served : s.Served b members failures keys (s.moment n)) (made : s.Makes n m) :
    s.Served b members failures keys (s.moment (n + 1)) := by
  have unanswered : ∀ answer, m ≠ .delivered answer := by
    rintro answer rfl
    have waited := made.2.answered.1
    simp [LookupRun.pending, served.idle] at waited
  have same : (s.moment (n + 1)).failed members = (s.moment n).failed members :=
    made.2.failed_eq fun fault => unanswered _
  -- Whoever could ask noted the generation of the beginning, and that has passed.
  have idle : (s.moment (n + 1)).holder = none := by
    cases held : (s.moment (n + 1)).holder with
    | none => rfl
    | some i =>
      obtain ⟨rfl, _⟩ := made.2.holder_eq_some held
      obtain ⟨id, seen, _, waits, current, _⟩ := made.2.asked held
      have member := burst.alone (n + 1) (by omega) i held
      obtain ⟨noted, _⟩ := missed_of_waiting burst member waits
      rw [served.replaced, noted] at current
      simp [Slot.replace] at current
  have balance := made.2.balance unanswered
  have asked := served.asked
  have quiet : (s.moment n).pending = 0 ∧ (s.moment (n + 1)).pending = 0 := by
    simp [LookupRun.pending, idle, served.idle]
  refine ⟨?_, idle, by omega, ?_, served.larger, fun j member spared key result finished => ?_⟩
  · rw [made.2.cache_eq fun keys => unanswered _, served.replaced]
  · rw [same, served.failed]
  · rw [same] at spared
    obtain before | answers := made.2.done_or_answers finished
    · exact served.results j member spared key result before
    · have holds : (s.moment n).cache.value = keys := by
        rw [served.replaced]
        rfl
      unfold resolutionIn
      cases answers with
      | cached _ found =>
        rw [holds] at found
        rw [found]
      | outrun _ missing =>
        rw [holds] at missing
        rw [missing]
      | failed => exact absurd rfl (unanswered _)
      | handed => exact absurd rfl (unanswered _)
      | lacking => exact absurd rfl (unanswered _)

theorem trying_or_served (burst : s.Burst b members failures) {n : Nat} (later : b ≤ n) :
    (s.Quiet b n ∧ s.Trying b members failures (s.moment n)) ∨
      ∃ keys, s.OnlySet b n keys ∧ s.Served b members failures keys (s.moment n) := by
  induction later with
  | refl => exact .inl ⟨fun t since before => by omega, trying_start burst⟩
  | @step n later ih =>
    -- The first key set that is obtained ends the trying, and a second is never asked for.
    by_cases obtained : ∃ i keys, s.Obtains i keys n
    · obtain ⟨i, keys, obtained⟩ := obtained
      obtain ⟨quiet, trying⟩ | ⟨_, _, served⟩ := ih
      · exact .inr ⟨keys, quiet.onlySet later obtained, trying.served burst later obtained.1⟩
      · have held := obtained.2
        rw [served.idle] at held
        contradiction
    · have silent : ∀ i keys, ¬s.Obtains i keys n := fun i keys now => obtained ⟨i, keys, now⟩
      obtain made | same := s.makes_or_same n
      · obtain ⟨quiet, trying⟩ | ⟨keys, only, served⟩ := ih
        · refine .inl ⟨quiet.succ silent, trying.keep burst later made fun keys handed => ?_⟩
          rw [handed] at made
          obtain ⟨_, i, _, held, _⟩ := made.2.refreshed
          exact silent i keys ⟨made, held⟩
        · exact .inr ⟨keys, only.succ silent, served.keep burst later made⟩
      · rw [Nat.succ_eq_add_one, same]
        obtain ⟨quiet, trying⟩ | ⟨keys, only, served⟩ := ih
        · exact .inl ⟨quiet.succ silent, trying⟩
        · exact .inr ⟨keys, only.succ silent, served⟩

/-! ## Every burst settles -/

theorem length_lookups (s : LookupSchedule) (n : Nat) :
    (s.moment n).lookups.length = s.keys.length := by
  induction n with
  | zero => simp [moment, stateAt]
  | succ n ih =>
    obtain made | same := s.makes_or_same n
    · rw [made.2.length_eq, ih]
    · rw [same, ih]

/-- There is no deadlock: while somebody has no result, somebody can go on. -/
theorem exists_change (burst : s.Burst b members failures) {n : Nat}
    (unsettled : ¬s.Settled members n) : ∃ m r', (s.moment n).Change m r' := by
  cases held : (s.moment n).holder with
  | some i =>
    obtain ⟨key, fetching⟩ := fetching_of_held held
    exact ⟨.delivered (.error (.unavailable "")), _, .fail held fetching⟩
  | none =>
    simp only [Settled, not_forall, not_exists] at unsettled
    obtain ⟨i, member, pending⟩ := unsettled
    have inside : i < (s.moment n).lookups.length := by
      obtain ⟨_, started⟩ := burst.started i member
      rw [length_lookups, ← length_lookups s b]
      exact (List.getElem?_eq_some_iff.mp started).1
    have present := List.getElem?_eq_getElem inside
    generalize (s.moment n).lookups[i] = l at present
    obtain ⟨key, stage⟩ := l
    cases stage with
    | started =>
      cases looked : Sorted.find? key (s.moment n).cache.value with
      | some found => exact ⟨.glance i, _, .hit held present looked⟩
      | none => exact ⟨.glance i, _, .miss held present looked⟩
    | waiting seen =>
      cases looked : Sorted.find? key (s.moment n).cache.value with
      | some found => exact ⟨.turn i, _, .lateHit held present looked⟩
      | none =>
        by_cases same : (s.moment n).cache.generation = seen
        · exact ⟨.turn i, _, .ask held present looked same⟩
        · exact ⟨.turn i, _, .lateMiss held present looked same⟩
    | fetching =>
      -- Whoever fetches holds the turn.
      rw [held_of_fetching present] at held
      contradiction
    | done result => exact absurd present (pending key result)

theorem settles (driven : s.Driven members) (n : Nat) : ∃ t, n ≤ t ∧ s.Settled members t := by
  refine exists_of_falling (fun t => (s.moment t).remaining) (fun t => ?_) (fun t unsettled => ?_) n
  · obtain made | same := s.makes_or_same t
    · exact Nat.le_of_lt made.2.remaining_lt
    · rw [same]
  · obtain ⟨u, later, made⟩ := driven t unsettled
    exact ⟨u, later, made.2.remaining_lt⟩

theorem oneFetch_of_settled (burst : s.Burst b members failures) {n : Nat} (later : b ≤ n)
    (settled : s.Settled members n) : s.OneFetch b members failures n := by
  obtain ⟨_, trying⟩ | ⟨keys, only, served⟩ := trying_or_served burst later
  · -- There were too few of them for the source to hand out a key set.
    have everybody : (s.moment n).failed members = members := by
      refine Finset.filter_eq_self.mpr fun i member => ?_
      obtain ⟨key, result, finished⟩ := settled i member
      exact (Finset.mem_filter.mp (trying.results i member key result finished)).2
    -- Whoever holds the lock is a member, and all of them are done.
    have quiet : (s.moment n).pending = 0 := by
      cases held : (s.moment n).holder with
      | none => simp [LookupRun.pending, held]
      | some i =>
        obtain ⟨_, fetching⟩ := fetching_of_held held
        obtain ⟨_, _, finished⟩ := settled i (burst.alone n later i held)
        rw [fetching] at finished
        cases finished
    have asked := trying.asked
    have within := trying.within
    rw [everybody] at asked within
    refine ⟨by omega, ?_, fun i member spared => ?_⟩
    · rw [everybody]
      omega
    · rw [everybody] at spared
      exact absurd member spared
  · have asked := served.asked
    have failed := served.failed
    have larger := served.larger
    refine ⟨by omega, by omega, fun i member spared => ?_⟩
    obtain ⟨key, result, finished⟩ := settled i member
    rw [served.results i member spared key result finished] at finished
    exact ⟨key, keys, finished, only⟩

/-! ## The economy -/

open Classical in
structure Economical (s : LookupSchedule) : Prop where
  once : ∀ i a b, s.Asks i a → s.Asks i b → a = b
  /-- Between two questions the first one is answered. -/
  apart : ∀ i j a c, s.Asks i a → s.Asks j c → a < c →
    ∃ o answer, a < o ∧ o < c ∧ s.Makes o (.delivered answer) ∧ (s.moment o).holder = some i
  asked : ∀ n, (s.moment n).fetches = Nat.count (fun t => ∃ i, s.Asks i t) n
  generation : ∀ n,
    (s.moment n).cache.generation = Nat.count (fun t => ∃ i keys, s.Obtains i keys t) n
  /-- Of those that had their first look at one generation at most one obtains a key set. -/
  single : ∀ i j b c o p keys keys', s.Begins i b → s.Begins j c →
    (s.moment b).cache.generation = (s.moment c).cache.generation →
    s.Obtains i keys o → s.Obtains j keys' p → i = j ∧ o = p
  /-- A burst does not get stuck, and when it is over it has cost one fetch and its failures. -/
  burst : ∀ b members failures, s.Burst b members failures →
    (∀ n, ¬s.Settled members n → ∃ m r', (s.moment n).Change m r') ∧
    (s.Driven members → ∃ n, b ≤ n ∧ s.Settled members n) ∧
    ∀ n, b ≤ n → s.Settled members n → s.OneFetch b members failures n

/-- However lookups take turns, and whatever the source answers, they spare the source. -/
theorem economical (s : LookupSchedule) : s.Economical where
  once _ _ _ := asks_unique
  apart _ _ _ _ := answered_between
  asked := fetches_eq_count s
  generation := generation_eq_count s
  single _ _ _ _ _ _ _ _ := obtains_unique
  burst b _ _ burst := ⟨fun _ => exists_change burst, fun driven => settles driven b,
    fun _ => oneFetch_of_settled burst⟩

/-- Three lookups miss in a cache that was refreshed before.  The source fails the first one; it
    hands the second one a key set that lacks its key but has that of the third one. -/
def stampede : LookupSchedule where
  keys := [⟨"a"⟩, ⟨"a"⟩, ⟨"b"⟩, ⟨"a"⟩]
  moves n :=
    [.glance 0, .turn 0, .delivered (.ok []), .glance 1, .glance 2, .glance 3, .turn 1,
      .delivered (.error (.unavailable "refused")), .turn 2,
      .delivered (.ok [(⟨"a"⟩, ⟨33, 3⟩)])].getD n (.turn 3)

theorem stampede_over (n : Nat) : stampede.moment (n + 11) = stampede.moment 11 := by
  induction n with
  | zero => rfl
  | succ n ih =>
    show stateAt _ _ _ (n + 11 + 1) = _
    rw [stateAt_succ]
    exact (congrArg (fun r : LookupRun => r.advance (.turn 3)) ih).trans rfl

theorem burst_stampede : stampede.Burst 3 {1, 2, 3} 1 where
  started i member := by
    simp only [Finset.mem_insert, Finset.mem_singleton] at member
    obtain rfl | rfl | rfl := member <;> exact ⟨_, rfl⟩
  missed := by
    rintro n i member ⟨tried, -⟩
    simp only [Finset.mem_insert, Finset.mem_singleton] at member
    match n with
    | 0 =>
      cases tried
      omega
    | 3 | 4 | 5 =>
      cases tried
      exact ⟨_, rfl⟩
    | 1 | 2 | 6 | 7 | 8 | 9 => cases tried
    | n + 10 => simp [stampede] at tried
  alone n later i held := by
    match n with
    | 7 | 9 =>
      cases held
      decide
    | 3 | 4 | 5 | 6 | 8 | 10 => cases held
    | n + 11 =>
      rw [stampede_over] at held
      cases held
  outage := by
    rintro n later answer ⟨tried, -⟩
    match n with
    | 3 | 4 | 5 | 6 | 8 => cases tried
    | 7 =>
      cases tried
      exact ⟨fun _ => by decide, fun _ => ⟨_, rfl⟩⟩
    | 9 =>
      cases tried
      exact ⟨nofun, fun early => absurd early (by decide)⟩
    | n + 10 => simp [stampede] at tried

theorem settled_stampede : stampede.Settled {1, 2, 3} 11 := by
  intro i member
  simp only [Finset.mem_insert, Finset.mem_singleton] at member
  obtain rfl | rfl | rfl := member <;> exact ⟨_, _, rfl⟩

theorem economical_stampede :
    stampede.Burst 3 {1, 2, 3} 1 ∧ stampede.Settled {1, 2, 3} 11 ∧
      stampede.OneFetch 3 {1, 2, 3} 1 11 :=
  ⟨burst_stampede, settled_stampede,
    ((economical stampede).burst 3 _ 1 burst_stampede).2.2 11 (by omega) settled_stampede⟩

end LookupSchedule

end Tollgate
