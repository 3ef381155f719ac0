import Tollgate.Key.Directory

/-! # What a lookup of a key can do

A lookup that nobody interrupts is characterised by `KeyCache.resolve_eq_ok_iff`.  For lookups
under way at the same time, `LookupRun.Change` lists everything that a move can do, with what has
to hold for it; `LookupRun.step_eq_some_iff` shows that the list is complete.  Later proofs take a
move apart by its cases and never open `LookupRun.step`.
-/

namespace Tollgate

theorem of_getElem?_modify {α : Type} {l : List α} {f : α → α} {i j : Nat} {a : α}
    (present : (l.modify i f)[j]? = some a) :
    l[j]? = some a ∨ j = i ∧ ∃ old, l[i]? = some old ∧ f old = a := by
  by_cases same : i = j
  · subst same
    simp only [List.getElem?_modify_eq, Option.map_eq_map, Option.map_eq_some_iff] at present
    exact .inr ⟨rfl, present⟩
  · rw [List.getElem?_modify_ne f l same] at present
    exact .inl present

/-! ## One lookup -/

namespace KeyCache

/-- A cache with the answer of the key source leads to a key: the key is in the cache, or it is
    in the key set that the source hands out. -/
def Yields (c : KeyCache) (answer : KeyAnswer) (id : KeyId) (key : Rsa.PublicKey) : Prop :=
  Sorted.find? id c.value = some key ∨
    Sorted.find? id c.value = none ∧
      ∃ keys, answer = .ok keys ∧ Sorted.find? id keys = some key

/-- Where nobody interrupts, keys are fetched if and only if the key is not in the cache. -/
theorem resolve_eq (c : KeyCache) (id : KeyId) (answer : KeyAnswer) :
    c.resolve id answer =
      match Sorted.find? id c.value with
      | some key => (.ok key, c, false)
      | none => ((c.settle id answer).1, (c.settle id answer).2, true) := by
  unfold resolve glance
  cases cached : Sorted.find? id c.value with
  | some key => rfl
  | none => simp [turn, cached, Slot.changedSince]

theorem resolve_eq_ok_iff {c : KeyCache} {id : KeyId} {answer : KeyAnswer} {key : Rsa.PublicKey} :
    (c.resolve id answer).1 = .ok key ↔ c.Yields answer id key := by
  rw [resolve_eq]
  unfold settle Yields
  cases cached : Sorted.find? id c.value with
  | some k => simp
  | none =>
    cases answer with
    | error fault => simp
    | ok keys =>
      cases found : Sorted.find? id keys with
      | some k => simp [found]
      | none => simp [found]

end KeyCache

/-! ## The changes of a run -/

namespace LookupRun

@[simp] theorem setStage_cache (r : LookupRun) (i : Nat) (stage : LookupStage) :
    (r.setStage i stage).cache = r.cache := rfl

@[simp] theorem setStage_holder (r : LookupRun) (i : Nat) (stage : LookupStage) :
    (r.setStage i stage).holder = r.holder := rfl

theorem getElem?_setStage_self {r : LookupRun} {i : Nat} {l : Lookup}
    (present : r.lookups[i]? = some l) (stage : LookupStage) :
    (r.setStage i stage).lookups[i]? = some { l with stage } := by
  simp [setStage, present]

theorem getElem?_setStage_of_ne {r : LookupRun} {i j : Nat} (different : i ≠ j)
    (stage : LookupStage) : (r.setStage i stage).lookups[j]? = r.lookups[j]? := by
  simp [setStage, different]

inductive Change (r : LookupRun) : LookupMove → LookupRun → Prop
  | hit {i id key} (idle : r.holder = none) (present : r.lookups[i]? = some ⟨id, .started⟩)
      (found : Sorted.find? id r.cache.value = some key) :
      Change r (.glance i) (r.setStage i (.done (.ok key)))
  | miss {i id} (idle : r.holder = none) (present : r.lookups[i]? = some ⟨id, .started⟩)
      (missing : Sorted.find? id r.cache.value = none) :
      Change r (.glance i) (r.setStage i (.waiting r.cache.generation))
  | lateHit {i id seen key} (idle : r.holder = none)
      (present : r.lookups[i]? = some ⟨id, .waiting seen⟩)
      (found : Sorted.find? id r.cache.value = some key) :
      Change r (.turn i) (r.setStage i (.done (.ok key)))
  | lateMiss {i id seen} (idle : r.holder = none)
      (present : r.lookups[i]? = some ⟨id, .waiting seen⟩)
      (missing : Sorted.find? id r.cache.value = none) (refreshed : r.cache.generation ≠ seen) :
      Change r (.turn i) (r.setStage i (.done (.error (.notFound id))))
  | ask {i id seen} (idle : r.holder = none)
      (present : r.lookups[i]? = some ⟨id, .waiting seen⟩)
      (missing : Sorted.find? id r.cache.value = none) (same : r.cache.generation = seen) :
      Change r (.turn i)
        { r.setStage i .fetching with holder := some i, fetches := r.fetches + 1 }
  | fail {i id fault} (held : r.holder = some i)
      (present : r.lookups[i]? = some ⟨id, .fetching⟩) :
      Change r (.delivered (.error fault))
        { r.setStage i (.done (.error (.provider fault))) with holder := none }
  | refresh {i id keys} (held : r.holder = some i)
      (present : r.lookups[i]? = some ⟨id, .fetching⟩) :
      Change r (.delivered (.ok keys))
        { r.setStage i (.done (r.cache.settle id (.ok keys)).1) with
          cache := r.cache.replace keys, holder := none }

theorem settle_ok_cache (c : KeyCache) (id : KeyId) (keys : KeyMap) :
    (c.settle id (.ok keys)).2 = c.replace keys := by
  unfold KeyCache.settle
  split
  · contradiction
  · next keys' same =>
    cases same
    split <;> rfl

theorem change_of_step {r r' : LookupRun} {m : LookupMove} (made : r.step m = some r') :
    r.Change m r' := by
  cases m with
  | glance i =>
    simp only [step, KeyCache.glance] at made
    split at made
    · next id idle present =>
      cases looked : Sorted.find? id r.cache.value with
      | some key =>
        simp only [looked, Option.some.injEq] at made
        subst made
        exact .hit idle present looked
      | none =>
        simp only [looked, Option.some.injEq] at made
        subst made
        exact .miss idle present looked
    · contradiction
  | turn i =>
    simp only [step, KeyCache.turn, Slot.changedSince] at made
    split at made
    · next id seen idle present =>
      cases looked : Sorted.find? id r.cache.value with
      | some key =>
        simp only [looked, Option.some.injEq] at made
        subst made
        exact .lateHit idle present looked
      | none =>
        by_cases same : r.cache.generation = seen
        · simp only [looked, same, ne_eq, not_true_eq_false, decide_false, Bool.false_eq_true,
            if_false, Option.some.injEq] at made
          subst made
          exact .ask idle present looked same
        · simp only [looked, same, ne_eq, not_false_eq_true, decide_true, if_true,
            Option.some.injEq] at made
          subst made
          exact .lateMiss idle present looked same
    · contradiction
  | delivered answer =>
    simp only [step] at made
    split at made
    · contradiction
    · next i held =>
      split at made
      · next id present =>
        cases made
        cases answer with
        | error fault => exact .fail held present
        | ok keys =>
          rw [settle_ok_cache]
          exact .refresh held present
      · contradiction

theorem step_of_change {r r' : LookupRun} {m : LookupMove} (change : r.Change m r') :
    r.step m = some r' := by
  cases change with
  | hit idle present found => simp [step, KeyCache.glance, idle, present, found]
  | miss idle present missing => simp [step, KeyCache.glance, idle, present, missing]
  | lateHit idle present found => simp [step, KeyCache.turn, idle, present, found]
  | lateMiss idle present missing refreshed =>
    simp [step, KeyCache.turn, Slot.changedSince, idle, present, missing, refreshed]
  | ask idle present missing same =>
    simp [step, KeyCache.turn, Slot.changedSince, idle, present, missing, same]
  | fail held present => simp [step, KeyCache.settle, held, present]
  | refresh held present => simp [step, settle_ok_cache, held, present]

/-- The functional step and the list of changes agree. -/
theorem step_eq_some_iff {r r' : LookupRun} {m : LookupMove} :
    r.step m = some r' ↔ r.Change m r' :=
  ⟨change_of_step, step_of_change⟩

theorem change_or_advance_eq (r : LookupRun) (m : LookupMove) :
    r.Change m (r.advance m) ∨ r.advance m = r := by
  unfold advance
  cases made : r.step m with
  | none => exact .inr rfl
  | some r' => exact .inl (change_of_step made)

/-- A lookup that nobody interrupts has its moves one after the other. -/
theorem run_alone (c : KeyCache) (id : KeyId) (answer : KeyAnswer) :
    let run := LookupRun.run { cache := c, lookups := [{ key := id }] }
      [.glance 0, .turn 0, .delivered answer]
    run.lookups = [⟨id, .done (c.resolve id answer).1⟩] ∧ run.cache = (c.resolve id answer).2.1 := by
  cases cached : Sorted.find? id c.value with
  | some key =>
    simp [run, advance, step, KeyCache.resolve, KeyCache.glance, cached, setStage]
  | none =>
    simp [run, advance, step, KeyCache.resolve, KeyCache.glance, KeyCache.turn, cached, setStage,
      Slot.changedSince]

/-! ## What a change does to one lookup -/

theorem of_getElem?_setStage {r : LookupRun} {i j : Nat} {stage : LookupStage} {l : Lookup}
    (present : (r.setStage i stage).lookups[j]? = some l) :
    r.lookups[j]? = some l ∨ j = i ∧ l.stage = stage ∧ ∃ old, r.lookups[i]? = some ⟨l.key, old⟩ := by
  obtain before | ⟨mine, old, before, rfl⟩ := of_getElem?_modify present
  · exact .inl before
  · exact .inr ⟨mine, rfl, old.stage, before⟩

/-- Whoever is not done can go on without touching those who are. -/
theorem getElem?_setStage_of_done {r : LookupRun} {i j : Nat} {stage old : LookupStage}
    {id other : KeyId} {result : Resolution}
    (finished : r.lookups[i]? = some ⟨id, .done result⟩)
    (present : r.lookups[j]? = some ⟨other, old⟩) (pending : ∀ result, old ≠ .done result) :
    (r.setStage j stage).lookups[i]? = some ⟨id, .done result⟩ := by
  rw [getElem?_setStage_of_ne, finished]
  rintro rfl
  rw [present] at finished
  cases finished
  exact pending result rfl

inductive Answers (r : LookupRun) (i : Nat) (id : KeyId) : LookupMove → Resolution → Prop
  | cached {m key} (mine : m = .glance i ∨ m = .turn i)
      (found : Sorted.find? id r.cache.value = some key) : Answers r i id m (.ok key)
  | outrun {seen} (present : r.lookups[i]? = some ⟨id, .waiting seen⟩)
      (missing : Sorted.find? id r.cache.value = none) (refreshed : r.cache.generation ≠ seen) :
      Answers r i id (.turn i) (.error (.notFound id))
  | failed {fault} (held : r.holder = some i) :
      Answers r i id (.delivered (.error fault)) (.error (.provider fault))
  | handed {keys key} (held : r.holder = some i) (found : Sorted.find? id keys = some key) :
      Answers r i id (.delivered (.ok keys)) (.ok key)
  | lacking {keys} (held : r.holder = some i) (missing : Sorted.find? id keys = none) :
      Answers r i id (.delivered (.ok keys)) (.error (.notFound id))

namespace Change

variable {r r' : LookupRun} {m : LookupMove}

/-- The cache changes only by a key set that is handed out. -/
theorem cache_eq (change : r.Change m r') (withheld : ∀ keys, m ≠ .delivered (.ok keys)) :
    r'.cache = r.cache := by
  cases change with
  | refresh => exact absurd rfl (withheld _)
  | _ => rfl

/-- A key set that is handed out replaces the cache and ends the lookup that asked for it. -/
theorem refreshed {keys : KeyMap} (change : r.Change (.delivered (.ok keys)) r') :
    r'.cache = r.cache.replace keys ∧
      ∃ i id, r.holder = some i ∧ r.lookups[i]? = some ⟨id, .fetching⟩ ∧
        ∃ result, r'.lookups[i]? = some ⟨id, .done result⟩ := by
  cases change with
  | refresh held present =>
    exact ⟨rfl, _, _, held, present, _, getElem?_setStage_self present _⟩

theorem idle_of_glance {i : Nat} (change : r.Change (.glance i) r') : r.holder = none := by
  cases change with
  | hit idle => exact idle
  | miss idle => exact idle

theorem holder_eq_some (change : r.Change m r') {i : Nat} (held : r'.holder = some i) :
    m = .turn i ∧ ∃ id seen, r.lookups[i]? = some ⟨id, .waiting seen⟩ := by
  cases change with
  | ask idle present =>
    cases held
    exact ⟨rfl, _, _, present⟩
  | fail => contradiction
  | refresh => contradiction
  | _ idle => simp [idle] at held

/-- A lookup that waits has waited before, or it has just had its first look. -/
theorem waiting (change : r.Change m r') {i seen : Nat} {id : KeyId}
    (waits : r'.lookups[i]? = some ⟨id, .waiting seen⟩) :
    r.lookups[i]? = some ⟨id, .waiting seen⟩ ∨ m = .glance i ∧ r.cache.generation = seen := by
  cases change with
  | miss =>
    obtain before | ⟨rfl, noted, _⟩ := of_getElem?_setStage waits
    · exact .inl before
    · cases noted
      exact .inr ⟨rfl, rfl⟩
  | _ =>
    obtain before | ⟨_, staged, _⟩ := of_getElem?_setStage waits
    · exact .inl before
    · contradiction

/-- A lookup that is done stays as it is. -/
theorem done (change : r.Change m r') {i : Nat} {id : KeyId} {result : Resolution}
    (before : r.lookups[i]? = some ⟨id, .done result⟩) :
    r'.lookups[i]? = some ⟨id, .done result⟩ := by
  cases change with
  | _ _ present => exact getElem?_setStage_of_done before present (by simp)

theorem answers (change : r.Change m r') {i : Nat} {id : KeyId} {old : LookupStage}
    {result : Resolution} (before : r.lookups[i]? = some ⟨id, old⟩)
    (pending : ∀ result, old ≠ .done result)
    (after : r'.lookups[i]? = some ⟨id, .done result⟩) : r.Answers i id m result := by
  -- Only the lookup whose move it is becomes done.
  have mine : ∀ {j other was stage}, r.lookups[j]? = some ⟨other, was⟩ →
      (r.setStage j stage).lookups[i]? = some ⟨id, .done result⟩ →
      i = j ∧ other = id ∧ .done result = stage := by
    intro j other was stage present finished
    obtain same | ⟨rfl, staged, _⟩ := of_getElem?_setStage finished
    · rw [before] at same
      cases same
      exact absurd rfl (pending result)
    · rw [before] at present
      cases present
      exact ⟨rfl, rfl, staged⟩
  cases change with
  | hit _ present found =>
    obtain ⟨rfl, rfl, staged⟩ := mine present after
    cases staged
    exact .cached (.inl rfl) found
  | lateHit _ present found =>
    obtain ⟨rfl, rfl, staged⟩ := mine present after
    cases staged
    exact .cached (.inr rfl) found
  | lateMiss _ present missing refreshed =>
    obtain ⟨rfl, rfl, staged⟩ := mine present after
    cases staged
    exact .outrun present missing refreshed
  | fail held present =>
    obtain ⟨rfl, rfl, staged⟩ := mine present after
    cases staged
    exact .failed held
  | @refresh _ other keys held present =>
    obtain ⟨rfl, rfl, staged⟩ := mine present after
    cases looked : Sorted.find? other keys with
    | some key =>
      simp only [KeyCache.settle, looked, LookupStage.done.injEq] at staged
      subst staged
      exact .handed held looked
    | none =>
      simp only [KeyCache.settle, looked, LookupStage.done.injEq] at staged
      subst staged
      exact .lacking held looked
  | _ _ present =>
    obtain ⟨_, _, staged⟩ := mine present after
    contradiction

end Change

end LookupRun

end Tollgate
