import Tollgate.Key.Authority

/-! # What a caller of the signing key can do

For callers of the authority at the same time, `RotationRun.Change` lists everything that a move can
do, with what has to hold for it; `RotationRun.step_eq_some_iff` shows that the list is complete.
Later proofs take a move apart by its cases and never open `RotationRun.step`.  `run_alone` shows
that a caller that nobody interrupts gets what `Authority.currentKey` gives.
-/

namespace Tollgate

/-! ## The slot -/

namespace SigningSlot

theorem live?_eq_some_iff {s : SigningSlot} {now : Instant} {key : SigningKey} :
    s.live? now = some key ↔ s.value = some key ∧ key.isExpired now = false := by
  simp [live?, Option.filter_eq_some_iff]

theorem glance_eq_stale_iff {s : SigningSlot} {now : Instant} {seen : Nat} :
    s.glance now = .stale seen ↔ s.live? now = none ∧ seen = s.generation := by
  unfold glance
  cases looked : s.live? now with
  | some key => simp
  | none => simp [eq_comm]

theorem turn_eq_answer_iff {s : SigningSlot} {now : Instant} {seen : Nat} {key : SigningKey} :
    s.turn now seen = .answer key ↔ s.generation ≠ seen ∧ s.live? now = some key := by
  unfold turn Slot.changedSince
  by_cases same : s.generation = seen
  · simp [same]
  · cases looked : s.live? now <;> simp [same]

theorem turn_eq_rotate_iff {s : SigningSlot} {now : Instant} {seen : Nat} :
    s.turn now seen = .rotate ↔ s.generation = seen ∨ s.live? now = none := by
  unfold turn Slot.changedSince
  by_cases same : s.generation = seen
  · simp [same]
  · cases looked : s.live? now <;> simp [same]

end SigningSlot

/-! ## The changes of a run -/

namespace RotationRun

@[simp] theorem setStage_config (r : RotationRun) (i : Nat) (stage : RotationStage) :
    (r.setStage i stage).config = r.config := rfl

@[simp] theorem setStage_current (r : RotationRun) (i : Nat) (stage : RotationStage) :
    (r.setStage i stage).current = r.current := rfl

@[simp] theorem setStage_holder (r : RotationRun) (i : Nat) (stage : RotationStage) :
    (r.setStage i stage).holder = r.holder := rfl

@[simp] theorem setStage_handed (r : RotationRun) (i : Nat) (stage : RotationStage) :
    (r.setStage i stage).handed = r.handed := rfl

@[simp] theorem setStage_accepted (r : RotationRun) (i : Nat) (stage : RotationStage) :
    (r.setStage i stage).accepted = r.accepted := rfl

theorem getElem?_setStage_self {r : RotationRun} {i : Nat} {old : RotationStage}
    (present : r.callers[i]? = some old) (stage : RotationStage) :
    (r.setStage i stage).callers[i]? = some stage := by
  simp [setStage, (List.getElem?_eq_some_iff.mp present).1]

theorem of_getElem?_setStage {r : RotationRun} {i j : Nat} {stage found : RotationStage}
    (present : (r.setStage i stage).callers[j]? = some found) :
    r.callers[j]? = some found ∨ j = i ∧ found = stage := by
  by_cases same : i = j
  · subst same
    obtain ⟨inside, rfl⟩ := List.getElem?_eq_some_iff.mp present
    exact .inr ⟨rfl, by simp [setStage]⟩
  · rw [setStage, List.getElem?_set_ne same] at present
    exact .inl present

inductive Change (r : RotationRun) : RotationMove → RotationRun → Prop
  | hit {i now key} (idle : r.holder = none) (present : r.callers[i]? = some .started)
      (live : r.current.live? now = some key) :
      Change r (.glance i now) (r.setStage i (.done (.ok key)))
  | miss {i now} (idle : r.holder = none) (present : r.callers[i]? = some .started)
      (stale : r.current.live? now = none) :
      Change r (.glance i now) (r.setStage i (.waiting r.current.generation))
  | lateHit {i now seen key} (idle : r.holder = none)
      (present : r.callers[i]? = some (.waiting seen)) (rotated : r.current.generation ≠ seen)
      (live : r.current.live? now = some key) :
      Change r (.turn i now) (r.setStage i (.done (.ok key)))
  | begin {i now seen} (idle : r.holder = none)
      (present : r.callers[i]? = some (.waiting seen))
      (due : r.current.generation = seen ∨ r.current.live? now = none) :
      Change r (.turn i now) { r.setStage i .generating with holder := some i }
  | barren {i now reason} (held : r.holder = some i) (present : r.callers[i]? = some .generating) :
      Change r (.generated now (.error reason))
        { r.setStage i (.done (.error (.key (.generation reason)))) with holder := none }
  | hand {i now id secret} (held : r.holder = some i)
      (present : r.callers[i]? = some .generating) :
      Change r (.generated now (.ok (id, secret)))
        { r.setStage i (.storing ⟨id, secret, now.add r.config.keyValidity⟩) with
          handed := (SigningKey.published ⟨id, secret, now.add r.config.keyValidity⟩,
            r.config.keyLifetime) :: r.handed }
  | reject {i key fault} (held : r.holder = some i)
      (present : r.callers[i]? = some (.storing key)) :
      Change r (.stored (.error fault))
        { r.setStage i (.done (.error (.store fault))) with holder := none }
  | install {i key} (held : r.holder = some i) (present : r.callers[i]? = some (.storing key)) :
      Change r (.stored (.ok ()))
        { r.setStage i (.done (.ok key)) with
          current := r.current.replace (some key)
          accepted := (key.published, r.config.keyLifetime) :: r.accepted
          holder := none }

theorem change_of_step {r r' : RotationRun} {m : RotationMove} (made : r.step m = some r') :
    r.Change m r' := by
  cases m with
  | glance i now =>
    simp only [step] at made
    split at made
    · next idle present =>
      cases looked : r.current.live? now with
      | some key =>
        simp only [SigningSlot.glance, looked, Option.some.injEq] at made
        subst made
        exact .hit idle present looked
      | none =>
        simp only [SigningSlot.glance, looked, Option.some.injEq] at made
        subst made
        exact .miss idle present looked
    · contradiction
  | turn i now =>
    simp only [step] at made
    split at made
    · next seen idle present =>
      split at made
      · next key answered =>
        cases made
        obtain ⟨rotated, live⟩ := SigningSlot.turn_eq_answer_iff.mp answered
        exact .lateHit idle present rotated live
      · next due =>
        cases made
        exact .begin idle present (SigningSlot.turn_eq_rotate_iff.mp due)
    · contradiction
  | generated now fresh =>
    simp only [step] at made
    split at made
    · contradiction
    · next i held =>
      split at made
      · next present =>
        cases fresh with
        | error reason =>
          cases made
          exact .barren held present
        | ok drawn =>
          cases made
          exact .hand held present
      · contradiction
  | stored outcome =>
    simp only [step] at made
    split at made
    · contradiction
    · next i held =>
      split at made
      · next key present =>
        cases outcome with
        | error fault =>
          cases made
          exact .reject held present
        | ok =>
          cases made
          exact .install held present
      · contradiction

theorem step_of_change {r r' : RotationRun} {m : RotationMove} (change : r.Change m r') :
    r.step m = some r' := by
  cases change with
  | hit idle present live => simp [step, SigningSlot.glance, idle, present, live]
  | miss idle present stale => simp [step, SigningSlot.glance, idle, present, stale]
  | lateHit idle present rotated live =>
    simp [step, SigningSlot.turn_eq_answer_iff.mpr ⟨rotated, live⟩, idle, present]
  | begin idle present due => simp [step, SigningSlot.turn_eq_rotate_iff.mpr due, idle, present]
  | barren held present => simp [step, AuthorityConfig.newKey, held, present]
  | hand held present => simp [step, AuthorityConfig.newKey, held, present]
  | reject held present => simp [step, SigningSlot.settle, held, present]
  | install held present => simp [step, SigningSlot.settle, held, present]

/-- The functional step and the list of changes agree. -/
theorem step_eq_some_iff {r r' : RotationRun} {m : RotationMove} :
    r.step m = some r' ↔ r.Change m r' :=
  ⟨change_of_step, step_of_change⟩

theorem change_or_advance_eq (r : RotationRun) (m : RotationMove) :
    r.Change m (r.advance m) ∨ r.advance m = r := by
  unfold advance
  cases made : r.step m with
  | none => exact .inr rfl
  | some r' => exact .inl (change_of_step made)

def aloneMoves (now : Instant) (fresh : NewKey) (outcome : Except StoreFault Unit) :
    List RotationMove :=
  [.glance 0 now, .turn 0 now, .generated now fresh, .stored outcome]

/-- A caller that nobody interrupts has its moves one after the other. -/
theorem run_alone {σ : Type} (a : Authority σ) (now : Instant) (fresh : NewKey)
    (outcome : Except StoreFault Unit)
    (answered : ∀ key, a.config.newKey now fresh = .ok key →
      outcome = (a.store.put a.stored now key.published a.config.keyLifetime).1) :
    let run := (aloneMoves now fresh outcome).foldl advance
      { config := a.config, current := a.current, callers := [.started] }
    run.callers = [.done (a.currentKey now fresh).1] ∧
      run.current = (a.currentKey now fresh).2.current := by
  cases looked : a.current.live? now with
  | some key =>
    simp [aloneMoves, advance, step, SigningSlot.glance, looked, setStage, Authority.currentKey]
  | none =>
    -- Between its two looks nobody has put a key in.
    have due : a.current.turn now a.current.generation = .rotate :=
      SigningSlot.turn_eq_rotate_iff.mpr (.inl rfl)
    cases made : a.config.newKey now fresh with
    | error fault =>
      simp [aloneMoves, advance, step, SigningSlot.glance, looked, setStage, due, made,
        Authority.currentKey, Authority.rotate]
    | ok key =>
      rw [answered key made]
      simp [aloneMoves, advance, step, SigningSlot.glance, looked, setStage, due, made,
        Authority.currentKey, Authority.rotate]

/-! ## What a change does to one caller -/

/-- Whoever is not done can go on without touching those who are. -/
theorem getElem?_setStage_of_done {r : RotationRun} {i j : Nat} {stage old : RotationStage}
    {result : Except AuthorityFault SigningKey} (finished : r.callers[i]? = some (.done result))
    (present : r.callers[j]? = some old) (pending : ∀ result, old ≠ .done result) :
    (r.setStage j stage).callers[i]? = some (.done result) := by
  have different : j ≠ i := by
    rintro rfl
    rw [present] at finished
    cases finished
    exact pending result rfl
  rw [setStage, List.getElem?_set_ne different, finished]

inductive Answers (r : RotationRun) (i : Nat) :
    RotationMove → Except AuthorityFault SigningKey → Prop
  | live {m now key} (mine : m = .glance i now ∨ m = .turn i now)
      (live : r.current.live? now = some key) : Answers r i m (.ok key)
  | barren {now reason} (held : r.holder = some i) :
      Answers r i (.generated now (.error reason)) (.error (.key (.generation reason)))
  | rejected {fault} (held : r.holder = some i) :
      Answers r i (.stored (.error fault)) (.error (.store fault))
  | installed {key} (held : r.holder = some i)
      (present : r.callers[i]? = some (.storing key)) : Answers r i (.stored (.ok ())) (.ok key)

namespace Change

variable {r r' : RotationRun} {m : RotationMove}

theorem config_eq (change : r.Change m r') : r'.config = r.config := by
  cases change <;> rfl

theorem length_eq (change : r.Change m r') : r'.callers.length = r.callers.length := by
  cases change <;> simp [setStage]

/-- The slot changes only by a key that the store takes. -/
theorem current_eq (change : r.Change m r') (withheld : m ≠ .stored (.ok ())) :
    r'.current = r.current := by
  cases change with
  | install => exact absurd rfl withheld
  | _ => rfl

/-- A key that the store takes is the one that whoever holds the turn made; it is put into the
    slot and given to its maker, and the turn is over. -/
theorem installed (change : r.Change (.stored (.ok ())) r') :
    ∃ i key, r.holder = some i ∧ r.callers[i]? = some (.storing key) ∧
      r'.callers[i]? = some (.done (.ok key)) ∧ r'.current = r.current.replace (some key) ∧
      r'.holder = none ∧ r'.accepted = (key.published, r.config.keyLifetime) :: r.accepted := by
  cases change with
  | install held present =>
    exact ⟨_, _, held, present, getElem?_setStage_self present _, rfl, rfl, rfl⟩

/-- A caller that is done stays as it is. -/
theorem done (change : r.Change m r') {i : Nat} {result : Except AuthorityFault SigningKey}
    (before : r.callers[i]? = some (.done result)) : r'.callers[i]? = some (.done result) := by
  cases change with
  | _ _ present => exact getElem?_setStage_of_done before present (by simp)

/-- Whoever rotates has just begun, or has made a key; either way the slot is as it was. -/
theorem holder_eq_some (change : r.Change m r') {i : Nat} (held : r'.holder = some i) :
    r'.current = r.current ∧
      ((∃ now, m = .turn i now) ∨ (∃ now fresh, m = .generated now fresh) ∧ r.holder = some i) := by
  cases change with
  | begin =>
    cases held
    exact ⟨rfl, .inl ⟨_, rfl⟩⟩
  | hand held' => exact ⟨rfl, .inr ⟨⟨_, _, rfl⟩, held⟩⟩
  | hit idle | miss idle | lateHit idle => simp [idle] at held
  | _ => contradiction

/-- Whoever holds the turn makes a key or waits for the store with one. -/
theorem turn (change : r.Change m r') {i : Nat} (held : r'.holder = some i) :
    r'.callers[i]? = some .generating ∨ ∃ key, r'.callers[i]? = some (.storing key) := by
  cases change with
  | begin _ present =>
    cases held
    exact .inl (getElem?_setStage_self present _)
  | hand held' present =>
    obtain rfl := Option.some.inj (held'.symm.trans held)
    exact .inr ⟨_, getElem?_setStage_self present _⟩
  | hit idle | miss idle | lateHit idle => simp [idle] at held
  | _ => contradiction

/-- A caller that waits for its turn has waited before, or it has just had its first look. -/
theorem waiting (change : r.Change m r') {i seen : Nat}
    (waits : r'.callers[i]? = some (.waiting seen)) :
    r.callers[i]? = some (.waiting seen) ∨
      ∃ now, m = .glance i now ∧ seen = r.current.generation := by
  cases change with
  | miss =>
    obtain before | ⟨rfl, staged⟩ := of_getElem?_setStage waits
    · exact .inl before
    · cases staged
      exact .inr ⟨_, rfl, rfl⟩
  | _ =>
    obtain before | ⟨_, staged⟩ := of_getElem?_setStage waits
    · exact .inl before
    · contradiction

/-- Whoever waits for the store with a key has just made it. -/
theorem storing (change : r.Change m r') {i : Nat} {key : SigningKey} (held : r'.holder = some i)
    (after : r'.callers[i]? = some (.storing key)) :
    r.holder = some i ∧ ∃ now, m = .generated now (.ok (key.keyId, key.secret)) ∧
      key.expiresAt = now.add r.config.keyValidity := by
  cases change with
  | @hand j now id secret held' present =>
    obtain rfl : j = i := Option.some.inj (held'.symm.trans held)
    have staged := getElem?_setStage_self present
      (.storing ⟨id, secret, now.add r.config.keyValidity⟩)
    cases staged.symm.trans after
    exact ⟨held, now, rfl, rfl⟩
  | begin _ present =>
    cases held
    cases (getElem?_setStage_self present .generating).symm.trans after
  | hit idle | miss idle | lateHit idle => simp [idle] at held
  | _ => contradiction

theorem answers (change : r.Change m r') {i : Nat} {old : RotationStage}
    {result : Except AuthorityFault SigningKey} (before : r.callers[i]? = some old)
    (pending : ∀ result, old ≠ .done result)
    (after : r'.callers[i]? = some (.done result)) : r.Answers i m result := by
  -- Only the caller whose move it is becomes done.
  have mine : ∀ {j stage}, (r.setStage j stage).callers[i]? = some (.done result) →
      i = j ∧ .done result = stage := by
    intro j stage finished
    obtain same | mine := of_getElem?_setStage finished
    · rw [before] at same
      cases same
      exact absurd rfl (pending result)
    · exact mine
  cases change with
  | hit _ _ live =>
    obtain ⟨rfl, staged⟩ := mine after
    cases staged
    exact .live (.inl rfl) live
  | lateHit _ _ _ live =>
    obtain ⟨rfl, staged⟩ := mine after
    cases staged
    exact .live (.inr rfl) live
  | barren held =>
    obtain ⟨rfl, staged⟩ := mine after
    cases staged
    exact .barren held
  | reject held =>
    obtain ⟨rfl, staged⟩ := mine after
    cases staged
    exact .rejected held
  | install held present =>
    obtain ⟨rfl, staged⟩ := mine after
    cases staged
    exact .installed held present
  | _ =>
    obtain ⟨_, staged⟩ := mine after
    contradiction

end Change

theorem foldl_config (r : RotationRun) (moves : List RotationMove) :
    (moves.foldl advance r).config = r.config := by
  induction moves generalizing r with
  | nil => rfl
  | cons m rest ih =>
    rw [List.foldl_cons, ih]
    obtain change | same := r.change_or_advance_eq m
    · exact change.config_eq
    · rw [same]

end RotationRun

end Tollgate
