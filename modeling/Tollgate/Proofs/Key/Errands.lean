import Tollgate.Proofs.Key.Rotation

/-! # Errands at the authority

Whoever comes to the authority wants the current key, a token, or the records of the published keys.
Every errand begins with the current key, and what follows leaves the slot alone: `Errand.conclude`.

* `Authority.perform` — an errand that nobody interrupts, with one reading of the clock;
* `AuthorityRun` — errands at the same time.  The current key is got as in `RotationRun`; what
  follows is a move of its own, since another caller may have a turn in between;
* `AuthorityRun.run_alone` — the two agree where nobody else comes.
-/

namespace Tollgate

inductive Errand where
  | currentKey
  | token (validity : Span) (capabilities : List Capability)
  | publishableKeys

inductive Reply where
  | key (key : SigningKey)
  | token (token : Octets)
  | records (records : List PublishedKey)

abbrev Conclusion := Except AuthorityFault Reply

def AuthorityConfig.newClaims (c : AuthorityConfig) (now : Instant) (id : TokenId) (validity : Span)
    (capabilities : List Capability) : Claims :=
  (Claims.mint c.issuer validity now id).withCapabilities capabilities

def Conclusion.ofToken : Except TokenFault Octets → Conclusion
  | .ok token => .ok (.token token)
  | .error fault => .error (.token fault)

def Conclusion.ofActive : Except StoreFault (List PublishedKey) → Conclusion
  | .ok records => .ok (.records (Authority.sortRecords records))
  | .error fault => .error (.store fault)

/-- What follows in an errand once the current key is there or could not be had.  `active` is what
    the store answers if it is asked for its keys. -/
def Errand.conclude (e : Errand) (c : AuthorityConfig) (now : Instant) (id : TokenId)
    (active : Except StoreFault (List PublishedKey)) :
    Except AuthorityFault SigningKey → Conclusion
  | .error fault => .error fault
  | .ok key =>
    match e with
    | .currentKey => .ok (.key key)
    | .token validity capabilities =>
      .ofToken (key.sign (c.newClaims now id validity capabilities))
    | .publishableKeys => .ofActive active

/-- A token is the reply only where the current key signed its claims. -/
theorem Errand.conclude_eq_token {e : Errand} {c : AuthorityConfig} {now : Instant} {id : TokenId}
    {active : Except StoreFault (List PublishedKey)} {result : Except AuthorityFault SigningKey}
    {token : Octets} (replied : e.conclude c now id active result = .ok (.token token)) :
    ∃ key validity capabilities, result = .ok key ∧ e = .token validity capabilities ∧
      key.sign (c.newClaims now id validity capabilities) = .ok token := by
  cases result with
  | error fault => contradiction
  | ok key =>
    cases e with
    | currentKey => cases replied
    | publishableKeys => cases active <;> cases replied
    | token validity capabilities =>
      cases signed : key.sign (c.newClaims now id validity capabilities) with
      | error fault => simp [conclude, signed, Conclusion.ofToken] at replied
      | ok token' =>
        simp only [conclude, signed, Conclusion.ofToken, Except.ok.injEq,
          Reply.token.injEq] at replied
        exact ⟨key, validity, capabilities, rfl, rfl, by rw [signed, replied]⟩

/-! ## Errands that nobody interrupts -/

namespace Authority

variable {σ : Type}

def perform (a : Authority σ) (now : Instant) (fresh : NewKey) (id : TokenId) :
    Errand → Conclusion × Authority σ
  | .currentKey =>
    let (result, a) := a.currentKey now fresh
    (result.map .key, a)
  | .token validity capabilities =>
    let (result, a) := a.issueToken now fresh id validity capabilities
    (result.map .token, a)
  | .publishableKeys =>
    let (result, a) := a.publishableKeys now fresh
    (result.map .records, a)

@[simp] theorem rotate_config (a : Authority σ) (now : Instant) (fresh : NewKey) :
    (a.rotate now fresh).2.config = a.config := by
  unfold rotate
  split <;> rfl

@[simp] theorem rotate_store (a : Authority σ) (now : Instant) (fresh : NewKey) :
    (a.rotate now fresh).2.store = a.store := by
  unfold rotate
  split <;> rfl

/-- Where nobody interrupts, a key that does not sign any more is replaced at once. -/
theorem currentKey_eq (a : Authority σ) (now : Instant) (fresh : NewKey) :
    a.currentKey now fresh =
      match a.current.live? now with
      | some key => (.ok key, a)
      | none => a.rotate now fresh := by
  unfold currentKey SigningSlot.glance
  cases looked : a.current.live? now with
  | some key => rfl
  | none =>
    have due : a.current.turn now a.current.generation = .rotate :=
      SigningSlot.turn_eq_rotate_iff.mpr (.inl rfl)
    simp only [due]

@[simp] theorem currentKey_config (a : Authority σ) (now : Instant) (fresh : NewKey) :
    (a.currentKey now fresh).2.config = a.config := by
  rw [currentKey_eq]
  cases a.current.live? now <;> simp

@[simp] theorem currentKey_store (a : Authority σ) (now : Instant) (fresh : NewKey) :
    (a.currentKey now fresh).2.store = a.store := by
  rw [currentKey_eq]
  cases a.current.live? now <;> simp

def activeAnswer (a : Authority σ) (now : Instant) (fresh : NewKey) :
    Except StoreFault (List PublishedKey) :=
  (a.store.active (a.currentKey now fresh).2.stored now).1

theorem perform_fst (a : Authority σ) (now : Instant) (fresh : NewKey) (id : TokenId) (e : Errand) :
    (a.perform now fresh id e).1 =
      e.conclude a.config now id (a.activeAnswer now fresh) (a.currentKey now fresh).1 := by
  have config := a.currentKey_config now fresh
  have store := a.currentKey_store now fresh
  unfold activeAnswer
  generalize got : a.currentKey now fresh = outcome at config store
  obtain ⟨result, a'⟩ := outcome
  cases result with
  | error fault =>
    cases e <;> simp [perform, issueToken, publishableKeys, got, Errand.conclude, Except.map]
  | ok key =>
    cases e with
    | currentKey => simp [perform, got, Errand.conclude, Except.map]
    | token validity capabilities =>
      simp only at config
      cases signed : key.sign (a.config.newClaims now id validity capabilities) with
      | error fault =>
        simp only [AuthorityConfig.newClaims] at signed
        simp [perform, issueToken, got, Errand.conclude, Conclusion.ofToken, Except.map, config,
          AuthorityConfig.newClaims, signed]
      | ok token =>
        simp only [AuthorityConfig.newClaims] at signed
        simp [perform, issueToken, got, Errand.conclude, Conclusion.ofToken, Except.map, config,
          AuthorityConfig.newClaims, signed]
    | publishableKeys =>
      simp only at store
      cases asked : (a.store.active a'.stored now).1 with
      | error fault =>
        simp [perform, publishableKeys, got, Errand.conclude, Conclusion.ofActive, Except.map,
          store, asked]
      | ok records =>
        simp [perform, publishableKeys, got, Errand.conclude, Conclusion.ofActive, Except.map,
          store, asked]

/-- After the current key was got, only who wants the records still asks the store. -/
theorem perform_snd (a : Authority σ) (now : Instant) (fresh : NewKey) (id : TokenId) (e : Errand) :
    (a.perform now fresh id e).2 =
      match e, a.currentKey now fresh with
      | .publishableKeys, (.ok _, a) => { a with stored := (a.store.active a.stored now).2 }
      | _, (_, a) => a := by
  generalize got : a.currentKey now fresh = outcome
  obtain ⟨result, a'⟩ := outcome
  cases result with
  | error fault => cases e <;> simp [perform, issueToken, publishableKeys, got]
  | ok key =>
    cases e with
    | currentKey => simp [perform, got]
    | token validity capabilities =>
      simp only [perform, issueToken, got]
      split <;> rfl
    | publishableKeys =>
      simp only [perform, publishableKeys, got]
      split <;> rfl

/-- Whatever the errand, the slot is left as getting the current key leaves it. -/
theorem perform_current (a : Authority σ) (now : Instant) (fresh : NewKey) (id : TokenId)
    (e : Errand) : (a.perform now fresh id e).2.current = (a.currentKey now fresh).2.current := by
  rw [perform_snd]
  generalize a.currentKey now fresh = outcome
  obtain ⟨result, a'⟩ := outcome
  cases e <;> cases result <;> rfl

end Authority

/-! ## Errands at the same time -/

structure Caller where
  errand : Errand
  conclusion : Option Conclusion := none

/-- Errands under way at one authority.  The callers have the same numbers in the rotation. -/
structure AuthorityRun where
  rotation : RotationRun
  callers : List Caller

inductive AuthorityMove where
  | rotate (move : RotationMove)
  /-- What follows for a caller once the current key is there. -/
  | conclude (index : Nat) (now : Instant) (id : TokenId)
      (active : Except StoreFault (List PublishedKey))

namespace AuthorityRun

def step (r : AuthorityRun) : AuthorityMove → Option AuthorityRun
  | .rotate m => (r.rotation.step m).map fun rotation => { r with rotation }
  | .conclude i now id active =>
    match r.callers[i]?, r.rotation.callers[i]? with
    | some ⟨errand, none⟩, some (.done result) =>
      some { r with
        callers := r.callers.set i
          ⟨errand, some (errand.conclude r.rotation.config now id active result)⟩ }
    | _, _ => none

def advance (r : AuthorityRun) (m : AuthorityMove) : AuthorityRun := (r.step m).getD r

def start (config : AuthorityConfig) (current : SigningSlot) (errands : List Errand) :
    AuthorityRun :=
  { rotation := { config, current, callers := errands.map fun _ => .started }
    callers := errands.map fun errand => { errand } }

theorem advance_rotate (r : AuthorityRun) (m : RotationMove) :
    r.advance (.rotate m) = { r with rotation := r.rotation.advance m } := by
  cases made : r.rotation.step m with
  | none => simp [advance, step, RotationRun.advance, made]
  | some rotation => simp [advance, step, RotationRun.advance, made]

theorem foldl_rotate (r : AuthorityRun) (moves : List RotationMove) :
    (moves.map .rotate).foldl advance r =
      { r with rotation := moves.foldl RotationRun.advance r.rotation } := by
  induction moves generalizing r with
  | nil => rfl
  | cons m rest ih => rw [List.map_cons, List.foldl_cons, advance_rotate, ih, List.foldl_cons]

/-- What follows on the current key leaves the rotation alone. -/
theorem rotation_advance_conclude (r : AuthorityRun) (i : Nat) (now : Instant) (id : TokenId)
    (active : Except StoreFault (List PublishedKey)) :
    (r.advance (.conclude i now id active)).rotation = r.rotation := by
  simp only [advance, step]
  split <;> rfl

/-- A conclusion that was not there before is drawn from the current key, or from its fault. -/
theorem concluded {r : AuthorityRun} {m : AuthorityMove} {i : Nat} {errand : Errand}
    {conclusion : Conclusion} (before : r.callers[i]? = some ⟨errand, none⟩)
    (after : (r.advance m).callers[i]? = some ⟨errand, some conclusion⟩) :
    ∃ now id active result, r.rotation.callers[i]? = some (.done result) ∧
      conclusion = errand.conclude r.rotation.config now id active result := by
  cases m with
  | rotate m =>
    rw [advance_rotate, before] at after
    cases after
  | conclude j now id active =>
    simp only [advance, step] at after
    split at after
    · next errand' result present finished =>
      -- Only the caller that concludes is written anew.
      by_cases mine : j = i
      · subst mine
        rw [before] at present
        cases present
        obtain ⟨inside, _⟩ := List.getElem?_eq_some_iff.mp before
        simp only [Option.getD_some, List.getElem?_set_self inside, Option.some.injEq,
          Caller.mk.injEq, true_and] at after
        exact ⟨now, id, active, result, finished, after.symm⟩
      · simp only [Option.getD_some, List.getElem?_set_ne mine, before, Option.some.injEq,
          Caller.mk.injEq, true_and] at after
        cases after
    · rw [Option.getD_none, before] at after
      cases after

/-- An errand that nobody interrupts: first all moves of the rotation, then the conclusion. -/
theorem run_alone {σ : Type} (a : Authority σ) (now : Instant) (fresh : NewKey) (id : TokenId)
    (e : Errand) (outcome : Except StoreFault Unit)
    (answered : ∀ key, a.config.newKey now fresh = .ok key →
      outcome = (a.store.put a.stored now key.published a.config.keyLifetime).1) :
    let moves := (RotationRun.aloneMoves now fresh outcome).map .rotate ++
      [.conclude 0 now id (a.activeAnswer now fresh)]
    let run := moves.foldl advance (start a.config a.current [e])
    run.callers = [⟨e, some (a.perform now fresh id e).1⟩] ∧
      run.rotation.current = (a.perform now fresh id e).2.current := by
  intro moves run
  obtain ⟨got, current⟩ := RotationRun.run_alone a now fresh outcome answered
  have config : ((RotationRun.aloneMoves now fresh outcome).foldl RotationRun.advance
      (start a.config a.current [e]).rotation).config = a.config := RotationRun.foldl_config _ _
  simp only [run, moves, List.foldl_append, foldl_rotate, List.foldl_cons, List.foldl_nil]
  rw [a.perform_fst, a.perform_current]
  simp only [start, List.map_cons, List.map_nil] at config ⊢
  -- From here on only what the rotation has come to matters.
  generalize (RotationRun.aloneMoves now fresh outcome).foldl RotationRun.advance
    { config := a.config, current := a.current, callers := [.started] } = r at got current config ⊢
  simp [advance, step, got, current, config]

end AuthorityRun

end Tollgate
