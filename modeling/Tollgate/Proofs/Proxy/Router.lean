import Tollgate.Proofs.Admission.Acceptance

/-! # Requests at the router of a proxy

Every request to a proxy passes the gate first and then the tunnel engine, but while one request
waits for a key, for its dial or for the end of its tunnel, others have their turns.  `RouterRun`
puts the admissions of `AdmissionRun` and the moments of `TunnelEngine` together;
`RouterRun.run_alone` shows that a request that nobody interrupts is served as `ProxyNode.serve`
serves it.

`RouterSchedule.guarded` states, for every order of turns, that a target is dialed only for a
request that the gate let through before, and at most once, and that a request that the gate refused
is answered so and leaves the engine alone.  It follows from `RouterSchedule.Sound`, which every
move keeps.
-/

namespace Tollgate

/-! ## The run -/

inductive PassageStage where
  | screening
  | dialing (dial : Dial)
  /-- The answer was sent; the tunnel, where there is one, is still open. -/
  | answered (response : Response) (tunnel : Option Dial)

structure Passage where
  request : Request
  stage : PassageStage := .screening

/-- Requests under way at one proxy.  They have the same numbers at the gate. -/
structure RouterRun where
  admission : AdmissionRun
  engine : TunnelEngine
  passages : List Passage
  /-- For which requests which targets were dialed, last first. -/
  dials : List (Nat × Uri.Authority) := []

inductive RouterMove where
  | gate (move : AdmissionMove)
  | pass (index : Nat)
  | dialed (index : Nat) (outcome : DialOutcome) (takeover : Bool)
  | tunnelEnded (index : Nat)

def RouterMove.index? : RouterMove → Option Nat
  | .gate _ => none
  | .pass i | .dialed i _ _ | .tunnelEnded i => some i

namespace RouterRun

def setStage (r : RouterRun) (index : Nat) (stage : PassageStage) : RouterRun :=
  { r with passages := r.passages.modify index fun p => { p with stage } }

def step (r : RouterRun) : RouterMove → Option RouterRun
  | .gate m => some { r with admission := r.admission.advance m }
  | .pass i =>
    match r.passages[i]?, r.admission.admissions[i]? with
    | some ⟨request, .screening⟩, some ⟨_, .done (.error refusal)⟩ =>
      some (r.setStage i (.answered (refusal.response.sentTo request) none))
    | some ⟨request, .screening⟩, some ⟨_, .done (.ok _)⟩ =>
      match r.engine.begin request with
      | (.error fault, engine) =>
        some { r.setStage i (.answered (fault.response.sentTo request) none) with engine }
      | (.ok dial, engine) =>
        some { r.setStage i (.dialing dial) with engine, dials := (i, dial.target) :: r.dials }
    | _, _ => none
  | .dialed i outcome takeover =>
    match r.passages[i]? with
    | some ⟨request, .dialing dial⟩ =>
      match r.engine.conclude dial outcome takeover with
      | (.error fault, engine) =>
        some { r.setStage i (.answered (fault.response.sentTo request) none) with engine }
      | (.ok (), engine) =>
        some { r.setStage i
            (.answered ((TunnelEngine.answer (.ok ())).sentTo request) (some dial)) with engine }
    | _ => none
  | .tunnelEnded i =>
    match r.passages[i]? with
    | some ⟨_, .answered response (some _)⟩ =>
      some { r.setStage i (.answered response none) with engine := r.engine.leave }
    | _ => none

def advance (r : RouterRun) (m : RouterMove) : RouterRun := (r.step m).getD r

def start (gate : GateConfig) (cache : KeyCache) (revoked : RevokedSet) (engine : TunnelEngine)
    (requests : List Request) : RouterRun :=
  { admission := .start gate cache revoked (requests.map (·.headers))
    engine
    passages := requests.map fun request => { request } }

/-! ## A request that nobody interrupts -/

theorem foldl_gate (r : RouterRun) (moves : List AdmissionMove) :
    (moves.map .gate).foldl advance r =
      { r with admission := moves.foldl AdmissionRun.advance r.admission } := by
  induction moves generalizing r with
  | nil => rfl
  | cons m rest ih =>
    rw [List.map_cons, List.foldl_cons, ih, List.foldl_cons]
    rfl

def aloneMoves (w : ProxyNode.Surroundings) : List RouterMove :=
  (AdmissionRun.aloneMoves w.now w.keys).map .gate ++ [.pass 0, .dialed 0 w.dial w.takeover]

theorem run_alone (p : ProxyNode) (w : ProxyNode.Surroundings) (request : Request) :
    let run := (aloneMoves w).foldl advance
      (start p.config.gateConfig p.cache p.revoked p.engine [request])
    (∃ tunnel, run.passages[0]? =
      some ⟨request, .answered (p.serve w request).response tunnel⟩) ∧
      run.engine = (p.serve w request).node.engine ∧
      run.admission.lookups.cache = (p.serve w request).node.cache ∧
      run.dials = ((p.serve w request).dialed.map fun d => (0, d.target)).toList := by
  intro run
  obtain ⟨verdict, cached, _⟩ := AdmissionRun.run_alone p.config.gateConfig request.headers p.cache
    p.revoked w.now w.keys
  simp only [run, aloneMoves, List.foldl_append, foldl_gate, List.foldl_cons, List.foldl_nil]
  simp only [start, List.map_cons, List.map_nil]
  -- The gate goes first, as a run of its own; its verdict decides the other moves.
  generalize (AdmissionRun.aloneMoves w.now w.keys).foldl AdmissionRun.advance
    (AdmissionRun.start p.config.gateConfig p.cache p.revoked [request.headers]) = admission
    at verdict cached
  unfold ProxyNode.serve ProxyNode.screen
  generalize p.config.gateConfig.authorize request.headers p.cache p.revoked w.now w.keys = outcome
    at verdict cached
  obtain ⟨result, cache, fetched⟩ := outcome
  simp only at verdict cached
  cases result with
  | error refusal => simp [advance, step, verdict, setStage, cached]
  | ok admitted =>
    obtain ⟨start, begun⟩ : ∃ start, p.engine.begin request = start := ⟨_, rfl⟩
    obtain ⟨fault | dial, engine⟩ := start
    · simp [advance, step, verdict, setStage, cached, begun, TunnelEngine.handle]
    · obtain ⟨tunnel, concluded⟩ : ∃ tunnel, engine.conclude dial w.dial w.takeover = tunnel :=
        ⟨_, rfl⟩
      obtain ⟨fault | opened, engine'⟩ := tunnel
      · simp [advance, step, verdict, setStage, cached, begun, concluded, TunnelEngine.handle,
          TunnelEngine.answer]
      · simp [advance, step, verdict, setStage, cached, begun, concluded, TunnelEngine.handle]

/-! ## The changes of a run -/

inductive Change (r : RouterRun) : RouterMove → RouterRun → Prop
  | gate {m} : Change r (.gate m) { r with admission := r.admission.advance m }
  | refuse {i request h refusal} (present : r.passages[i]? = some ⟨request, .screening⟩)
      (verdict : r.admission.admissions[i]? = some ⟨h, .done (.error refusal)⟩) :
      Change r (.pass i) (r.setStage i (.answered (refusal.response.sentTo request) none))
  | decline {i request h admitted fault} (present : r.passages[i]? = some ⟨request, .screening⟩)
      (verdict : r.admission.admissions[i]? = some ⟨h, .done (.ok admitted)⟩)
      (begun : r.engine.begin request = (.error fault, r.engine)) :
      Change r (.pass i) (r.setStage i (.answered (fault.response.sentTo request) none))
  | dial {i request h admitted d engine} (present : r.passages[i]? = some ⟨request, .screening⟩)
      (verdict : r.admission.admissions[i]? = some ⟨h, .done (.ok admitted)⟩)
      (begun : r.engine.begin request = (.ok d, engine)) :
      Change r (.pass i)
        { r.setStage i (.dialing d) with engine, dials := (i, d.target) :: r.dials }
  | fail {i request d outcome takeover fault}
      (present : r.passages[i]? = some ⟨request, .dialing d⟩)
      (concluded : r.engine.conclude d outcome takeover = (.error fault, r.engine)) :
      Change r (.dialed i outcome takeover)
        (r.setStage i (.answered (fault.response.sentTo request) none))
  | establish {i request d outcome takeover engine}
      (present : r.passages[i]? = some ⟨request, .dialing d⟩)
      (concluded : r.engine.conclude d outcome takeover = (.ok (), engine)) :
      Change r (.dialed i outcome takeover)
        { r.setStage i (.answered ((TunnelEngine.answer (.ok ())).sentTo request) (some d)) with
          engine }
  | leave {i request response d}
      (present : r.passages[i]? = some ⟨request, .answered response (some d)⟩) :
      Change r (.tunnelEnded i)
        { r.setStage i (.answered response none) with engine := r.engine.leave }

theorem change_of_step {r r' : RouterRun} {m : RouterMove} (made : r.step m = some r') :
    r.Change m r' := by
  cases m with
  | gate m =>
    cases made
    exact .gate
  | pass i =>
    simp only [step] at made
    split at made
    · next request refusal present verdict =>
      cases made
      exact .refuse present verdict
    · next request admitted present verdict =>
      split at made
      · next fault engine begun =>
        obtain rfl := TunnelEngine.eq_of_begin_error begun
        cases made
        exact .decline present verdict begun
      · next d engine begun =>
        cases made
        exact .dial present verdict begun
    · contradiction
  | dialed i outcome takeover =>
    simp only [step] at made
    split at made
    · next request d present =>
      split at made
      · next fault engine concluded =>
        obtain rfl := TunnelEngine.eq_of_conclude_error concluded
        cases made
        exact .fail present concluded
      · next engine concluded =>
        cases made
        exact .establish present concluded
    · contradiction
  | tunnelEnded i =>
    simp only [step] at made
    split at made
    · next response d present =>
      cases made
      exact .leave present
    · contradiction

theorem step_of_change {r r' : RouterRun} {m : RouterMove} (change : r.Change m r') :
    r.step m = some r' := by
  cases change with
  | gate => rfl
  | refuse present verdict => simp [step, present, verdict]
  | decline present verdict begun => simp [step, present, verdict, begun, setStage]
  | dial present verdict begun => simp [step, present, verdict, begun]
  | fail present concluded => simp [step, present, concluded, setStage]
  | establish present concluded => simp [step, present, concluded]
  | leave present => simp [step, present]

/-- The functional step and the list of changes agree. -/
theorem step_eq_some_iff {r r' : RouterRun} {m : RouterMove} :
    r.step m = some r' ↔ r.Change m r' :=
  ⟨change_of_step, step_of_change⟩

theorem change_or_advance_eq (r : RouterRun) (m : RouterMove) :
    r.Change m (r.advance m) ∨ r.advance m = r := by
  unfold advance
  cases made : r.step m with
  | none => exact .inr rfl
  | some r' => exact .inl (change_of_step made)

theorem of_getElem?_setStage {r : RouterRun} {i j : Nat} {stage : PassageStage} {p : Passage}
    (present : (r.setStage i stage).passages[j]? = some p) :
    r.passages[j]? = some p ∧ j ≠ i ∨
      j = i ∧ p.stage = stage ∧ ∃ old, r.passages[i]? = some ⟨p.request, old⟩ := by
  by_cases mine : i = j
  · subst mine
    obtain ⟨old, before, rfl⟩ : ∃ old, r.passages[i]? = some old ∧ { old with stage } = p := by
      simpa [setStage] using present
    exact .inr ⟨rfl, rfl, old.stage, before⟩
  · rw [setStage, List.getElem?_modify_ne _ _ mine] at present
    exact .inl ⟨present, Ne.symm mine⟩

/-- To change the stage of a request changes no request. -/
theorem exists_passage_setStage {r : RouterRun} {i j : Nat} {request asked : Request}
    {old : PassageStage} (present : r.passages[i]? = some ⟨request, old⟩) (stage : PassageStage) :
    (∃ now, (r.setStage i stage).passages[j]? = some ⟨asked, now⟩) ↔
      ∃ was, r.passages[j]? = some ⟨asked, was⟩ := by
  constructor
  · rintro ⟨now, after⟩
    obtain ⟨before, _⟩ | ⟨rfl, _, before⟩ := of_getElem?_setStage after
    · exact ⟨now, before⟩
    · exact before
  · rintro ⟨was, before⟩
    by_cases mine : j = i
    · subst mine
      cases before.symm.trans present
      exact ⟨stage, by simp [setStage, present]⟩
    · exact ⟨was, by simpa [setStage, Ne.symm mine] using before⟩

/-- Whatever happens beyond the gate does not change the gate. -/
theorem admission_advance (r : RouterRun) (m : RouterMove) :
    (r.advance m).admission =
      match m with
      | .gate m' => r.admission.advance m'
      | _ => r.admission := by
  cases m with
  | gate m' => rfl
  | pass i | dialed i | tunnelEnded i =>
    obtain change | same := r.change_or_advance_eq _
    · generalize r.advance _ = r' at change
      cases change <;> rfl
    · rw [same]

end RouterRun

/-! ## What holds at every moment -/

/-- A refusal is answered with the status 401, to whatever request. -/
theorem Refusal.status_sentTo (refusal : Refusal) (request : Request) :
    (refusal.response.sentTo request).status = 401 := by
  unfold Response.sentTo
  split <;> rfl

structure RouterSchedule where
  gate : GateConfig
  cache : KeyCache := .empty
  revoked : RevokedSet := .empty
  engine : TunnelEngine := {}
  requests : List Request
  moves : Nat → RouterMove

namespace RouterSchedule

def moment (s : RouterSchedule) (n : Nat) : RouterRun :=
  stateAt RouterRun.advance (.start s.gate s.cache s.revoked s.engine s.requests) s.moves n

/-- What happens at the gate alone: whatever else happens revokes nothing. -/
def admissions (s : RouterSchedule) : AdmissionSchedule where
  gate := s.gate
  cache := s.cache
  revoked := s.revoked
  requests := s.requests.map (·.headers)
  moves n :=
    match s.moves n with
    | .gate m => m
    | _ => .revoke (.extend [])

def LetThrough (s : RouterSchedule) (i n : Nat) : Prop :=
  ∃ admitted, s.admissions.Returned i n (.ok admitted)

def Refused (s : RouterSchedule) (i : Nat) (refusal : Refusal) (n : Nat) : Prop :=
  s.admissions.Returned i n (.error refusal)

/-- A request asks for a tunnel to a target, and the gate lets it through, in the state of a moment
    before. -/
def Warranted (s : RouterSchedule) (i : Nat) (target : Uri.Authority) (n : Nat) : Prop :=
  ∃ request admitted, s.requests[i]? = some request ∧ request.method = "CONNECT" ∧
    request.tunnelTarget = .ok target ∧ s.admissions.Returned i n (.ok admitted) ∧
    s.admissions.Accepts i request.headers admitted n

variable {s : RouterSchedule}

theorem change_or_same (s : RouterSchedule) (n : Nat) :
    (s.moment n).Change (s.moves n) (s.moment (n + 1)) ∨ s.moment (n + 1) = s.moment n := by
  rw [show s.moment (n + 1) = (s.moment n).advance (s.moves n) from stateAt_succ]
  exact RouterRun.change_or_advance_eq (s.moment n) (s.moves n)

theorem admission_eq (s : RouterSchedule) (n : Nat) :
    (s.moment n).admission = s.admissions.moment n := by
  induction n with
  | zero => rfl
  | succ n ih =>
    rw [s.admissions.moment_succ, ← ih,
      show s.moment (n + 1) = (s.moment n).advance (s.moves n) from stateAt_succ,
      RouterRun.admission_advance]
    -- A move beyond the gate stands for one at the gate that revokes nothing.
    cases tried : s.moves n <;> simp only [admissions, tried] <;> rfl

theorem Warranted.succ {i n : Nat} {target : Uri.Authority} (warranted : s.Warranted i target n) :
    s.Warranted i target (n + 1) := by
  obtain ⟨request, admitted, asked, connect, named, returned, accepted⟩ := warranted
  exact ⟨request, admitted, asked, connect, named, returned.mono (Nat.le_succ n),
    accepted.mono (Nat.le_succ n)⟩

theorem LetThrough.succ {n i : Nat} (through : s.LetThrough i n) : s.LetThrough i (n + 1) := by
  obtain ⟨admitted, returned⟩ := through
  exact ⟨admitted, returned.mono (Nat.le_succ n)⟩

structure Sound (s : RouterSchedule) (n : Nat) : Prop where
  same : ∀ (i : Nat) (request : Request), s.requests[i]? = some request ↔
    ∃ stage, (s.moment n).passages[i]? = some ⟨request, stage⟩
  judged : ∀ (i : Nat) request stage, (s.moment n).passages[i]? = some ⟨request, stage⟩ →
    stage = .screening ∨ s.LetThrough i n ∨
      ∃ refusal, s.Refused i refusal n ∧ stage = .answered (refusal.response.sentTo request) none
  undialed : ∀ (i : Nat) request, (s.moment n).passages[i]? = some ⟨request, .screening⟩ →
    i ∉ (s.moment n).dials.map Prod.fst
  once : ((s.moment n).dials.map Prod.fst).Nodup
  warranted : ∀ i target, (i, target) ∈ (s.moment n).dials → s.Warranted i target n

theorem sound_start (s : RouterSchedule) : s.Sound 0 := by
  have arrived : ∀ {i : Nat} {p : Passage}, (s.moment 0).passages[i]? = some p ↔
      s.requests[i]? = some p.request ∧ p.stage = .screening := by
    intro i p
    obtain ⟨request, stage⟩ := p
    have mapped : (s.moment 0).passages[i]? =
        s.requests[i]?.map fun request => ⟨request, .screening⟩ :=
      List.getElem?_map
    rw [mapped]
    cases s.requests[i]? <;> simp [eq_comm]
  refine ⟨fun i request => ?_, fun i request stage present => ?_, fun _ _ _ => List.not_mem_nil,
    List.nodup_nil, nofun⟩
  · constructor
    · exact fun asked => ⟨.screening, arrived.mpr ⟨asked, rfl⟩⟩
    · rintro ⟨stage, present⟩
      exact (arrived.mp present).1
  · exact .inl (arrived.mp present).2

/-- What the gate has made of a request stays. -/
theorem Sound.judged_succ {n i : Nat} (sound : s.Sound n) {request : Request} {stage : PassageStage}
    (present : (s.moment n).passages[i]? = some ⟨request, stage⟩) :
    stage = .screening ∨ s.LetThrough i (n + 1) ∨
      ∃ refusal, s.Refused i refusal (n + 1) ∧
        stage = .answered (refusal.response.sentTo request) none := by
  obtain waiting | through | ⟨refusal, refused, answered⟩ := sound.judged i request stage present
  · exact .inl waiting
  · exact .inr (.inl through.succ)
  · exact .inr (.inr ⟨refusal, AdmissionSchedule.Returned.mono refused (Nat.le_succ n), answered⟩)

theorem Sound.keep {n : Nat} (sound : s.Sound n)
    (passages : (s.moment (n + 1)).passages = (s.moment n).passages)
    (dials : (s.moment (n + 1)).dials = (s.moment n).dials) : s.Sound (n + 1) where
  same i request := by
    rw [passages]
    exact sound.same i request
  judged i request stage present := by
    rw [passages] at present
    exact sound.judged_succ present
  undialed := by
    rw [passages, dials]
    exact sound.undialed
  once := by
    rw [dials]
    exact sound.once
  warranted i target dialed := by
    rw [dials] at dialed
    exact (sound.warranted i target dialed).succ

/-- A request leaves the gate, or goes on beyond it. -/
theorem Sound.move {n i : Nat} (sound : s.Sound n) {request : Request} {old : PassageStage}
    (stage : PassageStage) (present : (s.moment n).passages[i]? = some ⟨request, old⟩)
    (moved : (s.moment (n + 1)).passages = ((s.moment n).setStage i stage).passages)
    (left : stage ≠ .screening)
    (judged : s.LetThrough i (n + 1) ∨ ∃ refusal, s.Refused i refusal (n + 1) ∧
      stage = .answered (refusal.response.sentTo request) none)
    (dials : (s.moment (n + 1)).dials = (s.moment n).dials ∨ old = .screening ∧
      ∃ target, (s.moment (n + 1)).dials = (i, target) :: (s.moment n).dials ∧
        s.Warranted i target (n + 1)) : s.Sound (n + 1) where
  same j asked := by
    rw [sound.same j asked, moved]
    exact (RouterRun.exists_passage_setStage present stage).symm
  judged j asked now after := by
    rw [moved] at after
    obtain ⟨before, _⟩ | ⟨rfl, rfl, _, before⟩ := RouterRun.of_getElem?_setStage after
    · exact sound.judged_succ before
    · cases before.symm.trans present
      exact .inr judged
  undialed j asked after := by
    rw [moved] at after
    -- Only the passage that moved can have dialed, and it is no longer among the others.
    obtain ⟨before, other⟩ | ⟨_, staged, _⟩ := RouterRun.of_getElem?_setStage after
    · have undialed := sound.undialed j asked before
      obtain same | ⟨_, target, dialed, _⟩ := dials
      · rw [same]
        exact undialed
      · rw [dialed, List.map_cons, List.mem_cons, not_or]
        exact ⟨other, undialed⟩
    · exact absurd staged.symm left
  once := by
    obtain same | ⟨rfl, target, dialed, _⟩ := dials
    · rw [same]
      exact sound.once
    · rw [dialed]
      exact List.nodup_cons.mpr ⟨sound.undialed i request present, sound.once⟩
  warranted j target dialed := by
    obtain same | ⟨_, target', new, warranted⟩ := dials
    · rw [same] at dialed
      exact (sound.warranted j target dialed).succ
    · rw [new] at dialed
      obtain fresh | before := List.mem_cons.mp dialed
      · cases fresh
        exact warranted
      · exact (sound.warranted j target before).succ

theorem returned_of_verdict {n i : Nat} {h : Headers} {verdict : Except Refusal AuthorizedToken}
    (present : (s.moment n).admission.admissions[i]? = some ⟨h, .done verdict⟩) :
    s.admissions.Returned i n verdict := by
  rw [admission_eq] at present
  exact ⟨h, present⟩

/-- Whoever is beyond the gate and was not turned away there was let through. -/
theorem Sound.letThrough {n i : Nat} (sound : s.Sound n) {request : Request} {stage : PassageStage}
    (present : (s.moment n).passages[i]? = some ⟨request, stage⟩) (left : stage ≠ .screening)
    (going : ∀ response, stage ≠ .answered response none) : s.LetThrough i n := by
  obtain waiting | through | ⟨refusal, _, answered⟩ := sound.judged i request stage present
  · exact absurd waiting left
  · exact through
  · exact absurd answered (going _)

/-- What is dialed for a request that passes the gate is warranted. -/
theorem warranted_of_begin {n i : Nat} {request : Request} {admitted : AuthorizedToken} {d : Dial}
    {engine engine' : TunnelEngine} (asked : s.requests[i]? = some request)
    (returned : s.admissions.Returned i n (.ok admitted))
    (begun : engine.begin request = (.ok d, engine')) : s.Warranted i d.target n := by
  obtain ⟨connect, named, -, -⟩ := TunnelEngine.begin_eq_ok_iff.mp begun
  obtain ⟨h, carried, accepted⟩ := AdmissionSchedule.accepted_of_returned returned
  obtain rfl : request.headers = h := by simpa [admissions, asked] using carried
  exact ⟨request, admitted, asked, connect, named, returned, accepted⟩

theorem sound (s : RouterSchedule) (n : Nat) : s.Sound n := by
  induction n with
  | zero => exact s.sound_start
  | succ n ih =>
    obtain change | same := s.change_or_same n
    · generalize s.moves n = m at change
      generalize next : s.moment (n + 1) = r' at change
      have passages := congrArg RouterRun.passages next
      have dials := congrArg RouterRun.dials next
      -- Whoever leaves the gate does so by its verdict; beyond it the old verdict still counts.
      cases change with
      | gate => exact ih.keep passages dials
      | refuse present verdict =>
        have refused := (returned_of_verdict verdict).mono (Nat.le_succ n)
        exact ih.move _ present passages nofun (.inr ⟨_, refused, rfl⟩) (.inl dials)
      | decline present verdict =>
        have through : s.LetThrough _ n := ⟨_, returned_of_verdict verdict⟩
        exact ih.move _ present passages nofun (.inl through.succ) (.inl dials)
      | @dial i request _ _ d _ present verdict begun =>
        have returned := returned_of_verdict verdict
        have asked := (ih.same i request).mpr ⟨_, present⟩
        have warranted := (warranted_of_begin asked returned begun).succ
        have through : s.LetThrough i n := ⟨_, returned⟩
        exact ih.move (.dialing d) present passages nofun (.inl through.succ)
          (.inr ⟨rfl, d.target, dials, warranted⟩)
      | fail present =>
        have through := ih.letThrough present nofun nofun
        exact ih.move _ present passages nofun (.inl through.succ) (.inl dials)
      | @establish _ request d _ _ _ present =>
        have through := ih.letThrough present nofun nofun
        exact ih.move (.answered ((TunnelEngine.answer (.ok ())).sentTo request) (some d)) present
          passages nofun (.inl through.succ) (.inl dials)
      | @leave _ _ response _ present =>
        have through := ih.letThrough present nofun nofun
        exact ih.move (.answered response none) present passages nofun (.inl through.succ)
          (.inl dials)
    · exact ih.keep (by rw [same]) (by rw [same])

/-! ## What the router guarantees -/

/-- What becomes of a request that the gate has refused. -/
structure TurnedAway (s : RouterSchedule) (i : Nat) (refusal : Refusal) (n : Nat) : Prop where
  /-- It is answered so when it leaves the gate, and it is not answered otherwise. -/
  answered : ∃ request, s.requests[i]? = some request ∧
    (refusal.response.sentTo request).status = 401 ∧
    (∀ stage, (s.moment n).passages[i]? = some ⟨request, stage⟩ →
      stage = .screening ∨ stage = .answered (refusal.response.sentTo request) none) ∧
    (s.moves n = .pass i → (s.moment (n + 1)).passages[i]? =
      some ⟨request, .answered (refusal.response.sentTo request) none⟩)
  undialed : ∀ m target, (i, target) ∉ (s.moment m).dials
  /-- Its moves leave the number of open tunnels and the number of the next tunnel as they are. -/
  unmoved : (s.moves n).index? = some i → (s.moment (n + 1)).engine = (s.moment n).engine

/-- What the router guarantees in a run. -/
structure Guarded (s : RouterSchedule) : Prop where
  /-- A target is dialed only for a request that asks for a tunnel to it, and that the gate let
      through before. -/
  warranted : ∀ n i target, (i, target) ∈ (s.moment n).dials → s.Warranted i target n
  once : ∀ n, ((s.moment n).dials.map Prod.fst).Nodup
  turnedAway : ∀ n i refusal, s.Refused i refusal n → s.TurnedAway i refusal n
  /-- Only requests that were let through make use of the engine. -/
  engine : ∀ n, (s.moment (n + 1)).engine = (s.moment n).engine ∨
    ∃ i, (s.moves n).index? = some i ∧ s.LetThrough i n

theorem engine_eq_or (s : RouterSchedule) (n : Nat) :
    (s.moment (n + 1)).engine = (s.moment n).engine ∨
      ∃ i, (s.moves n).index? = some i ∧ s.LetThrough i n := by
  obtain change | same := s.change_or_same n
  · generalize s.moves n = m at change ⊢
    generalize s.moment (n + 1) = r' at change ⊢
    cases change with
    | gate | refuse | decline | fail => exact .inl rfl
    | dial _ verdict => exact .inr ⟨_, rfl, _, returned_of_verdict verdict⟩
    | establish present => exact .inr ⟨_, rfl, (s.sound n).letThrough present nofun nofun⟩
    | leave present => exact .inr ⟨_, rfl, (s.sound n).letThrough present nofun nofun⟩
  · exact .inl (by rw [same])

theorem not_refused_of_letThrough {i n m : Nat} {refusal : Refusal} (through : s.LetThrough i n) :
    ¬s.Refused i refusal m := by
  intro refused
  obtain ⟨admitted, returned⟩ := through
  cases returned.unique refused

theorem turnedAway_of_refused {i n : Nat} {refusal : Refusal} (refused : s.Refused i refusal n) :
    s.TurnedAway i refusal n where
  answered := by
    obtain ⟨h, finished⟩ := refused
    obtain ⟨request, asked, -⟩ :
        ∃ request, s.requests[i]? = some request ∧ request.headers = h := by
      simpa [admissions] using (AdmissionSchedule.genuine finished).1
    have judged : ∀ stage, (s.moment n).passages[i]? = some ⟨request, stage⟩ →
        stage = .screening ∨ stage = .answered (refusal.response.sentTo request) none := by
      intro stage present
      obtain waiting | through | ⟨refusal', refused', answered⟩ :=
        (s.sound n).judged i request stage present
      · exact .inl waiting
      · exact absurd ⟨h, finished⟩ (not_refused_of_letThrough through)
      · cases AdmissionSchedule.Returned.unique refused' ⟨h, finished⟩
        exact .inr answered
    refine ⟨request, asked, Refusal.status_sentTo refusal request, judged, fun tried => ?_⟩
    -- If it is still at the gate it is answered now, and otherwise it was answered so before.
    obtain ⟨stage, present⟩ := ((s.sound n).same i request).mp asked
    rw [← s.admission_eq] at finished
    rw [show s.moment (n + 1) = (s.moment n).advance (s.moves n) from stateAt_succ, tried]
    obtain rfl | rfl := judged stage present
    · simp [RouterRun.advance, RouterRun.step, present, finished, RouterRun.setStage]
    · simp [RouterRun.advance, RouterRun.step, present]
  undialed m target dialed := by
    obtain ⟨_, admitted, _, _, _, returned, _⟩ := (s.sound m).warranted i target dialed
    exact not_refused_of_letThrough ⟨admitted, returned⟩ refused
  unmoved tried := by
    obtain same | ⟨j, mine, through⟩ := s.engine_eq_or n
    · exact same
    · obtain rfl := Option.some.inj (tried.symm.trans mine)
      exact absurd refused (not_refused_of_letThrough through)

/-- In every run of the router, whatever arrives, in whatever order turns are taken, and however
    dials end: only requests that the gate let through are dialed, each at most once and to its own
    target, and those that it refused are answered so and use up nothing. -/
theorem guarded (s : RouterSchedule) : s.Guarded where
  warranted n := (s.sound n).warranted
  once n := (s.sound n).once
  turnedAway _ _ _ := turnedAway_of_refused
  engine := s.engine_eq_or

/-- Two requests for tunnels at a gate that accepts unsigned tokens: one with such a token, and one
    with none. -/
def mixed : RouterSchedule where
  gate := { required := [], allowUnsigned := true }
  requests :=
    [{ method := "CONNECT", target := ⟨some ⟨"a:443"⟩, ""⟩
       headers := [("proxy-authorization",
        Octets.ofString "Bearer eyJhbGciOiJub25lIn0.eyJleHAiOjksImp0aSI6ImEifQ.")] },
     { method := "CONNECT", target := ⟨some ⟨"b:443"⟩, ""⟩, headers := [] }]
  moves n := [.gate (.present 0 (.ofSeconds 0)), .gate (.present 1 (.ofSeconds 0)),
    .gate (.check 0), .pass 0].getD n (.pass 1)

theorem guarded_mixed :
    (0, ⟨"a:443"⟩) ∈ (mixed.moment 4).dials ∧ mixed.Warranted 0 ⟨"a:443"⟩ 4 ∧
      mixed.Refused 1 .noHeader 4 ∧ mixed.TurnedAway 1 .noHeader 4 := by
  have dialed : (0, ⟨"a:443"⟩) ∈ (mixed.moment 4).dials := List.mem_singleton.mpr rfl
  have refused : mixed.Refused 1 .noHeader 4 := ⟨_, rfl⟩
  exact ⟨dialed, (guarded mixed).warranted 4 0 _ dialed, refused,
    (guarded mixed).turnedAway 4 1 _ refused⟩

end RouterSchedule

end Tollgate
