import Mathlib.Data.List.Nodup
import Tollgate.Proofs.Moments
import Tollgate.Tunnel.Engine

/-! # The life of a tunnel

Many requests are under way on one engine, and each goes its own way: it is declined, or its target
is dialed, which leads to a tunnel or to none, and a tunnel ends in its time.  `Advance` is what can
happen to one request that is there, with what the engine makes of it; a change of the run is an
arrival or an advance of one request.

The gauge of the engine follows from `Steady`: it counts the requests that became tunnels and whose
task has not ended, and the numbers that were given out are those from one on.  Every change keeps
that.  What became of a request is in its stage, and the moves of the schedule tell when it got there.
-/

namespace Tollgate

namespace TunnelStage

def dial? : TunnelStage → Option Dial
  | .declined _ => none
  | .dialing d | .failed d _ | .abandoned d | .takingOver d | .carrying d | .ended d => some d

def isEstablished : TunnelStage → Bool
  | .takingOver _ | .carrying _ | .ended _ => true
  | .declined _ | .dialing _ | .failed _ _ | .abandoned _ => false

def isEnded : TunnelStage → Bool
  | .ended _ => true
  | .declined _ | .dialing _ | .failed _ _ | .abandoned _ | .takingOver _ | .carrying _ => false

def response? : TunnelStage → Option Response
  | .declined fault | .failed _ fault => some fault.response
  | .takingOver _ | .carrying _ | .ended _ => some (TunnelEngine.answer (.ok ()))
  | .dialing _ | .abandoned _ => none

theorem isEstablished_of_isEnded {stage : TunnelStage} (ended : stage.isEnded = true) :
    stage.isEstablished = true := by
  cases stage <;> first | rfl | contradiction

end TunnelStage

def TunnelEngine.enter (e : TunnelEngine) : TunnelEngine := { e with active := e.active + 1 }

/-- What a move can do to the request of number `i`, and with it to the engine. -/
inductive TunnelRequest.Advance (i : Nat) :
    TunnelMove → TunnelRequest → TunnelRequest → (TunnelEngine → TunnelEngine) → Prop
  | fail {request takeover d outcome fault} (lacking : outcome = .connected → takeover = false) :
      Advance i (.dialed i outcome) ⟨request, takeover, .dialing d⟩
        ⟨request, takeover, .failed d fault⟩ id
  | establish {request d} :
      Advance i (.dialed i .connected) ⟨request, true, .dialing d⟩
        ⟨request, false, .takingOver d⟩ TunnelEngine.enter
  | abandon {request takeover d} :
      Advance i (.abandon i) ⟨request, takeover, .dialing d⟩ ⟨request, takeover, .abandoned d⟩ id
  | takeOver {request takeover d} :
      Advance i (.takenOver i true) ⟨request, takeover, .takingOver d⟩
        ⟨request, takeover, .carrying d⟩ id
  | lose {request takeover d} :
      Advance i (.takenOver i false) ⟨request, takeover, .takingOver d⟩
        ⟨request, takeover, .ended d⟩ TunnelEngine.leave
  | finish {request takeover d} :
      Advance i (.taskEnded i) ⟨request, takeover, .carrying d⟩
        ⟨request, takeover, .ended d⟩ TunnelEngine.leave

namespace TunnelRun

variable {r r' : TunnelRun} {m : TunnelMove} {i : Nat} {q q' : TunnelRequest}
  {effect : TunnelEngine → TunnelEngine}

def advance (r : TunnelRun) (m : TunnelMove) : TunnelRun := (r.step m).getD r

def dials (r : TunnelRun) : List Dial := r.requests.filterMap (·.stage.dial?)

def established (r : TunnelRun) : Nat := r.requests.countP (·.stage.isEstablished)

def ended (r : TunnelRun) : Nat := r.requests.countP (·.stage.isEnded)

/-- A request that nobody interrupts is handled as `TunnelEngine.handle` says. -/
theorem run_alone (e : TunnelEngine) (request : Request) (outcome : DialOutcome)
    (takeover : Bool) :
    let run := advance (advance ⟨e, []⟩ (.arrive request takeover)) (.dialed 0 outcome)
    let (response, engine, dialed) := e.handle request outcome takeover
    ∃ q, run = ⟨engine, [q]⟩ ∧ q.stage.response? = some response ∧ q.stage.dial? = dialed := by
  cases begun : e.begin request with
  | mk start engine =>
    cases start with
    | error fault =>
      simp [advance, step, begun, TunnelEngine.handle, TunnelStage.response?, TunnelStage.dial?]
    | ok d =>
      cases concluded : engine.conclude d outcome takeover with
      | mk result engine' =>
        cases result <;>
          simp [advance, step, put, begun, concluded, TunnelEngine.handle, TunnelEngine.answer,
            TunnelStage.response?, TunnelStage.dial?]

/-! ## The changes of a run -/

inductive Change (r : TunnelRun) : TunnelMove → TunnelRun → Prop
  | decline {request takeover fault} (begun : r.engine.begin request = (.error fault, r.engine)) :
      Change r (.arrive request takeover)
        { r with requests := r.requests ++ [⟨request, takeover, .declined fault⟩] }
  | dial {request takeover d engine} (begun : r.engine.begin request = (.ok d, engine)) :
      Change r (.arrive request takeover)
        ⟨engine, r.requests ++ [⟨request, takeover, .dialing d⟩]⟩
  | advance {m : TunnelMove} {i : Nat} {q q' effect} (present : r.requests[i]? = some q)
      (advance : TunnelRequest.Advance i m q q' effect) :
      Change r m { r.put i q' with engine := effect r.engine }

theorem change_of_step (made : r.step m = some r') : r.Change m r' := by
  cases m with
  | arrive request takeover =>
    simp only [step] at made
    split at made
    · next fault engine begun =>
      obtain rfl := TunnelEngine.eq_of_begin_error begun
      cases made
      exact .decline begun
    · next d engine begun =>
      cases made
      exact .dial begun
  | dialed i outcome =>
    simp only [step] at made
    split at made
    · next request takeover d present =>
      cases outcome with
      | failed reason =>
        cases made
        exact .advance present (.fail (by simp))
      | timedOut =>
        cases made
        exact .advance present (.fail (by simp))
      | connected =>
        cases takeover with
        | false =>
          cases made
          exact .advance present (.fail fun _ => rfl)
        | true =>
          cases made
          exact .advance present .establish
    · contradiction
  | abandon i =>
    simp only [step] at made
    split at made
    · next request takeover d present =>
      cases made
      exact .advance present .abandon
    · contradiction
  | takenOver i succeeded =>
    simp only [step] at made
    split at made
    · next request takeover d present =>
      cases succeeded with
      | true =>
        cases made
        exact .advance present .takeOver
      | false =>
        cases made
        exact .advance present .lose
    · contradiction
  | taskEnded i =>
    simp only [step] at made
    split at made
    · next request takeover d present =>
      cases made
      exact .advance present .finish
    · contradiction

theorem change_or_advance_eq (r : TunnelRun) (m : TunnelMove) :
    r.Change m (r.advance m) ∨ r.advance m = r := by
  cases made : r.step m with
  | none => exact .inr (by simp [TunnelRun.advance, made])
  | some r' =>
    have moved : r.advance m = r' := by simp [TunnelRun.advance, made]
    exact .inl (moved ▸ change_of_step made)

/-! ## What the engine counts -/

theorem dials_put (present : r.requests[i]? = some q) (same : q'.stage.dial? = q.stage.dial?) :
    (r.put i q').dials = r.dials := by
  obtain ⟨inside, rfl⟩ := List.getElem?_eq_some_iff.mp present
  have stages : (r.put i q').requests.map (·.stage.dial?) = r.requests.map (·.stage.dial?) := by
    rw [put, List.map_set, same, ← List.map_set, List.set_getElem_self]
  have joined := congrArg (List.filterMap id) stages
  simpa [dials, List.filterMap_map] using joined

theorem countP_put (f : TunnelRequest → Bool) (q' : TunnelRequest)
    (present : r.requests[i]? = some q) :
    (r.put i q').requests.countP f + (f q).toNat = r.requests.countP f + (f q').toNat := by
  obtain ⟨inside, rfl⟩ := List.getElem?_eq_some_iff.mp present
  rw [put, List.countP_set inside]
  cases held : f r.requests[i] with
  | false => cases f q' <;> simp
  | true =>
    have counted : 0 < r.requests.countP f :=
      List.countP_pos_iff.mpr ⟨_, List.getElem_mem inside, held⟩
    cases f q' <;> simp <;> omega

theorem established_put (q' : TunnelRequest) (present : r.requests[i]? = some q) :
    (r.put i q').established + q.stage.isEstablished.toNat =
      r.established + q'.stage.isEstablished.toNat :=
  countP_put (·.stage.isEstablished) q' present

theorem ended_put (q' : TunnelRequest) (present : r.requests[i]? = some q) :
    (r.put i q').ended + q.stage.isEnded.toNat = r.ended + q'.stage.isEnded.toNat :=
  countP_put (·.stage.isEnded) q' present

theorem ended_le_established (r : TunnelRun) : r.ended ≤ r.established :=
  List.countP_mono_left fun _ _ => TunnelStage.isEstablished_of_isEnded

/-- The engine counts the tunnels that are open, and gives out the numbers from one on. -/
structure Steady (r : TunnelRun) : Prop where
  gauge : r.engine.active + r.ended = r.established
  next : r.engine.nextId = UInt64.ofNat (r.dials.length + 1)
  ids : r.dials.map Dial.tunnelId =
    (List.range r.dials.length).map fun k => UInt64.ofNat (k + 1)

theorem Steady.advance (steady : r.Steady) (present : r.requests[i]? = some q)
    (advance : TunnelRequest.Advance i m q q' effect) :
    Steady { r.put i q' with engine := effect r.engine } := by
  have dials : (r.put i q').dials = r.dials := dials_put present (by cases advance <;> rfl)
  have established := established_put q' present
  have ended := ended_put q' present
  -- An end lowers the gauge, which is not zero there: after it no more have ended than there were.
  have fewer := (r.put i q').ended_le_established
  have gauge := steady.gauge
  constructor
  case gauge =>
    show (effect r.engine).active + (r.put i q').ended = (r.put i q').established
    cases advance <;>
      simp only [TunnelStage.isEstablished, TunnelStage.isEnded, Bool.toNat_true, Bool.toNat_false,
        id, TunnelEngine.enter, TunnelEngine.leave] at established ended ⊢ <;>
      omega
  case next =>
    have same : (effect r.engine).nextId = r.engine.nextId := by cases advance <;> rfl
    show (effect r.engine).nextId = UInt64.ofNat ((r.put i q').dials.length + 1)
    rw [dials, same]
    exact steady.next
  case ids =>
    show (r.put i q').dials.map Dial.tunnelId =
      (List.range (r.put i q').dials.length).map fun k => UInt64.ofNat (k + 1)
    rw [dials]
    exact steady.ids

theorem Steady.change (steady : r.Steady) (change : r.Change m r') : r'.Steady := by
  cases change with
  | decline begun =>
    constructor
    · simpa [established, ended, TunnelStage.isEstablished, TunnelStage.isEnded] using steady.gauge
    · simpa [dials, TunnelStage.dial?] using steady.next
    · simpa [dials, TunnelStage.dial?] using steady.ids
  | @dial request takeover d engine begun =>
    obtain ⟨_, _, number, rfl⟩ := TunnelEngine.begin_eq_ok_iff.mp begun
    rw [steady.next] at number ⊢
    -- The new dial comes last and takes the next number.
    have dials : TunnelRun.dials ⟨⟨UInt64.ofNat (r.dials.length + 1) + 1, r.engine.active⟩,
        r.requests ++ [⟨request, takeover, .dialing d⟩]⟩ = r.dials ++ [d] := by
      simp [TunnelRun.dials, TunnelStage.dial?]
    constructor
    case gauge =>
      simpa [established, ended, TunnelStage.isEstablished, TunnelStage.isEnded] using steady.gauge
    case next =>
      rw [dials, List.length_append, List.length_singleton]
      exact (UInt64.ofNat_add _ 1).symm
    case ids =>
      rw [dials, List.length_append, List.length_singleton, List.range_succ, List.map_append,
        List.map_append, steady.ids]
      simp [number]
  | advance present advance => exact steady.advance present advance

/-! ## One request -/

/-- A request that is there stays as it is, or advances. -/
theorem Change.next (change : r.Change m r') (present : r.requests[i]? = some q) :
    r'.requests[i]? = some q ∨
      ∃ q' effect, TunnelRequest.Advance i m q q' effect ∧ r'.requests[i]? = some q' := by
  have inside := (List.getElem?_eq_some_iff.mp present).1
  cases change with
  | decline => exact .inl (by simp [List.getElem?_append_left inside, present])
  | dial => exact .inl (by simp [List.getElem?_append_left inside, present])
  | @advance _ j was now effect there advance =>
    by_cases mine : j = i
    · subst mine
      cases present.symm.trans there
      exact .inr ⟨now, effect, advance, by simp [put, inside]⟩
    · exact .inl (by simp [put, mine, present])

/-- A request that is there now was there before, or arrives with this move. -/
theorem Change.of_getElem? (change : r.Change m r') (present : r'.requests[i]? = some q') :
    (∃ q, r.requests[i]? = some q ∧
      (q' = q ∨ ∃ effect, TunnelRequest.Advance i m q q' effect)) ∨
      r.requests.length = i ∧ m = .arrive q'.request q'.takeover ∧
        q'.stage.isEstablished = false := by
  cases before : r.requests[i]? with
  | some q =>
    obtain same | ⟨now, effect, advance, same⟩ := change.next before
    · cases same.symm.trans present
      exact .inl ⟨_, rfl, .inl rfl⟩
    · cases same.symm.trans present
      exact .inl ⟨_, rfl, .inr ⟨effect, advance⟩⟩
  -- A request that was not there is the one that has just arrived.
  | none =>
    have beyond := List.getElem?_eq_none_iff.mp before
    have inside := (List.getElem?_eq_some_iff.mp present).1
    have last : ∀ {a : TunnelRequest}, (r.requests ++ [a])[i]? = some q' →
        r.requests.length = i ∧ a = q' := by
      intro a present
      have inside := (List.getElem?_eq_some_iff.mp present).1
      obtain rfl : r.requests.length = i := by
        rw [List.length_append, List.length_singleton] at inside
        omega
      exact ⟨rfl, by simpa using present⟩
    cases change with
    | decline =>
      obtain ⟨same, rfl⟩ := last present
      exact .inr ⟨same, rfl, rfl⟩
    | dial =>
      obtain ⟨same, rfl⟩ := last present
      exact .inr ⟨same, rfl, rfl⟩
    | advance there =>
      simp only [put, List.length_set] at inside
      omega

end TunnelRun

/-! ## All requests, in any order -/

structure TunnelSchedule where
  moves : Nat → TunnelMove

namespace TunnelSchedule

def moment (s : TunnelSchedule) (n : Nat) : TunnelRun := stateAt TunnelRun.advance {} s.moves n

def Arrives (s : TunnelSchedule) (i : Nat) (request : Request) (takeover : Bool) (n : Nat) : Prop :=
  s.moves n = .arrive request takeover ∧ (s.moment n).requests.length = i

/-- The dial succeeds with the move `n`, and the request holds the means to take its connection
    over. -/
def Establishes (s : TunnelSchedule) (i n : Nat) : Prop :=
  s.moves n = .dialed i .connected ∧
    ∃ request d, (s.moment n).requests[i]? = some ⟨request, true, .dialing d⟩

/-- The task of the tunnel ends with the move `n`: it waited for the connection in vain, or has
    carried octets. -/
def Finishes (s : TunnelSchedule) (i n : Nat) : Prop :=
  ∃ request takeover d,
    s.moves n = .takenOver i false ∧
        (s.moment n).requests[i]? = some ⟨request, takeover, .takingOver d⟩ ∨
      s.moves n = .taskEnded i ∧
        (s.moment n).requests[i]? = some ⟨request, takeover, .carrying d⟩

variable {s : TunnelSchedule} {i j n : Nat} {q q' : TunnelRequest}

theorem moment_succ : s.moment (n + 1) = (s.moment n).advance (s.moves n) := stateAt_succ

theorem moment_of_made {r : TunnelRun} (made : (s.moment n).step (s.moves n) = some r) :
    s.moment (n + 1) = r := by
  rw [moment_succ, TunnelRun.advance, made, Option.getD_some]

theorem change_or_same (s : TunnelSchedule) (n : Nat) :
    (s.moment n).Change (s.moves n) (s.moment (n + 1)) ∨ s.moment (n + 1) = s.moment n := by
  rw [moment_succ]
  exact TunnelRun.change_or_advance_eq _ _

theorem steady (s : TunnelSchedule) (n : Nat) : (s.moment n).Steady := by
  induction n with
  | zero => exact ⟨rfl, rfl, rfl⟩
  | succ n ih =>
    obtain change | same := s.change_or_same n
    · exact ih.change change
    · rw [same]
      exact ih

theorem next (present : (s.moment n).requests[i]? = some q) :
    (s.moment (n + 1)).requests[i]? = some q ∨ ∃ q' effect,
      TunnelRequest.Advance i (s.moves n) q q' effect ∧
        (s.moment (n + 1)).requests[i]? = some q' := by
  obtain change | same := s.change_or_same n
  · exact change.next present
  · rw [same]
    exact .inl present

theorem of_getElem?_succ (present : (s.moment (n + 1)).requests[i]? = some q') :
    (∃ q, (s.moment n).requests[i]? = some q ∧
      (q' = q ∨ ∃ effect, TunnelRequest.Advance i (s.moves n) q q' effect)) ∨
      s.Arrives i q'.request q'.takeover n ∧ q'.stage.isEstablished = false := by
  obtain change | same := s.change_or_same n
  · obtain before | ⟨number, arrives, early⟩ := change.of_getElem? present
    · exact .inl before
    · exact .inr ⟨⟨arrives, number⟩, early⟩
  · rw [same] at present
    exact .inl ⟨q', present, .inl rfl⟩

/-- A stage that requests do not arrive in, and do not leave, was reached by the move that leads to
    it. -/
theorem reached_iff {P : TunnelStage → Bool} {E : Nat → Prop}
    (late : ∀ stage, P stage = true → stage.isEstablished = true)
    (keeps : ∀ {m q q' effect}, TunnelRequest.Advance i m q q' effect → P q.stage = true →
      P q'.stage = true)
    (leads : ∀ {n q q' effect}, (s.moment n).requests[i]? = some q →
      TunnelRequest.Advance i (s.moves n) q q' effect → P q'.stage = true →
      P q.stage = true ∨ E n)
    (led : ∀ {n}, E n → ∃ q, (s.moment (n + 1)).requests[i]? = some q ∧ P q.stage = true)
    (present : (s.moment n).requests[i]? = some q) : P q.stage = true ↔ ∃ m < n, E m := by
  constructor
  · intro reached
    induction n generalizing q with
    | zero => contradiction
    | succ n ih =>
      obtain ⟨was, before, rfl | ⟨effect, advance⟩⟩ | ⟨_, early⟩ := of_getElem?_succ present
      · obtain ⟨m, sooner, led⟩ := ih before reached
        exact ⟨m, Nat.lt_succ_of_lt sooner, led⟩
      · obtain reached | leads := leads before advance reached
        · obtain ⟨m, sooner, led⟩ := ih before reached
          exact ⟨m, Nat.lt_succ_of_lt sooner, led⟩
        · exact ⟨n, Nat.lt_succ_self n, leads⟩
      · exact absurd (late _ reached) (by simp [early])
  · rintro ⟨m, later, leads⟩
    -- From the move that led there the stage is kept to the end.
    have stays : ∃ now, (s.moment n).requests[i]? = some now ∧ P now.stage = true := by
      clear present
      induction later with
      | refl => exact led leads
      | step _ ih =>
        obtain ⟨now, present, reached⟩ := ih
        obtain same | ⟨then_, effect, advance, after⟩ := next present
        · exact ⟨now, same, reached⟩
        · exact ⟨then_, after, keeps advance reached⟩
    obtain ⟨now, there, reached⟩ := stays
    cases present.symm.trans there
    exact reached

theorem isEstablished_iff (present : (s.moment n).requests[i]? = some q) :
    q.stage.isEstablished = true ↔ ∃ m < n, s.Establishes i m := by
  refine reached_iff (fun _ => id) ?keeps ?leads ?led present
  case keeps =>
    intro m q q' effect advance reached
    cases advance <;> first | rfl | contradiction
  case leads =>
    intro n q q' effect present advance reached
    generalize move : s.moves n = m at advance
    cases advance with
    | establish => exact .inr ⟨move, _, _, present⟩
    | _ => first | exact .inl rfl | contradiction
  case led =>
    intro n ⟨move, request, d, present⟩
    have inside := (List.getElem?_eq_some_iff.mp present).1
    rw [moment_of_made (by simp only [move, TunnelRun.step, present, TunnelEngine.conclude]; rfl)]
    exact ⟨⟨request, false, .takingOver d⟩, by simp [TunnelRun.put, inside], rfl⟩

theorem isEnded_iff (present : (s.moment n).requests[i]? = some q) :
    q.stage.isEnded = true ↔ ∃ m < n, s.Finishes i m := by
  refine reached_iff (fun _ => TunnelStage.isEstablished_of_isEnded) ?keeps ?leads ?led present
  case keeps =>
    intro m q q' effect advance reached
    cases advance <;> contradiction
  case leads =>
    intro n q q' effect present advance reached
    generalize move : s.moves n = m at advance
    cases advance with
    | lose => exact .inr ⟨_, _, _, .inl ⟨move, present⟩⟩
    | finish => exact .inr ⟨_, _, _, .inr ⟨move, present⟩⟩
    | _ => contradiction
  case led =>
    intro n ⟨request, takeover, d, ends⟩
    obtain ⟨move, present⟩ | ⟨move, present⟩ := ends
    all_goals
      have inside := (List.getElem?_eq_some_iff.mp present).1
      rw [moment_of_made (by simp only [move, TunnelRun.step, present]; rfl)]
      exact ⟨⟨request, takeover, .ended d⟩, by simp [TunnelRun.put, inside], rfl⟩

def Dialed (s : TunnelSchedule) (n i : Nat) (d : Dial) : Prop :=
  ∃ q, (s.moment n).requests[i]? = some q ∧ q.stage.dial? = some d

/-- The move `n` makes the request what it is ever after. -/
def Settles (s : TunnelSchedule) (i n : Nat) (q : TunnelRequest) : Prop :=
  ∀ m > n, (s.moment m).requests[i]? = some q

/-- With the move `n` the request is answered with a failure, and the engine is as before: nothing
    is dialed, and no number is given out. -/
structure Rejects (s : TunnelSchedule) (i n : Nat) (dialed : Option Dial) (status : Nat) : Prop where
  answered : ∃ q, s.Settles i n q ∧ q.stage.dial? = dialed ∧
    q.stage.response?.map (·.status) = some status
  engine : (s.moment (n + 1)).engine = (s.moment n).engine
  dials : (s.moment (n + 1)).dials = (s.moment n).dials

/-- What an engine does with requests for tunnels, whatever they are and however they overlap. -/
structure Accountable (s : TunnelSchedule) : Prop where
  gauge : ∀ n, (s.moment n).engine.active + (s.moment n).ended = (s.moment n).established
  established : ∀ n i q, (s.moment n).requests[i]? = some q →
    (q.stage.isEstablished = true ↔ ∃ m < n, s.Establishes i m)
  ended : ∀ n i q, (s.moment n).requests[i]? = some q →
    (q.stage.isEnded = true ↔ ∃ m < n, s.Finishes i m)
  raised : ∀ n i, s.Establishes i n →
    (s.moment (n + 1)).engine.active = (s.moment n).engine.active + 1
  lowered : ∀ n i, s.Finishes i n →
    (s.moment (n + 1)).engine.active + 1 = (s.moment n).engine.active
  unasked : ∀ n i request takeover, s.Arrives i request takeover n → request.method ≠ "CONNECT" →
    s.Rejects i n none 405
  nowhere : ∀ n i request takeover fault, s.Arrives i request takeover n →
    request.method = "CONNECT" → request.tunnelTarget = .error fault → s.Rejects i n none 400
  unreached : ∀ n i outcome request takeover d, s.moves n = .dialed i outcome →
    outcome ≠ .connected → (s.moment n).requests[i]? = some ⟨request, takeover, .dialing d⟩ →
    s.Rejects i n (some d) 502
  unsupported : ∀ n i request d, s.moves n = .dialed i .connected →
    (s.moment n).requests[i]? = some ⟨request, false, .dialing d⟩ → s.Rejects i n (some d) 500
  /-- The means to take a connection over are taken when its tunnel is opened, and not before. -/
  takeover : ∀ n i q, (s.moment n).requests[i]? = some q →
    ∃ takeover, (∃ m < n, s.Arrives i q.request takeover m) ∧
      (q.takeover = true ↔ takeover = true ∧ ¬∃ m < n, s.Establishes i m)
  distinct : ∀ n i j d d', (s.moment n).dials.length ≤ UInt64.size → i ≠ j →
    s.Dialed n i d → s.Dialed n j d' → d.tunnelId ≠ d'.tunnelId

/-- A request that nothing can advance stays as it is. -/
theorem settles_of_final (final : ∀ {m q' effect}, ¬TunnelRequest.Advance i m q q' effect)
    (present : (s.moment (n + 1)).requests[i]? = some q) : s.Settles i n q := by
  intro m later
  induction later with
  | refl => exact present
  | step _ ih =>
    obtain same | ⟨q', effect, advance, _⟩ := next ih
    · exact same
    · exact absurd advance final

theorem rejects_of_declined {request : Request} {takeover : Bool} {fault : TunnelFault}
    (arrives : s.Arrives i request takeover n)
    (begun : (s.moment n).engine.begin request = (.error fault, (s.moment n).engine)) :
    s.Rejects i n none fault.status := by
  obtain ⟨move, rfl⟩ := arrives
  have after := moment_of_made (s := s) (n := n) (by simp only [move, TunnelRun.step, begun]; rfl)
  refine ⟨⟨⟨request, takeover, .declined fault⟩, settles_of_final nofun ?_, rfl, rfl⟩, ?_, ?_⟩
  · simp [after]
  · simp [after]
  · simp [after, TunnelRun.dials, TunnelStage.dial?]

theorem rejects_of_failed {outcome : DialOutcome} {request : Request} {takeover : Bool} {d : Dial}
    {fault : TunnelFault} (move : s.moves n = .dialed i outcome)
    (present : (s.moment n).requests[i]? = some ⟨request, takeover, .dialing d⟩)
    (concluded : (s.moment n).engine.conclude d outcome takeover =
      (.error fault, (s.moment n).engine)) : s.Rejects i n (some d) fault.status := by
  have inside := (List.getElem?_eq_some_iff.mp present).1
  have after := moment_of_made (s := s) (n := n)
    (by simp only [move, TunnelRun.step, present, concluded]; rfl)
  refine ⟨⟨⟨request, takeover, .failed d fault⟩, settles_of_final nofun ?_, rfl, rfl⟩, ?_, ?_⟩
  · simp [after, TunnelRun.put, inside]
  · simp [after]
  · rw [after]
    exact TunnelRun.dials_put present rfl

theorem exists_arrives (present : (s.moment n).requests[i]? = some q) :
    ∃ takeover, (∃ m < n, s.Arrives i q.request takeover m) ∧
      q.takeover = (takeover && !q.stage.isEstablished) := by
  induction n generalizing q with
  | zero => contradiction
  | succ n ih =>
    obtain ⟨was, before, advanced⟩ | ⟨arrives, early⟩ := of_getElem?_succ present
    · obtain ⟨takeover, ⟨m, sooner, arrives⟩, held⟩ := ih before
      have kept : q.request = was.request ∧ q.takeover = (takeover && !q.stage.isEstablished) := by
        obtain rfl | ⟨effect, advance⟩ := advanced
        · exact ⟨rfl, held⟩
        · generalize s.moves n = move at advance
          cases advance with
          | establish => simp [TunnelStage.isEstablished]
          | _ => simpa [TunnelStage.isEstablished] using held
      exact ⟨takeover, ⟨m, Nat.lt_succ_of_lt sooner, kept.1 ▸ arrives⟩, kept.2⟩
    · exact ⟨q.takeover, ⟨n, Nat.lt_succ_self n, arrives⟩, by simp [early]⟩

theorem distinct_ids (s : TunnelSchedule) {d d' : Dial}
    (few : (s.moment n).dials.length ≤ UInt64.size) (first : s.Dialed n i d) (second : s.Dialed n j d')
    (before : i < j) : d.tunnelId ≠ d'.tunnelId := by
  have distinct : ((s.moment n).dials.map Dial.tunnelId).Nodup := by
    rw [(s.steady n).ids]
    apply List.Nodup.map_on _ List.nodup_range
    intro k inside k' inside' same
    rw [List.mem_range] at inside inside'
    have same := congrArg UInt64.toNat same
    have size : UInt64.size = 18446744073709551616 := rfl
    simp only [UInt64.toNat_ofNat'] at same
    omega
  rw [List.Nodup, List.pairwise_map, TunnelRun.dials, List.pairwise_filterMap,
    List.pairwise_iff_getElem] at distinct
  obtain ⟨q, there, dialed⟩ := first
  obtain ⟨q', there', dialed'⟩ := second
  obtain ⟨inside, rfl⟩ := List.getElem?_eq_some_iff.mp there
  obtain ⟨inside', rfl⟩ := List.getElem?_eq_some_iff.mp there'
  exact distinct i j inside inside' before d dialed d' dialed'

theorem raised (establishes : s.Establishes i n) :
    (s.moment (n + 1)).engine.active = (s.moment n).engine.active + 1 := by
  obtain ⟨move, request, d, present⟩ := establishes
  rw [moment_of_made (by simp only [move, TunnelRun.step, present, TunnelEngine.conclude]; rfl)]

theorem lowered (finishes : s.Finishes i n) :
    (s.moment (n + 1)).engine.active + 1 = (s.moment n).engine.active := by
  obtain ⟨request, takeover, d, ends⟩ := finishes
  -- The gauge is exact before and after, and one tunnel more has ended.
  have before := (s.steady n).gauge
  have after := (s.steady (n + 1)).gauge
  obtain ⟨move, present⟩ | ⟨move, present⟩ := ends
  all_goals
    have made := moment_of_made (s := s) (n := n)
      (by simp only [move, TunnelRun.step, present]; rfl)
    have established := TunnelRun.established_put ⟨request, takeover, .ended d⟩ present
    have ended := TunnelRun.ended_put ⟨request, takeover, .ended d⟩ present
    have sameEstablished : (s.moment (n + 1)).established =
      ((s.moment n).put i ⟨request, takeover, .ended d⟩).established := by rw [made]; rfl
    have sameEnded : (s.moment (n + 1)).ended =
      ((s.moment n).put i ⟨request, takeover, .ended d⟩).ended := by rw [made]; rfl
    simp only [TunnelStage.isEstablished, TunnelStage.isEnded, Bool.toNat_true,
      Bool.toNat_false] at established ended
    omega

theorem accountable (s : TunnelSchedule) : s.Accountable := by
  constructor
  case gauge => exact fun n => (s.steady n).gauge
  case established => exact fun n i q present => isEstablished_iff present
  case ended => exact fun n i q present => isEnded_iff present
  case raised => exact fun n i => raised
  case lowered => exact fun n i => lowered
  case unasked =>
    intro n i request takeover arrives asks
    have begun : (s.moment n).engine.begin request =
        (.error .methodNotAllowed, (s.moment n).engine) := by simp [TunnelEngine.begin, asks]
    exact rejects_of_declined arrives begun
  case nowhere =>
    intro n i request takeover fault arrives asks target
    have begun : (s.moment n).engine.begin request =
        (.error (.badRequest fault), (s.moment n).engine) := by
      simp [TunnelEngine.begin, asks, target]
    exact rejects_of_declined arrives begun
  case unreached =>
    intro n i outcome request takeover d move reached present
    cases outcome with
    | connected => contradiction
    | failed reason => exact rejects_of_failed move present rfl
    | timedOut => exact rejects_of_failed move present rfl
  case unsupported =>
    intro n i request d move present
    exact rejects_of_failed move present rfl
  case takeover =>
    intro n i q present
    obtain ⟨takeover, arrives, held⟩ := exists_arrives present
    refine ⟨takeover, arrives, ?_⟩
    rw [← isEstablished_iff present, held]
    simp
  case distinct =>
    intro n i j d d' few apart first second
    obtain before | before := Nat.lt_or_gt_of_ne apart
    · exact s.distinct_ids few first second before
    · exact (s.distinct_ids few second first before).symm

def asking (authority : String) : Request := ⟨"CONNECT", ⟨some ⟨authority⟩, "/"⟩, [], []⟩

/-- Three requests at the same time.  The first one becomes a tunnel, which ends, the second one asks
    for none, and the target of the third one cannot be reached. -/
def threeRequests : TunnelSchedule where
  moves n := [.arrive (asking "a:1") true, .arrive ⟨"GET", ⟨none, "/"⟩, [], []⟩ true,
    .arrive (asking "b:2") true, .dialed 0 .connected, .dialed 2 .timedOut, .takenOver 0 true,
    .taskEnded 0].getD n (.abandon 0)

theorem accountable_threeRequests :
    threeRequests.Establishes 0 3 ∧
      (threeRequests.moment 4).engine.active = (threeRequests.moment 3).engine.active + 1 ∧
      threeRequests.Finishes 0 6 ∧
      (threeRequests.moment 7).engine.active + 1 = (threeRequests.moment 6).engine.active ∧
      threeRequests.Rejects 1 1 none 405 ∧
      threeRequests.Rejects 2 4 (some ⟨2, ⟨"b:2"⟩⟩) 502 ∧
      (threeRequests.moment 7).dials.map Dial.tunnelId = [1, 2] ∧
      (threeRequests.moment 7).engine.active + 1 = (threeRequests.moment 7).established := by
  have accountable := threeRequests.accountable
  have establishes : threeRequests.Establishes 0 3 := ⟨rfl, asking "a:1", ⟨1, ⟨"a:1"⟩⟩, rfl⟩
  have finishes : threeRequests.Finishes 0 6 :=
    ⟨asking "a:1", false, ⟨1, ⟨"a:1"⟩⟩, .inr ⟨rfl, rfl⟩⟩
  have gauge : (threeRequests.moment 7).engine.active + 1 =
      (threeRequests.moment 7).established := accountable.gauge 7
  refine ⟨establishes, accountable.raised 3 0 establishes, finishes,
    accountable.lowered 6 0 finishes, ?_, ?_, rfl, gauge⟩
  · exact accountable.unasked 1 1 _ true ⟨rfl, rfl⟩ (by decide)
  · exact accountable.unreached 4 2 .timedOut (asking "b:2") true _ rfl nofun rfl

end TunnelSchedule

end Tollgate
