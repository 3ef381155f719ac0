import Mathlib.Logic.Function.Basic
import Tollgate.Proofs.Moments
import Tollgate.Tunnel.Relay

/-! # What a relay carries

A relay says of a pump how far it is and what it counted.  `Traffic` is what went through the pump
meanwhile: the octets that it read from one side and those that it wrote to the other.  A schedule
names what happens next, to which pump, or from outside; what cannot happen at its moment is passed
over.

`Pump.Carried` ties the traffic to the stage of the pump: between two chunks all that was read was
written and counted, and within a chunk the rest of it is missing and none of it is counted.  Every
event keeps that, so that what is written never strays from what was read, wherever a pump was
interrupted.
-/

namespace Tollgate

/-- What went through a pump so far. -/
structure Traffic where
  read : Octets := []
  written : Octets := []

namespace Pump

def left (p : Pump) : Octets :=
  match p.stage with
  | .writing _ rest => rest
  | .reading | .ended | .closed => []

end Pump

/-- The traffic after an event of a pump: a chunk counts as read at once, and is written from its
    start. -/
def Traffic.after (t : Traffic) (p : Pump) : PumpEvent → Traffic
  | .received chunk => { t with read := t.read ++ chunk }
  | .wrote count => { t with written := t.written ++ p.left.take count }
  | .endOfStream | .readFailed | .writeFailed | .signalled | .shutDown | .shutdownFailed => t

namespace PumpEvent

def Ends (e : PumpEvent) : Prop :=
  e = .endOfStream ∨ e = .readFailed ∨ e = .writeFailed ∨ e = .signalled

def Closes (e : PumpEvent) : Prop :=
  e = .shutDown ∨ e = .shutdownFailed

end PumpEvent

/-! ## One pump -/

namespace Pump

variable {buffer : Nat} {p p' : Pump} {t : Traffic} {e : PumpEvent}

/-- What a pump has written, when it reads from its side again or carries nothing more. -/
structure Accounts (buffer total : Nat) (t : Traffic) : Prop where
  written : t.written <+: t.read
  counted : total ≤ t.written.length
  missing : t.written.length ≤ total + buffer

/-- The traffic of a pump is the one that its stage and its total tell of. -/
def Carried (buffer : Nat) (p : Pump) (t : Traffic) : Prop :=
  match p.stage with
  | .reading => t.written = t.read ∧ p.total = t.written.length
  | .writing size rest =>
    t.written ++ rest = t.read ∧ t.written.length + rest.length = p.total + size ∧
      rest.length ≤ size ∧ size ≤ buffer
  | .ended | .closed => Accounts buffer p.total t

theorem Carried.accounts (carried : p.Carried buffer t) : Accounts buffer p.total t := by
  cases stage : p.stage with
  | reading =>
    simp only [Carried, stage] at carried
    obtain ⟨same, counted⟩ := carried
    exact ⟨same ▸ List.prefix_rfl, by omega, by omega⟩
  | writing size rest =>
    simp only [Carried, stage] at carried
    obtain ⟨split, counted, few, small⟩ := carried
    exact ⟨⟨rest, split⟩, by omega, by omega⟩
  | ended => simpa only [Carried, stage] using carried
  | closed => simpa only [Carried, stage] using carried

inductive Change (buffer : Nat) (p : Pump) : PumpEvent → Pump → Prop where
  | received {chunk : Octets} (reading : p.stage = .reading) (some : chunk ≠ [])
      (small : chunk.length ≤ buffer) :
      Change buffer p (.received chunk) { p with stage := .writing chunk.length chunk }
  | wrotePart {size count : Nat} {rest : Octets} (writing : p.stage = .writing size rest)
      (some : 0 < count) (part : count < rest.length) :
      Change buffer p (.wrote count) { p with stage := .writing size (rest.drop count) }
  | wroteAll {size : Nat} {rest : Octets} (writing : p.stage = .writing size rest)
      (some : 0 < rest.length) :
      Change buffer p (.wrote rest.length) ⟨.reading, p.total + size⟩
  | ended {e : PumpEvent} (ends : e.Ends) (carrying : p.isEnded = false)
      (reading : e = .endOfStream → p.stage = .reading) :
      Change buffer p e p.finish
  | closed {e : PumpEvent} (closes : e.Closes) (ended : p.stage = .ended) :
      Change buffer p e { p with stage := .closed }

theorem change_of_step (happens : p.step buffer e = some p') : Change buffer p e p' := by
  cases e with
  | received chunk =>
    simp only [step, Option.ite_none_right_eq_some, Option.some.injEq] at happens
    obtain ⟨⟨reading, present, small⟩, rfl⟩ := happens
    exact .received reading present small
  | wrote count =>
    cases stage : p.stage with
    | writing size rest =>
      simp only [step, stage] at happens
      split at happens
      · contradiction
      · split at happens
        · next whole =>
          obtain rfl := Option.some.inj happens
          subst whole
          exact .wroteAll stage (by omega)
        · obtain rfl := Option.some.inj happens
          exact .wrotePart stage (by omega) (by omega)
    | _ => simp [step, stage] at happens
  | endOfStream =>
    simp only [step, Option.ite_none_right_eq_some, Option.some.injEq] at happens
    obtain ⟨reading, rfl⟩ := happens
    exact .ended (.inl rfl) (by simp [isEnded, reading]) (fun _ => reading)
  | readFailed =>
    simp only [step, Option.ite_none_right_eq_some, Option.some.injEq] at happens
    obtain ⟨reading, rfl⟩ := happens
    exact .ended (by simp [PumpEvent.Ends]) (by simp [isEnded, reading]) (by simp)
  | writeFailed =>
    cases stage : p.stage with
    | writing size rest =>
      simp only [step, stage] at happens
      obtain rfl := Option.some.inj happens
      exact .ended (by simp [PumpEvent.Ends]) (by simp [isEnded, stage]) (by simp)
    | _ => simp [step, stage] at happens
  | signalled =>
    simp only [step, Option.ite_none_left_eq_some, Option.some.injEq, Bool.not_eq_true] at happens
    obtain ⟨carrying, rfl⟩ := happens
    exact .ended (by simp [PumpEvent.Ends]) carrying (by simp)
  | shutDown =>
    simp only [step, Option.ite_none_right_eq_some, Option.some.injEq] at happens
    obtain ⟨ended, rfl⟩ := happens
    exact .closed (.inl rfl) ended
  | shutdownFailed =>
    simp only [step, Option.ite_none_right_eq_some, Option.some.injEq] at happens
    obtain ⟨ended, rfl⟩ := happens
    exact .closed (.inr rfl) ended

/-- Only reading and writing is traffic. -/
theorem after_of_ends (ends : e.Ends) : t.after p e = t := by
  obtain rfl | rfl | rfl | rfl := ends <;> rfl

theorem after_of_closes (closes : e.Closes) : t.after p e = t := by
  obtain rfl | rfl := closes <;> rfl

theorem Change.carried (change : Change buffer p e p') (carried : p.Carried buffer t) :
    p'.Carried buffer (t.after p e) := by
  cases change with
  | received reading some small =>
    simp only [Carried, reading] at carried
    obtain ⟨same, counted⟩ := carried
    refine ⟨?_, ?_, Nat.le_refl _, small⟩
    · simp [Traffic.after, same]
    · simp [Traffic.after, counted]
  | @wrotePart size count rest writing some part =>
    simp only [Carried, writing] at carried
    obtain ⟨split, counted, few, small⟩ := carried
    -- What was written moves from the rest to the output, and the two together stay.
    simp only [Carried, Traffic.after, left, writing, List.append_assoc, List.take_append_drop,
      List.length_append, List.length_take, List.length_drop]
    exact ⟨split, by omega, by omega, small⟩
  | @wroteAll size rest writing some =>
    simp only [Carried, writing] at carried
    obtain ⟨split, counted, few, small⟩ := carried
    simp only [Carried, Traffic.after, left, writing, List.take_length, List.length_append]
    exact ⟨split, counted.symm⟩
  | ended ends carrying reading =>
    rw [after_of_ends ends]
    exact carried.accounts
  | closed closes ended =>
    rw [after_of_closes closes]
    exact carried.accounts

/-- A pump that carries nothing more is as it is, up to the shutdown of its side. -/
theorem Change.of_isEnded (change : Change buffer p e p') (ended : p.isEnded = true) :
    e.Closes ∧ p' = { p with stage := .closed } := by
  cases change with
  | received reading => simp [isEnded, reading] at ended
  | wrotePart writing => simp [isEnded, writing] at ended
  | wroteAll writing => simp [isEnded, writing] at ended
  | ended ends carrying => simp [carrying] at ended
  | closed closes => exact ⟨closes, rfl⟩

theorem Change.of_endOfStream (change : Change buffer p .endOfStream p') :
    p.stage = .reading ∧ p' = p.finish := by
  cases change with
  | ended ends carrying reading => exact ⟨reading rfl, rfl⟩
  | closed closes => obtain closes | closes := closes <;> contradiction

/-- A pump carries nothing more because of the last event, or as before. -/
theorem Change.ends_of_isEnded (change : Change buffer p e p') (ended : p'.isEnded = true) :
    e.Ends ∨ p.isEnded = true := by
  cases change with
  | received => simp [isEnded] at ended
  | wrotePart => simp [isEnded] at ended
  | wroteAll => simp [isEnded] at ended
  | ended ends => exact .inl ends
  | closed closes before => exact .inr (by simp [isEnded, before])

theorem Change.closes_of_isClosed (change : Change buffer p e p') (closed : p'.isClosed = true) :
    e.Closes ∨ p.isClosed = true := by
  cases change with
  | received => simp [isClosed] at closed
  | wrotePart => simp [isClosed] at closed
  | wroteAll => simp [isClosed] at closed
  | ended => simp [isClosed, finish] at closed
  | closed closes => exact .inl closes

theorem isEnded_of_isClosed (closed : p.isClosed = true) : p.isEnded = true := by
  simp only [isClosed, decide_eq_true_eq] at closed
  simp [isEnded, closed]

end Pump

/-! ## Both pumps -/

def Direction.other : Direction → Direction
  | .toTarget => .toClient
  | .toClient => .toTarget

theorem Direction.eq_or_other (d d' : Direction) : d' = d ∨ d' = d.other := by
  cases d <;> cases d' <;> simp [Direction.other]

namespace Relay

variable {r r' : Relay} {d : Direction} {p : Pump} {e : RelayEvent}

@[simp] theorem pump_withPump : (r.withPump d p).pump d = p := by
  cases d <;> rfl

@[simp] theorem pump_withPump_other : (r.withPump d p).pump d.other = r.pump d.other := by
  cases d <;> rfl

@[simp] theorem buffer_withPump : (r.withPump d p).buffer = r.buffer := by
  cases d <;> rfl

@[simp] theorem cancelled_withPump : (r.withPump d p).cancelled = (r.cancelled || p.isEnded) := by
  cases d <;> rfl

@[simp] theorem pump_cancel : r.cancel.pump d = r.pump d := by
  cases d <;> rfl

inductive Change (r : Relay) : RelayEvent → Relay → Prop where
  | cancel : Change r .cancel r.cancel
  | pump {d : Direction} {event : PumpEvent} {p : Pump}
      (change : (r.pump d).Change r.buffer event p)
      (seen : event = .signalled → r.cancelled = true) :
      Change r (.pump d event) (r.withPump d p)

theorem change_of_step (happens : r.step e = some r') : Change r e r' := by
  cases e with
  | cancel =>
    obtain rfl := Option.some.inj happens
    exact .cancel
  | pump d event =>
    by_cases signal : event = .signalled
    · subst signal
      simp only [step, Option.ite_none_right_eq_some, Option.map_eq_some_iff] at happens
      obtain ⟨seen, p, stepped, rfl⟩ := happens
      exact .pump (Pump.change_of_step stepped) (fun _ => seen)
    · have stepped : ((r.pump d).step r.buffer event).map (r.withPump d) = some r' := by
        cases event <;> first | contradiction | exact happens
      obtain ⟨p, carried, rfl⟩ := Option.map_eq_some_iff.mp stepped
      exact .pump (Pump.change_of_step carried) (fun seen => absurd seen signal)

end Relay

structure RelayRun where
  relay : Relay
  traffic : Direction → Traffic

structure RelaySchedule where
  buffer : Nat
  moves : Nat → RelayEvent

namespace RelayRun

def advance (r : RelayRun) (e : RelayEvent) : RelayRun :=
  match r.relay.step e, e with
  | none, _ => r
  | some relay, .cancel => { r with relay }
  | some relay, .pump d event =>
    ⟨relay, Function.update r.traffic d ((r.traffic d).after (r.relay.pump d) event)⟩

variable {r : RelayRun} {d : Direction} {e : RelayEvent} {event : PumpEvent}

theorem advance_of_refused (refused : (r.relay.step e).isSome = false) : r.advance e = r := by
  simp only [Option.isSome_eq_false_iff, Option.isNone_iff_eq_none] at refused
  simp [advance, refused]

theorem advance_cancel : r.advance .cancel = { r with relay := r.relay.cancel } := rfl

theorem advance_pump (happens : (r.relay.step (.pump d event)).isSome = true) :
    ∃ p, (r.relay.pump d).Change r.relay.buffer event p ∧
      (event = .signalled → r.relay.cancelled = true) ∧
      r.advance (.pump d event) = ⟨r.relay.withPump d p,
        Function.update r.traffic d ((r.traffic d).after (r.relay.pump d) event)⟩ := by
  obtain ⟨relay, stepped⟩ := Option.isSome_iff_exists.mp happens
  cases Relay.change_of_step stepped with
  | pump change seen => exact ⟨_, change, seen, by simp [advance, stepped]⟩

end RelayRun

namespace RelaySchedule

def start (s : RelaySchedule) : RelayRun := ⟨{ buffer := s.buffer }, fun _ => {}⟩

def moment (s : RelaySchedule) (n : Nat) : RelayRun :=
  stateAt RelayRun.advance s.start s.moves n

def pump (s : RelaySchedule) (n : Nat) (d : Direction) : Pump := (s.moment n).relay.pump d

def traffic (s : RelaySchedule) (n : Nat) (d : Direction) : Traffic := (s.moment n).traffic d

def Happens (s : RelaySchedule) (d : Direction) (event : PumpEvent) (n : Nat) : Prop :=
  s.moves n = .pump d event ∧ ((s.moment n).relay.step (s.moves n)).isSome = true

def CancelledBefore (s : RelaySchedule) (n : Nat) : Prop :=
  ∃ m < n, s.moves m = .cancel

variable {s : RelaySchedule} {d : Direction} {n : Nat}

theorem moment_succ : s.moment (n + 1) = (s.moment n).advance (s.moves n) := stateAt_succ

/-- A move passes the relay over, sets the signal, or is an event of one of its pumps. -/
theorem move_cases (s : RelaySchedule) (n : Nat) :
    s.moment (n + 1) = s.moment n ∨
      s.moves n = .cancel ∧
        s.moment (n + 1) = { s.moment n with relay := (s.moment n).relay.cancel } ∨
      ∃ d event, s.Happens d event n := by
  rw [moment_succ]
  cases happens : ((s.moment n).relay.step (s.moves n)).isSome with
  | false => exact .inl (RelayRun.advance_of_refused happens)
  | true =>
    cases move : s.moves n with
    | cancel => exact .inr (.inl ⟨rfl, RelayRun.advance_cancel⟩)
    | pump d event => exact .inr (.inr ⟨d, event, move, happens⟩)

structure Does (s : RelaySchedule) (d : Direction) (event : PumpEvent) (n : Nat) : Prop where
  change : (s.pump n d).Change (s.moment n).relay.buffer event (s.pump (n + 1) d)
  traffic : s.traffic (n + 1) d = (s.traffic n d).after (s.pump n d) event
  seen : event = .signalled → (s.moment n).relay.cancelled = true
  other : s.pump (n + 1) d.other = s.pump n d.other
  otherTraffic : s.traffic (n + 1) d.other = s.traffic n d.other
  cancelled : (s.moment (n + 1)).relay.cancelled =
    ((s.moment n).relay.cancelled || (s.pump (n + 1) d).isEnded)
  buffer : (s.moment (n + 1)).relay.buffer = (s.moment n).relay.buffer

theorem Happens.does {event : PumpEvent} (happens : s.Happens d event n) : s.Does d event n := by
  obtain ⟨move, can⟩ := happens
  rw [move] at can
  obtain ⟨p, change, seen, advanced⟩ := RelayRun.advance_pump can
  rw [← move, ← moment_succ] at advanced
  have apart : d.other ≠ d := by cases d <;> simp [Direction.other]
  constructor
  case seen => exact seen
  all_goals simp only [pump, traffic, advanced, Relay.pump_withPump, Relay.pump_withPump_other,
    Relay.buffer_withPump, Relay.cancelled_withPump, Function.update_self,
    Function.update_of_ne apart]
  exact change

theorem buffer_eq (s : RelaySchedule) (n : Nat) : (s.moment n).relay.buffer = s.buffer := by
  induction n with
  | zero => rfl
  | succ n ih =>
    obtain same | ⟨_, cancelled⟩ | ⟨d, event, happens⟩ := s.move_cases n
    · rw [same, ih]
    · rw [cancelled]
      exact ih
    · rw [happens.does.buffer, ih]

/-- A move is an event of a pump, or leaves the pump as it is. -/
theorem happens_or_same (s : RelaySchedule) (n : Nat) (d : Direction) :
    (∃ event, s.Happens d event n) ∨
      s.pump (n + 1) d = s.pump n d ∧ s.traffic (n + 1) d = s.traffic n d := by
  obtain same | ⟨_, cancelled⟩ | ⟨d', event, happens⟩ := s.move_cases n
  · simp [pump, traffic, same]
  · simp [pump, traffic, cancelled]
  · obtain rfl | rfl := Direction.eq_or_other d' d
    · exact .inl ⟨event, happens⟩
    · exact .inr ⟨happens.does.other, happens.does.otherTraffic⟩

theorem carried (s : RelaySchedule) (n : Nat) (d : Direction) :
    (s.pump n d).Carried s.buffer (s.traffic n d) := by
  induction n with
  | zero => cases d <;> exact ⟨rfl, rfl⟩
  | succ n ih =>
    obtain ⟨event, happens⟩ | ⟨pump, traffic⟩ := s.happens_or_same n d
    · have change := happens.does.change
      rw [buffer_eq] at change
      rw [happens.does.traffic]
      exact change.carried ih
    · rw [pump, traffic]
      exact ih

theorem isEnded_succ (ended : (s.pump n d).isEnded = true) :
    (s.pump (n + 1) d).isEnded = true := by
  obtain ⟨event, happens⟩ | ⟨pump, _⟩ := s.happens_or_same n d
  · obtain ⟨_, closed⟩ := happens.does.change.of_isEnded ended
    simp [closed, Pump.isEnded]
  · rw [pump]
    exact ended

theorem cancelled_succ (cancelled : (s.moment n).relay.cancelled = true) :
    (s.moment (n + 1)).relay.cancelled = true := by
  obtain same | ⟨_, signalled⟩ | ⟨d, event, happens⟩ := s.move_cases n
  · rw [same, cancelled]
  · simp [signalled, Relay.cancel]
  · simp [happens.does.cancelled, cancelled]

theorem cancelled_of_isEnded (ended : (s.pump n d).isEnded = true) :
    (s.moment n).relay.cancelled = true := by
  induction n with
  | zero => cases d <;> contradiction
  | succ n ih =>
    obtain ⟨event, happens⟩ | ⟨pump, _⟩ := s.happens_or_same n d
    · simp [happens.does.cancelled, ended]
    · rw [pump] at ended
      exact cancelled_succ (ih ended)

/-- The signal is set from outside, or by a pump that carries nothing more. -/
theorem cause_of_cancelled (cancelled : (s.moment n).relay.cancelled = true) :
    s.CancelledBefore n ∨ ∃ d, (s.pump n d).isEnded = true := by
  induction n with
  | zero => contradiction
  | succ n ih =>
    have earlier : (s.moment n).relay.cancelled = true →
        s.CancelledBefore (n + 1) ∨ ∃ d, (s.pump (n + 1) d).isEnded = true := by
      intro before
      obtain ⟨m, early, cancel⟩ | ⟨d, ended⟩ := ih before
      · exact .inl ⟨m, Nat.lt_succ_of_lt early, cancel⟩
      · exact .inr ⟨d, isEnded_succ ended⟩
    obtain same | ⟨cancel, _⟩ | ⟨d, event, happens⟩ := s.move_cases n
    · rw [same] at cancelled
      exact earlier cancelled
    · exact .inl ⟨n, Nat.lt_succ_self n, cancel⟩
    · rw [happens.does.cancelled, Bool.or_eq_true] at cancelled
      obtain before | ended := cancelled
      · exact earlier before
      · exact .inr ⟨d, ended⟩

/-- What only certain events bring about in a pump goes back to one of them. -/
theorem exists_cause {P : Pump → Prop} {B : PumpEvent → Prop} (absent : ¬P {})
    (brought : ∀ {buffer p e p'}, Pump.Change buffer p e p' → P p' → B e ∨ P p)
    (holds : P (s.pump n d)) : ∃ m < n, ∃ event, B event ∧ s.Happens d event m := by
  induction n with
  | zero => cases d <;> exact absurd holds absent
  | succ n ih =>
    have earlier : P (s.pump n d) → ∃ m < n + 1, ∃ event, B event ∧ s.Happens d event m := by
      intro before
      obtain ⟨m, early, caused⟩ := ih before
      exact ⟨m, Nat.lt_succ_of_lt early, caused⟩
    obtain ⟨event, happens⟩ | ⟨pump, _⟩ := s.happens_or_same n d
    · obtain brings | before := brought happens.does.change holds
      · exact ⟨n, Nat.lt_succ_self n, event, brings, happens⟩
      · exact earlier before
    · exact earlier (pump ▸ holds)

/-! ## The whole relay -/

/-- A pump has come to the end of its stream, which was this. -/
def Drains (s : RelaySchedule) (n : Nat) (d : Direction) (input : Octets) : Prop :=
  (∃ m < n, s.Happens d .endOfStream m) ∧ (s.traffic n d).read = input

/-- A pump saw that the signal was set: from outside, or by the other pump. -/
def StoppedAt (s : RelaySchedule) (d : Direction) (n : Nat) : Prop :=
  s.Happens d .signalled n ∧ (s.CancelledBefore n ∨ (s.pump n d.other).isEnded = true)

/-- Whatever happens, and in whatever order, what a relay carries is what came in. -/
structure Intact (s : RelaySchedule) : Prop where
  /-- Nothing is altered, skipped or written twice. -/
  in_order : ∀ n d, (s.traffic n d).written <+: (s.traffic n d).read
  counted : ∀ n d, (s.pump n d).total ≤ (s.traffic n d).written.length ∧
    (s.traffic n d).written.length ≤ (s.pump n d).total + s.buffer
  /-- However large the chunks are, and wherever the stream was cut. -/
  complete : ∀ n d input, s.Drains n d input →
    (s.traffic n d).written = input ∧ (s.pump n d).total = input.length
  caused : ∀ n d, (s.pump n d).isEnded = true → ∃ m < n, s.Happens d .endOfStream m ∨
    s.Happens d .readFailed m ∨ s.Happens d .writeFailed m ∨ s.StoppedAt d m
  finished : ∀ n, (s.moment n).relay.isFinished = true → (s.moment n).relay.cancelled = true ∧
    ∀ d, ∃ m < n, s.Happens d .shutDown m ∨ s.Happens d .shutdownFailed m

/-- A pump that came to the end of its stream has carried all of it, and carries nothing more. -/
theorem carried_of_endOfStream (s : RelaySchedule) {m : Nat} (ended : s.Happens d .endOfStream m)
    (later : m < n) : (s.pump n d).isEnded = true ∧ (s.traffic n d).written = (s.traffic n d).read ∧
      (s.pump n d).total = (s.traffic n d).written.length := by
  induction later with
  | refl =>
    obtain ⟨reading, finished⟩ := ended.does.change.of_endOfStream
    have carried := s.carried m d
    simp only [Pump.Carried, reading] at carried
    obtain ⟨whole, counted⟩ := carried
    have traffic : s.traffic (m + 1) d = s.traffic m d := ended.does.traffic
    rw [finished, traffic]
    exact ⟨by simp [Pump.isEnded, Pump.finish], whole, counted⟩
  | @step n _ ih =>
    obtain ⟨closing, whole, counted⟩ := ih
    obtain ⟨event, happens⟩ | ⟨pump, traffic⟩ := s.happens_or_same n d
    · obtain ⟨closes, closed⟩ := happens.does.change.of_isEnded closing
      rw [closed, happens.does.traffic, Pump.after_of_closes closes]
      exact ⟨by simp [Pump.isEnded], whole, counted⟩
    · rw [pump, traffic]
      exact ⟨closing, whole, counted⟩

theorem stoppedAt_of_happens (happens : s.Happens d .signalled n) : s.StoppedAt d n := by
  refine ⟨happens, ?_⟩
  obtain outside | ⟨d', ended⟩ := cause_of_cancelled (happens.does.seen rfl)
  · exact .inl outside
  · obtain rfl | rfl := Direction.eq_or_other d d'
    · -- A pump sees the signal only as long as it carries something.
      obtain ⟨closes, _⟩ := happens.does.change.of_isEnded ended
      obtain closes | closes := closes <;> contradiction
    · exact .inr ended

theorem intact (s : RelaySchedule) : s.Intact := by
  refine ⟨?in_order, ?counted, ?complete, ?caused, ?finished⟩
  case in_order => exact fun n d => (s.carried n d).accounts.written
  case counted =>
    intro n d
    have accounts := (s.carried n d).accounts
    exact ⟨accounts.counted, accounts.missing⟩
  case complete =>
    intro n d input ⟨⟨m, early, ended⟩, read⟩
    obtain ⟨_, whole, counted⟩ := s.carried_of_endOfStream ended early
    rw [read] at whole
    exact ⟨whole, by rw [counted, whole]⟩
  case caused =>
    intro n d ended
    obtain ⟨m, early, event, ends, happens⟩ := exists_cause (P := fun p => p.isEnded = true)
      (B := PumpEvent.Ends) (by decide) Pump.Change.ends_of_isEnded ended
    obtain rfl | rfl | rfl | rfl := ends
    · exact ⟨m, early, .inl happens⟩
    · exact ⟨m, early, .inr (.inl happens)⟩
    · exact ⟨m, early, .inr (.inr (.inl happens))⟩
    · -- The signal comes from outside or from the end of the other pump.
      exact ⟨m, early, .inr (.inr (.inr (stoppedAt_of_happens happens)))⟩
  case finished =>
    intro n finished
    have closed : ∀ d, (s.pump n d).isClosed = true := by
      simp only [Relay.isFinished, Bool.and_eq_true] at finished
      intro d
      cases d with
      | toTarget => exact finished.1
      | toClient => exact finished.2
    refine ⟨cancelled_of_isEnded (Pump.isEnded_of_isClosed (closed .toTarget)), fun d => ?_⟩
    obtain ⟨m, early, event, closes, happens⟩ := exists_cause (P := fun p => p.isClosed = true)
      (B := PumpEvent.Closes) (by decide) Pump.Change.closes_of_isClosed (closed d)
    obtain rfl | rfl := closes
    · exact ⟨m, early, .inl happens⟩
    · exact ⟨m, early, .inr happens⟩

/-- Three octets go to the target in two chunks, up to the end of their stream.  The other pump is
    interrupted by that when it has written one octet of two. -/
def delivered : RelaySchedule where
  buffer := 2
  moves n := [.pump .toTarget (.received [1, 2]), .pump .toTarget (.wrote 1),
    .pump .toTarget (.wrote 1), .pump .toClient (.received [7, 8]), .pump .toTarget (.received [3]),
    .pump .toClient (.wrote 1), .pump .toTarget (.wrote 1), .pump .toTarget .endOfStream,
    .pump .toClient .signalled, .pump .toTarget .shutDown,
    .pump .toClient .shutdownFailed].getD n .cancel

/-- All three octets arrive and count.  The octet that was written of the interrupted chunk does not
    count. -/
theorem intact_delivered :
    (delivered.traffic 11 .toTarget).written = [1, 2, 3] ∧
      (delivered.pump 11 .toTarget).total = 3 ∧
      (delivered.traffic 11 .toClient).written <+: [7, 8] ∧
      (delivered.moment 11).relay.stats = ⟨3, 0⟩ ∧
      (delivered.moment 11).relay.cancelled = true ∧
      (∃ m < 11, delivered.Happens .toClient .endOfStream m ∨
        delivered.Happens .toClient .readFailed m ∨ delivered.Happens .toClient .writeFailed m ∨
        delivered.StoppedAt .toClient m) ∧
      ∀ d, ∃ m < 11, delivered.Happens d .shutDown m ∨ delivered.Happens d .shutdownFailed m := by
  have intact := delivered.intact
  have drains : delivered.Drains 11 .toTarget [1, 2, 3] :=
    ⟨⟨7, by decide, rfl, by decide⟩, by decide⟩
  obtain ⟨written, total⟩ := intact.complete 11 .toTarget _ drains
  have read : (delivered.traffic 11 .toClient).read = [7, 8] := by decide
  obtain ⟨cancelled, shut⟩ := intact.finished 11 (by decide)
  exact ⟨written, total, read ▸ intact.in_order 11 .toClient, by decide, cancelled,
    intact.caused 11 .toClient (by decide), shut⟩

end RelaySchedule

end Tollgate
