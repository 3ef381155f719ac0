import Mathlib.Data.List.Sort
import Tollgate.Proofs.Fleet.Log

/-! # Looking at the fleet more often

A listing drops what has ended, so that a store that is looked at more often holds less.  Its
answers are the same, with one exception: the token of a registration that has ended takes it back
as long as no listing has dropped it (`FleetStore.glances_unnoticed`).

What carries the proof is `FleetStore.Shadows`.  The second of two stores holds nothing that the
first does not hold, and it lacks only what has ended.  Every call keeps to that, and so does a
glance at the second store alone.  As time does not run back, what the second store lacks will not
live again (`Shadows.later`), and when its URL is added again, both stores hold the new registration.
-/

namespace Tollgate

/-! ## Two runs -/

/-- What happens to two stores: a call of both, or a listing of the second alone. -/
inductive Watched where
  | call (e : FleetEvent)
  | glance (now : Instant)

namespace Watched

def now : Watched → Instant
  | .call e => e.now
  | .glance now => now

def called? : Watched → Option FleetEvent
  | .call e => some e
  | .glance _ => none

def event : Watched → FleetEvent
  | .call e => e
  | .glance now => ⟨now, .list⟩

end Watched

abbrev WatchedLog := List Watched

namespace WatchedLog

variable {log : WatchedLog} {w : Watched}

def calls (log : WatchedLog) : FleetLog := log.filterMap Watched.called?

def events (log : WatchedLog) : FleetLog := log.map Watched.event

theorem calls_append_call (log : WatchedLog) (e : FleetEvent) :
    calls (log ++ [.call e]) = log.calls ++ [e] := by
  simp [calls, Watched.called?]

theorem calls_append_glance (log : WatchedLog) (now : Instant) :
    calls (log ++ [.glance now]) = log.calls := by
  simp [calls, Watched.called?]

theorem events_append (log : WatchedLog) (w : Watched) :
    events (log ++ [w]) = log.events ++ [w.event] := by
  simp [events]

/-- A glance brings no token. -/
theorem tokens_events (log : WatchedLog) : log.events.tokens = log.calls.tokens := by
  induction log using List.reverseRecOn with
  | nil => rfl
  | append_singleton log w ih =>
    rw [FleetLog.tokens, FleetLog.tokens] at ih ⊢
    cases w with
    | call e =>
      rw [events_append, calls_append_call, List.filterMap_append, List.filterMap_append, ih]
      rfl
    | glance now =>
      rw [events_append, calls_append_glance, List.filterMap_append, ih]
      exact List.append_nil _

theorem nodup_of_append {after : WatchedLog} (distinct : (calls (log ++ after)).tokens.Nodup) :
    log.calls.tokens.Nodup := by
  rw [calls, FleetLog.tokens, List.filterMap_append, List.filterMap_append] at distinct
  exact (List.nodup_append.mp distinct).1

end WatchedLog

/-! ## Answers -/

inductive FleetAnswer where
  | added
  | listed (servers : List ProxyServer)
  | removed (known : Bool)
  deriving DecidableEq, Repr

theorem Lasting.isLive_earlier {α : Type} {e : Lasting α} {earlier now : Instant}
    (live : e.isLive now = true) (order : earlier.nanos ≤ now.nanos) : e.isLive earlier = true := by
  unfold isLive at live ⊢
  split at live
  · rfl
  · simp only [decide_eq_true_eq] at live ⊢
    exact Int.lt_of_le_of_lt order live

namespace FleetStore

variable {f f' : FleetStore} {now : Instant} {e : FleetEvent} {log : WatchedLog}

def answer (f : FleetStore) (e : FleetEvent) : FleetAnswer :=
  match e.call with
  | .add _ _ => .added
  | .list => .listed (f.servers e.now).1
  | .remove token => .removed (f.removeServer token).1

/-- On tidy stores the entries and their order are one. -/
theorem Tidy.registrations_eq (tidy : f.Tidy) (tidy' : f'.Tidy)
    (same : ∀ e, e ∈ f.registrations ↔ e ∈ f'.registrations) : f.registrations = f'.registrations := by
  have : Std.Irrefl fun a b : String × Lasting Registration => a.1 < b.1 :=
    ⟨fun a => Std.Irrefl.irrefl a.1⟩
  have : Std.Antisymm fun a b : String × Lasting Registration => a.1 < b.1 :=
    ⟨fun _ _ below above => absurd (Trans.trans below above) (Std.Irrefl.irrefl _)⟩
  exact List.Pairwise.eq_of_mem_iff tidy.increasing tidy'.increasing same

theorem tidy_replay (empty : f.registrations = []) {log : FleetLog} (distinct : log.tokens.Nodup) :
    (f.replay log).Tidy := (digests_replay empty distinct).tidy

/-! ## A store and its shadow -/

/-- The second of two stores holds nothing that the first does not, and lacks only what has ended. -/
structure Shadows (now : Instant) (f f' : FleetStore) : Prop where
  held : ∀ e ∈ f'.registrations, e ∈ f.registrations
  live : ∀ e ∈ f.registrations, e.2.isLive now = true → e ∈ f'.registrations

namespace Shadows

theorem refl (now : Instant) (f : FleetStore) : Shadows now f f :=
  ⟨fun _ member => member, fun _ member _ => member⟩

/-- What has ended does not live again. -/
theorem later {now' : Instant} (shadows : Shadows now f f') (order : now.nanos ≤ now'.nanos) :
    Shadows now' f f' where
  held := shadows.held
  live e member live := shadows.live e member (e.2.isLive_earlier live order)

/-- A call of both stores. -/
theorem apply (shadows : Shadows e.now f f') (tidy : f.Tidy) (tidy' : f'.Tidy) :
    Shadows e.now (f.apply e) (f'.apply e) := by
  obtain ⟨now, call⟩ := e
  obtain ⟨held, live⟩ := shadows
  cases call with
  | add r ttl =>
    -- An ended registration of the URL may be replaced in the first store and missing in the second.
    constructor
    · intro entry member
      rcases (mem_addServer tidy').mp member with rfl | ⟨earlier, other⟩
      · exact (mem_addServer tidy).mpr (.inl rfl)
      · exact (mem_addServer tidy).mpr (.inr ⟨held entry earlier, other⟩)
    · intro entry member lives
      rcases (mem_addServer tidy).mp member with rfl | ⟨earlier, other⟩
      · exact (mem_addServer tidy').mpr (.inl rfl)
      · exact (mem_addServer tidy').mpr (.inr ⟨live entry earlier lives, other⟩)
  | list =>
    constructor
    · intro entry member
      obtain ⟨earlier, lives⟩ := mem_purge.mp member
      exact mem_purge.mpr ⟨held entry earlier, lives⟩
    · intro entry member lives
      obtain ⟨earlier, -⟩ := mem_purge.mp member
      exact mem_purge.mpr ⟨live entry earlier lives, lives⟩
  | remove token =>
    constructor
    · intro entry member
      obtain ⟨earlier, other⟩ := (mem_removeServer tidy').mp member
      exact (mem_removeServer tidy).mpr ⟨held entry earlier, other⟩
    · intro entry member lives
      obtain ⟨earlier, other⟩ := (mem_removeServer tidy).mp member
      exact (mem_removeServer tidy').mpr ⟨live entry earlier lives, other⟩

/-- A glance at the second store. -/
theorem glance (shadows : Shadows now f f') : Shadows now f (f'.servers now).2 where
  held entry member := shadows.held entry (mem_purge.mp member).1
  live entry member lives := mem_purge.mpr ⟨shadows.live entry member lives, lives⟩

/-- Both stores hold the same of what lives. -/
theorem purge_eq (shadows : Shadows now f f') (tidy : f.Tidy) (tidy' : f'.Tidy) :
    (f.purge now).registrations = (f'.purge now).registrations := by
  refine tidy.purge.registrations_eq tidy'.purge fun entry => ?_
  rw [mem_purge, mem_purge]
  constructor
  · rintro ⟨member, lives⟩
    exact ⟨shadows.live entry member lives, lives⟩
  · rintro ⟨member, lives⟩
    exact ⟨shadows.held entry member, lives⟩

/-- Both stores answer the same, but a registration that has ended may be known to the first alone. -/
theorem answer (shadows : Shadows e.now f f') (tidy : f.Tidy) (tidy' : f'.Tidy) :
    f.answer e = f'.answer e ∨
      ∃ token, e.call = .remove token ∧ f.answer e = .removed true ∧ f'.answer e = .removed false ∧
        ∃ entry ∈ f.registrations, entry.2.value.token = token ∧ entry.2.isLive e.now = false := by
  obtain ⟨now, call⟩ := e
  cases call with
  | add r ttl => exact .inl rfl
  | list =>
    have same : (f.servers now).1 = (f'.servers now).1 := by
      simp only [servers, listing, shadows.purge_eq tidy tidy']
    exact .inl (congrArg FleetAnswer.listed same)
  | remove token =>
    simp only [FleetStore.answer]
    cases known : (f.removeServer token).1 with
    | false =>
      -- Nothing is known to the second store that the first does not know.
      refine .inl (congrArg FleetAnswer.removed (Eq.symm (Bool.eq_false_iff.mpr fun known' => ?_)))
      obtain ⟨entry, member, same⟩ := removeServer_eq_true_iff.mp known'
      rw [removeServer_eq_true_iff.mpr ⟨entry, shadows.held entry member, same⟩] at known
      contradiction
    | true =>
      cases known' : (f'.removeServer token).1 with
      | true => exact .inl rfl
      | false =>
        obtain ⟨entry, member, same⟩ := removeServer_eq_true_iff.mp known
        refine .inr ⟨token, rfl, rfl, rfl, entry, member, same, Bool.eq_false_iff.mpr fun lives => ?_⟩
        rw [removeServer_eq_true_iff.mpr ⟨entry, shadows.live entry member lives, same⟩] at known'
        contradiction

end Shadows

/-- After a run the store that was looked at more often is a shadow of the other. -/
theorem shadows_replay (empty : f.registrations = []) (distinct : log.calls.tokens.Nodup)
    (ordered : log.Pairwise fun w w' => w.now.nanos ≤ w'.now.nanos)
    (past : ∀ w ∈ log, w.now.nanos ≤ now.nanos) :
    Shadows now (f.replay log.calls) (f.replay log.events) := by
  induction log using List.reverseRecOn generalizing now with
  | nil => exact .refl now f
  | append_singleton log w ih =>
    obtain ⟨ordered, -, before⟩ := List.pairwise_append.mp ordered
    have passed : ∀ w' ∈ log, w'.now.nanos ≤ w.now.nanos := fun w' member =>
      before w' member w List.mem_cons_self
    have earlier : (WatchedLog.calls log).tokens.Nodup := WatchedLog.nodup_of_append distinct
    have earlier' : (WatchedLog.events log).tokens.Nodup := by rwa [WatchedLog.tokens_events]
    have shadows := ih earlier ordered passed
    -- The last event finds the stores as they should be at its time.
    suffices latest : Shadows w.now (f.replay (WatchedLog.calls (log ++ [w])))
        (f.replay (WatchedLog.events (log ++ [w]))) from latest.later (past w (by simp))
    rw [WatchedLog.events_append]
    cases w with
    | call e =>
      rw [WatchedLog.calls_append_call, replay, replay, List.foldl_append, List.foldl_append]
      exact shadows.apply (tidy_replay empty earlier) (tidy_replay empty earlier')
    | glance now =>
      rw [WatchedLog.calls_append_glance, replay, replay, List.foldl_append]
      exact shadows.glance

/-! ## What glances change -/

/-- Two stores with no registrations are asked the same, and the second is looked at more often.
    Both hold the same of what lives, at every moment.  Both give the same answers, but the token of
    a registration that has ended may be unknown to the second alone. -/
theorem glances_unnoticed (empty : f.registrations = []) (distinct : log.calls.tokens.Nodup)
    (ordered : log.Pairwise fun w w' => w.now.nanos ≤ w'.now.nanos) {before after : WatchedLog}
    (split : log = before ++ after) :
    (∀ now, (∀ w ∈ before, w.now.nanos ≤ now.nanos) →
      ((f.replay before.calls).purge now).registrations =
        ((f.replay before.events).purge now).registrations) ∧
      ∀ e rest, after = .call e :: rest →
        (f.replay before.calls).answer e = (f.replay before.events).answer e ∨
          ∃ token, e.call = .remove token ∧
            (f.replay before.calls).answer e = .removed true ∧
            (f.replay before.events).answer e = .removed false ∧
            ∃ entry ∈ (f.replay before.calls).registrations,
              entry.2.value.token = token ∧ entry.2.isLive e.now = false := by
  subst split
  obtain ⟨sorted, -, order⟩ := List.pairwise_append.mp ordered
  replace distinct : before.calls.tokens.Nodup := WatchedLog.nodup_of_append distinct
  have distinct' : before.events.tokens.Nodup := by rwa [WatchedLog.tokens_events]
  have tidy : (f.replay before.calls).Tidy := tidy_replay empty distinct
  have tidy' : (f.replay before.events).Tidy := tidy_replay empty distinct'
  constructor
  · intro now past
    exact (shadows_replay empty distinct sorted past).purge_eq tidy tidy'
  · rintro e rest rfl
    have past : ∀ w ∈ before, w.now.nanos ≤ e.now.nanos := fun w member =>
      order w member (.call e) List.mem_cons_self
    exact (shadows_replay empty distinct sorted past).answer tidy tidy'

end FleetStore

/-! ### A glance that is noticed -/

namespace WatchedLog

/-- A proxy registers for a minute and another one for ever.  When the minute is over, somebody looks
    at the second store. -/
def lapse : WatchedLog :=
  let proxy (url token : String) : Registration := ⟨{ proxyUrl := url }, ⟨token⟩⟩
  [.call ⟨.ofSeconds 0, .add (proxy "https://b" "first") (some (.ofSeconds 60))⟩,
    .call ⟨.ofSeconds 10, .add (proxy "https://a" "second") none⟩,
    .glance (.ofSeconds 60)]

end WatchedLog

theorem FleetStore.glances_unnoticed_lapse :
    let e : FleetEvent := ⟨.ofSeconds 70, .remove ⟨"first"⟩⟩
    (FleetStore.replay {} WatchedLog.lapse.calls).answer e = .removed true ∧
      (FleetStore.replay {} WatchedLog.lapse.events).answer e = .removed false ∧
      ((FleetStore.replay {} WatchedLog.lapse.calls).purge (.ofSeconds 70)).registrations =
        ((FleetStore.replay {} WatchedLog.lapse.events).purge (.ofSeconds 70)).registrations ∧
      ((FleetStore.replay {} WatchedLog.lapse.calls).purge (.ofSeconds 70)).listing.map (·.proxyUrl) =
        ["https://a"] := by
  intro e
  let log : WatchedLog := WatchedLog.lapse ++ [.call e]
  have empty : ({} : FleetStore).registrations = [] := rfl
  have distinct : log.calls.tokens.Nodup := by decide
  have ordered : log.Pairwise fun w w' => w.now.nanos ≤ w'.now.nanos := by decide
  have unnoticed := FleetStore.glances_unnoticed empty distinct ordered rfl
  exact ⟨by decide +kernel, by decide +kernel, unnoticed.1 _ (by decide), by decide +kernel⟩

end Tollgate
