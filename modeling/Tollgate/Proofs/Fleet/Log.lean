import Mathlib.Data.List.Induction
import Tollgate.Proofs.Fleet.Registrations

/-! # The fleet store and its log

A store is a digest of what was asked of it.  The log has every call with the time it came at; an
enrolment is an addition in the log, and it stands until its URL is added again or its token is
used.  `FleetStore.mem_replay` says what is stored after a log: the enrolments that stand and that no
later listing found ended.  What the store shows is then a matter of the log alone,
`FleetStore.replay_refines`: an enrolment that was dropped had ended, and does not live again.
-/

namespace Tollgate

inductive FleetCall where
  | add (r : Registration) (ttl : Option Span)
  | list
  | remove (token : RemovalToken)

structure FleetEvent where
  now : Instant
  call : FleetCall

structure Enrolment where
  now : Instant
  registration : Registration
  ttl : Option Span

namespace Enrolment

def url (a : Enrolment) : String := a.registration.server.proxyUrl

def event (a : Enrolment) : FleetEvent := ⟨a.now, .add a.registration a.ttl⟩

def entry (a : Enrolment) : String × Lasting Registration :=
  (a.url, Lasting.since a.now a.ttl a.registration)

def LivesAt (a : Enrolment) (now : Instant) : Prop :=
  ∀ span, a.ttl = some span → now.nanos < a.now.nanos + span.nanos

theorem isLive_entry_iff {a : Enrolment} {now : Instant} :
    a.entry.2.isLive now = true ↔ a.LivesAt now := by
  cases ending : a.ttl with
  | none => simp [entry, Lasting.since, Lasting.isLive, LivesAt, ending]
  | some span => simp [entry, Lasting.since, Lasting.isLive, LivesAt, ending, Instant.add]

theorem LivesAt.earlier {a : Enrolment} {earlier now : Instant} (lives : a.LivesAt now)
    (order : earlier.nanos ≤ now.nanos) : a.LivesAt earlier :=
  fun span ending => Int.lt_of_le_of_lt order (lives span ending)

end Enrolment

namespace FleetEvent

def token? (e : FleetEvent) : Option RemovalToken :=
  match e.call with
  | .add r _ => some r.token
  | .list | .remove _ => none

def Ends (e : FleetEvent) (a : Enrolment) : Prop :=
  match e.call with
  | .add r _ => r.server.proxyUrl = a.url
  | .list => False
  | .remove token => token = a.registration.token

def Drops (e : FleetEvent) (a : Enrolment) : Prop :=
  match e.call with
  | .list => ¬a.LivesAt e.now
  | .add _ _ | .remove _ => False

end FleetEvent

/-! ## Logs -/

abbrev FleetLog := List FleetEvent

namespace FleetLog

variable {log : FleetLog} {a a' : Enrolment} {e : FleetEvent}

def tokens (log : FleetLog) : List RemovalToken := log.filterMap FleetEvent.token?

def Stands (log : FleetLog) (a : Enrolment) : Prop :=
  ∃ before after, log = before ++ a.event :: after ∧ ∀ e ∈ after, ¬e.Ends a

/-- An enrolment of the log that was ended: its URL was added again, or its token was used. -/
def Ended (log : FleetLog) (a : Enrolment) : Prop :=
  ∃ before after, log = before ++ a.event :: after ∧ ∃ e ∈ after, e.Ends a

/-- An enrolment of the log that nothing has ended or dropped. -/
def Stores (log : FleetLog) (a : Enrolment) : Prop :=
  ∃ before after, log = before ++ a.event :: after ∧ ∀ e ∈ after, ¬e.Ends a ∧ ¬e.Drops a

theorem Stores.stands (stores : log.Stores a) : log.Stands a := by
  obtain ⟨before, after, split, kept⟩ := stores
  exact ⟨before, after, split, fun e member => (kept e member).1⟩

theorem stores_append_iff :
    (log ++ [e]).Stores a ↔ e = a.event ∨ log.Stores a ∧ ¬e.Ends a ∧ ¬e.Drops a := by
  constructor
  · rintro ⟨before, after, split, kept⟩
    -- The last event is the addition itself, or the last of those after it.
    rcases List.eq_nil_or_concat after with rfl | ⟨after, last, rfl⟩
    · exact .inl (List.append_inj_right' split rfl |> List.singleton_inj.mp)
    · rw [List.concat_eq_append, ← List.cons_append, ← List.append_assoc] at split
      obtain rfl := List.singleton_inj.mp (List.append_inj_right' split rfl)
      exact .inr ⟨⟨before, after, List.append_inj_left' split rfl,
        fun e member => kept e (by simp [member])⟩, kept e (by simp)⟩
  · rintro (rfl | ⟨⟨before, after, rfl, kept⟩, keeps⟩)
    · exact ⟨log, [], rfl, by simp⟩
    · refine ⟨before, after ++ [e], by simp, fun e' member => ?_⟩
      rcases List.mem_append.mp member with earlier | last
      · exact kept e' earlier
      · exact List.mem_singleton.mp last ▸ keeps

theorem nodup_tokens_of_sublist {log' : FleetLog} (distinct : log.tokens.Nodup)
    (among : List.Sublist log' log) : log'.tokens.Nodup :=
  distinct.sublist (among.filterMap _)

theorem mem_tokens_of_stores (stores : log.Stores a) : a.registration.token ∈ log.tokens := by
  obtain ⟨before, after, rfl, -⟩ := stores
  exact List.mem_filterMap.mpr ⟨a.event, by simp, rfl⟩

/-- With distinct tokens there is one place in the log that brings a token. -/
theorem eq_of_token_eq {before after before' after' : List FleetEvent}
    (distinct : (tokens (before ++ a.event :: after)).Nodup)
    (split : before ++ a.event :: after = before' ++ a'.event :: after')
    (same : a.registration.token = a'.registration.token) : a = a' ∧ after = after' := by
  -- Two events of a log with distinct tokens cannot share theirs.
  have apart : ∀ {b c : Enrolment} {first second third : List FleetEvent},
      b.registration.token = c.registration.token →
      ¬(tokens (first ++ b.event :: (second ++ c.event :: third))).Nodup := by
    intro b c first second third shared
    simp [tokens, Enrolment.event, FleetEvent.token?, List.nodup_append, shared]
  rcases List.append_eq_append_iff.mp split with ⟨between, rfl, rest⟩ | ⟨between, rfl, rest⟩
  · cases between with
    | nil =>
      obtain ⟨event, rfl⟩ := List.cons.inj rest
      cases a
      cases a'
      simp_all [Enrolment.event]
    | cons first between =>
      obtain ⟨rfl, rfl⟩ := List.cons.inj rest
      exact absurd distinct (apart same)
  · cases between with
    | nil =>
      obtain ⟨event, rfl⟩ := List.cons.inj rest
      cases a
      cases a'
      simp_all [Enrolment.event]
    | cons first between =>
      obtain ⟨rfl, rfl⟩ := List.cons.inj rest
      rw [List.append_assoc] at distinct
      exact absurd distinct (apart same.symm)

end FleetLog

/-! ## Replaying a log -/

namespace FleetStore

variable {f : FleetStore} {log : FleetLog} {e : FleetEvent} {a : Enrolment}

def apply (f : FleetStore) (e : FleetEvent) : FleetStore :=
  match e.call with
  | .add r ttl => f.addServer e.now r ttl
  | .list => (f.servers e.now).2
  | .remove token => (f.removeServer token).2

def replay (f : FleetStore) (log : FleetLog) : FleetStore := log.foldl apply f

/-- The invariant: what is stored are the enrolments that nothing has ended or dropped. -/
structure Digests (f : FleetStore) (log : FleetLog) : Prop where
  tidy : f.Tidy
  mem_iff : ∀ entry, entry ∈ f.registrations ↔ ∃ a, log.Stores a ∧ a.entry = entry

theorem digests_nil (empty : f.registrations = []) : f.Digests [] where
  tidy := tidy_of_empty empty
  mem_iff := by simp [empty, FleetLog.Stores]

/-- One call: an addition puts its enrolment in, and the call takes out what it ends or drops. -/
theorem Digests.apply (digests : f.Digests log) (distinct : (FleetLog.tokens (log ++ [e])).Nodup) :
    (f.apply e).Digests (log ++ [e]) := by
  obtain ⟨now, call⟩ := e
  refine ⟨?_, fun entry => ?_⟩
  · cases call with
    | add r ttl =>
      apply digests.tidy.addServer
      intro entry member same
      obtain ⟨a, stores, rfl⟩ := (digests.mem_iff entry).mp member
      -- A token that is kept was added before, so the added one would occur twice.
      have known : r.token ∈ log.tokens := same ▸ FleetLog.mem_tokens_of_stores stores
      rw [FleetLog.tokens, List.filterMap_append, List.nodup_append] at distinct
      exact distinct.2.2 _ known r.token List.mem_cons_self rfl
    | list => exact digests.tidy.purge
    | remove token => exact digests.tidy.removeServer
  · simp only [FleetLog.stores_append_iff]
    cases call with
    | add r ttl =>
      simp only [FleetStore.apply, mem_addServer digests.tidy, digests.mem_iff]
      constructor
      · rintro (rfl | ⟨⟨a, stores, rfl⟩, other⟩)
        · exact ⟨⟨now, r, ttl⟩, .inl rfl, rfl⟩
        · exact ⟨a, .inr ⟨stores, fun same => other same.symm, id⟩, rfl⟩
      · rintro ⟨⟨_, _, _⟩, event | ⟨stores, other, -⟩, rfl⟩
        · cases event
          exact .inl rfl
        · exact .inr ⟨⟨_, stores, rfl⟩, fun same => other same.symm⟩
    | list =>
      simp only [FleetStore.apply, servers, mem_purge, digests.mem_iff]
      constructor
      · rintro ⟨⟨a, stores, rfl⟩, live⟩
        exact ⟨a, .inr ⟨stores, id, not_not_intro (Enrolment.isLive_entry_iff.mp live)⟩, rfl⟩
      · rintro ⟨a, event | ⟨stores, -, live⟩, rfl⟩
        · cases event
        · exact ⟨⟨a, stores, rfl⟩, Enrolment.isLive_entry_iff.mpr (Classical.not_not.mp live)⟩
    | remove token =>
      simp only [FleetStore.apply, mem_removeServer digests.tidy, digests.mem_iff]
      constructor
      · rintro ⟨⟨a, stores, rfl⟩, other⟩
        exact ⟨a, .inr ⟨stores, fun same => other same.symm, id⟩, rfl⟩
      · rintro ⟨a, event | ⟨stores, other, -⟩, rfl⟩
        · cases event
        · exact ⟨⟨a, stores, rfl⟩, fun same => other same.symm⟩

/-- One event after the other, from a store that was a digest already. -/
theorem Digests.replay {events : List FleetEvent} (digests : f.Digests log)
    (distinct : (FleetLog.tokens (log ++ events)).Nodup) :
    (f.replay events).Digests (log ++ events) := by
  induction events generalizing f log with
  | nil =>
    rw [List.append_nil]
    exact digests
  | cons e rest ih =>
    rw [List.append_cons log e rest] at distinct ⊢
    exact ih (digests.apply (FleetLog.nodup_tokens_of_sublist distinct (List.sublist_append_left _ _)))
      distinct

theorem digests_replay (empty : f.registrations = []) (distinct : log.tokens.Nodup) :
    (f.replay log).Digests log :=
  (digests_nil empty).replay distinct

/-! ## What the log says -/

/-- What a store shows is what its log says. -/
structure Refines (f : FleetStore) (log : FleetLog) : Prop where
  /-- A listing has the servers whose enrolments stand and live, in the order of their URLs. -/
  ordered : ∀ now, (f.servers now).1.Pairwise fun a b => a.proxyUrl < b.proxyUrl
  listed : ∀ now, (∀ e ∈ log, e.now.nanos ≤ now.nanos) → ∀ server, server ∈ (f.servers now).1 ↔
    ∃ a, log.Stands a ∧ a.LivesAt now ∧ a.registration.server = server
  /-- A token that takes something back is that of an enrolment that stands, and its URL goes. -/
  removed : ∀ token, (f.removeServer token).1 = true →
    ∃ a, log.Stands a ∧ a.registration.token = token ∧
      ∀ entry, entry ∈ (f.removeServer token).2.registrations ↔
        entry ∈ f.registrations ∧ entry.1 ≠ a.url
  /-- The token of an enrolment that was ended does nothing. -/
  stale : ∀ a, log.Ended a → f.removeServer a.registration.token = (false, f)

theorem Digests.listed (digests : f.Digests log) {now : Instant}
    (past : ∀ e ∈ log, e.now.nanos ≤ now.nanos) (server : ProxyServer) :
    server ∈ (f.servers now).1 ↔
      ∃ a, log.Stands a ∧ a.LivesAt now ∧ a.registration.server = server := by
  simp only [servers, listing, List.mem_map, mem_purge, digests.mem_iff]
  constructor
  · rintro ⟨_, ⟨⟨a, stores, rfl⟩, live⟩, rfl⟩
    exact ⟨a, stores.stands, Enrolment.isLive_entry_iff.mp live, rfl⟩
  · rintro ⟨a, ⟨before, after, rfl, stands⟩, lives, rfl⟩
    refine ⟨a.entry, ⟨⟨a, ⟨before, after, rfl, fun e member => ⟨stands e member, ?_⟩⟩, rfl⟩,
      Enrolment.isLive_entry_iff.mpr lives⟩, rfl⟩
    -- What lives now lived at every listing so far.
    have earlier := lives.earlier (past e (by simp [member]))
    cases called : e.call with
    | list => simpa [FleetEvent.Drops, called] using earlier
    | add | remove => simp [FleetEvent.Drops, called]

theorem Digests.removed (digests : f.Digests log) {token : RemovalToken}
    (removed : (f.removeServer token).1 = true) :
    ∃ a, log.Stands a ∧ a.registration.token = token ∧
      ∀ entry, entry ∈ (f.removeServer token).2.registrations ↔
        entry ∈ f.registrations ∧ entry.1 ≠ a.url := by
  obtain ⟨_, member, rfl, others⟩ := exists_owner digests.tidy removed
  obtain ⟨a, stores, rfl⟩ := (digests.mem_iff _).mp member
  refine ⟨a, stores.stands, rfl, fun entry => ?_⟩
  rw [others]
  refine and_congr_right fun member' => not_congr ⟨?_, fun same => ?_⟩
  · rintro rfl
    rfl
  · exact digests.tidy.increasing.eq_of_mem member' member same

theorem Digests.stale (digests : f.Digests log) (distinct : log.tokens.Nodup)
    (ended : log.Ended a) : f.removeServer a.registration.token = (false, f) := by
  apply removeServer_of_unknown
  intro entry member same
  obtain ⟨a', ⟨before', after', split', kept⟩, rfl⟩ := (digests.mem_iff entry).mp member
  obtain ⟨before, after, rfl, e, later, ends⟩ := ended
  obtain ⟨rfl, rfl⟩ := FleetLog.eq_of_token_eq distinct split' same.symm
  exact (kept e later).1 ends

theorem Digests.refines (digests : f.Digests log) (distinct : log.tokens.Nodup) : f.Refines log where
  ordered _ := pairwise_listing digests.tidy.purge
  listed _ past := digests.listed past
  removed _ := digests.removed
  stale _ := digests.stale distinct

/-- Whatever was asked of a store that had no registrations, it shows what its log says, if no two
    additions brought one token.  The log has the calls that were completed; an addition may break
    off, and then it is not among them: see `left_refines`. -/
theorem replay_refines (empty : f.registrations = []) (distinct : log.tokens.Nodup) :
    (f.replay log).Refines log :=
  (digests_replay empty distinct).refines distinct

end FleetStore

/-- A proxy registers for a minute, renews in time, and its old token is used; another one comes to
    stay. -/
def FleetLog.renewal : FleetLog :=
  let proxy (url token : String) : Registration := ⟨{ proxyUrl := url }, ⟨token⟩⟩
  [⟨.ofSeconds 0, .add (proxy "https://b" "first") (some (.ofSeconds 60))⟩,
    ⟨.ofSeconds 50, .add (proxy "https://b" "second") (some (.ofSeconds 60))⟩,
    ⟨.ofSeconds 55, .remove ⟨"first"⟩⟩,
    ⟨.ofSeconds 56, .add (proxy "https://a" "third") none⟩,
    ⟨.ofSeconds 70, .list⟩]

theorem FleetStore.replay_refines_renewal :
    (FleetStore.replay {} FleetLog.renewal).Refines FleetLog.renewal ∧
      ((FleetStore.replay {} FleetLog.renewal).servers (.ofSeconds 109)).1.map (·.proxyUrl) =
        ["https://a", "https://b"] ∧
      ((FleetStore.replay {} FleetLog.renewal).servers (.ofSeconds 110)).1.map (·.proxyUrl) =
        ["https://a"] :=
  ⟨FleetStore.replay_refines rfl (by decide), by decide +kernel, by decide +kernel⟩

/-! ## Additions that break off -/

/-- An addition breaks off if its end is no date that can be named, and nothing is stored. -/
def FleetEvent.breaksOff (e : FleetEvent) : Bool :=
  match e.call with
  | .add _ ttl => ttl.any fun span => (e.now.add? span).isNone
  | .list | .remove _ => false

def FleetLog.completed (log : FleetLog) : FleetLog := log.filter fun e => !e.breaksOff

theorem FleetLog.completed_append (log later : FleetLog) :
    FleetLog.completed (log ++ later) = log.completed ++ FleetLog.completed later :=
  List.filter_append _ _

namespace FleetStore

variable {f : FleetStore} {log : FleetLog}

def meet (f : FleetStore) (e : FleetEvent) : FleetStore := if !e.breaksOff then f.apply e else f

def left (f : FleetStore) (log : FleetLog) : FleetStore := log.foldl meet f

theorem left_eq_replay (f : FleetStore) (log : FleetLog) : f.left log = f.replay log.completed := by
  rw [replay, FleetLog.completed, List.foldl_filter]
  rfl

/-- Calls may break off among those that are completed: the store shows what these say. -/
theorem left_refines (empty : f.registrations = []) (distinct : log.completed.tokens.Nodup) :
    (f.left log).Refines log.completed := by
  rw [left_eq_replay]
  exact (digests_replay empty distinct).refines distinct

end FleetStore

/-- An addition until after the last date leaves the earlier record of its URL where it is. -/
example :
    let log := FleetLog.renewal ++
      [⟨.ofSeconds 80, .add ⟨{ proxyUrl := "https://b", city := "Bern" }, ⟨"fourth"⟩⟩
        (some (.ofSeconds 8210266876720))⟩]
    log.completed.length = 5 ∧
      ((FleetStore.left {} log).servers (.ofSeconds 109)).1.map (·.city) = ["", ""] := by
  decide +kernel

end Tollgate
