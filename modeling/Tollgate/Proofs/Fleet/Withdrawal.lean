import Mathlib.Data.List.Sort
import Tollgate.Proofs.Fleet.Log

/-! # Taking an enrolment back

An enrolment is current as long as nothing has ended or dropped it.  Then the store shows its server,
and no other one at its URL, while it lives (`Digests.filter_of_lives`), and its token takes it back.
What is shown afterwards is what would be shown if there had never been that enrolment, save for its
URL (`Digests.servers_removeServer`): whoever had that URL before is gone.

Both stores have a log, and the two logs differ in one addition.  So they store the same enrolments
of other URLs, whatever came after the addition (`FleetLog.stores_other_iff`).
-/

namespace Tollgate

instance : Std.Irrefl fun s t : ProxyServer => s.proxyUrl < t.proxyUrl where
  irrefl s := Std.Irrefl.irrefl s.proxyUrl

instance : Std.Antisymm fun s t : ProxyServer => s.proxyUrl < t.proxyUrl where
  antisymm _ _ below above := absurd (Trans.trans below above) (Std.Irrefl.irrefl _)

namespace FleetLog

variable {before after : FleetLog} {a b : Enrolment} {now : Instant}

/-- An addition has nothing to do with enrolments of other URLs. -/
theorem stores_other_iff (other : a.url ≠ b.url) :
    Stores (before ++ b.event :: after) a ↔ Stores (before ++ after) a := by
  induction after using List.reverseRecOn with
  | nil =>
    rw [List.append_nil, stores_append_iff]
    constructor
    · rintro (same | ⟨stores, -, -⟩)
      · cases a
        cases b
        cases same
        contradiction
      · exact stores
    · intro stores
      exact .inr ⟨stores, Ne.symm other, id⟩
  | append_singleton after e ih =>
    rw [← List.cons_append, ← List.append_assoc, ← List.append_assoc, stores_append_iff,
      stores_append_iff, ih]

/-- Listings do not drop what is to live on. -/
theorem stores_append_listings_iff (lives : a.LivesAt now)
    (listings : ∀ e ∈ after, e.call = .list ∧ e.now.nanos ≤ now.nanos) :
    Stores (before ++ after) a ↔ Stores before a := by
  induction after using List.reverseRecOn with
  | nil => rw [List.append_nil]
  | append_singleton after e ih =>
    obtain ⟨called, past⟩ := listings e (by simp)
    have keeps : ¬e.Ends a ∧ ¬e.Drops a := by
      simpa [FleetEvent.Ends, FleetEvent.Drops, called] using lives.earlier past
    have noAddition : e ≠ a.event := by
      intro same
      rw [same] at called
      contradiction
    rw [← List.append_assoc, stores_append_iff, ih fun e' member => listings e' (by simp [member])]
    simp [noAddition, keeps]

end FleetLog

namespace FleetStore.Digests

open FleetLog

variable {f f' : FleetStore} {log before after : FleetLog} {a b : Enrolment} {now : Instant}

theorem mem_servers (digests : f.Digests log) {server : ProxyServer} :
    server ∈ (f.servers now).1 ↔
      ∃ a, log.Stores a ∧ a.LivesAt now ∧ a.registration.server = server := by
  simp only [servers, listing, List.mem_map, mem_purge, digests.mem_iff]
  constructor
  · rintro ⟨_, ⟨⟨a, stores, rfl⟩, live⟩, rfl⟩
    exact ⟨a, stores, Enrolment.isLive_entry_iff.mp live, rfl⟩
  · rintro ⟨a, stores, lives, rfl⟩
    exact ⟨a.entry, ⟨⟨a, stores, rfl⟩, Enrolment.isLive_entry_iff.mpr lives⟩, rfl⟩

theorem ordered (digests : f.Digests log) (now : Instant) :
    (f.servers now).1.Pairwise fun s t => s.proxyUrl < t.proxyUrl :=
  pairwise_listing digests.tidy.purge

/-- One entry is stored for a URL. -/
theorem entry_eq (digests : f.Digests log) (stores : log.Stores a) (stores' : log.Stores b)
    (same : a.url = b.url) : a.entry = b.entry :=
  digests.tidy.increasing.eq_of_mem ((digests.mem_iff _).mpr ⟨a, stores, rfl⟩)
    ((digests.mem_iff _).mpr ⟨b, stores', rfl⟩) same

theorem filter_of_lives (digests : f.Digests log) (stores : log.Stores b) (lives : b.LivesAt now) :
    ((f.servers now).1.filter fun s => s.proxyUrl = b.url) = [b.registration.server] := by
  refine ((digests.ordered now).filter _).eq_of_mem_iff (List.pairwise_singleton _ _) fun s => ?_
  rw [List.mem_filter, digests.mem_servers, List.mem_singleton, decide_eq_true_iff]
  constructor
  · rintro ⟨⟨a, stores', -, rfl⟩, same⟩
    exact congrArg (fun entry => entry.2.value.server) (digests.entry_eq stores' stores same)
  · rintro rfl
    exact ⟨⟨b, stores, lives, rfl⟩, rfl⟩

theorem filter_of_ended (digests : f.Digests log) (stores : log.Stores b) (ended : ¬b.LivesAt now) :
    ((f.servers now).1.filter fun s => s.proxyUrl = b.url) = [] := by
  rw [List.filter_eq_nil_iff]
  intro s member same
  obtain ⟨a, stores', lives, rfl⟩ := digests.mem_servers.mp member
  have entry := digests.entry_eq stores' stores (of_decide_eq_true same)
  apply ended
  rwa [← Enrolment.isLive_entry_iff, ← entry, Enrolment.isLive_entry_iff]

/-- The token of what is stored takes it back. -/
theorem known (digests : f.Digests log) (stores : log.Stores b) :
    (f.removeServer b.registration.token).1 = true :=
  removeServer_eq_true_iff.mpr ⟨b.entry, (digests.mem_iff _).mpr ⟨b, stores, rfl⟩, rfl⟩

/-- What is left when an enrolment is taken back is what there is without it, save for its URL. -/
theorem servers_removeServer (digests : f.Digests (before ++ b.event :: after))
    (without : f'.Digests (before ++ after)) (stores : Stores (before ++ b.event :: after) b) :
    ((f.removeServer b.registration.token).2.servers now).1 =
      (f'.servers now).1.filter fun s => s.proxyUrl ≠ b.url := by
  refine List.Pairwise.eq_of_mem_iff (pairwise_listing digests.tidy.removeServer.purge)
    ((without.ordered now).filter _) fun s => ?_
  simp only [servers, listing, List.mem_filter, List.mem_map, mem_purge,
    mem_removeServer digests.tidy, digests.mem_iff, without.mem_iff, decide_eq_true_iff]
  constructor
  · rintro ⟨_, ⟨⟨⟨a, stores', rfl⟩, other⟩, live⟩, rfl⟩
    have apart : a.url ≠ b.url := fun same =>
      other (congrArg (fun entry => entry.2.value.token) (digests.entry_eq stores' stores same))
    exact ⟨⟨a.entry, ⟨⟨a, (stores_other_iff apart).mp stores', rfl⟩, live⟩, rfl⟩, apart⟩
  · rintro ⟨⟨_, ⟨⟨a, stores', rfl⟩, live⟩, rfl⟩, apart⟩
    have kept : Stores (before ++ b.event :: after) a := (stores_other_iff apart).mpr stores'
    have member := (digests.mem_iff _).mpr ⟨a, kept, rfl⟩
    have member' := (digests.mem_iff _).mpr ⟨b, stores, rfl⟩
    refine ⟨a.entry, ⟨⟨⟨a, kept, rfl⟩, fun same => apart ?_⟩, live⟩, rfl⟩
    exact congrArg Prod.fst (digests.tidy.distinct _ member _ member' same)

/-- Listings on the way to a moment do not change what is shown then. -/
theorem servers_of_listings (digests : f.Digests before) (later : f'.Digests (before ++ after))
    (listings : ∀ e ∈ after, e.call = .list ∧ e.now.nanos ≤ now.nanos) :
    (f'.servers now).1 = (f.servers now).1 := by
  refine (later.ordered now).eq_of_mem_iff (digests.ordered now) fun s => ?_
  rw [later.mem_servers, digests.mem_servers]
  constructor
  · rintro ⟨a, stores, lives, rfl⟩
    exact ⟨a, (stores_append_listings_iff lives listings).mp stores, lives, rfl⟩
  · rintro ⟨a, stores, lives, rfl⟩
    exact ⟨a, (stores_append_listings_iff lives listings).mpr stores, lives, rfl⟩

/-- Between two moments some of what is shown may end, and nothing appears. -/
theorem filter_of_lasting (digests : f.Digests log) {earlier : Instant} {p : ProxyServer → Bool}
    (order : earlier.nanos ≤ now.nanos)
    (lasting : ∀ s ∈ (f.servers earlier).1, p s = true → s ∈ (f.servers now).1) :
    (f.servers now).1.filter p = (f.servers earlier).1.filter p := by
  refine ((digests.ordered now).filter _).eq_of_mem_iff ((digests.ordered earlier).filter _)
    fun s => ?_
  rw [List.mem_filter, List.mem_filter]
  constructor
  · rintro ⟨member, holds⟩
    obtain ⟨a, stores, lives, rfl⟩ := digests.mem_servers.mp member
    exact ⟨digests.mem_servers.mpr ⟨a, stores, lives.earlier order, rfl⟩, holds⟩
  · rintro ⟨member, holds⟩
    exact ⟨lasting s member holds, holds⟩

end FleetStore.Digests

end Tollgate
