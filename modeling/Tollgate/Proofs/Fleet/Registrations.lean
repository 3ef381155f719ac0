import Tollgate.Fleet.Store

/-! # What the fleet store holds

Registrations are stored under their URLs, one for each URL, and each has a removal token of its
own: `FleetStore.Tidy`.  The operations keep it so, as long as tokens are new, and on a tidy store
each is a statement about which entries there are: `mem_addServer`, `mem_purge`, `mem_removeServer`.
-/

namespace Tollgate.FleetStore

variable {f : FleetStore} {now : Instant} {r : Registration} {ttl : Option Span} {t : RemovalToken}
  {e : String × Lasting Registration}

/-- Entries stand in the order of their URLs, under the URLs of their servers, and no two have one
    token. -/
structure Tidy (f : FleetStore) : Prop where
  increasing : Sorted.Increasing f.registrations
  keyed : ∀ e ∈ f.registrations, e.1 = e.2.value.server.proxyUrl
  distinct : ∀ e ∈ f.registrations, ∀ e' ∈ f.registrations,
    e.2.value.token = e'.2.value.token → e = e'

theorem tidy_of_empty (empty : f.registrations = []) : f.Tidy where
  increasing := by simp [empty, Sorted.Increasing]
  keyed := by simp [empty]
  distinct := by simp [empty]

theorem mem_addServer (tidy : f.Tidy) :
    e ∈ (f.addServer now r ttl).registrations ↔
      e = (r.server.proxyUrl, Lasting.since now ttl r) ∨
        e ∈ f.registrations ∧ e.1 ≠ r.server.proxyUrl :=
  Sorted.mem_insert_iff tidy.increasing

theorem Tidy.addServer (tidy : f.Tidy) (fresh : ∀ e ∈ f.registrations, e.2.value.token ≠ r.token) :
    (f.addServer now r ttl).Tidy where
  increasing := Sorted.increasing_insert tidy.increasing
  keyed := by
    intro e member
    obtain rfl | ⟨earlier, -⟩ := (mem_addServer tidy).mp member
    · rfl
    · exact tidy.keyed e earlier
  distinct := by
    intro e member e' member' same
    -- The new token is not among the old ones, so that both entries are new or both are old.
    obtain rfl | ⟨earlier, -⟩ := (mem_addServer tidy).mp member
    · obtain rfl | ⟨earlier', -⟩ := (mem_addServer tidy).mp member'
      · rfl
      · exact absurd same.symm (fresh e' earlier')
    · obtain rfl | ⟨earlier', -⟩ := (mem_addServer tidy).mp member'
      · exact absurd same (fresh e earlier)
      · exact tidy.distinct e earlier e' earlier' same

theorem mem_purge :
    e ∈ (f.purge now).registrations ↔ e ∈ f.registrations ∧ e.2.isLive now = true :=
  List.mem_filter

theorem Tidy.of_sublist {f' : FleetStore} (tidy : f.Tidy)
    (sublist : f'.registrations.Sublist f.registrations) : f'.Tidy where
  increasing := List.Pairwise.sublist sublist tidy.increasing
  keyed := fun e member => tidy.keyed e (sublist.subset member)
  distinct := fun e member e' member' =>
    tidy.distinct e (sublist.subset member) e' (sublist.subset member')

theorem Tidy.purge (tidy : f.Tidy) : (f.purge now).Tidy := tidy.of_sublist List.filter_sublist

theorem pairwise_listing (tidy : f.Tidy) :
    f.listing.Pairwise fun a b => a.proxyUrl < b.proxyUrl := by
  refine List.pairwise_map.mpr (List.Pairwise.imp_of_mem ?_ tidy.increasing)
  intro e e' member member' below
  rwa [tidy.keyed e member, tidy.keyed e' member'] at below

/-! ## Taking registrations back -/

/-- The URL found for a token is that of an entry with the token. -/
theorem exists_of_owner? {url : String} (found : f.owner? t = some url) :
    ∃ e ∈ f.registrations, e.1 = url ∧ e.2.value.token = t := by
  obtain ⟨e, first, rfl⟩ := Option.map_eq_some_iff.mp found
  exact ⟨e, List.mem_of_find?_eq_some first, rfl, by simpa using List.find?_some first⟩

theorem owner?_eq_none_iff : f.owner? t = none ↔ ∀ e ∈ f.registrations, e.2.value.token ≠ t := by
  simp [owner?]

theorem removeServer_of_unknown (unknown : ∀ e ∈ f.registrations, e.2.value.token ≠ t) :
    f.removeServer t = (false, f) := by
  simp only [removeServer, owner?_eq_none_iff.mpr unknown]

theorem removeServer_eq_true_iff :
    (f.removeServer t).1 = true ↔ ∃ e ∈ f.registrations, e.2.value.token = t := by
  cases found : f.owner? t with
  | none =>
    have unknown := owner?_eq_none_iff.mp found
    simp only [removeServer_of_unknown unknown, Bool.false_eq_true, false_iff]
    rintro ⟨e, member, same⟩
    exact unknown e member same
  | some url =>
    obtain ⟨e, member, -, same⟩ := exists_of_owner? found
    simp only [removeServer, found, true_iff]
    exact ⟨e, member, same⟩

theorem mem_removeServer (tidy : f.Tidy) :
    e ∈ (f.removeServer t).2.registrations ↔ e ∈ f.registrations ∧ e.2.value.token ≠ t := by
  cases found : f.owner? t with
  | none =>
    have unknown := owner?_eq_none_iff.mp found
    simp only [removeServer_of_unknown unknown]
    exact ⟨fun member => ⟨member, unknown e member⟩, And.left⟩
  | some url =>
    obtain ⟨gone, memberGone, rfl, rfl⟩ := exists_of_owner? found
    simp only [removeServer, found, Sorted.mem_erase_iff tidy.increasing]
    -- On a tidy store an entry is known by its URL and by its token alike.
    refine and_congr_right fun member => not_congr ⟨fun same => ?_, fun same => ?_⟩
    · rw [tidy.increasing.eq_of_mem member memberGone same]
    · rw [tidy.distinct e member gone memberGone same]

/-- What was taken back is the entry with the token, and no other. -/
theorem exists_owner (tidy : f.Tidy) (known : (f.removeServer t).1 = true) :
    ∃ owner ∈ f.registrations, owner.2.value.token = t ∧
      ∀ e, e ∈ (f.removeServer t).2.registrations ↔ e ∈ f.registrations ∧ e ≠ owner := by
  obtain ⟨owner, member, rfl⟩ := removeServer_eq_true_iff.mp known
  refine ⟨owner, member, rfl, fun e => ?_⟩
  rw [mem_removeServer tidy]
  refine and_congr_right fun earlier => not_congr ⟨tidy.distinct e earlier owner member, ?_⟩
  rintro rfl
  rfl

theorem Tidy.removeServer (tidy : f.Tidy) : (f.removeServer t).2.Tidy := by
  cases found : f.owner? t with
  | none => rwa [removeServer_of_unknown (owner?_eq_none_iff.mp found)]
  | some url =>
    rw [FleetStore.removeServer, found]
    exact tidy.of_sublist (Sorted.erase_sublist url f.registrations)

end Tollgate.FleetStore
