/-! # Lists in key order

A finite map is kept as the list of its entries in strictly increasing key order, so
that equal maps are equal lists and listing a map needs no sorting.

* `Sorted.insert`, `Sorted.find?`, `Sorted.erase` — the map operations;
* `Sorted.add` — the same for a set of keys alone;
* `Sorted.Increasing` — the invariant, kept by every operation;
* `Sorted.mem_insert_self`, `Sorted.mem_insert_of_ne`, `Sorted.increasing_insert`,
  `Sorted.mem_insert_iff`, `Sorted.mem_erase_iff`, `Sorted.find?_eq_some_iff` — maps as what they
  bind;
* `Sorted.find?_insert_self`, `Sorted.find?_insert_of_ne` — the search after a binding was put in;
* `Sorted.mem_add`, `Sorted.pairwise_add`, `Sorted.has_iff_mem` — sets as what is in them.
-/

namespace Tollgate.Sorted

variable {κ α : Type} [LT κ] [DecidableLT κ]

/-- Bind a key to a value; an earlier binding of the key is replaced. -/
def insert (k : κ) (v : α) : List (κ × α) → List (κ × α)
  | [] => [(k, v)]
  | (k', v') :: rest =>
    if k < k' then (k, v) :: (k', v') :: rest
    else if k' < k then (k', v') :: insert k v rest
    else (k, v) :: rest

def find? (k : κ) : List (κ × α) → Option α
  | [] => none
  | (k', v') :: rest =>
    if k < k' then none
    else if k' < k then find? k rest
    else some v'

def erase (k : κ) : List (κ × α) → List (κ × α)
  | [] => []
  | (k', v') :: rest =>
    if k < k' then (k', v') :: rest
    else if k' < k then (k', v') :: erase k rest
    else rest

/-- The map that binds the keys of a list of pairs; the last binding of a key wins. -/
def ofList (entries : List (κ × α)) : List (κ × α) :=
  entries.foldl (fun m e => insert e.1 e.2 m) []

/-- Put a key into a set; a key that is there already changes nothing. -/
def add (k : κ) : List κ → List κ
  | [] => [k]
  | k' :: rest =>
    if k < k' then k :: k' :: rest
    else if k' < k then k' :: add k rest
    else k' :: rest

def has (k : κ) : List κ → Bool
  | [] => false
  | k' :: rest =>
    if k < k' then false
    else if k' < k then has k rest
    else true

omit [DecidableLT κ] in
/-- The keys are strictly increasing. -/
def Increasing (entries : List (κ × α)) : Prop := entries.Pairwise fun a b => a.1 < b.1

/-! ## Maps

What a map binds after a binding was put in, over a strict total order. -/

section Maps

variable {α : Type}

theorem mem_insert_self (k : κ) (v : α) (entries : List (κ × α)) : (k, v) ∈ insert k v entries := by
  induction entries with
  | nil => simp [insert]
  | cons entry rest ih =>
    simp only [insert]
    split
    · exact List.mem_cons_self
    · split
      · exact List.mem_cons_of_mem _ ih
      · exact List.mem_cons_self

theorem eq_or_mem_of_mem_insert {k : κ} {v : α} {entries : List (κ × α)} {entry : κ × α}
    (member : entry ∈ insert k v entries) : entry = (k, v) ∨ entry ∈ entries := by
  induction entries with
  | nil => simpa [insert] using member
  | cons head rest ih =>
    simp only [insert] at member
    split at member
    · exact List.mem_cons.mp member
    · split at member
      · rcases List.mem_cons.mp member with rfl | later
        · exact .inr List.mem_cons_self
        · exact (ih later).imp_right (List.mem_cons_of_mem head)
      · exact (List.mem_cons.mp member).imp_right (List.mem_cons_of_mem head)

theorem forall_mem_insert {P : κ × α → Prop} {k : κ} {v : α} {entries : List (κ × α)}
    (new : P (k, v)) (before : ∀ entry ∈ entries, P entry) :
    ∀ entry ∈ insert k v entries, P entry := by
  intro entry member
  rcases eq_or_mem_of_mem_insert member with rfl | earlier
  · exact new
  · exact before entry earlier

/-- What other keys are bound to is kept. -/
theorem mem_insert_of_ne [Std.Trichotomous (α := κ) (· < ·)] {k : κ} {v : α}
    {entries : List (κ × α)} {entry : κ × α} (other : entry.1 ≠ k) (member : entry ∈ entries) :
    entry ∈ insert k v entries := by
  induction entries with
  | nil => contradiction
  | cons head rest ih =>
    simp only [insert]
    split
    · exact List.mem_cons_of_mem _ member
    · next notBelow =>
      split
      · rcases List.mem_cons.mp member with rfl | later
        · exact List.mem_cons_self
        · exact List.mem_cons_of_mem _ (ih later)
      · next notAbove =>
        have same : k = head.1 := Std.Trichotomous.trichotomous k head.1 notBelow notAbove
        rcases List.mem_cons.mp member with rfl | later
        · exact absurd same.symm other
        · exact List.mem_cons_of_mem _ later

/-- Where a binding goes depends on the keys alone. -/
theorem map_insert {β : Type} (f : α → β) (k : κ) (v : α) (entries : List (κ × α)) :
    (insert k v entries).map (Prod.map id f) = insert k (f v) (entries.map (Prod.map id f)) := by
  induction entries with
  | nil => rfl
  | cons head rest ih =>
    simp only [insert, List.map_cons, Prod.map_fst, id_eq]
    split
    · rfl
    · split
      · rw [List.map_cons, ih]
        rfl
      · rfl

/-- Binding a key keeps the keys strictly increasing. -/
theorem increasing_insert [Trans (α := κ) (· < ·) (· < ·) (· < ·)]
    [Std.Trichotomous (α := κ) (· < ·)] {k : κ} {v : α} {entries : List (κ × α)}
    (increasing : Increasing entries) : Increasing (insert k v entries) := by
  induction entries with
  | nil => simp [Increasing, insert]
  | cons head rest ih =>
    obtain ⟨above, increasingRest⟩ := List.pairwise_cons.mp increasing
    simp only [insert]
    split
    · next below =>
      refine List.pairwise_cons.mpr ⟨fun entry member => ?_, increasing⟩
      rcases List.mem_cons.mp member with rfl | later
      · exact below
      · exact Trans.trans below (above entry later)
    · split
      · next before =>
        refine List.pairwise_cons.mpr ⟨fun entry member => ?_, ih increasingRest⟩
        rcases eq_or_mem_of_mem_insert member with rfl | later
        · exact before
        · exact above entry later
      · next notBelow notAbove =>
        have same : k = head.1 := Std.Trichotomous.trichotomous k head.1 notBelow notAbove
        exact List.pairwise_cons.mpr ⟨fun entry member => same ▸ above entry member, increasingRest⟩

omit [DecidableLT κ] in
/-- A key is bound once. -/
theorem Increasing.eq_of_mem [Std.Irrefl (α := κ) (· < ·)] {entries : List (κ × α)}
    (increasing : Increasing entries) {entry other : κ × α} (member : entry ∈ entries)
    (member' : other ∈ entries) (same : entry.1 = other.1) : entry = other := by
  induction entries with
  | nil => contradiction
  | cons head rest ih =>
    obtain ⟨above, increasingRest⟩ := List.pairwise_cons.mp increasing
    rcases List.mem_cons.mp member with rfl | later
    · rcases List.mem_cons.mp member' with rfl | later'
      · rfl
      · exact absurd (same ▸ above other later') (Std.Irrefl.irrefl _)
    · rcases List.mem_cons.mp member' with rfl | later'
      · exact absurd (same ▸ above entry later) (Std.Irrefl.irrefl _)
      · exact ih increasingRest later later'

/-- Binding a key replaces what it was bound to and nothing else. -/
theorem mem_insert_iff [Trans (α := κ) (· < ·) (· < ·) (· < ·)] [Std.Irrefl (α := κ) (· < ·)]
    [Std.Trichotomous (α := κ) (· < ·)] {k : κ} {v : α} {entries : List (κ × α)}
    (increasing : Increasing entries) {entry : κ × α} :
    entry ∈ insert k v entries ↔ entry = (k, v) ∨ entry ∈ entries ∧ entry.1 ≠ k := by
  constructor
  · intro member
    rcases eq_or_mem_of_mem_insert member with rfl | earlier
    · exact .inl rfl
    · by_cases same : entry.1 = k
      · exact .inl ((increasing_insert increasing).eq_of_mem member (mem_insert_self k v _) same)
      · exact .inr ⟨earlier, same⟩
  · rintro (rfl | ⟨member, other⟩)
    · exact mem_insert_self k v entries
    · exact mem_insert_of_ne other member

/-- A key above all others comes last. -/
theorem insert_of_above [Trans (α := κ) (· < ·) (· < ·) (· < ·)] [Std.Irrefl (α := κ) (· < ·)]
    {k : κ} {v : α} {entries : List (κ × α)} (above : ∀ entry ∈ entries, entry.1 < k) :
    insert k v entries = entries ++ [(k, v)] := by
  induction entries with
  | nil => rfl
  | cons head rest ih =>
    obtain ⟨below, aboveRest⟩ := List.forall_mem_cons.mp above
    have notAbove : ¬k < head.1 := fun before =>
      Std.Irrefl.irrefl (r := (· < ·)) k (Trans.trans before below)
    rw [insert, if_neg notAbove, if_pos below, ih aboveRest]
    rfl

/-- What the search finds is there, whatever the order. -/
theorem mem_of_find?_eq_some [Std.Trichotomous (α := κ) (· < ·)] {k : κ} {v : α}
    {entries : List (κ × α)} (found : find? k entries = some v) : (k, v) ∈ entries := by
  induction entries with
  | nil => contradiction
  | cons head rest ih =>
    simp only [find?] at found
    split at found
    · contradiction
    · next notBelow =>
      split at found
      · exact List.mem_cons_of_mem head (ih found)
      · next notAbove =>
        have same : k = head.1 := Std.Trichotomous.trichotomous k head.1 notBelow notAbove
        rw [same, ← Option.some.inj found]
        exact List.mem_cons_self

/-- On strictly increasing keys the search finds exactly the bindings that are there. -/
theorem find?_eq_some_iff [Trans (α := κ) (· < ·) (· < ·) (· < ·)] [Std.Irrefl (α := κ) (· < ·)]
    [Std.Trichotomous (α := κ) (· < ·)] {k : κ} {v : α} {entries : List (κ × α)}
    (increasing : Increasing entries) : find? k entries = some v ↔ (k, v) ∈ entries := by
  induction entries with
  | nil => simp [find?]
  | cons head rest ih =>
    obtain ⟨above, increasingRest⟩ := List.pairwise_cons.mp increasing
    simp only [find?]
    split
    · next below =>
      -- Everything in the list is above `k`, so the search may stop here.
      have absent : (k, v) ∉ head :: rest := by
        intro member
        rcases List.mem_cons.mp member with rfl | later
        · exact Std.Irrefl.irrefl k below
        · exact Std.Irrefl.irrefl k (Trans.trans below (above _ later))
      simp [absent]
    · next notBelow =>
      split
      · next before =>
        have different : (k, v) ≠ head := by
          rintro rfl
          exact Std.Irrefl.irrefl k before
        simp [ih increasingRest, different]
      · next notBefore =>
        obtain ⟨k', v'⟩ := head
        obtain rfl : k = k' := Std.Trichotomous.trichotomous k k' notBelow notBefore
        have elsewhere : (k, v) ∉ rest := fun later => Std.Irrefl.irrefl k (above _ later)
        simp [elsewhere, eq_comm]

theorem find?_insert_self [Trans (α := κ) (· < ·) (· < ·) (· < ·)] [Std.Irrefl (α := κ) (· < ·)]
    [Std.Trichotomous (α := κ) (· < ·)] {k : κ} {v : α} {entries : List (κ × α)}
    (increasing : Increasing entries) : find? k (insert k v entries) = some v :=
  (find?_eq_some_iff (increasing_insert increasing)).mpr (mem_insert_self k v entries)

theorem find?_insert_of_ne [Trans (α := κ) (· < ·) (· < ·) (· < ·)] [Std.Irrefl (α := κ) (· < ·)]
    [Std.Trichotomous (α := κ) (· < ·)] {k k' : κ} {v : α} {entries : List (κ × α)}
    (increasing : Increasing entries) (other : k' ≠ k) :
    find? k' (insert k v entries) = find? k' entries := by
  refine Option.ext fun w => ?_
  rw [find?_eq_some_iff (increasing_insert increasing), find?_eq_some_iff increasing,
    mem_insert_iff increasing]
  simp [other]

theorem erase_sublist (k : κ) (entries : List (κ × α)) : (erase k entries).Sublist entries := by
  induction entries with
  | nil => exact .slnil
  | cons head rest ih =>
    simp only [erase]
    split
    · exact .refl _
    · split
      · exact ih.cons_cons head
      · exact List.sublist_cons_self head rest

/-- Taking a binding out leaves the others. -/
theorem mem_erase_iff [Trans (α := κ) (· < ·) (· < ·) (· < ·)] [Std.Irrefl (α := κ) (· < ·)]
    [Std.Trichotomous (α := κ) (· < ·)] {k : κ} {entries : List (κ × α)}
    (increasing : Increasing entries) {entry : κ × α} :
    entry ∈ erase k entries ↔ entry ∈ entries ∧ entry.1 ≠ k := by
  induction entries with
  | nil => simp [erase]
  | cons head rest ih =>
    obtain ⟨above, increasingRest⟩ := List.pairwise_cons.mp increasing
    simp only [erase]
    split
    · next below =>
      -- Every key of the map is above `k`.
      refine ⟨fun member => ⟨member, ?_⟩, And.left⟩
      rintro rfl
      rcases List.mem_cons.mp member with rfl | later
      · exact Std.Irrefl.irrefl _ below
      · exact Std.Irrefl.irrefl _ (Trans.trans below (above entry later))
    · next notBelow =>
      split
      · next before =>
        have other : head.1 ≠ k := by
          rintro rfl
          exact Std.Irrefl.irrefl _ before
        simp only [List.mem_cons, ih increasingRest]
        constructor
        · rintro (rfl | ⟨later, differs⟩)
          · exact ⟨.inl rfl, other⟩
          · exact ⟨.inr later, differs⟩
        · rintro ⟨rfl | later, differs⟩
          · exact .inl rfl
          · exact .inr ⟨later, differs⟩
      · next notBefore =>
        have same : k = head.1 := Std.Trichotomous.trichotomous k head.1 notBelow notBefore
        subst same
        constructor
        · intro later
          refine ⟨List.mem_cons_of_mem _ later, fun equal => ?_⟩
          exact Std.Irrefl.irrefl _ (equal ▸ above entry later)
        · rintro ⟨member, differs⟩
          rcases List.mem_cons.mp member with rfl | later
          · contradiction
          · exact later

end Maps

/-! ## Sets

The operations on sets of keys in terms of membership, over a strict total order. -/

section Sets

variable [Trans (α := κ) (· < ·) (· < ·) (· < ·)] [Std.Irrefl (α := κ) (· < ·)]
  [Std.Trichotomous (α := κ) (· < ·)]

omit [Trans (α := κ) (· < ·) (· < ·) (· < ·)] [Std.Irrefl (α := κ) (· < ·)] in
theorem mem_add {k x : κ} {keys : List κ} : x ∈ add k keys ↔ x = k ∨ x ∈ keys := by
  induction keys with
  | nil => simp [add]
  | cons k' rest ih =>
    simp only [add]
    split
    · simp
    · next notBelow =>
      split
      · simp only [List.mem_cons, ih]
        exact or_left_comm
      · next notAbove =>
        have same : k = k' := Std.Trichotomous.trichotomous k k' notBelow notAbove
        simp [same]

omit [Std.Irrefl (α := κ) (· < ·)] in
/-- Adding a key keeps the keys strictly increasing. -/
theorem pairwise_add {k : κ} {keys : List κ} (increasing : keys.Pairwise (· < ·)) :
    (add k keys).Pairwise (· < ·) := by
  induction keys with
  | nil => simp [add]
  | cons k' rest ih =>
    obtain ⟨above, increasingRest⟩ := List.pairwise_cons.mp increasing
    simp only [add]
    split
    · next below =>
      refine List.pairwise_cons.mpr ⟨fun x member => ?_, increasing⟩
      rcases List.mem_cons.mp member with rfl | later
      · exact below
      · exact Trans.trans below (above x later)
    · split
      · next before =>
        refine List.pairwise_cons.mpr ⟨fun x member => ?_, ih increasingRest⟩
        rcases mem_add.mp member with rfl | later
        · exact before
        · exact above x later
      · exact increasing

/-- On strictly increasing keys the search finds exactly what is there. -/
theorem has_iff_mem {k : κ} {keys : List κ} (increasing : keys.Pairwise (· < ·)) :
    has k keys = true ↔ k ∈ keys := by
  induction keys with
  | nil => simp [has]
  | cons k' rest ih =>
    obtain ⟨above, increasingRest⟩ := List.pairwise_cons.mp increasing
    simp only [has]
    split
    · next below =>
      -- Everything in the list is above `k`, so the search may stop here.
      have absent : k ∉ k' :: rest := by
        intro member
        rcases List.mem_cons.mp member with rfl | later
        · exact Std.Irrefl.irrefl k below
        · exact Std.Irrefl.irrefl k (Trans.trans below (above k later))
      simp [absent]
    · next notBelow =>
      split
      · next before =>
        have different : k ≠ k' := by
          rintro rfl
          exact Std.Irrefl.irrefl k before
        simp [ih increasingRest, different]
      · next notBefore =>
        have same : k = k' := Std.Trichotomous.trichotomous k k' notBelow notBefore
        simp [same]

end Sets

end Tollgate.Sorted
