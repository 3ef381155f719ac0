import Tollgate.Proofs.Json.Loops

/-! # Values are read as they were written

A value that was read keeps to the limits of the reader (`within_of_readValue`): integers have 64
bits, the members of an object are in the order of their names, and nesting ends where the levels
do.  A value within these limits is read as it was written, unless a floating-point number stands in
it somewhere (`reads_render`).

Both go by induction on the levels.  Objects are filled member by member, and each new name is above
those before it (`fills_insert`), so that the order in which the members were written is the order
in which they are kept.
-/

namespace Tollgate.Json

/-! ## Limits -/

namespace Value

/-- A value that may stand where so many levels of nesting are left. -/
def Within : Nat → Value → Prop
  | 0, _ => False
  | _ + 1, .number (.int z) => -twoTo 63 ≤ z ∧ z < twoTo 64
  -- A list or an object takes a level for itself and needs one for what it holds.
  | levels + 1, .list items => levels ≠ 0 ∧ ∀ v ∈ items, v.Within levels
  | levels + 1, .object members =>
    levels ≠ 0 ∧ Sorted.Increasing members ∧ ∀ m ∈ members, m.2.Within levels
  | _ + 1, _ => True

def MembersWithin (levels : Nat) (members : List (String × Value)) : Prop :=
  Sorted.Increasing members ∧ ∀ m ∈ members, m.2.Within levels

inductive HoldsFloat : Value → Prop
  | number {x : Binary64} : HoldsFloat (.number (.float x))
  | item {items : List Value} {v : Value} (among : v ∈ items) (holds : v.HoldsFloat) :
      HoldsFloat (.list items)
  | member {members : List (String × Value)} {m : String × Value} (among : m ∈ members)
      (holds : m.2.HoldsFloat) : HoldsFloat (.object members)

theorem holdsFloat_list_iff {items : List Value} :
    (list items).HoldsFloat ↔ ∃ v ∈ items, v.HoldsFloat := by
  constructor
  · rintro ⟨⟩
    exact ⟨_, ‹_›, ‹_›⟩
  · rintro ⟨v, among, holds⟩
    exact .item among holds

theorem holdsFloat_object_iff {members : List (String × Value)} :
    (object members).HoldsFloat ↔ ∃ m ∈ members, m.2.HoldsFloat := by
  constructor
  · rintro ⟨⟩
    exact ⟨_, ‹_›, ‹_›⟩
  · rintro ⟨m, among, holds⟩
    exact .member among holds

end Value

theorem fitDigits_lt {significand : Nat} (digits : List Nat) (below : significand < twoTo 64) :
    (fitDigits significand digits).1 < twoTo 64 := by
  induction digits generalizing significand with
  | nil => exact below
  | cons d digits ih =>
    rw [fitDigits]
    split
    · next fits => exact ih fits
    · exact below

theorem bounds_of_value? {n : Numeral} {z : Int} (valued : n.value? = some (.int z)) :
    -twoTo 63 ≤ z ∧ z < twoTo 64 := by
  have head := fitDigits_lt n.whole (show 0 < twoTo 64 by decide)
  have limit : (twoTo 63 : Int) = 9223372036854775808 := by decide
  have limit' : (twoTo 64 : Int) = 18446744073709551616 := by decide
  unfold Numeral.value? at valued
  simp only at valued
  split at valued
  · next fits =>
    simp only [Option.some.injEq, Number.int.injEq] at valued
    simp only [Bool.and_eq_true, Bool.not_eq_true', Bool.and_eq_false_iff, Bool.or_eq_false_iff,
      decide_eq_false_iff_not] at fits
    split at valued
    · next negative =>
      -- After a minus sign the digits are at most the smallest integer.
      have small : ¬twoTo 63 < (fitDigits 0 n.whole).1 := by
        rcases fits.2 with unsigned | fitting
        · rw [negative] at unsigned
          contradiction
        · exact fitting.2
      omega
    · omega
  · simp only [Option.map_eq_some_iff, reduceCtorEq, and_false, exists_false] at valued

theorem exists_readNumber_of_readScalar {n : Nat} {s rest : Octets} {x : Number}
    (read : readScalar n s = .ok (.number x, rest)) : ∃ t, readNumber t = .ok (x, rest) := by
  unfold readScalar readConstant at read
  grind

theorem bounds_of_readScalar {n : Nat} {s rest : Octets} {z : Int}
    (read : readScalar n s = .ok (.number (.int z), rest)) : -twoTo 63 ≤ z ∧ z < twoTo 64 := by
  obtain ⟨t, number⟩ := exists_readNumber_of_readScalar read
  unfold readNumber at number
  split at number
  · contradiction
  · split at number
    · next valued =>
      cases number
      exact bounds_of_value? valued
    · contradiction

theorem readNamed_eq_into (n levels : Nat) (seen : List (String × Value)) (name : String) :
    readNamed n levels seen name =
      into (fun v => Sorted.insert name v seen) (readValue n levels) := by
  funext s
  unfold readNamed into
  cases readValue n levels s <;> rfl

theorem membersWithin_of_readNamed {n levels : Nat} {seen seen' : List (String × Value)}
    {name : String} {s rest : Octets}
    (each : ∀ {v : Value}, readValue n levels s = .ok (v, rest) → v.Within levels)
    (before : Value.MembersWithin levels seen)
    (read : readNamed n levels seen name s = .ok (seen', rest)) :
    Value.MembersWithin levels seen' := by
  rw [readNamed_eq_into] at read
  obtain ⟨v, value, rfl⟩ := into_eq_ok_iff.mp read
  exact ⟨Sorted.increasing_insert before.1, Sorted.forall_mem_insert (each value) before.2⟩

theorem within_of_readValue {n levels : Nat} {s rest : Octets} {v : Value}
    (read : readValue n levels s = .ok (v, rest)) : v.Within levels := by
  induction levels generalizing s rest v with
  | zero => contradiction
  | succ levels ih =>
    obtain ⟨t, opened⟩ | ⟨t, opened⟩ | ⟨noList, noObject⟩ := readValue_cases s
    · rw [readValue_of_list n levels opened] at read
      split at read
      · contradiction
      · next nested =>
        split at read
        · next items rest' found =>
          cases read
          exact ⟨nested, forall_of_elements (fun _ _ _ item => ih item) found nofun⟩
        · contradiction
    · rw [readValue_of_object n levels opened] at read
      split at read
      · contradiction
      · next nested =>
        split at read
        · next kept rest' found =>
          cases read
          have kept := members_keep (fun _ _ _ _ _ before member =>
            membersWithin_of_readNamed (fun value => ih value) before member) found ⟨.nil, nofun⟩
          exact ⟨nested, kept⟩
        · contradiction
    · rw [readValue_of_scalar n levels noList noObject] at read
      split at read
      · next shape rest' scalar =>
        cases read
        cases shape with
        | null | bool | text => trivial
        | number x =>
          cases x with
          | int z => exact bounds_of_readScalar scalar
          | float x => trivial
        | sequence | map => grind [readScalar_cases scalar]
      · contradiction

/-! ## Writing -/

theorem renderEach_eq (items : List Value) : renderEach items = items.map Value.render := by
  induction items with
  | nil => rfl
  | cons v items ih => rw [renderEach, ih, List.map_cons]

theorem renderNamed_eq (entries : List (String × Value)) :
    renderNamed entries = entries.map fun e => (e.1, e.2.render) := by
  induction entries with
  | nil => rfl
  | cons entry rest ih =>
    obtain ⟨name, value⟩ := entry
    rw [renderNamed, ih, renderMemberValue, List.map_cons]

/-- A scalar stays one where any value may stand. -/
theorem Reads.value {v : Octets} {shape : Shape} (scalar : Reads readScalar v shape)
    (noList : shape ≠ .sequence) (noObject : shape ≠ .map) (levels : Nat) :
    Reads (fun n => readValue n (levels + 1)) v shape.value := by
  intro n y enough stops
  have read := scalar n y enough stops
  obtain ⟨t, opened⟩ | ⟨t, opened⟩ | ⟨noList', noObject'⟩ := readValue_cases (v ++ y)
  · have list : readScalar n (v ++ y) = .ok (.sequence, 91 :: t) := by
      rw [readScalar, opened]
      rfl
    rw [list] at read
    cases read
    contradiction
  · have object : readScalar n (v ++ y) = .ok (.map, 123 :: t) := by
      rw [readScalar, opened]
      rfl
    rw [object] at read
    cases read
    contradiction
  · show readValue n (levels + 1) (v ++ y) = _
    rw [readValue_of_scalar n levels noList' noObject', read]

theorem Reads.list {levels : Nat} {texts : List Octets} {items : List Value} (nested : levels ≠ 0)
    (reads : Reads (fun n => readList (readValue n levels) n) (renderItems texts) items) :
    Reads (fun n => readValue n (levels + 1)) (renderItems texts) (.list items) := by
  intro n y enough stops
  have read : readList (readValue n levels) n (renderItems texts ++ y) = .ok (items, y) :=
    reads n y enough stops
  have opened : skipBlanks (renderItems texts ++ y) = 91 :: (commaSeparated texts ++ [93] ++ y) :=
    rfl
  rw [readList_of_list n opened] at read
  show readValue n (levels + 1) _ = _
  rw [readValue_of_list n levels opened, if_neg nested, read]

theorem Reads.object {levels : Nat} {parts kept : List (String × Value)} (nested : levels ≠ 0)
    (fills : Fills (fun n => readNamed n levels) [] (renderNamed parts) kept) :
    Reads (fun n => readValue n (levels + 1)) (renderMembers (renderNamed parts))
      (.object kept) := by
  intro n y enough stops
  have read : members (readNamed n levels) n true [] _ = .ok (kept, y) :=
    fills.reads n y (Nat.lt_of_succ_lt enough) stops
  have opened : skipBlanks (renderMembers (renderNamed parts) ++ y) = 123 ::
      (commaSeparated ((renderNamed parts).map fun m => renderMember m.1 m.2) ++ [125] ++ y) := rfl
  show readValue n (levels + 1) _ = _
  rw [readValue_of_object n levels opened, if_neg nested, read]

theorem isItem_render {v : Value} (exact : ¬v.HoldsFloat) : IsItem v.render := by
  cases v with
  | null => exact ⟨110, _, rfl, rfl, by decide⟩
  | bool b => cases b <;> exact ⟨_, _, rfl, rfl, by decide⟩
  | number x =>
    cases x with
    | float x => exact absurd .number exact
    | int z =>
      obtain ⟨b, s, written, mark⟩ := exists_renderInt_eq z
      refine ⟨b, s, written, isBlank_of_mark mark, ?_⟩
      rintro rfl
      contradiction
  | text t => exact ⟨34, _, rfl, rfl, by decide⟩
  | list items => exact ⟨91, _, rfl, rfl, by decide⟩
  | object members => exact ⟨123, _, rfl, rfl, by decide⟩

/-- Values are kept in the order in which they were written, as each name is above those before. -/
theorem fills_insert {σ : Type} {member : Nat → σ → String → Reader σ}
    (put : List (String × Value) → σ) (done : List (String × Value))
    {entries : List (String × Value)}
    (reads : ∀ entry ∈ entries, ∀ seen, Reads (fun n => member n (put seen) entry.1)
      entry.2.render (put (Sorted.insert entry.1 entry.2 seen)))
    (increasing : Sorted.Increasing (done ++ entries)) :
    Fills member (put done) (renderNamed entries) (put (done ++ entries)) := by
  induction entries generalizing done with
  | nil =>
    rw [List.append_nil]
    exact .nil
  | cons entry entries ih =>
    obtain ⟨name, v⟩ := entry
    obtain ⟨first, later⟩ := List.forall_mem_cons.mp reads
    have above : ∀ earlier ∈ done, earlier.1 < name := fun earlier among =>
      (List.pairwise_append.mp increasing).2.2 earlier among _ List.mem_cons_self
    have read := first done
    rw [Sorted.insert_of_above above] at read
    rw [List.append_cons] at increasing ⊢
    exact .cons read (ih _ later increasing)

/-- A value without floating-point numbers is read as it was written. -/
theorem reads_render {levels : Nat} {v : Value} (within : v.Within levels)
    (exact : ¬v.HoldsFloat) : Reads (fun n => readValue n levels) v.render v := by
  induction levels generalizing v with
  | zero => exact absurd within id
  | succ levels ih =>
    cases v with
    | null => exact reads_nullWord.value nofun nofun levels
    | bool b => exact (reads_renderBool b).value nofun nofun levels
    | number x =>
      cases x with
      | float x => exact absurd .number exact
      | int z => exact (reads_renderInt within.1 within.2).value nofun nofun levels
    | text t => exact (reads_renderText t).value nofun nofun levels
    | list items =>
      obtain ⟨nested, each⟩ := within
      have exactly : ∀ v ∈ items, ¬v.HoldsFloat := by
        simpa [Value.holdsFloat_list_iff] using exact
      rw [Value.render, renderEach_eq]
      exact (reads_renderItems (fun v among => ih (each v among) (exactly v among))
        fun v among => isItem_render (exactly v among)).list nested
    | object members =>
      obtain ⟨nested, increasing, each⟩ := within
      have exactly : ∀ m ∈ members, ¬m.2.HoldsFloat := by
        simpa [Value.holdsFloat_object_iff] using exact
      rw [Value.render]
      -- The members are written in the order in which they were kept.
      refine .object nested (fills_insert id [] ?_ increasing)
      intro m among seen
      simp only [id, readNamed_eq_into]
      exact (ih (each m among) (exactly m among)).into

end Tollgate.Json
