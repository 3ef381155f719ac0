import Tollgate.Proofs.Json.RoundTrip

/-! # What a loop has read

The readers of lists and of objects are loops.  What one round keeps, the whole loop keeps
(`forall_of_elements`, `members_keep`), so that a property of everything that a reader answers is
proved for one item or one member.  A record that was read is one or the other (`of_readRecord`), and
what may be `null` has the property where it is not (`forall_of_readOptional`).

`Lists` says which texts stand in a list, whatever blanks are between them, and `Comes` that the loop
over an object comes to the value of a member.  A list is read only if each of the texts in it is
(`of_elements_of_lists`).
-/

namespace Tollgate.Json

variable {α σ : Type}

/-! ## Invariants -/

theorem forall_of_elements {item : Reader α} {P : α → Prop}
    (each : ∀ s a rest, item s = .ok (a, rest) → P a) {n : Nat} {first : Bool} {seen items : List α}
    {s rest : Octets} (read : elements item n first seen s = .ok (items, rest))
    (before : ∀ a ∈ seen, P a) : ∀ a ∈ items, P a := by
  fun_induction elements with
  | case1 | case2 | case4 | case5 => contradiction
  | case3 =>
    cases read
    exact fun a member => before a (List.mem_reverse.mp member)
  | case6 _ _ _ _ _ _ _ _ found ih =>
    exact ih read (List.forall_mem_cons.mpr ⟨each _ _ _ found, before⟩)

theorem members_keep {member : σ → String → Reader σ} {P : σ → Prop}
    (keeps : ∀ state name s state' rest, P state → member state name s = .ok (state', rest) →
      P state') {n : Nat} {first : Bool} {state last : σ} {s rest : Octets}
    (read : members member n first state s = .ok (last, rest)) (before : P state) : P last := by
  fun_induction members with
  | case3 =>
    cases read
    exact before
  | case7 _ _ _ _ _ _ _ _ _ _ _ _ _ found ih => exact ih read (keeps _ _ _ _ _ before found)
  | _ => contradiction

theorem forall_of_readOptional {reader : Reader α} {P : α → Prop}
    (each : ∀ s a rest, reader s = .ok (a, rest) → P a) {x : Option α} {s rest : Octets}
    (read : readOptional reader s = .ok (x, rest)) : ∀ a, x = some a → P a := by
  rintro a rfl
  obtain ⟨_, _, _, absent⟩ | ⟨_, _, _, found, same⟩ := readOptional_eq_ok_iff.mp read
  · contradiction
  · cases same
    exact each _ _ _ found

theorem eq_of_ignore {state state' : σ} {n : Nat} {s rest : Octets}
    (passed : ignore state n s = .ok (state', rest)) : state' = state := by
  unfold ignore at passed
  split at passed
  · cases passed
    rfl
  · contradiction

section Records

variable {wanted : String} {ofObject ofList : Reader α} {s t rest : Octets}

theorem readRecord_of_object (n : Nat) (opened : skipBlanks s = 123 :: t) :
    readRecord wanted ofObject ofList n s = ofObject t := by
  simp only [readRecord, readScalar, opened]
  rfl

theorem readRecord_of_list (n : Nat) (opened : skipBlanks s = 91 :: t) :
    readRecord wanted ofObject ofList n s =
      match ofList t with
      | .error fault => .error fault
      | .ok (a, u) =>
        match closeList u with
        | .ok u => .ok (a, u)
        | .error fault => .error fault := by
  simp only [readRecord, readScalar, opened]
  rfl

/-- A record that was read was written as an object or as a list. -/
theorem of_readRecord {n : Nat} {a : α}
    (read : readRecord wanted ofObject ofList n s = .ok (a, rest)) :
    ∃ t u, ofObject t = .ok (a, u) ∨ ofList t = .ok (a, u) := by
  unfold readRecord at read
  split at read
  · contradiction
  · exact ⟨_, _, .inl read⟩
  · split at read
    · contradiction
    · next found =>
      split at read
      · cases read
        exact ⟨_, _, .inr found⟩
      · contradiction
  · contradiction

end Records

/-! ## The texts in a list -/

theorem readList_of_list {item : Reader α} {s t : Octets} (n : Nat)
    (opened : skipBlanks s = 91 :: t) : readList item n s = elements item n true [] t := by
  simp only [readList, readScalar, opened]
  rfl

/-- From here on a list goes on with items of these texts, and then it ends. -/
inductive Lists : Bool → Octets → List Octets → Octets → Prop
  | close {first : Bool} {s rest : Octets} (next : nextItem first s = .ok none)
      (closed : closeList s = .ok rest) : Lists first s [] rest
  | item {first : Bool} {s v y rest : Octets} {texts : List Octets}
      (next : nextItem first s = .ok (some (v ++ y))) (text : IsText v) (stops : Stops y)
      (later : Lists false y texts rest) : Lists first s (v :: texts) rest

/-- A list with the texts, as it is written. -/
theorem lists_joined {texts : List Octets} (isItem : ∀ v ∈ texts, IsItem v)
    (isText : ∀ v ∈ texts, IsText v) (first : Bool) (y : Octets) :
    Lists first (joined first texts ++ 93 :: y) texts y := by
  induction texts generalizing first with
  | nil =>
    rw [joined_nil, List.nil_append]
    exact .close rfl rfl
  | cons v texts ih =>
    obtain ⟨item, laterItems⟩ := List.forall_mem_cons.mp isItem
    obtain ⟨text, laterTexts⟩ := List.forall_mem_cons.mp isText
    refine .item ?_ text (stops_joined (by decide)) (ih laterItems laterTexts false)
    rw [joined_cons, List.append_assoc, List.append_assoc, nextItem_separator item]

/-- If the list is read, each of the texts is, where what is read of a text in front of others is the
    text alone. -/
theorem of_elements_of_lists {item : Reader α} {P : Octets → α → Prop} (limit : Nat)
    (bounded : ∀ v y a w, IsText v → Stops y → (v ++ y).length < limit →
      item (v ++ y) = .ok (a, w) → w = y ∧ P v a)
    {first : Bool} {s rest : Octets} {texts : List Octets} (lists : Lists first s texts rest)
    (within : s.length < limit) {n : Nat} {seen items : List α} {w : Octets}
    (read : elements item n first seen s = .ok (items, w)) :
    ∀ v ∈ texts, ∃ a, P v a := by
  induction lists generalizing n seen with
  | close => exact fun v member => absurd member List.not_mem_nil
  | @item first s v y rest texts next text stops _ ih =>
    cases n with
    | zero => contradiction
    | succ n =>
      have shorter := length_le_of_nextItem next
      simp only [elements, next] at read
      cases found : item (v ++ y) with
      | error fault => simp [found] at read
      | ok more =>
        obtain ⟨a, w'⟩ := more
        -- The item reads exactly its text, so the loop goes on where the list goes on.
        obtain ⟨rfl, holds⟩ := bounded _ _ _ _ text stops (by omega) found
        simp only [found] at read
        refine List.forall_mem_cons.mpr ⟨⟨a, holds⟩, ih ?_ read⟩
        rw [List.length_append] at shorter
        omega

/-! ## The value of a member -/

/-- The loop over an object comes to the value of a member: the state it is in by then, and the text
    from that value on. -/
inductive Finds (member : σ → String → Reader σ) (name : String) :
    Nat → Bool → σ → Octets → σ → Octets → Prop
  | here {n : Nat} {first : Bool} {state : σ} {s t u v : Octets}
      (next : nextName first s = .ok (some t)) (named : readText (n + 1) t = .ok (name, u))
      (colon : readColon u = .ok v) : Finds member name (n + 1) first state s state v
  | later {n : Nat} {first : Bool} {state state' last : σ} {s t u v w rest : Octets}
      {other : String} (next : nextName first s = .ok (some t))
      (named : readText (n + 1) t = .ok (other, u)) (colon : readColon u = .ok v)
      (passed : member state other v = .ok (state', w))
      (finds : Finds member name n false state' w last rest) :
      Finds member name (n + 1) first state s last rest

/-- If the object is read, the member is. -/
theorem of_members_of_finds {member : σ → String → Reader σ} {name : String} {n : Nat}
    {first : Bool} {state last final : σ} {s rest w : Octets}
    (finds : Finds member name n first state s last rest)
    (read : members member n first state s = .ok (final, w)) :
    ∃ state' w', member last name rest = .ok (state', w') := by
  induction finds with
  | here next named colon =>
    rw [members_succ next named colon] at read
    split at read
    · contradiction
    · next found => exact ⟨_, _, found⟩
  | later next named colon passed _ ih =>
    rw [members_succ next named colon, passed] at read
    exact ih read

end Tollgate.Json
