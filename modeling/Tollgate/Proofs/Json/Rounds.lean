import Tollgate.Proofs.Json.Progress

/-! # The bound on rounds does not matter

The loops that read JSON take a bound on their rounds.  A text is read in the same way under every
bound that is larger than its length, since what is left of it after each round is shorter than
before.
-/

namespace Tollgate.Json

theorem readOctets_eq {n m : Nat} {seen s : Octets} (enough : s.length < n)
    (enough' : s.length < m) : readOctets n seen s = readOctets m seen s := by
  induction n generalizing m seen s with
  | zero => contradiction
  | succ n ih =>
    cases m with
    | zero => contradiction
    | succ m =>
      cases s with
      | nil => rfl
      | cons b s =>
        simp only [List.length_cons, Nat.add_lt_add_iff_right] at enough enough'
        simp only [readOctets]
        split
        · rfl
        · split
          · split
            · rfl
            · next o s' escape =>
              have shorter := shortens_readEscape _ _ _ escape
              exact ih (Nat.lt_trans shorter enough) (Nat.lt_trans shorter enough')
          · split
            · rfl
            · exact ih enough enough'

theorem readText_eq {n m : Nat} {s : Octets} (enough : s.length < n) (enough' : s.length < m) :
    readText n s = readText m s := by
  unfold readText
  rw [readOctets_eq enough enough']

theorem readScalar_eq {n m : Nat} {s : Octets} (enough : s.length < n) (enough' : s.length < m) :
    readScalar n s = readScalar m s := by
  unfold readScalar
  split
  · rfl
  · next b rest start =>
    have within := length_lt_of_skipBlanks start
    rw [readText_eq (Nat.lt_trans within enough) (Nat.lt_trans within enough')]

theorem readJudged_eq {α : Type} {judge : Shape → Except Fault α} {n m : Nat} {s : Octets}
    (enough : s.length < n) (enough' : s.length < m) :
    readJudged judge n s = readJudged judge m s := by
  unfold readJudged
  rw [readScalar_eq enough enough']

section Loops

variable {α σ : Type}

/-- A loop over items under two bounds, with readers that agree on what is shorter than the
    text. -/
theorem elements_eq {item item' : Reader α} {limit : Nat}
    (agree : ∀ s, s.length < limit → item s = item' s) (shortens : Shortens item) {n m : Nat}
    {first : Bool} {seen : List α} {s : Octets} (within : s.length < limit)
    (enough : s.length < n) (enough' : s.length < m) :
    elements item n first seen s = elements item' m first seen s := by
  induction n generalizing m first seen s with
  | zero => contradiction
  | succ n ih =>
    cases m with
    | zero => contradiction
    | succ m =>
      simp only [elements]
      cases next : nextItem first s with
      | error fault => rfl
      | ok more =>
        cases more with
        | none => rfl
        | some s₁ =>
          have shorter := length_le_of_nextItem next
          simp only
          rw [← agree s₁ (by omega)]
          cases found : item s₁ with
          | error fault => rfl
          | ok more =>
            obtain ⟨a, s₂⟩ := more
            have further := shortens _ _ _ found
            exact ih (by omega) (by omega) (by omega)

theorem members_eq {member member' : σ → String → Reader σ} {limit : Nat}
    (agree : ∀ state name s, s.length < limit → member state name s = member' state name s)
    (shortens : ∀ state name, Shortens (member state name)) {n m : Nat} {first : Bool} {state : σ}
    {s : Octets} (within : s.length < limit) (enough : s.length < n) (enough' : s.length < m) :
    members member n first state s = members member' m first state s := by
  induction n generalizing m first state s with
  | zero => contradiction
  | succ n ih =>
    cases m with
    | zero => contradiction
    | succ m =>
      simp only [members]
      cases next : nextName first s with
      | error fault => rfl
      | ok more =>
        cases more with
        | none => rfl
        | some t =>
          have shorter := length_lt_of_nextName next
          have bounds : t.length < n + 1 ∧ t.length < m + 1 := by omega
          simp only
          -- The name is read with the rounds that are left, so those of the two loops differ.
          rw [readText_eq bounds.2 bounds.1]
          cases named : readText (n + 1) t with
          | error fault => rfl
          | ok more =>
            obtain ⟨name, u⟩ := more
            have shorter' := shortens_readText _ _ _ _ named
            simp only
            cases colon : readColon u with
            | error fault => rfl
            | ok v =>
              have shorter'' := length_lt_of_readColon colon
              simp only
              rw [← agree state name v (by omega)]
              cases found : member state name v with
              | error fault => rfl
              | ok more =>
                obtain ⟨state', w⟩ := more
                have further := shortens _ _ _ _ _ found
                exact ih (by omega) (by omega) (by omega)

end Loops

theorem readValue_eq {n m levels : Nat} {s : Octets} (enough : s.length < n)
    (enough' : s.length < m) : readValue n levels s = readValue m levels s := by
  induction levels generalizing s with
  | zero => rfl
  | succ levels ih =>
    -- One level down the text is shorter, and the rounds are enough for it.
    have agree : ∀ t, t.length < s.length → readValue n levels t = readValue m levels t :=
      fun t shorter => ih (Nat.lt_trans shorter enough) (Nat.lt_trans shorter enough')
    obtain ⟨t, opened⟩ | ⟨t, opened⟩ | ⟨noList, noObject⟩ := readValue_cases s
    · have within := length_lt_of_skipBlanks opened
      rw [readValue_of_list n levels opened, readValue_of_list m levels opened,
        elements_eq agree (shortens_readValue n levels) within (Nat.lt_trans within enough)
          (Nat.lt_trans within enough')]
    · have within := length_lt_of_skipBlanks opened
      have agree' : ∀ seen name t, t.length < s.length →
          readNamed n levels seen name t = readNamed m levels seen name t := by
        intro seen name t shorter
        unfold readNamed
        rw [agree t shorter]
      rw [readValue_of_object n levels opened, readValue_of_object m levels opened,
        members_eq agree' (shortens_readNamed (shortens_readValue n levels)) within
          (Nat.lt_trans within enough) (Nat.lt_trans within enough')]
    · rw [readValue_of_scalar n levels noList noObject,
        readValue_of_scalar m levels noList noObject, readScalar_eq enough enough']

/-! ## Readers made of readers -/

/-- Two readers do the same with every text that is shorter than a limit. -/
def AgreeBelow {α : Type} (limit : Nat) (reader reader' : Reader α) : Prop :=
  ∀ s, s.length < limit → reader s = reader' s

section Combinators

variable {α β σ : Type} {limit n m : Nat} {reader reader' : Reader α}

theorem agreeBelow_readJudged (judge : Shape → Except Fault α) :
    AgreeBelow (min n m) (readJudged judge n) (readJudged judge m) :=
  fun _ within => readJudged_eq (Nat.lt_of_lt_of_le within (Nat.min_le_left n m))
    (Nat.lt_of_lt_of_le within (Nat.min_le_right n m))

theorem agreeBelow_readValue (levels : Nat) :
    AgreeBelow (min n m) (readValue n levels) (readValue m levels) :=
  fun _ within => readValue_eq (Nat.lt_of_lt_of_le within (Nat.min_le_left n m))
    (Nat.lt_of_lt_of_le within (Nat.min_le_right n m))

theorem AgreeBelow.into (agree : AgreeBelow limit reader reader') (put : α → σ) :
    AgreeBelow limit (Json.into put reader) (Json.into put reader') := by
  intro s within
  unfold Json.into
  rw [agree s within]

theorem AgreeBelow.unlessSeen (agree : AgreeBelow limit reader reader') (seen : Option β)
    (name : String) :
    AgreeBelow limit (Json.unlessSeen seen name reader) (Json.unlessSeen seen name reader') := by
  intro s within
  unfold Json.unlessSeen
  rw [agree s within]

theorem AgreeBelow.readOptional (agree : AgreeBelow limit reader reader') :
    AgreeBelow limit (Json.readOptional reader) (Json.readOptional reader') := by
  intro s within
  unfold Json.readOptional
  split
  · rfl
  · next b t start =>
    have blanks := length_skipBlanks_le s
    rw [start] at blanks
    rw [agree (b :: t) (Nat.lt_of_le_of_lt blanks within)]

end Combinators

/-! ## Coming to a member -/

section Meets

variable {σ : Type} {member : Nat → σ → String → Reader σ}

/-- Reading an object member by member, the reader comes to one of a name: the state it is in by
    then, and the text from the value of that member on. -/
inductive Meets (member : Nat → σ → String → Reader σ) (name : String) :
    Bool → σ → Octets → σ → Octets → Prop
  | here {first : Bool} {state : σ} {s t u v : Octets} (next : nextName first s = .ok (some t))
      (named : readText (t.length + 1) t = .ok (name, u)) (colon : readColon u = .ok v) :
      Meets member name first state s state v
  | later {first : Bool} {state state' last : σ} {s t u v w rest : Octets} {other : String}
      (next : nextName first s = .ok (some t))
      (named : readText (t.length + 1) t = .ok (other, u)) (colon : readColon u = .ok v)
      (passed : member (v.length + 1) state other v = .ok (state', w))
      (meets : Meets member name false state' w last rest) :
      Meets member name first state s last rest

/-- What the loop does from there on. -/
theorem members_of_meets
    (agree : ∀ n m state name, AgreeBelow (min n m) (member n state name) (member m state name))
    (shortens : ∀ n state name, Shortens (member n state name)) {name : String} {first : Bool}
    {state last : σ} {s rest : Octets} (meets : Meets member name first state s last rest)
    {n k : Nat} (enough : s.length < n) (enough' : s.length < k) :
    ∃ k', rest.length < k' ∧ rest.length < n ∧ members (member n) k first state s =
      match member n last name rest with
      | .error fault => .error fault
      | .ok (state', w) => members (member n) k' false state' w := by
  induction meets generalizing k with
  | @here first state s t u v next named colon =>
    cases k with
    | zero => contradiction
    | succ k =>
      have first' := length_lt_of_nextName next
      have second := shortens_readText _ _ _ _ named
      have third := length_lt_of_readColon colon
      rw [readText_eq (m := k + 1) (Nat.lt_succ_self _) (by omega)] at named
      exact ⟨k, by omega, by omega, members_succ next named colon⟩
  | @later first state state' last s t u v w rest other next named colon passed meets ih =>
    cases k with
    | zero => contradiction
    | succ k =>
      have first' := length_lt_of_nextName next
      have second := shortens_readText _ _ _ _ named
      have third := length_lt_of_readColon colon
      have fourth := shortens _ _ _ _ _ _ passed
      rw [readText_eq (m := k + 1) (Nat.lt_succ_self _) (by omega)] at named
      rw [agree (v.length + 1) n state other v (by omega)] at passed
      obtain ⟨k', further, within, same⟩ := ih (k := k) (by omega) (by omega)
      refine ⟨k', further, within, ?_⟩
      rw [members_succ next named colon, passed]
      exact same

end Meets

end Tollgate.Json
