import Tollgate.Json.Field

/-! # Readers use up their text

What a reader leaves of a text is shorter than the text.  The leaf readers are looked at one by one;
a loop over items or members inherits the property from the reader of what it holds, and values have
it by induction on the levels of nesting.

A value either begins an enclosure or is the scalar that `readScalar` reads as well
(`readValue_of_scalar`), so that what holds of scalars is proved once.
-/

namespace Tollgate.Json

/-- What the reader leaves is shorter than what it got. -/
def Shortens {α : Type} (reader : Reader α) : Prop :=
  ∀ s a rest, reader s = .ok (a, rest) → rest.length < s.length

/-! ## What is left -/

theorem length_skipBlanks_le (s : Octets) : (skipBlanks s).length ≤ s.length :=
  (List.dropWhile_sublist _).length_le

theorem length_afterDigits_le (s : Octets) : (afterDigits s).length ≤ s.length :=
  (List.dropWhile_sublist _).length_le

theorem length_lt_of_skipBlanks {s rest : Octets} {b : UInt8} (start : skipBlanks s = b :: rest) :
    rest.length < s.length := by
  have within := length_skipBlanks_le s
  rw [start, List.length_cons] at within
  exact within

theorem length_le_of_readWord {expected s rest : Octets} (read : readWord expected s = .ok rest) :
    rest.length ≤ s.length := by
  induction expected generalizing s with
  | nil =>
    cases read
    exact Nat.le_refl _
  | cons e expected ih =>
    cases s with
    | nil => contradiction
    | cons b s =>
      unfold readWord at read
      split at read
      · exact Nat.le_succ_of_le (ih read)
      · contradiction

theorem length_lt_of_readUnit {s rest : Octets} {unit : Nat}
    (read : readUnit s = .ok (unit, rest)) : rest.length < s.length := by
  unfold readUnit at read
  split at read
  · split at read
    · cases read
      simp only [List.length_cons]
      omega
    · contradiction
  · contradiction

theorem shortens_readLowSurrogate (high : Nat) : Shortens (readLowSurrogate high) := by
  intro s c rest read
  unfold readLowSurrogate at read
  split at read
  · contradiction
  · contradiction
  · next b u s =>
    split at read
    · contradiction
    · cases unit : readUnit s with
      | error fault => simp [unit] at read
      | ok found =>
        have shorter := length_lt_of_readUnit unit
        simp only [unit] at read
        split at read
        · contradiction
        · simp only [Except.ok.injEq, Prod.mk.injEq] at read
          obtain ⟨_, rfl⟩ := read
          simp only [List.length_cons]
          omega

theorem shortens_readCodePoint : Shortens readCodePoint := by
  intro s c rest read
  unfold readCodePoint at read
  cases unit : readUnit s with
  | error fault => simp [unit] at read
  | ok found =>
    have shorter := length_lt_of_readUnit unit
    simp only [unit] at read
    split at read
    · contradiction
    · split at read
      · simp only [Except.ok.injEq, Prod.mk.injEq] at read
        obtain ⟨_, rfl⟩ := read
        exact shorter
      · exact Nat.lt_trans (shortens_readLowSurrogate _ _ _ _ read) shorter

theorem shortens_readEscape : Shortens readEscape := by
  intro s o rest read
  unfold readEscape at read
  split at read
  · contradiction
  · next b s =>
    split at read
    · cases read
      exact Nat.lt_succ_self _
    · split at read
      · split at read
        · next c s' point =>
          cases read
          exact Nat.lt_succ_of_lt (shortens_readCodePoint _ _ _ point)
        · contradiction
      · contradiction

theorem shortens_readOctets (rounds : Nat) (seen : Octets) : Shortens (readOctets rounds seen) := by
  intro s o rest read
  induction rounds generalizing seen s with
  | zero => contradiction
  | succ rounds ih =>
    cases s with
    | nil => contradiction
    | cons b s =>
      unfold readOctets at read
      split at read
      · cases read
        exact Nat.lt_succ_self _
      · split at read
        · split at read
          · contradiction
          · next o s' escape =>
            have shorter := shortens_readEscape _ _ _ escape
            exact Nat.lt_succ_of_lt (Nat.lt_trans (ih _ _ read) shorter)
        · split at read
          · contradiction
          · exact Nat.lt_succ_of_lt (ih _ _ read)

theorem shortens_readText (rounds : Nat) : Shortens (readText rounds) := by
  intro s t rest read
  unfold readText at read
  cases octets : readOctets rounds [] s with
  | error fault => simp [octets] at read
  | ok found =>
    simp only [octets] at read
    split at read
    · cases read
      exact shortens_readOctets _ _ _ _ _ octets
    · contradiction

theorem length_lt_of_readDigits {s rest : Octets} {digits : List Nat}
    (read : readDigits s = .ok (digits, rest)) : rest.length < s.length := by
  unfold readDigits at read
  split at read
  · contradiction
  · next b s =>
    split at read
    · next digit =>
      cases read
      rw [afterDigits, List.dropWhile_cons_of_pos digit]
      exact Nat.lt_succ_of_le (length_afterDigits_le s)
    · contradiction

theorem length_lt_of_readWhole {s rest : Octets} {digits : List Nat}
    (read : readWhole s = .ok (digits, rest)) : rest.length < s.length := by
  unfold readWhole at read
  split at read
  · contradiction
  · exact length_lt_of_readDigits read

theorem length_le_of_readFraction {s rest : Octets} {digits : Option (List Nat)}
    (read : readFraction s = .ok (digits, rest)) : rest.length ≤ s.length := by
  unfold readFraction at read
  split at read
  · next s =>
    split at read
    · next digits' s' found =>
      cases read
      exact Nat.le_succ_of_le (Nat.le_of_lt (length_lt_of_readDigits found))
    · contradiction
  · cases read
    exact Nat.le_refl _

theorem length_le_of_readPower {s rest : Octets} {power : Int}
    (read : readPower s = .ok (power, rest)) : rest.length ≤ s.length := by
  unfold readPower at read
  split at read <;> split at read
  · next digits s' found =>
    cases read
    exact Nat.le_succ_of_le (Nat.le_of_lt (length_lt_of_readDigits found))
  · contradiction
  · next digits s' found =>
    cases read
    exact Nat.le_succ_of_le (Nat.le_of_lt (length_lt_of_readDigits found))
  · contradiction
  · next digits s' found =>
    cases read
    exact Nat.le_of_lt (length_lt_of_readDigits found)
  · contradiction

theorem length_le_of_readPower? {s rest : Octets} {power : Option Int}
    (read : readPower? s = .ok (power, rest)) : rest.length ≤ s.length := by
  unfold readPower? at read
  split at read
  · next b s =>
    split at read
    · split at read
      · next power' s' found =>
        cases read
        exact Nat.le_succ_of_le (length_le_of_readPower found)
      · contradiction
    · cases read
      exact Nat.le_refl _
  · cases read
    exact Nat.le_refl _

theorem shortens_readUnsigned (negative : Bool) : Shortens (readUnsigned negative) := by
  intro s n rest read
  unfold readUnsigned at read
  cases whole : readWhole s with
  | error fault => simp [whole] at read
  | ok found =>
    obtain ⟨digits, s₁⟩ := found
    simp only [whole] at read
    cases fraction : readFraction s₁ with
    | error fault => simp [fraction] at read
    | ok found =>
      obtain ⟨digits, s₂⟩ := found
      simp only [fraction] at read
      cases power : readPower? s₂ with
      | error fault => simp [power] at read
      | ok found =>
        obtain ⟨power', s₃⟩ := found
        simp only [power] at read
        cases read
        have first := length_lt_of_readWhole whole
        have second := length_le_of_readFraction fraction
        have third := length_le_of_readPower? power
        omega

theorem shortens_readNumber : Shortens readNumber := by
  intro s n rest read
  unfold readNumber at read
  cases numeral : readNumeral s with
  | error fault => simp [numeral] at read
  | ok found =>
    simp only [numeral] at read
    split at read
    · cases read
      unfold readNumeral at numeral
      split at numeral
      · exact Nat.lt_succ_of_lt (shortens_readUnsigned _ _ _ _ numeral)
      · exact shortens_readUnsigned _ _ _ _ numeral
    · contradiction

/-! ## What is left of lists and objects -/

theorem length_lt_of_closeList {s rest : Octets} (closed : closeList s = .ok rest) :
    rest.length < s.length := by
  unfold closeList at closed
  split at closed
  · contradiction
  · next b rest' start =>
    split at closed
    · cases closed
      exact length_lt_of_skipBlanks start
    · contradiction

theorem length_le_of_nextItem {first : Bool} {s rest : Octets}
    (next : nextItem first s = .ok (some rest)) : rest.length ≤ s.length := by
  unfold nextItem at next
  split at next
  · contradiction
  · next b rest' start =>
    have within := length_lt_of_skipBlanks start
    split at next
    · cases next
    · split at next
      · cases next
        exact within
      · split at next
        · split at next
          · cases next
          · next c rest'' start' =>
            have further := length_lt_of_skipBlanks start'
            split at next
            · cases next
            · cases next
              simp only [List.length_cons]
              omega
        · contradiction

theorem length_lt_of_nextName {first : Bool} {s rest : Octets}
    (next : nextName first s = .ok (some rest)) : rest.length < s.length := by
  unfold nextName at next
  split at next
  · contradiction
  · next b rest' start =>
    have within := length_lt_of_skipBlanks start
    split at next
    · cases next
    · split at next
      · split at next
        · cases next
          exact within
        · contradiction
      · split at next
        · split at next
          · contradiction
          · next c rest'' start' =>
            have further := length_lt_of_skipBlanks start'
            split at next
            · cases next
              omega
            · contradiction
        · contradiction

theorem length_afterBrace_lt {first : Bool} {s : Octets} (next : nextName first s = .ok none) :
    (afterBrace s).length < s.length := by
  unfold nextName at next
  unfold afterBrace
  split at next
  · contradiction
  · next b rest start =>
    rw [start]
    exact length_lt_of_skipBlanks start

theorem length_lt_of_readColon {s rest : Octets} (read : readColon s = .ok rest) :
    rest.length < s.length := by
  unfold readColon at read
  split at read
  · contradiction
  · next b rest' start =>
    split at read
    · cases read
      exact length_lt_of_skipBlanks start
    · contradiction

section Loops

variable {α σ : Type}

theorem shortens_elements {item : Reader α} (shortens : Shortens item) (rounds : Nat)
    (first : Bool) (seen : List α) : Shortens (elements item rounds first seen) := by
  intro s items rest read
  induction rounds generalizing first seen s with
  | zero => contradiction
  | succ rounds ih =>
    unfold elements at read
    cases next : nextItem first s with
    | error fault => simp [next] at read
    | ok more =>
      cases more with
      | none =>
        simp only [next] at read
        cases closed : closeList s with
        | error fault => simp [closed] at read
        | ok s' =>
          simp only [closed] at read
          cases read
          exact length_lt_of_closeList closed
      | some s₁ =>
        simp only [next] at read
        cases found : item s₁ with
        | error fault => simp [found] at read
        | ok more =>
          simp only [found] at read
          have first' := length_le_of_nextItem next
          have second := shortens _ _ _ found
          have third := ih _ _ _ read
          omega

/-- One round of an object that goes on. -/
theorem members_succ {member : σ → String → Reader σ} {rounds : Nat} {first : Bool} {state : σ}
    {s t u v : Octets} {name : String} (next : nextName first s = .ok (some t))
    (named : readText (rounds + 1) t = .ok (name, u)) (colon : readColon u = .ok v) :
    members member (rounds + 1) first state s =
      match member state name v with
      | .error e => .error e
      | .ok (state, w) => members member rounds false state w := by
  cases found : member state name v with
  | error fault => simp only [members, next, named, colon, found]
  | ok more => simp only [members, next, named, colon, found]

theorem shortens_members {member : σ → String → Reader σ}
    (shortens : ∀ state name, Shortens (member state name)) (rounds : Nat) (first : Bool)
    (state : σ) : Shortens (members member rounds first state) := by
  intro s state' rest read
  induction rounds generalizing first state s with
  | zero => contradiction
  | succ rounds ih =>
    unfold members at read
    cases next : nextName first s with
    | error fault => simp [next] at read
    | ok more =>
      cases more with
      | none =>
        simp only [next] at read
        cases read
        exact length_afterBrace_lt next
      | some t =>
        simp only [next] at read
        cases named : readText (rounds + 1) t with
        | error fault => simp [named] at read
        | ok more =>
          obtain ⟨name, u⟩ := more
          simp only [named] at read
          cases colon : readColon u with
          | error fault => simp [colon] at read
          | ok v =>
            simp only [colon] at read
            cases found : member state name v with
            | error fault => simp [found] at read
            | ok more =>
              simp only [found] at read
              have first' := length_lt_of_nextName next
              have second := shortens_readText _ _ _ _ named
              have third := length_lt_of_readColon colon
              have fourth := shortens _ _ _ _ _ found
              have fifth := ih _ _ _ read
              omega

end Loops

theorem shortens_readConstant {α : Type} {expected s rest : Octets} {a a' : α}
    (read : readConstant expected a s = .ok (a', rest)) : rest.length ≤ s.length := by
  unfold readConstant at read
  split at read
  · next s' word =>
    cases read
    exact length_le_of_readWord word
  · contradiction

/-- A scalar as data; of a list or an object only the kind is left. -/
def Shape.value : Shape → Value
  | .null => .null
  | .bool b => .bool b
  | .number n => .number n
  | .text s => .text s
  | .sequence => .list []
  | .map => .object []

/-- A reader names an enclosure and does not enter it, and of a scalar it leaves less. -/
theorem readScalar_cases {rounds : Nat} {s rest : Octets} {shape : Shape}
    (read : readScalar rounds s = .ok (shape, rest)) :
    (shape = .sequence ∧ skipBlanks s = rest ∧ rest.head? = some 91) ∨
      (shape = .map ∧ skipBlanks s = rest ∧ rest.head? = some 123) ∨
      (rest.length < s.length ∧ shape ≠ .sequence ∧ shape ≠ .map) := by
  unfold readScalar at read
  split at read
  · contradiction
  · next b s' start =>
    have within := length_lt_of_skipBlanks start
    -- The three words differ in what they stand for only.
    have constant : ∀ {word : Octets} {a : Shape}, readConstant word a s' = .ok (shape, rest) →
        a ≠ .sequence → a ≠ .map →
        rest.length < s.length ∧ shape ≠ .sequence ∧ shape ≠ .map := by
      intro word a read other other'
      have left := shortens_readConstant read
      unfold readConstant at read
      split at read
      · cases read
        exact ⟨Nat.lt_of_le_of_lt left within, other, other'⟩
      · contradiction
    split at read
    · exact .inr (.inr (constant read (by simp) (by simp)))
    split at read
    · exact .inr (.inr (constant read (by simp) (by simp)))
    split at read
    · exact .inr (.inr (constant read (by simp) (by simp)))
    split at read
    · split at read
      · next t s'' text =>
        cases read
        have left := shortens_readText _ _ _ _ text
        exact .inr (.inr ⟨Nat.lt_trans left within, by simp, by simp⟩)
      · contradiction
    split at read
    · split at read
      · next n s'' number =>
        cases read
        have left := shortens_readNumber _ _ _ number
        rw [← start] at left
        have blanks := length_skipBlanks_le s
        exact .inr (.inr ⟨Nat.lt_of_lt_of_le left blanks, by simp, by simp⟩)
      · contradiction
    split at read
    · next opened =>
      cases read
      exact .inl ⟨rfl, start, by simp [opened]⟩
    split at read
    · next opened =>
      cases read
      exact .inr (.inl ⟨rfl, start, by simp [opened]⟩)
    · contradiction

theorem skipBlanks_skipBlanks (s : Octets) : skipBlanks (skipBlanks s) = skipBlanks s := by
  cases start : skipBlanks s with
  | nil => rfl
  | cons b t =>
    have unblank := List.head?_dropWhile_not isBlank s
    rw [show s.dropWhile isBlank = b :: t from start] at unblank
    exact List.dropWhile_cons_of_neg (by simpa using unblank)

theorem readScalar_skipBlanks (rounds : Nat) (s : Octets) :
    readScalar rounds (skipBlanks s) = readScalar rounds s := by
  unfold readScalar
  rw [skipBlanks_skipBlanks]

/-- Where no list or object begins, a value is the scalar that stands there. -/
theorem readValue_of_scalar {s : Octets} (rounds levels : Nat)
    (noList : (skipBlanks s).head? ≠ some 91) (noObject : (skipBlanks s).head? ≠ some 123) :
    readValue rounds (levels + 1) s =
      match readScalar rounds s with
      | .ok (shape, rest) => .ok (shape.value, rest)
      | .error fault => .error fault := by
  unfold readValue readScalar
  cases start : skipBlanks s with
  | nil => rfl
  | cons b s' =>
    rw [start] at noList noObject
    simp only [List.head?_cons, ne_eq, Option.some.injEq] at noList noObject
    simp only [noList, noObject, if_false, readConstant]
    grind [Shape.value]

theorem readValue_of_list {s t : Octets} (rounds levels : Nat) (opened : skipBlanks s = 91 :: t) :
    readValue rounds (levels + 1) s =
      if levels = 0 then .error .malformed
      else
        match elements (readValue rounds levels) rounds true [] t with
        | .ok (items, rest) => .ok (.list items, rest)
        | .error fault => .error fault := by
  unfold readValue
  rw [opened]
  rfl

def readNamed (rounds levels : Nat) (seen : List (String × Value)) (name : String) :
    Reader (List (String × Value)) := fun s =>
  match readValue rounds levels s with
  | .ok (v, rest) => .ok (Sorted.insert name v seen, rest)
  | .error fault => .error fault

theorem readValue_of_object {s t : Octets} (rounds levels : Nat)
    (opened : skipBlanks s = 123 :: t) :
    readValue rounds (levels + 1) s =
      if levels = 0 then .error .malformed
      else
        match members (readNamed rounds levels) rounds true [] t with
        | .ok (found, rest) => .ok (.object found, rest)
        | .error fault => .error fault := by
  unfold readValue
  rw [opened]
  rfl

/-- The three ways in which a value begins. -/
theorem readValue_cases (s : Octets) :
    (∃ t, skipBlanks s = 91 :: t) ∨ (∃ t, skipBlanks s = 123 :: t) ∨
      ((skipBlanks s).head? ≠ some 91 ∧ (skipBlanks s).head? ≠ some 123) := by
  cases skipBlanks s with
  | nil => simp
  | cons b t =>
    by_cases list : b = 91
    · exact .inl ⟨t, by rw [list]⟩
    · by_cases object : b = 123
      · exact .inr (.inl ⟨t, by rw [object]⟩)
      · exact .inr (.inr (by simp [list, object]))

theorem shortens_readNamed {rounds levels : Nat} (shortens : Shortens (readValue rounds levels))
    (seen : List (String × Value)) (name : String) :
    Shortens (readNamed rounds levels seen name) := by
  intro s found rest read
  unfold readNamed at read
  split at read
  · next v rest' value =>
    cases read
    exact shortens _ _ _ value
  · contradiction

theorem shortens_readValue (rounds levels : Nat) : Shortens (readValue rounds levels) := by
  induction levels with
  | zero => exact fun s v rest read => nomatch read
  | succ levels ih =>
    intro s v rest read
    obtain ⟨t, opened⟩ | ⟨t, opened⟩ | ⟨noList, noObject⟩ := readValue_cases s
    · have within := length_lt_of_skipBlanks opened
      rw [readValue_of_list rounds levels opened] at read
      split at read
      · contradiction
      · split at read
        · next items rest' found =>
          cases read
          exact Nat.lt_trans (shortens_elements ih _ _ _ _ _ _ found) within
        · contradiction
    · have within := length_lt_of_skipBlanks opened
      rw [readValue_of_object rounds levels opened] at read
      split at read
      · contradiction
      · split at read
        · next found' rest' found =>
          cases read
          exact Nat.lt_trans (shortens_members (shortens_readNamed ih) _ _ _ _ _ _ found) within
        · contradiction
    · rw [readValue_of_scalar rounds levels noList noObject] at read
      split at read
      · next shape rest' scalar =>
        cases read
        obtain ⟨_, start, head⟩ | ⟨_, start, head⟩ | ⟨shorter, _⟩ := readScalar_cases scalar
        · exact absurd (start ▸ head) noList
        · exact absurd (start ▸ head) noObject
        · exact shorter
      · contradiction

theorem document_eq_ok_iff {α : Type} {reader : Nat → Reader α} {s : Octets} {a : α} :
    document reader s = .ok a ↔
      ∃ rest, reader (s.length + 1) s = .ok (a, rest) ∧ skipBlanks rest = [] := by
  unfold document
  cases read : reader (s.length + 1) s with
  | error fault => simp
  | ok more =>
    obtain ⟨a', rest⟩ := more
    simp only [List.isEmpty_iff]
    constructor
    · intro decoded
      split at decoded
      · next ended =>
        cases decoded
        exact ⟨rest, rfl, ended⟩
      · contradiction
    · rintro ⟨_, same, ended⟩
      cases same
      rw [if_pos ended]

theorem readJudged_eq_ok_iff {α : Type} {judge : Shape → Except Fault α} {rounds : Nat}
    {s rest : Octets} {a : α} :
    readJudged judge rounds s = .ok (a, rest) ↔
      ∃ shape, readScalar rounds s = .ok (shape, rest) ∧ judge shape = .ok a := by
  constructor
  · intro read
    unfold readJudged at read
    split at read
    · contradiction
    · next shape rest' scalar =>
      split at read
      · next a' accepted =>
        cases read
        exact ⟨shape, scalar, accepted⟩
      · contradiction
  · rintro ⟨shape, scalar, accepted⟩
    simp only [readJudged, scalar, accepted]

theorem readOptional_eq_ok_iff {α : Type} {reader : Reader α} {s rest : Octets} {x : Option α} :
    readOptional reader s = .ok (x, rest) ↔
      (∃ t, skipBlanks s = 110 :: t ∧ readWord nullWord.tail t = .ok rest ∧ x = none) ∨
        (skipBlanks s ≠ [] ∧ (skipBlanks s).head? ≠ some 110 ∧
          ∃ a, reader (skipBlanks s) = .ok (a, rest) ∧ x = some a) := by
  unfold readOptional readConstant
  cases start : skipBlanks s with
  | nil => simp
  | cons b t =>
    by_cases null : b = 110
    · subst null
      cases word : readWord nullWord.tail t with
      | error fault => simp [word]
      | ok t' =>
        simp [word]
        grind
    · cases found : reader (b :: t) with
      | error fault => simp [null, found]
      | ok more =>
        obtain ⟨a, t'⟩ := more
        simp [null, found]
        grind

/-- A reader that accepts no enclosure. -/
theorem shortens_readJudged {α : Type} {judge : Shape → Except Fault α} (rounds : Nat)
    (noList : ∀ a, judge .sequence ≠ .ok a) (noObject : ∀ a, judge .map ≠ .ok a) :
    Shortens (readJudged judge rounds) := by
  intro s a rest read
  obtain ⟨shape, scalar, accepted⟩ := readJudged_eq_ok_iff.mp read
  obtain ⟨rfl, _⟩ | ⟨rfl, _⟩ | ⟨shorter, _⟩ := readScalar_cases scalar
  · exact absurd accepted (noList a)
  · exact absurd accepted (noObject a)
  · exact shorter

theorem shortens_readOptional {α : Type} {reader : Reader α} (shortens : Shortens reader) :
    Shortens (readOptional reader) := by
  intro s x rest read
  have blanks := length_skipBlanks_le s
  obtain ⟨t, start, word, _⟩ | ⟨_, _, a, found, _⟩ := readOptional_eq_ok_iff.mp read
  · exact Nat.lt_of_le_of_lt (length_le_of_readWord word) (length_lt_of_skipBlanks start)
  · exact Nat.lt_of_lt_of_le (shortens _ _ _ found) blanks

theorem into_eq_ok_iff {α σ : Type} {put : α → σ} {reader : Reader α} {s rest : Octets} {x : σ} :
    into put reader s = .ok (x, rest) ↔ ∃ a, reader s = .ok (a, rest) ∧ x = put a := by
  unfold into
  cases reader s with
  | error fault => simp
  | ok found =>
    obtain ⟨a, rest'⟩ := found
    constructor
    · intro same
      cases same
      exact ⟨a, rfl, rfl⟩
    · rintro ⟨_, same, rfl⟩
      cases same
      rfl

theorem unlessSeen_eq_ok_iff {α β : Type} {seen : Option β} {name : String} {reader : Reader α}
    {s : Octets} {found : α × Octets} :
    unlessSeen seen name reader s = .ok found ↔ seen = none ∧ reader s = .ok found := by
  unfold unlessSeen
  cases seen <;> simp

theorem shortens_into {α σ : Type} {put : α → σ} {reader : Reader α} (shortens : Shortens reader) :
    Shortens (into put reader) := by
  intro s a rest read
  obtain ⟨a', found, _⟩ := into_eq_ok_iff.mp read
  exact shortens _ _ _ found

theorem shortens_unlessSeen {α β : Type} {seen : Option β} {name : String} {reader : Reader α}
    (shortens : Shortens reader) : Shortens (unlessSeen seen name reader) :=
  fun s a rest read => shortens s a rest (unlessSeen_eq_ok_iff.mp read).2

end Tollgate.Json
