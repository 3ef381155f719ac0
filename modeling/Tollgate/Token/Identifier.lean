import Tollgate.Json.Field
import Tollgate.Power

/-! # Identifiers of keys and tokens

Signing keys and tokens are named by texts.  In JSON such a name may also be written as an
integer, and an integer may come as a float; all forms become the same text, and it is
always written as a string.

* `KeyId`, `TokenId` — the two kinds of names, ordered by their text;
* `judgeIdentifier` — which JSON scalars are names, and what text they stand for;
* `KeyId.ofDraw`, `TokenId.ofDraw` — fresh names from random draws.
-/

namespace Tollgate

structure KeyId where
  text : String
  deriving DecidableEq, Repr, Inhabited

/-- The name of a token, by which it can be revoked. -/
structure TokenId where
  text : String
  deriving DecidableEq, Repr, Inhabited

instance : LT KeyId := ⟨fun a b => a.text < b.text⟩

instance : DecidableLT KeyId := fun a b => inferInstanceAs (Decidable (a.text < b.text))

instance : LT TokenId := ⟨fun a b => a.text < b.text⟩

instance : DecidableLT TokenId := fun a b => inferInstanceAs (Decidable (a.text < b.text))

/-! ## Order

Identifiers are ordered strictly and totally, as their texts are. -/

instance : Trans (α := KeyId) (· < ·) (· < ·) (· < ·) := ⟨String.lt_trans⟩

instance : Std.Irrefl (α := KeyId) (· < ·) := ⟨fun k => String.lt_irrefl k.text⟩

instance : Std.Trichotomous (α := KeyId) (· < ·) where
  trichotomous a b notBelow notAbove := by
    have same : a.text = b.text :=
      Std.Trichotomous.trichotomous (r := (· < ·)) a.text b.text notBelow notAbove
    cases a
    cases b
    exact congrArg KeyId.mk same

instance : Trans (α := TokenId) (· < ·) (· < ·) (· < ·) := ⟨String.lt_trans⟩

instance : Std.Irrefl (α := TokenId) (· < ·) := ⟨fun t => String.lt_irrefl t.text⟩

instance : Std.Trichotomous (α := TokenId) (· < ·) where
  trichotomous a b notBelow notAbove := by
    have same : a.text = b.text :=
      Std.Trichotomous.trichotomous (r := (· < ·)) a.text b.text notBelow notAbove
    cases a
    cases b
    exact congrArg TokenId.mk same

/-! ## Forms -/

def decimalText (z : Int) : String :=
  if z < 0 then "-" ++ z.natAbs.repr else z.natAbs.repr

/-- The largest absolute value up to which every integer is a binary64 number. -/
def exactLimit : Int := twoTo 53

/-- The text of a JSON scalar as an identifier.  `label` says what it names: a non-empty
    string is itself, an integer is its decimal text, and so is a float that is equal to an
    integer up to the exact limit. -/
def judgeIdentifier (label : String) : Json.Shape → Except Json.Fault String
  | .text s => if s.isEmpty then .error (.refused ("empty " ++ label)) else .ok s
  | .number (.int z) => .ok (decimalText z)
  | .number (.float x) =>
    -- The text is not known here any more, only the float nearest to it.
    match (if x.between (-exactLimit) exactLimit then x.toInt? else none) with
    | some z => .ok (decimalText z)
    | none => .error (.refused (label ++ " " ++ x.plain ++ " is not an integer"))
  | found => .error (.wrongType found ("a " ++ label ++ " as a string or integer"))

/-- The decimal text of the upper 63 bits of a random draw. -/
def drawnText (draw : UInt64) : String := (draw.toNat / 2).repr

namespace KeyId

def read (rounds : Nat) : Json.Reader KeyId :=
  Json.into KeyId.mk (Json.readJudged (judgeIdentifier "key id") rounds)

def ofDraw (draw : UInt64) : KeyId := ⟨drawnText draw⟩

def render (k : KeyId) : Octets := Json.renderText k.text

end KeyId

namespace TokenId

def read (rounds : Nat) : Json.Reader TokenId :=
  Json.into TokenId.mk (Json.readJudged (judgeIdentifier "token id") rounds)

def ofDraw (draw : UInt64) : TokenId := ⟨drawnText draw⟩

def render (t : TokenId) : Octets := Json.renderText t.text

end TokenId

end Tollgate
