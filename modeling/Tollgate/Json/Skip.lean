import Tollgate.Json.Reader

/-! # Passing over JSON values

The value of a member that nobody asks for is passed over: its brackets, commas and
colons are checked, but strings are not decoded, numbers get no value, and nesting has no
limit.

* `skipText`, `skipNumber` — one string or number;
* `skipValue` — one value; lists and objects that are open are kept on a stack.
-/

namespace Tollgate.Json

/-- The text after a string whose opening quote was seen. -/
def skipText : Nat → Octets → Except Fault Octets
  | 0, _ => .error .truncated
  | _ + 1, [] => .error .truncated
  | rounds + 1, b :: s =>
    if b = 34 then .ok s
    else if b = 92 then
      match s with
      | [] => .error .truncated
      | c :: s =>
        if (escaped? c).isSome then skipText rounds s
        else if c = 117 then
          match readUnit s with
          | .ok (_, s) => skipText rounds s
          | .error e => .error e
        else .error .malformed
    else if b < 32 then .error .malformed
    else skipText rounds s

/-- The text after digits, of which at least one has to stand. -/
def skipDigits : Octets → Except Fault Octets
  | [] => .error .malformed
  | b :: s => if Octets.isDigit b then .ok (afterDigits s) else .error .malformed

/-- The text after the digits before a point. -/
def skipWhole : Octets → Except Fault Octets
  | [] => .error .malformed
  | b :: s =>
    if b = 48 then
      match s with
      | [] => .ok []
      | c :: _ => if Octets.isDigit c then .error .malformed else .ok s
    else if Octets.isDigit b then .ok (afterDigits s)
    else .error .malformed

def skipPower : Octets → Except Fault Octets
  | [] => .ok []
  | b :: s =>
    if b = 101 || b = 69 then
      match s with
      | 43 :: s => skipDigits s
      | 45 :: s => skipDigits s
      | s => skipDigits s
    else .ok (b :: s)

def skipUnsigned (s : Octets) : Except Fault Octets :=
  match skipWhole s with
  | .error e => .error e
  | .ok (46 :: s) =>
    match skipDigits s with
    | .error e => .error e
    | .ok s => skipPower s
  | .ok s => skipPower s

def skipNumber : Octets → Except Fault Octets
  | 45 :: s => skipUnsigned s
  | s => skipUnsigned s

/-- A list or object that is still open. -/
inductive Enclosure where
  | list
  | object
  deriving DecidableEq, Repr

/-- The start of a value: either a whole scalar, or a list or object that opens. -/
def skipStart (rounds : Nat) (s : Octets) : Except Fault (Option Enclosure × Octets) :=
  match skipBlanks s with
  | [] => .error .truncated
  | b :: rest =>
    let scalar (r : Except Fault Octets) : Except Fault (Option Enclosure × Octets) :=
      r.map fun s => (none, s)
    if b = 110 then scalar (readWord nullWord.tail rest)
    else if b = 116 then scalar (readWord trueWord.tail rest)
    else if b = 102 then scalar (readWord falseWord.tail rest)
    else if b = 34 then scalar (skipText rounds rest)
    else if b = 45 || Octets.isDigit b then scalar (skipNumber (b :: rest))
    else if b = 91 then .ok (some .list, rest)
    else if b = 123 then .ok (some .object, rest)
    else .error .malformed

/-- Close what ends here, innermost first, up to the place where another item or member
    stands.  Answers what is still open there; nothing open means that the value ended.
    `first` tells that nothing was read in the innermost one yet. -/
def skipClosings : Nat → Bool → List Enclosure → Octets →
    Except Fault (List Enclosure × Octets)
  | 0, _, _, _ => .error .truncated
  | _, _, [], s => .ok ([], s)
  | rounds + 1, first, inner :: outer, s =>
    match skipBlanks s with
    | [] => .error .truncated
    | b :: rest =>
      if b = 44 && !first then .ok (inner :: outer, rest)
      else if b = 93 && inner = .list then skipClosings rounds false outer rest
      else if b = 125 && inner = .object then skipClosings rounds false outer rest
      -- The first item or member begins here.
      else if first then .ok (inner :: outer, b :: rest)
      else .error .malformed

def skipName (rounds : Nat) (s : Octets) : Except Fault Octets :=
  match skipBlanks s with
  | [] => .error .truncated
  | b :: rest =>
    if b = 34 then
      match skipText rounds rest with
      | .ok s => readColon s
      | .error e => .error e
    else .error .malformed

/-- The text after the values that are open. -/
def skipOpen : Nat → List Enclosure → Octets → Except Fault Octets
  | 0, _, _ => .error .truncated
  | rounds + 1, stack, s =>
    match skipStart (rounds + 1) s with
    | .error e => .error e
    | .ok (opened, s) =>
      let closed := match opened with
        | some inner => skipClosings (rounds + 1) true (inner :: stack) s
        | none => skipClosings (rounds + 1) false stack s
      match closed with
      | .error e => .error e
      | .ok ([], s) => .ok s
      | .ok (.list :: outer, s) => skipOpen rounds (.list :: outer) s
      | .ok (.object :: outer, s) =>
        match skipName (rounds + 1) s with
        | .ok s => skipOpen rounds (.object :: outer) s
        | .error e => .error e

def skipValue (rounds : Nat) (s : Octets) : Except Fault Octets := skipOpen rounds [] s

end Tollgate.Json
