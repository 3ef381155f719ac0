import Tollgate.Json.Skip
import Tollgate.Power

/-! # Reading values of a known type

Records of this library are read member by member into their own types.  A value of the
wrong kind is a fault that names what was found and what was wanted.

* `readScalar` — the value that stands here, as far as it has to be read to name it;
* `readString`, `readInt64`, `readFloat`, `readTruth` — the scalar types;
* `readOptional` — a value that may be `null`;
* `readList` — a list of any length;
* `readRecord` — an object, or a list of the same fields in order;
* `unlessSeen`, `require` — a member that occurs twice, or not at all.
-/

namespace Tollgate.Json

/-- The scalar that stands here; a list or an object is named but not entered. -/
def readScalar (rounds : Nat) (s : Octets) : Except Fault (Shape × Octets) :=
  match skipBlanks s with
  | [] => .error .truncated
  | b :: rest =>
    if b = 110 then readConstant nullWord.tail .null rest
    else if b = 116 then readConstant trueWord.tail (.bool true) rest
    else if b = 102 then readConstant falseWord.tail (.bool false) rest
    else if b = 34 then
      match readText rounds rest with
      | .ok (t, s) => .ok (.text t, s)
      | .error e => .error e
    else if b = 45 || Octets.isDigit b then
      match readNumber (b :: rest) with
      | .ok (n, s) => .ok (.number n, s)
      | .error e => .error e
    else if b = 91 then .ok (.sequence, b :: rest)
    else if b = 123 then .ok (.map, b :: rest)
    else .error .malformed

def readJudged {α : Type} (judge : Shape → Except Fault α) (rounds : Nat) : Reader α :=
  fun s =>
    match readScalar rounds s with
    | .error e => .error e
    | .ok (shape, s) =>
      match judge shape with
      | .ok a => .ok (a, s)
      | .error e => .error e

def readString (rounds : Nat) : Reader String :=
  readJudged (fun
    | .text s => .ok s
    | found => .error (.wrongType found "a string")) rounds

/-- An integer from `-2 ^ 63` up to `2 ^ 63 - 1`. -/
def readInt64 (rounds : Nat) : Reader Int :=
  readJudged (fun
    | .number (.int z) =>
      if z < twoTo 63 then .ok z else .error (.outOfRange z "i64")
    | found => .error (.wrongType found "i64")) rounds

def readFloat (rounds : Nat) : Reader Binary64 :=
  readJudged (fun
    | .number n => .ok n.toBinary64
    | found => .error (.wrongType found "f64")) rounds

def readTruth (rounds : Nat) : Reader Bool :=
  readJudged (fun
    | .bool b => .ok b
    | found => .error (.wrongType found "a boolean")) rounds

def readOptional {α : Type} (reader : Reader α) : Reader (Option α) :=
  fun s =>
    match skipBlanks s with
    | [] => .error .truncated
    | b :: rest =>
      if b = 110 then readConstant nullWord.tail none rest
      else
        match reader (b :: rest) with
        | .ok (a, s) => .ok (some a, s)
        | .error e => .error e

def readList {α : Type} (item : Reader α) (rounds : Nat) : Reader (List α) :=
  fun s =>
    match readScalar rounds s with
    | .error e => .error e
    | .ok (.sequence, s) => elements item rounds true [] (s.drop 1)
    | .ok (found, _) => .error (.wrongType found "a sequence")

/-- A record: an object that `ofObject` reads after its opening brace, or a list that
    `ofList` reads after its opening bracket. -/
def readRecord {α : Type} (wanted : String) (ofObject ofList : Reader α) (rounds : Nat) :
    Reader α :=
  fun s =>
    match readScalar rounds s with
    | .error e => .error e
    | .ok (.map, s) => ofObject (s.drop 1)
    | .ok (.sequence, s) =>
      match ofList (s.drop 1) with
      | .error e => .error e
      | .ok (a, s) =>
        match closeList s with
        | .ok s => .ok (a, s)
        | .error e => .error e
    | .ok (found, _) => .error (.wrongType found wanted)

/-- Read a member that must not have been read before. -/
def unlessSeen {α β : Type} (seen : Option β) (name : String) (reader : Reader α) : Reader α :=
  fun s => if seen.isSome then .error (.duplicate name) else reader s

def require {α : Type} (seen : Option α) (name : String) : Except Fault α :=
  match seen with
  | some a => .ok a
  | none => .error (.missing name)

/-- Pass over the value of a member nobody asks for. -/
def ignore {σ : Type} (state : σ) (rounds : Nat) : Reader σ :=
  fun s =>
    match skipValue rounds s with
    | .ok s => .ok (state, s)
    | .error e => .error e

/-- Put what a reader reads into a record that is being filled. -/
def into {α σ : Type} (put : α → σ) (reader : Reader α) : Reader σ :=
  fun s =>
    match reader s with
    | .ok (a, s) => .ok (put a, s)
    | .error e => .error e

/-- The next field of a record that is written as a list; `wanted` describes the whole
    record.  A list that has ended is too short by this field. -/
def nextField {α : Type} (index : Nat) (wanted : String) (reader : Reader α) : Reader α :=
  fun s =>
    match nextItem (index = 0) s with
    | .error e => .error e
    | .ok none => .error (.tooShort index wanted)
    | .ok (some s) => reader s

/-- The next field of a record that is written as a list, or a default where the list has
    ended. -/
def nextFieldOr {α : Type} (index : Nat) (default : α) (reader : Reader α) : Reader α :=
  fun s =>
    match nextItem (index = 0) s with
    | .error e => .error e
    | .ok none => .ok (default, s)
    | .ok (some s) => reader s

end Tollgate.Json
