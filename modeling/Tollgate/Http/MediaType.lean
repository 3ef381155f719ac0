import Tollgate.Octets

/-! # Media types

A request body is read as JSON only if the request says that it is JSON.

* `MediaType` — type, subtype and suffix of a content type;
* `MediaType.ofText?` — the grammar: names of token characters, and parameters whose values
  may be quoted;
* `MediaType.isJson` — `application/json` and `application/*+json`.
-/

namespace Tollgate

/-- Type, subtype and suffix, in small letters. -/
structure MediaType where
  kind : Octets
  subtype : Octets
  /-- What follows the last plus sign of the subtype. -/
  suffix : Option Octets
  deriving DecidableEq, Repr

namespace MediaType

def isToken (b : UInt8) : Bool :=
  Octets.isLetter b || Octets.isDigit b
    || [33, 35, 36, 37, 38, 39, 42, 43, 45, 46, 94, 95, 96, 124, 126].contains b

/-- What follows a quoted value whose opening quote was seen: a quote right after it belongs
    to the value. -/
def afterQuoted? (s : Octets) : Option Octets :=
  match s with
  | [] => none
  | first :: rest =>
    if first < 32 || first = 127 then none
    else
      let value := rest.takeWhile fun b => b ≠ 34 && 32 ≤ b && b ≠ 127
      match rest.drop value.length with
      | 34 :: more => some more
      | _ => none

/-- Whether a text is a list of parameters; the bound is on their number. -/
def areParameters : Nat → Octets → Bool
  | _, [] => true
  | 0, _ => false
  | count + 1, s =>
    let s := s.dropWhile (· = 32)
    if s.isEmpty then true
    else
      let name := s.takeWhile isToken
      match s.drop name.length with
      | 61 :: 34 :: quotedValue =>
        match afterQuoted? quotedValue with
        | none => false
        | some rest =>
          match rest.dropWhile (· = 32) with
          | [] => !name.isEmpty
          | 59 :: rest => !name.isEmpty && areParameters count rest
          | _ => false
      | 61 :: rest =>
        let value := rest.takeWhile isToken
        match rest.drop value.length with
        | [] => !name.isEmpty
        | 59 :: rest => !name.isEmpty && !value.isEmpty && areParameters count rest
        | _ => false
      | _ => false

/-- What stands before the last plus sign of a subtype that does not start with it, and what
    follows it. -/
def splitSuffix (s : Octets) : Octets × Option Octets :=
  let suffix := (s.reverse.takeWhile (· ≠ 43)).reverse
  if suffix.length + 1 < s.length then
    (s.take (s.length - suffix.length - 1), some suffix)
  else (s, none)

def ofText? (s : Octets) : Option MediaType :=
  let kind := s.takeWhile isToken
  match s.drop kind.length with
  | 47 :: rest =>
    let full := rest.takeWhile isToken
    let (subtype, suffix) := splitSuffix (full.map Octets.lower)
    let result : MediaType := ⟨kind.map Octets.lower, subtype, suffix⟩
    if kind.isEmpty then none
    else
      match rest.drop full.length with
      | [] => some result
      | 59 :: parameters =>
        if !full.isEmpty && areParameters s.length parameters then some result else none
      | _ => none
  | _ => none

/-- The word `application`. -/
def applicationWord : Octets := [97, 112, 112, 108, 105, 99, 97, 116, 105, 111, 110]

/-- The word `json`. -/
def jsonWord : Octets := [106, 115, 111, 110]

def isJson (m : MediaType) : Bool :=
  m.kind = applicationWord && (m.subtype = jsonWord || m.suffix = some jsonWord)

end MediaType

end Tollgate
