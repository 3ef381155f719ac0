import Tollgate.Http.Message

/-! # Messages on a connection

A message is a head and a body.  The head is a line on its own and header lines, up to an empty
line; its header lines tell how far the body goes.  What has arrived is read from the front
again whenever more arrives.

* `Arrival` — what the octets that have arrived amount to;
* `Head.take`, `Framing.take` — a head, and a body of known extent, from the front;
* `Request.take` — a whole request;
* `Response.wire`, `Response.tunnelWire` — the octets of a response.
-/

namespace Tollgate

/-- What the octets that have arrived amount to. -/
inductive Arrival (α : Type) where
  | complete (value : α) (rest : Octets)
  | incomplete
  | malformed
  deriving Repr

def Arrival.andThen {α β : Type} (a : Arrival α) (next : α → Octets → Arrival β) : Arrival β :=
  match a with
  | .complete value rest => next value rest
  | .incomplete => .incomplete
  | .malformed => .malformed

/-! ## Heads -/

/-- The first line and the header lines of a message. -/
structure Head where
  first : Octets
  headers : Headers
  deriving Repr

def trimReturn (line : Octets) : Octets := if line.getLast? = some 13 then line.dropLast else line

/-- The lines up to an empty one, and what follows it.  `line` is what was read of the line at
    hand, last octet first. -/
def takeLines (line : Octets) : Octets → Option (List Octets × Octets)
  | [] => none
  | b :: rest =>
    if b = 10 then
      match trimReturn line.reverse with
      | [] => some ([], rest)
      | whole => (takeLines [] rest).map fun (lines, rest) => (whole :: lines, rest)
    else takeLines (b :: line) rest

def trimSpaces (o : Octets) : Octets :=
  let blank (b : UInt8) : Bool := b = 32 || b = 9
  ((o.dropWhile blank).reverse.dropWhile blank).reverse

def isNameOctet (b : UInt8) : Bool :=
  Octets.isLetter b || Octets.isDigit b
    || [33, 35, 36, 37, 38, 39, 42, 43, 45, 46, 94, 95, 96, 124, 126].contains b

def headerOfLine? (line : Octets) : Option (String × Octets) :=
  let name := line.takeWhile (· ≠ 58)
  match line.drop name.length with
  | [] => none
  | _ :: value =>
    if name.isEmpty || !name.all isNameOctet then none
    else some (lowered (Octets.toTextLossy name), trimSpaces value)

/-- The head at the front, after empty lines. -/
def Head.take (o : Octets) : Arrival Head :=
  match takeLines [] (o.dropWhile fun b => b = 13 || b = 10) with
  | none => .incomplete
  | some ([], _) => .malformed
  | some (first :: lines, rest) =>
    match lines.mapM headerOfLine? with
    | some headers => .complete ⟨first, headers⟩ rest
    | none => .malformed

/-! ## Bodies -/

inductive Framing where
  | sized (length : Nat)
  /-- In chunks, each with its length before it; one of no length is the last. -/
  | chunked
  | untilEnd
  deriving DecidableEq, Repr

/-- The framing of a body of which no more than so many octets are wanted. -/
def Framing.upTo (f : Framing) (limit : Nat) : Framing :=
  match f with
  | .sized n => .sized (min n limit)
  | other => other

def decimal? (o : Octets) : Option Nat :=
  if o.isEmpty || !o.all Octets.isDigit then none
  else some (o.foldl (fun n b => n * 10 + (b.toNat - 48)) 0)

/-- How far the body behind a head goes; `otherwise` holds where the head does not tell. -/
def Framing.ofHeaders? (h : Headers) (otherwise : Framing) : Option Framing :=
  match h.first? "transfer-encoding", h.first? "content-length" with
  | some coding, _ =>
    if equalIgnoringCase coding.toTextLossy "chunked" then some .chunked else none
  | none, some length => (decimal? length).map .sized
  | none, none => some otherwise

def takeLine (o : Octets) : Option (Octets × Octets) :=
  let line := o.takeWhile (· ≠ 10)
  match o.drop line.length with
  | [] => none
  | _ :: rest => some (trimReturn line, rest)

/-- The length in front of a chunk, in hexadecimal digits; an extension may follow it. -/
def chunkLength? (line : Octets) : Option Nat :=
  let digits := trimSpaces (line.takeWhile (· ≠ 59))
  if digits.isEmpty || 16 < digits.length then none
  else digits.foldlM (fun n b => (Octets.hexValue? b).map (n * 16 + ·)) 0

/-- The end of a body in chunks: lines up to an empty one. -/
def takeTrailer (body o : Octets) : Arrival Octets :=
  match takeLines [] o with
  | some (_, rest) => .complete body rest
  | none => .incomplete

/-- The chunks at the front, at most so many, after those in `body`. -/
def takeChunks : Nat → Octets → Octets → Arrival Octets
  | 0, _, _ => .incomplete
  | chunks + 1, body, o =>
    match takeLine o with
    | none => .incomplete
    | some (line, rest) =>
      match chunkLength? line with
      | none => .malformed
      | some 0 => takeTrailer body rest
      | some n =>
        match takeLine (rest.drop n) with
        | none => .incomplete
        | some ([], after) => takeChunks chunks (body ++ rest.take n) after
        | some _ => .malformed

/-- The body at the front.  `ended` tells whether the connection has come to its end. -/
def Framing.take (f : Framing) (ended : Bool) (o : Octets) : Arrival Octets :=
  match f with
  | .sized n => if o.length < n then .incomplete else .complete (o.take n) (o.drop n)
  | .chunked => takeChunks o.length [] o
  | .untilEnd => if ended then .complete o [] else .incomplete

/-! ## Requests -/

def wordsOf (line : Octets) : List Octets := line.splitOn 32

/-- Whether octets name a version of the protocol in which one line stands for one message. -/
def isVersion (o : Octets) : Bool :=
  o = Octets.ofString "HTTP/1.1" || o = Octets.ofString "HTTP/1.0"

def Request.ofHead? (h : Head) (body : Octets) : Option Request :=
  match wordsOf h.first with
  | [method, target, version] =>
    if !isVersion version || method.isEmpty || !method.all isNameOctet then none
    else
      match Uri.ofOctets target with
      | .ok target => some ⟨method.toTextLossy, target, h.headers, body⟩
      | .error _ => none
  | _ => none

/-- The request at the front.  A request for a tunnel has no body, and a body that is known to
    exceed the limit is not waited for. -/
def Request.take (o : Octets) : Arrival Request :=
  (Head.take o).andThen fun head rest =>
    match Request.ofHead? head [], Framing.ofHeaders? head.headers (.sized 0) with
    | some request, some framing =>
      if request.method = "CONNECT" then .complete request rest
      else
        ((framing.upTo (bodyLimit + 1)).take false rest).andThen fun body rest => .complete { request with body } rest
    | _, _ => .malformed

/-! ## Responses -/

def reasonPhrase : Nat → String
  | 200 => "OK"
  | 400 => "Bad Request"
  | 401 => "Unauthorized"
  | 404 => "Not Found"
  | 405 => "Method Not Allowed"
  | 500 => "Internal Server Error"
  | 502 => "Bad Gateway"
  | _ => "Unknown"

def headWire (first : String) (lines : List (String × String)) : Octets :=
  Octets.ofString
    (String.join ((first :: lines.map fun l => l.1 ++ ": " ++ l.2).map (· ++ "\r\n")) ++ "\r\n")

def Response.statusLine (r : Response) : String :=
  "HTTP/1.1 " ++ r.status.repr ++ " " ++ reasonPhrase r.status

/-- A response that is the last on its connection.  An answer to a request for the head alone
    does not tell the length of a body. -/
def Response.wire (r : Response) (headOnly : Bool) : Octets :=
  let length := if headOnly then [] else [("content-length", r.body.length.repr)]
  headWire r.statusLine (r.headers ++ length ++ [("connection", "close")]) ++ r.body

/-- The response after which a connection is a tunnel. -/
def Response.tunnelWire (r : Response) : Octets := headWire r.statusLine r.headers

end Tollgate
