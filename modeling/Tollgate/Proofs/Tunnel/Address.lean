import Mathlib.Data.List.TakeWhile
import Tollgate.Tunnel.Engine

/-! # The address of a tunnel

A request gets its tunnel for the host and the port that are read off its target, but what is dialed
is the target as it was written.  The address is the host, a colon and the port if the target is
written like that (`Uri.Authority.IsPlain`), because then the two are read back from it
(`Uri.Authority.host_eq`, `Uri.Authority.port?_eq`).  A target may have more in it: a user before
the host, text between a bracket and the colon, a plus sign or zeros before the port.  All of that
is dialed too.

`TunnelEngine.dials_as_written` says this about every request, and `TunnelEngine.dials_user` shows
a target whose user becomes part of the name that is looked up.
-/

namespace Tollgate

namespace Uri.Authority

variable {a : Uri.Authority} {host digits : List Char} {port : Nat}

/-! ## Ports -/

theorem notMem_toDigits {c : Char} (other : c.isDigit = false) : c ∉ Nat.toDigits 10 port :=
  fun among => by
    have digit := Nat.isDigit_of_mem_toDigits (by decide) (by decide) among
    rw [other] at digit
    contradiction

theorem shortOf?_toDigits (small : port < 65536) : shortOf? (Nat.toDigits 10 port) = some port := by
  have all : (Nat.toDigits 10 port).all Char.isDigit = true :=
    List.all_eq_true.mpr fun _ => Nat.isDigit_of_mem_toDigits (by decide) (by decide)
  have present : (Nat.toDigits 10 port).isEmpty = false :=
    List.isEmpty_eq_false_iff.mpr Nat.toDigits_ne_nil
  have value : (Nat.toDigits 10 port).foldl (fun n d => n * 10 + (d.toNat - 48)) 0 = port := by
    have same := Nat.ofDigitChars_ten_toDigits (n := port)
    simpa only [Nat.ofDigitChars, Nat.mul_comm 10, Char.reduceToNat] using same
  simp [shortOf?, all, present, value, small]

theorem lt_of_shortOf? (read : shortOf? digits = some port) : port < 65536 := by
  unfold shortOf? at read
  split at read
  · contradiction
  · dsimp only at read
    split at read
    · next small => exact Option.some.inj read ▸ small
    · contradiction

theorem portOf?_toDigits (small : port < 65536) : portOf? (Nat.toDigits 10 port) = some port := by
  unfold portOf?
  split
  · next rest written =>
    have sign : '+' ∈ Nat.toDigits 10 port := by rw [written]; exact List.mem_cons_self
    exact absurd sign (notMem_toDigits rfl)
  · exact shortOf?_toDigits small

theorem lt_of_portOf? (read : portOf? digits = some port) : port < 65536 := by
  unfold portOf? at read
  split at read <;> exact lt_of_shortOf? read

/-! ## Marks in a text -/

/-- A scan for a mark goes over a text without it. -/
theorem passes_of_notMem {mark : Char} {cs : List Char} (absent : mark ∉ cs) :
    ∀ c ∈ cs, decide (c ≠ mark) = true := fun _ among =>
  decide_eq_true fun same => absent (same ▸ among)

theorem notMem_takeWhile (mark : Char) (cs : List Char) : mark ∉ cs.takeWhile (· ≠ mark) :=
  fun among => by
    have kept := List.mem_takeWhile_imp among
    simp at kept

/-- What stands behind the last colon of a text, and what stands before it. -/
theorem behind_colon (host : List Char) (last : ':' ∉ digits) :
    ((host ++ ':' :: digits).reverse.takeWhile (· ≠ ':')).reverse = digits ∧
      (host ++ ':' :: digits).reverse.dropWhile (· ≠ ':') = ':' :: host.reverse := by
  have passed := passes_of_notMem (mt List.mem_reverse.mp last)
  have turned : (host ++ ':' :: digits).reverse = digits.reverse ++ ':' :: host.reverse := by simp
  rw [turned, List.takeWhile_append_of_pos passed, List.dropWhile_append_of_pos passed]
  simp

theorem exists_last_colon {cs : List Char} (colon : ':' ∈ cs) :
    ∃ host digits, cs = host ++ ':' :: digits ∧ ':' ∉ digits := by
  obtain ⟨before, after, turned, free⟩ := List.eq_append_cons_of_mem (List.mem_reverse.mpr colon)
  refine ⟨after.reverse, before.reverse, ?_, fun among => free (List.mem_reverse.mp among)⟩
  rw [← List.reverse_reverse cs, turned]
  simp

theorem port?_eq (written : a.text.toList = host ++ ':' :: digits) (last : ':' ∉ digits) :
    a.port? = portOf? digits := by
  have colon : a.text.toList.contains ':' = true := by simp [written]
  rw [port?, if_pos colon, written, (behind_colon _ last).1]

/-- The port that is connected with is the port of the target. -/
theorem exists_nameAndPort? (read : a.port? = some port) :
    ∃ name, nameAndPort? a.text = some (name, port) := by
  have colon : ':' ∈ a.text.toList := by
    by_contra absent
    simp [port?, absent] at read
  obtain ⟨host, digits, written, last⟩ := exists_last_colon colon
  obtain ⟨behind, before⟩ := behind_colon host last
  refine ⟨String.ofList host, ?_⟩
  rw [port?_eq written last] at read
  simp only [nameAndPort?, written, before, behind, read, List.reverse_reverse, Option.map_some]

theorem lt_of_port? (read : a.port? = some port) : port < 65536 := by
  unfold port? at read
  split at read
  · exact lt_of_portOf? read
  · contradiction

/-! ## Hosts -/

/-- A host as it stands before a port: a name, or an address in brackets. -/
inductive IsHost : List Char → Prop
  | name {c : Char} {cs : List Char} (unbracketed : c ≠ '[') (free : ':' ∉ c :: cs)
      (unnamed : '@' ∉ c :: cs) : IsHost (c :: cs)
  | bracketed {cs : List Char} (free : ']' ∉ cs) (unnamed : '@' ∉ cs) : IsHost ('[' :: cs ++ [']'])

/-- An authority that is written as a host, a colon and a port. -/
def IsPlain (a : Uri.Authority) : Prop :=
  ∃ host port, IsHost host ∧ port < 65536 ∧ a.text = String.ofList host ++ ":" ++ port.repr

theorem IsHost.unnamed (plain : IsHost host) : '@' ∉ host := by
  cases plain with
  | name _ _ unnamed => exact unnamed
  | bracketed _ unnamed => simp [unnamed]

theorem notMem_afterUser (a : Uri.Authority) : '@' ∉ a.afterUser :=
  mt List.mem_reverse.mp (notMem_takeWhile '@' _)

theorem afterUser_eq (unnamed : '@' ∉ a.text.toList) : a.afterUser = a.text.toList := by
  have all := passes_of_notMem (mt List.mem_reverse.mp unnamed)
  rw [afterUser, List.takeWhile_eq_self_iff.mpr all, List.reverse_reverse]

/-- The host of an authority, if it is not empty, can stand before a port. -/
theorem isHost_host (present : a.host ≠ "") : IsHost a.host.toList := by
  have unnamed := notMem_afterUser a
  unfold Uri.Authority.host at present ⊢
  split at present
  · next rest found =>
    rw [found] at unnamed
    rw [String.toList_ofList]
    exact .bracketed (notMem_takeWhile ']' rest) fun among =>
      unnamed (List.mem_cons_of_mem _ ((List.takeWhile_sublist _).subset among))
  · next unbracketed =>
    rw [String.toList_ofList]
    cases found : a.afterUser with
    | nil =>
      rw [found] at present
      exact absurd rfl present
    | cons c cs =>
      rw [found] at present unnamed
      -- A name that begins with a colon would be empty.
      have other : c ≠ ':' := by
        rintro rfl
        exact absurd rfl present
      have taken : (c :: cs).takeWhile (· ≠ ':') = c :: cs.takeWhile (· ≠ ':') := by simp [other]
      have free := notMem_takeWhile ':' (c :: cs)
      replace unnamed := mt ((List.takeWhile_sublist (· ≠ ':')).subset ·) unnamed
      rw [taken] at free unnamed ⊢
      exact .name (fun same => unbracketed cs (same ▸ found)) free unnamed

/-- A host that stands before a port is the host of the whole. -/
theorem host_eq (plain : IsHost host) (written : a.text.toList = host ++ ':' :: digits)
    (unnamed : '@' ∉ digits) : a.host = String.ofList host := by
  have free : '@' ∉ a.text.toList := by simp [written, plain.unnamed, unnamed]
  have behind : a.afterUser = host ++ ':' :: digits := by rw [afterUser_eq free, written]
  unfold Uri.Authority.host
  cases plain with
  | @name c cs unbracketed free _ =>
    have taken : a.afterUser.takeWhile (· ≠ ':') = c :: cs := by
      rw [behind, List.takeWhile_append_of_pos (passes_of_notMem free)]
      simp
    split
    · next rest found =>
      rw [behind] at found
      exact absurd (List.cons.inj found).1 unbracketed
    · rw [taken]
  | @bracketed cs free _ =>
    -- Colons in the brackets do not end the host.
    split
    · next rest found =>
      obtain rfl : rest = cs ++ ']' :: ':' :: digits := by
        rw [behind] at found
        simpa using (List.cons.inj found).2.symm
      rw [List.takeWhile_append_of_pos (passes_of_notMem free)]
      simp
    · next unbracketed => exact absurd (by simpa using behind) (unbracketed _)

/-! ## Addresses -/

theorem toList_hostAndPort (host : String) (port : Nat) :
    (host ++ ":" ++ port.repr).toList = host.toList ++ ':' :: Nat.toDigits 10 port := by
  simp [String.toList_append, Nat.toList_repr]

/-- The text of an authority is its host and its port if it is written as a host and a port. -/
theorem text_eq_iff (present : a.host ≠ "") (read : a.port? = some port) :
    a.text = a.host ++ ":" ++ port.repr ↔ a.IsPlain := by
  constructor
  · intro written
    refine ⟨a.host.toList, port, isHost_host present, lt_of_port? read, ?_⟩
    rwa [String.ofList_toList]
  · rintro ⟨host, port', plain, small, written⟩
    have split : a.text.toList = host ++ ':' :: Nat.toDigits 10 port' := by
      rw [written, toList_hostAndPort, String.toList_ofList]
    have found : a.port? = some port' := by
      rw [port?_eq split (notMem_toDigits rfl), portOf?_toDigits small]
    obtain rfl : port' = port := Option.some.inj (found.symm.trans read)
    rw [host_eq plain split (notMem_toDigits rfl), ← written]

end Uri.Authority

/-! ## Requests -/

/-- A request names an authority: as its target, or in its host header if the target has none. -/
inductive Request.Names (r : Request) : Uri.Authority → Prop
  | target {a : Uri.Authority} (stated : r.target.authority = some a) : r.Names a
  | host {a : Uri.Authority} {value : Octets} {text : String} (silent : r.target.authority = none)
      (shown : r.headers.first? "host" = some value) (legible : readable? value = some text)
      (nonempty : text ≠ "") (parsed : Uri.Authority.ofText text = .ok a) : r.Names a

namespace Request

variable {r : Request} {a : Uri.Authority}

theorem hostText?_eq_some_iff {text : String} :
    r.hostText? = some text ↔
      ∃ value, r.headers.first? "host" = some value ∧ readable? value = some text ∧ text ≠ "" := by
  unfold hostText?
  cases r.headers.first? "host" with
  | none => simp
  | some value => simp [Option.filter_eq_some_iff]

theorem namedAuthority_eq_ok_iff : r.namedAuthority = .ok a ↔ r.Names a := by
  constructor
  · intro named
    unfold namedAuthority at named
    split at named
    · next stated =>
      cases named
      exact .target stated
    · next silent =>
      split at named
      · contradiction
      · next text found =>
        obtain ⟨value, shown, legible, nonempty⟩ := hostText?_eq_some_iff.mp found
        split at named
        · next parsed =>
          cases named
          exact .host silent shown legible nonempty parsed
        · contradiction
  · intro names
    unfold namedAuthority
    cases names with
    | target stated => rw [stated]
    | host silent shown legible nonempty parsed =>
      have found := hostText?_eq_some_iff.mpr ⟨_, shown, legible, nonempty⟩
      simp only [silent, found, parsed]

theorem tunnelTarget_eq_ok_iff :
    r.tunnelTarget = .ok a ↔ r.Names a ∧ a.host ≠ "" ∧ ∃ port, a.port? = some port := by
  rw [← namedAuthority_eq_ok_iff, ← Option.isSome_iff_exists]
  unfold tunnelTarget
  cases r.namedAuthority with
  | error fault => simp
  | ok named =>
    by_cases complete : named.host = "" ∨ named.port? = none
    · have refused : (named.host.isEmpty || named.port?.isNone) = true := by simpa using complete
      simp only [refused, if_true, reduceCtorEq, Except.ok.injEq, false_iff, not_and]
      rintro rfl present
      simp [complete.resolve_left present]
    · have taken : (named.host.isEmpty || named.port?.isNone) = false := by
        simpa [Option.isSome_iff_ne_none] using complete
      obtain ⟨present, ported⟩ := not_or.mp complete
      simp only [taken, Bool.false_eq_true, if_false, Except.ok.injEq]
      constructor
      · rintro rfl
        exact ⟨rfl, present, Option.isSome_iff_ne_none.mpr ported⟩
      · exact And.left

end Request

/-! ## Dials -/

namespace TunnelEngine

variable {e : TunnelEngine} {r : Request} {outcome : DialOutcome} {takeover : Bool} {d : Dial}

theorem handle_dials_iff :
    (e.handle r outcome takeover).2.2 = some d ↔
      r.method = "CONNECT" ∧ r.tunnelTarget = .ok d.target ∧ d.tunnelId = e.nextId := by
  unfold handle
  split
  · -- A request that names a target is not declined.
    next fault e' begun =>
    simp only [reduceCtorEq, false_iff]
    rintro ⟨connect, found, numbered⟩
    have dialed := begin_eq_ok_iff.mpr ⟨connect, found, numbered, rfl⟩
    rw [begun] at dialed
    cases dialed
  · next d' e' begun =>
    obtain ⟨connect, found, numbered, -⟩ := begin_eq_ok_iff.mp begun
    simp only [Option.some.injEq]
    constructor
    · rintro rfl
      exact ⟨connect, found, numbered⟩
    · rintro ⟨-, found', numbered'⟩
      cases d with
      | mk tunnelId target =>
        cases d' with
        | mk tunnelId' target' =>
          cases found.symm.trans found'
          cases numbered.trans numbered'.symm
          rfl

/-- A request gets a target exactly if it names an authority with a host and a port, and a request
    for a tunnel has its target dialed as it was written.  The port that is connected with is the
    port of the target.  The address is the host and the port, and nothing else, exactly if the
    target was written so. -/
theorem dials_as_written (e : TunnelEngine) (r : Request) (outcome : DialOutcome)
    (takeover : Bool) :
    (∀ a, r.tunnelTarget = .ok a ↔ r.Names a ∧ a.host ≠ "" ∧ ∃ port < 65536, a.port? = some port) ∧
      ∀ d, (e.handle r outcome takeover).2.2 = some d ↔
        r.method = "CONNECT" ∧ r.tunnelTarget = .ok d.target ∧ d.tunnelId = e.nextId ∧
          ∃ name port, d.target.port? = some port ∧
            Uri.Authority.nameAndPort? d.address = some (name, port) ∧
            (d.address = d.target.host ++ ":" ++ port.repr ↔ d.target.IsPlain) := by
  constructor
  · intro a
    rw [Request.tunnelTarget_eq_ok_iff]
    constructor
    · rintro ⟨names, present, port, read⟩
      exact ⟨names, present, port, Uri.Authority.lt_of_port? read, read⟩
    · rintro ⟨names, present, port, -, read⟩
      exact ⟨names, present, port, read⟩
  · intro d
    rw [handle_dials_iff]
    constructor
    · rintro ⟨connect, found, numbered⟩
      obtain ⟨-, present, port, read⟩ := Request.tunnelTarget_eq_ok_iff.mp found
      obtain ⟨name, reached⟩ := Uri.Authority.exists_nameAndPort? read
      exact ⟨connect, found, numbered, name, port, read, reached,
        Uri.Authority.text_eq_iff present read⟩
    · rintro ⟨connect, found, numbered, -⟩
      exact ⟨connect, found, numbered⟩

/-- A client asks for a host and names a user before it.  What is looked up is both together. -/
theorem dials_user :
    let a : Uri.Authority := ⟨"user@example.com:443"⟩
    Uri.ofOctets (Octets.ofString a.text) = .ok ⟨some a, ""⟩ ∧ a.host = "example.com" ∧
      a.port? = some 443 ∧
      ∀ outcome takeover, ∃ d,
        (handle {} ⟨"CONNECT", ⟨some a, ""⟩, [], []⟩ outcome takeover).2.2 = some d ∧
          d.address ≠ a.host ++ ":" ++ (443).repr ∧
          Uri.Authority.nameAndPort? d.address = some ("user@example.com", 443) := by
  intro a
  refine ⟨by decide +kernel, by decide +kernel, by decide +kernel, fun outcome takeover => ?_⟩
  refine ⟨⟨1, a⟩, handle_dials_iff.mpr ⟨rfl, by decide +kernel, rfl⟩, by decide +kernel,
    by decide +kernel⟩

end TunnelEngine

end Tollgate
