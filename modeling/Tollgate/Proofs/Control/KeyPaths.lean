import Tollgate.Proofs.Admission.OwnTokens
import Tollgate.Proofs.Control.Attempts

/-! # Two ways to the keys

A gate gets its keys from a control server, either over HTTP or in the same process from the
authority.  The two ways have faults of their own: an empty key set is an answer like any other in
process, and a refusal over HTTP.  Here two gates with the same settings stand side by side in front
of one control server, each with a cache of its own, and every token is presented to both.

The invariant is `GatePair.InStep`: the authority is well kept, and the caches are equal.  Then the
two gates fetch at the same time or not at all.  If they do, the first of them may make a new
key, but the second finds it made, so that both get the same list: `GatePair.InStep.present`.
-/

namespace Tollgate

/-! ## Two gates -/

inductive KeyPath where
  | http
  | inProcess
  deriving DecidableEq, Repr

def KeyPath.other : KeyPath → KeyPath
  | .http => .inProcess
  | .inProcess => .http

abbrev Verdict := Except Refusal AuthorizedToken

structure Presentation where
  now : Instant
  headers : Headers
  /-- What is sent if keys are fetched over HTTP. -/
  request : Request
  draws : Draws
  /-- The key that is made, if one has to be, if keys are fetched in process. -/
  fresh : NewKey
  first : KeyPath

def KeyPath.fetch (s : ControlServer) (p : Presentation) : KeyPath → KeyAnswer × ControlServer
  | .http =>
    let (response, s) := s.serve p.now p.draws p.request
    (keyAnswer response.delivered, s)
  | .inProcess =>
    let (answer, authority) := s.authority.publicKeys p.now p.fresh
    (answer, { s with authority })

def KeyPath.fresh (p : Presentation) : KeyPath → NewKey
  | .http => p.draws.key
  | .inProcess => p.fresh

/-- A control server and two gates, each with the keys that it fetched last.  They share the list of
    revoked tokens. -/
structure GatePair where
  server : ControlServer
  cache : KeyPath → KeyCache := fun _ => .empty

namespace GatePair

inductive Event where
  /-- Somebody sends a request to the control server, for a token for example. -/
  | served (now : Instant) (draws : Draws) (request : Request)
  | visited (visit : Visit)
  | revoked (now : Instant) (ids : List TokenId)
  | presented (p : Presentation)

def Event.now : Event → Instant
  | .served now _ _ => now
  | .visited v => v.now
  | .revoked now _ => now
  | .presented p => p.now

def start (c : ControlConfig) (a : AuthorityConfig) : GatePair := { server := .start c a }

/-- The verdict of one gate.  The control server is asked only if the gate fetches keys. -/
def authorize (g : GateConfig) (pair : GatePair) (p : Presentation) (path : KeyPath) :
    Verdict × GatePair :=
  let (answer, server) := path.fetch pair.server p
  let (verdict, cache, fetched) :=
    g.authorize p.headers (pair.cache path) pair.server.revoked p.now answer
  (verdict, { server := if fetched then server else pair.server
              cache := fun owner => if owner = path then cache else pair.cache owner })

def present (g : GateConfig) (pair : GatePair) (p : Presentation) :
    (Verdict × Verdict) × GatePair :=
  let (verdict, pair) := pair.authorize g p p.first
  let (verdict', pair) := pair.authorize g p p.first.other
  ((verdict, verdict'), pair)

def step (g : GateConfig) (pair : GatePair) : Event → GatePair
  | .served now draws request => { pair with server := (pair.server.serve now draws request).2 }
  | .visited v =>
    { pair with server := { pair.server with authority := (pair.server.authority.visit v).2 } }
  | .revoked _ ids =>
    { pair with server := { pair.server with revoked := (pair.server.revoked.extend ids).2 } }
  | .presented p => (pair.present g p).2

def after (g : GateConfig) (pair : GatePair) (events : List Event) : GatePair :=
  events.foldl (step g) pair

def verdicts (g : GateConfig) (pair : GatePair) : List Event → List (Verdict × Verdict)
  | [] => []
  | .presented p :: rest => (pair.present g p).1 :: ((pair.present g p).2).verdicts g rest
  | e :: rest => (pair.step g e).verdicts g rest

/-- What is supposed of an event: the clock shows a date that can be named, keys can be made and get
    names that are not empty, and keys are fetched over HTTP from where they are served. -/
def Event.Sound : Event → Prop
  | .served now draws _ => Instant.inRange now.nanos = true ∧ draws.key.Named
  | .visited v => Instant.inRange v.now.nanos = true ∧ v.fresh.Named
  | .revoked now _ => Instant.inRange now.nanos = true
  | .presented p =>
    Instant.inRange p.now.nanos = true ∧ (∀ path : KeyPath, (path.fresh p).Named) ∧
      p.request.AsksForKeys

structure Orderly (events : List Event) : Prop where
  sound : ∀ e ∈ events, e.Sound
  chronological : events.Pairwise fun e f => e.now.nanos ≤ f.now.nanos

/-- The invariant: the two caches are equal, and the authority is well kept. -/
structure InStep (c : AuthorityConfig) (pair : GatePair) (now : Instant) : Prop where
  kept : pair.server.authority.WellKept c now
  same : pair.cache .http = pair.cache .inProcess

variable {c : AuthorityConfig} {g : GateConfig} {pair : GatePair} {p : Presentation}

/-- Both ways lead to the same keys. -/
theorem fetch_eq {s : ControlServer} {path : KeyPath} {records : List PublishedKey}
    {authority : Authority FleetStore}
    (listed : s.authority.publishableKeys p.now (path.fresh p) = (.ok records, authority))
    (nonempty : records ≠ []) (readable : ∀ record ∈ records, record.Readable)
    (asks : p.request.AsksForKeys) :
    path.fetch s p = (.ok (keyMap records), { s with authority }) := by
  cases path with
  | http =>
    simp only [KeyPath.fetch, ControlServer.serve_of_asksForKeys asks,
      ControlServer.keySet_of_publishableKeys listed nonempty]
    exact congrArg (·, _) (keyAnswer_listing readable)
  | inProcess =>
    simp only [KeyPath.fresh] at listed
    simp only [KeyPath.fetch, Authority.publicKeys, listed]

theorem authorize_of_fetch {path : KeyPath} {answer : KeyAnswer} {server : ControlServer}
    {verdict : Verdict} {cache : KeyCache} {asked : Bool}
    (fetched : path.fetch pair.server p = (answer, server))
    (decided : g.authorize p.headers (pair.cache path) pair.server.revoked p.now answer =
      (verdict, cache, asked)) :
    pair.authorize g p path =
      (verdict, { server := if asked then server else pair.server
                  cache := fun owner => if owner = path then cache else pair.cache owner }) := by
  simp only [authorize, fetched, decided]

namespace InStep

theorem cache_other (inStep : pair.InStep c p.now) (path : KeyPath) :
    pair.cache path.other = pair.cache path := by
  cases path with
  | http => exact inStep.same.symm
  | inProcess => exact inStep.same

/-- The second gate comes to the same verdict and the same cache, if what it fetches is what the first
    one fetched. -/
theorem authorize_other (inStep : pair.InStep c p.now) {path : KeyPath}
    {server server' : ControlServer} {answer answer' : KeyAnswer} {verdict : Verdict}
    {cache : KeyCache} {asked : Bool} (shared : server.revoked = pair.server.revoked)
    (decided : g.authorize p.headers (pair.cache path) pair.server.revoked p.now answer =
      (verdict, cache, asked))
    (fetched : path.other.fetch server p = (answer', server'))
    (agreed : asked = true → answer' = answer ∧ server' = server) :
    GatePair.authorize g ⟨server, fun owner => if owner = path then cache else pair.cache owner⟩ p
      path.other = (verdict, ⟨server, fun _ => cache⟩) := by
  have apart : path.other ≠ path := by cases path <;> decide
  have decided' : g.authorize p.headers
      (if path.other = path then cache else pair.cache path.other) server.revoked p.now answer' =
      (verdict, cache, asked) := by
    rw [if_neg apart, inStep.cache_other, shared]
    -- With equal caches an answer matters to both gates or to none.
    cases asked with
    | false =>
      rw [← decided]
      exact GateConfig.authorize_of_unfetched (by rw [decided]) answer'
    | true => rw [(agreed rfl).1, decided]
  have settled : (if asked = true then server' else server) = server := by
    cases asked with
    | false => rfl
    | true => exact (agreed rfl).2
  have caches : (fun owner => if owner = path.other then cache
      else if owner = path then cache else pair.cache owner) = fun _ => cache := by
    funext owner
    cases owner <;> cases path <;> simp [KeyPath.other]
  have second := @authorize_of_fetch g
    ⟨server, fun owner => if owner = path then cache else pair.cache owner⟩ p _ _ _ _ _ _ fetched
    decided'
  rwa [settled, caches] at second

theorem present (inStep : pair.InStep c p.now) (sound : Event.Sound (.presented p)) :
    (pair.present g p).1.1 = (pair.present g p).1.2 ∧ (pair.present g p).2.InStep c p.now := by
  obtain ⟨dated, named, asks⟩ := sound
  obtain ⟨key, records, authority, publishes⟩ := inStep.kept.publishes dated (named p.first)
  have nonempty : records ≠ [] := List.ne_nil_of_mem publishes.mem
  have fetch := fetch_eq publishes.listed nonempty publishes.readable asks
  obtain ⟨verdict, cache, asked, decided⟩ : ∃ verdict cache asked, g.authorize p.headers
      (pair.cache p.first) pair.server.revoked p.now (.ok (keyMap records)) =
        (verdict, cache, asked) := ⟨_, _, _, rfl⟩
  have first := authorize_of_fetch fetch decided
  have second : ∃ server, server.authority.WellKept c p.now ∧
      pair.present g p = ((verdict, verdict), ⟨server, fun _ => cache⟩) := by
    cases asked with
    | false =>
      -- The second gate does not fetch either, whatever it would get.
      obtain ⟨_, records', authority', publishes'⟩ :=
        inStep.kept.publishes dated (named p.first.other)
      have fetch' := fetch_eq publishes'.listed (List.ne_nil_of_mem publishes'.mem)
        publishes'.readable asks
      have other := inStep.authorize_other rfl decided fetch' nofun
      refine ⟨pair.server, inStep.kept, ?_⟩
      simp only [GatePair.present, first, Bool.false_eq_true, if_false, other]
    | true =>
      -- If a key had to be made, the first fetch made it; the second one only repeats the listing.
      let server : ControlServer := { pair.server with authority }
      have fetch' : p.first.other.fetch server p = (.ok (keyMap records), server) :=
        fetch_eq (publishes.again _) nonempty publishes.readable asks
      have other := inStep.authorize_other (show server.revoked = pair.server.revoked from rfl)
        decided fetch' fun _ => ⟨rfl, rfl⟩
      refine ⟨server, publishes.kept, ?_⟩
      rw [GatePair.present, first, if_pos rfl]
      exact congrArg (fun outcome => ((verdict, outcome.1), outcome.2)) other
  obtain ⟨server, kept, same⟩ := second
  rw [same]
  exact ⟨rfl, kept, rfl⟩

theorem later {now later : Instant} (inStep : pair.InStep c now)
    (order : now.nanos ≤ later.nanos) : pair.InStep c later :=
  ⟨inStep.kept.later order, inStep.same⟩

/-- Whatever comes to pass, the two gates stay in step. -/
theorem step {e : Event} (inStep : pair.InStep c e.now) (sound : e.Sound) :
    (pair.step g e).InStep c e.now := by
  cases e with
  | served now draws request =>
    exact ⟨ControlServer.serve_wellKept inStep.kept sound.1 sound.2 request, inStep.same⟩
  | visited v => exact ⟨inStep.kept.visit sound.1 sound.2, inStep.same⟩
  | revoked now ids => exact ⟨inStep.kept, inStep.same⟩
  | presented p => exact (inStep.present sound).2

end InStep

/-! ## Runs -/

theorem Orderly.of_sublist {events some : List Event} (orderly : Orderly events)
    (among : some.Sublist events) : Orderly some :=
  ⟨fun e member => orderly.sound e (among.subset member), orderly.chronological.sublist among⟩

theorem Orderly.tail {e : Event} {events : List Event} (orderly : Orderly (e :: events)) :
    Orderly events :=
  orderly.of_sublist (List.sublist_cons_self e events)

/-- Gates that are in step stay so, if this is what an event leaves. -/
def KeepsStep (c : AuthorityConfig) (advance : GatePair → Event → GatePair) : Prop :=
  ∀ pair e, pair.InStep c e.now → e.Sound → (advance pair e).InStep c e.now

theorem keepsStep_step (c : AuthorityConfig) (g : GateConfig) : KeepsStep c (step g) :=
  fun _ _ inStep sound => inStep.step sound

variable {advance : GatePair → Event → GatePair}

theorem Orderly.inStep {e : Event} {events : List Event} (orderly : Orderly (e :: events))
    (keeps : KeepsStep c advance) (inStep : pair.InStep c e.now) :
    ∀ f ∈ events, (advance pair e).InStep c f.now :=
  fun f later => (keeps pair e inStep (orderly.sound e List.mem_cons_self)).later
    ((List.pairwise_cons.mp orderly.chronological).1 f later)

theorem foldl_inStep (keeps : KeepsStep c advance) {events : List Event} {last : Instant}
    (orderly : Orderly events) (past : ∀ e ∈ events, e.now.nanos ≤ last.nanos)
    (inStep : ∀ e ∈ events, pair.InStep c e.now) (atLast : pair.InStep c last) :
    (events.foldl advance pair).InStep c last := by
  induction events generalizing pair with
  | nil => exact atLast
  | cons e rest ih =>
    have first := inStep e List.mem_cons_self
    exact ih orderly.tail (fun f later => past f (List.mem_cons_of_mem e later))
      (orderly.inStep keeps first)
      ((keeps pair e first (orderly.sound e List.mem_cons_self)).later (past e List.mem_cons_self))

theorem verdicts_eq {events : List Event} (orderly : Orderly events)
    (inStep : ∀ e ∈ events, pair.InStep c e.now) : ∀ v ∈ pair.verdicts g events, v.1 = v.2 := by
  induction events generalizing pair with
  | nil => exact fun _ => nofun
  | cons e rest ih =>
    have first := inStep e List.mem_cons_self
    have later := ih orderly.tail (orderly.inStep (keepsStep_step c g) first)
    cases e with
    | served | visited | revoked => exact later
    | presented p =>
      intro v member
      obtain rfl | among := List.mem_cons.mp member
      · exact (first.present (orderly.sound _ List.mem_cons_self)).1
      · exact later v among

theorem inStep_start {c : ControlConfig} {a : AuthorityConfig} (signs : 0 < a.keyValidity.nanos)
    (lingers : 0 ≤ a.gracePeriod.nanos) (short : a.keyValidity.nanos ≤ Span.longest)
    (now : Instant) : (start c a).InStep a now where
  kept := {
    fleet := Relisting.overFleet_start signs lingers
    short
    covers := nofun
    increasing := .nil
    owned := nofun
    readable := nofun }
  same := rfl

/-- There is no record at first that could end, so that the gates are in step at whatever time. -/
theorem inStep_start_of_validate {c : ControlConfig} {a : AuthorityConfig} {begin : Instant}
    (valid : c.validate a begin = .ok ()) (now : Instant) : (start c a).InStep a now := by
  obtain ⟨-, -, authority, -⟩ := ControlConfig.validate_eq_ok_iff.mp valid
  obtain ⟨signs, lingers, fits, -⟩ := AuthorityConfig.validate_eq_ok_iff.mp authority
  have short : a.keyValidity.nanos ≤ Span.longest := by
    simp only [Span.inRange, Bool.and_eq_true, decide_eq_true_eq] at fits
    omega
  exact inStep_start signs lingers short now

theorem inStep_before {c : ControlConfig} {a : AuthorityConfig} {begin : Instant}
    (valid : c.validate a begin = .ok ()) (keeps : KeepsStep a advance) {events : List Event}
    {e : Event} (further : Orderly (events ++ [e])) :
    (events.foldl advance (start c a)).InStep a e.now := by
  have past := (List.pairwise_append.mp further.chronological).2.2
  exact foldl_inStep keeps (further.of_sublist (List.sublist_append_left _ _))
    (fun f member => past f member e List.mem_cons_self)
    (fun f _ => inStep_start_of_validate valid f.now) (inStep_start_of_validate valid e.now)

end GatePair

/-- Two gates, one with keys over HTTP and the other one with keys from the authority in process,
    come to the same verdict on every token, whatever else happens at the control server.  Whoever
    asks for the published keys after that is shown some, with the current key among them.  All
    requests are answered here; for those that break off see `same_verdicts_left`. -/
theorem GatePair.same_verdicts {c : ControlConfig} {a : AuthorityConfig} {begin : Instant}
    (valid : c.validate a begin = .ok ()) (g : GateConfig) {events : List GatePair.Event}
    (orderly : GatePair.Orderly events) :
    (∀ v ∈ (GatePair.start c a).verdicts g events, v.1 = v.2) ∧
    ∀ now draws request, GatePair.Orderly (events ++ [.served now draws request]) →
      request.AsksForKeys →
      ∃ key records,
        ((GatePair.start c a).after g events).server.Shows now draws request key records := by
  refine ⟨GatePair.verdicts_eq orderly fun e _ => GatePair.inStep_start_of_validate valid e.now,
    fun now draws request further asks => ?_⟩
  have asked : GatePair.Event.Sound (.served now draws request) :=
    further.sound _ (by simp)
  have inStep := GatePair.inStep_before valid (GatePair.keepsStep_step a g) further
  exact ControlServer.exists_shows inStep.kept asked.1 asked.2 asks

/-- A day at a control server: a token is issued and presented a second later, it is revoked, and it
    is presented again when its key has ended. -/
def GatePair.oneDay (secret : Rsa.PrivateKey) (token : Octets) : List GatePair.Event :=
  let get (path : String) : Request := ⟨"GET", ⟨none, path⟩, [], []⟩
  let presented (seconds : Int) (first : KeyPath) : Presentation :=
    ⟨.ofSeconds seconds, [("proxy-authorization", Octets.ofString "Bearer " ++ token)],
      get "/.well-known/jwks.json", ⟨.ok (⟨"b"⟩, secret), ⟨"1"⟩, ⟨"r"⟩⟩, .ok (⟨"c"⟩, secret), first⟩
  [.served (.ofSeconds 0) ⟨.ok (⟨"a"⟩, secret), ⟨"t"⟩, ⟨"r"⟩⟩ (get "/api/v1/token"),
    .presented (presented 1 .inProcess), .revoked (.ofSeconds 3) [⟨"t"⟩],
    .presented (presented 90000 .http)]

theorem GatePair.orderly_oneDay (secret : Rsa.PrivateKey) (token : Octets) :
    GatePair.Orderly (GatePair.oneDay secret token ++
      [.served (.ofSeconds 90001) ⟨.ok (⟨"d"⟩, secret), ⟨"2"⟩, ⟨"r"⟩⟩
        ⟨"GET", ⟨none, "/.well-known/jwks.json"⟩, [], []⟩]) := by
  have named : ∀ text : String, text ≠ "" → NewKey.Named (.ok (⟨text⟩, secret)) :=
    fun text nonempty => ⟨⟨text⟩, secret, rfl, nonempty⟩
  refine ⟨?_, ?_⟩
  · simp only [GatePair.oneDay, List.cons_append, List.nil_append, List.forall_mem_cons]
    refine ⟨⟨rfl, named "a" (by decide)⟩, ⟨rfl, ?_, rfl, rfl⟩, rfl, ⟨rfl, ?_, rfl, rfl⟩,
      ⟨rfl, named "d" (by decide)⟩, nofun⟩
    all_goals
      rintro (_ | _)
      · exact named "b" (by decide)
      · exact named "c" (by decide)
  · simp [GatePair.oneDay, GatePair.Event.now, Instant.ofSeconds, nanosPerSecond]

/-- The token that is issued at the beginning of the day is let through where it is presented first. -/
theorem GatePair.exists_admitted_oneDay {secret : Rsa.PrivateKey} (fit : secret.maySign = true)
    (vouches : secret.Vouches) : ∃ token admitted,
    ((GatePair.start {} {}).server.serve (.ofSeconds 0)
        ⟨.ok (⟨"a"⟩, secret), ⟨"t"⟩, ⟨"r"⟩⟩ ⟨"GET", ⟨none, "/api/v1/token"⟩, [], []⟩).1 =
      Response.json 200
        (Json.renderMembers [("token", Json.renderText (Octets.toTextLossy token))]) ∧
    ((GatePair.start {} {}).verdicts {} (GatePair.oneDay secret token)).head?.map Prod.fst =
      some (.ok admitted) := by
  obtain ⟨token, occurs⟩ := Showing.occurs_immediate [.connectTcp] fit vouches
  have unknown : ∀ capability ∈ [Capability.connectTcp], capability.name ∉ Claims.knownNames := by
    decide
  obtain ⟨admitted, passed⟩ : ∃ admitted,
      (Showing.immediate [.connectTcp] secret token).verdict = .ok admitted :=
    ⟨_, occurs.admitted unknown⟩
  rw [Showing.verdict, OwnGate.authorize_eq, occurs.genuine_shown.gate] at passed
  let draws : Draws := ⟨.ok (⟨"a"⟩, secret), ⟨"t"⟩, ⟨"r"⟩⟩
  let issued := (GatePair.start {} {}).server.issue (.ofSeconds 0) draws
  have authority : issued.2.authority =
      (Showing.immediate [.connectTcp] secret token).shown.authority :=
    ControlServer.issue_authority _ _ _
  have revoked : issued.2.revoked = .empty := ControlServer.issue_revoked _ _ _
  have visited : (Showing.immediate [.connectTcp] secret token).shown.authority =
      ((GatePair.start {} {}).server.authority.currentKey (.ofSeconds 0)
        (.ok (⟨"a"⟩, secret))).2 := Authority.perform_snd _ _ _ _ _
  -- The key signs for a day, so that whoever comes a second later makes none.
  have answer : (issued.2.authority.publicKeys (.ofSeconds 1) (.ok (⟨"c"⟩, secret))).1 =
      ((Showing.immediate [.connectTcp] secret token).shown.authority.publicKeys (.ofSeconds 1)
        (.error "")).1 := by
    rw [authority, visited]
    rfl
  let key : SigningKey := ⟨⟨"a"⟩, secret, .add (.ofSeconds 0) (.ofHours 24)⟩
  have made : (GatePair.start {} {}).server.authority.currentKey (.ofSeconds 0) draws.key =
      (.ok key, _) := rfl
  have signed : key.sign ((Claims.mint (GatePair.start {} {}).server.authority.config.issuer
      (GatePair.start {} {}).server.config.tokenValidity (.ofSeconds 0) draws.tokenId
      ).withCapabilities (GatePair.start {} {}).server.config.tokenCapabilities) = .ok token :=
    occurs.signed
  refine ⟨token, admitted, ?_, ?_⟩
  · show issued.1 = _
    simp only [issued, ControlServer.issue, Authority.issueToken, made]
    rw [signed]
  · rw [← passed]
    show some (GateConfig.authorize {} _ .empty issued.2.revoked _
      (issued.2.authority.publicKeys (.ofSeconds 1) (.ok (⟨"c"⟩, secret))).1).1 = _
    rw [answer, revoked]
    rfl

theorem GatePair.same_verdicts_oneDay : ∃ token admitted,
    ((GatePair.start {} {}).server.serve (.ofSeconds 0)
        ⟨.ok (⟨"a"⟩, Rsa.sampleKey), ⟨"t"⟩, ⟨"r"⟩⟩ ⟨"GET", ⟨none, "/api/v1/token"⟩, [], []⟩).1 =
      Response.json 200
        (Json.renderMembers [("token", Json.renderText (Octets.toTextLossy token))]) ∧
    ((GatePair.start {} {}).verdicts {} (GatePair.oneDay Rsa.sampleKey token)).head? =
      some (.ok admitted, .ok admitted) ∧
    (∀ v ∈ (GatePair.start {} {}).verdicts {} (GatePair.oneDay Rsa.sampleKey token), v.1 = v.2) ∧
    ∃ key records,
      ((GatePair.start {} {}).after {} (GatePair.oneDay Rsa.sampleKey token)).server.Shows
        (.ofSeconds 90001) ⟨.ok (⟨"d"⟩, Rsa.sampleKey), ⟨"2"⟩, ⟨"r"⟩⟩
        ⟨"GET", ⟨none, "/.well-known/jwks.json"⟩, [], []⟩ key records := by
  obtain ⟨token, admitted, issued, passed⟩ :=
    exists_admitted_oneDay Rsa.maySign_sampleKey Rsa.genuine_sampleKey.vouches
  have further := orderly_oneDay Rsa.sampleKey token
  have valid : ({} : ControlConfig).validate {} (.ofSeconds 0) = .ok () := rfl
  obtain ⟨same, shown⟩ := GatePair.same_verdicts valid {}
    (further.of_sublist (List.sublist_append_left _ _))
  refine ⟨token, admitted, issued, ?_, same, shown _ _ _ further ⟨rfl, rfl⟩⟩
  obtain ⟨v, first, vouched⟩ := Option.map_eq_some_iff.mp passed
  have equal := same v (List.mem_of_head? first)
  rw [first]
  exact congrArg some (Prod.ext vouched (equal.symm.trans vouched))

end Tollgate
