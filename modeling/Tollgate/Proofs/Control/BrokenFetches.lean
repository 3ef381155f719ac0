import Tollgate.Proofs.Control.KeyPaths

/-! # Two ways to the keys, and fetches that break off

A fetch breaks off if a key has to be made and its end is no date that can be named.  A gate that
fetches over HTTP then finds that nothing arrives, and refuses the token.  A gate that fetches in
process breaks off itself.  This is all the difference that there is: a fetch that breaks off changes
neither the server nor a cache, so that the two gates stay in step (`GatePair.InStep.present?`), and
either both fetches break off or none does.
-/

namespace Tollgate

/-! ## Dates -/

namespace Authority

variable {a : Authority FleetStore} {c : AuthorityConfig} {now : Instant} {fresh fresh' : NewKey}

theorem lacksDates_of_named (named : fresh.Named) :
    a.lacksDates now fresh = ((a.current.live? now).isNone && !a.config.datesKey now) := by
  obtain ⟨id, secret, rfl, -⟩ := named
  simp [lacksDates, Except.isOk, Except.toBool]

/-- Once a key was made it is there for whoever comes at the same time. -/
theorem lacksDates_publishableKeys (fleet : a.OverFleet c) (named : fresh.Named) :
    (a.publishableKeys now fresh).2.lacksDates now fresh' = false := by
  obtain ⟨key, current, live⟩ : ∃ key, (a.currentKey now fresh).1 = .ok key ∧
      (a.currentKey now fresh).2.current.live? now = some key := exists_currentKey fleet named
  rw [publishableKeys_of_current fleet current]
  simp only [lacksDates, purged, live, Option.isNone_some, Bool.false_and]

end Authority

namespace ControlServer

variable {s : ControlServer} {c : AuthorityConfig} {now : Instant} {d : Draws} {request : Request}

theorem interrupted?_of_asksForKeys (s : ControlServer) (now : Instant) (d : Draws)
    (asks : request.AsksForKeys) :
    s.interrupted? now d request = if s.authority.lacksDates now d.key then some s else none := by
  rw [interrupted?, route_of_asksForKeys asks]
  rfl

/-- Whoever asks for the keys is shown some, or one had to be made that does not have its dates. -/
theorem meet_of_asksForKeys (kept : s.authority.WellKept c now)
    (dated : Instant.inRange now.nanos = true) (named : d.key.Named) (asks : request.AsksForKeys) :
    ((s.meet ⟨now, d, request⟩).1 = none ∧ c.datesKey now = false) ∨
      ∃ key records, s.Shows now d request key records ∧
        (s.meet ⟨now, d, request⟩).1 =
          some (Response.json 200 (listing "keys" (records.map PublishedKey.render))) := by
  have broken := s.interrupted?_of_asksForKeys now d asks
  cases lacks : s.authority.lacksDates now d.key with
  | true =>
    rw [lacks, if_pos rfl] at broken
    rw [Authority.lacksDates_of_named named, kept.fleet.config, Bool.and_eq_true,
      Bool.not_eq_true'] at lacks
    exact .inl ⟨congrArg Prod.fst (meet_of_interrupted broken), lacks.2⟩
  | false =>
    rw [lacks, if_neg Bool.false_ne_true] at broken
    obtain ⟨key, records, shows⟩ := exists_shows kept dated named asks
    have met : s.meet ⟨now, d, request⟩ = _ := meet_of_uninterrupted broken
    refine .inr ⟨key, records, shows, ?_⟩
    rw [met]
    exact congrArg some shows.response

end ControlServer

/-! ## Fetches -/

/-- What a fetch gives that may break off.  Over HTTP there is an answer all the same, namely that
    nothing arrived, for some reason. -/
def KeyPath.fetch? (s : ControlServer) (p : Presentation) (reason : String) :
    KeyPath → Option KeyAnswer × ControlServer
  | .http =>
    match s.meet ⟨p.now, p.draws, p.request⟩ with
    | (some response, s) => (some (keyAnswer response.delivered), s)
    | (none, s) => (some (keyAnswer (.error reason)), s)
  | .inProcess =>
    if s.authority.lacksDates p.now p.fresh then (none, s)
    else
      let (answer, s) := KeyPath.inProcess.fetch s p
      (some answer, s)

namespace KeyPath

variable {s : ControlServer} {p : Presentation} {path : KeyPath}

theorem authority_fetch (asks : p.request.AsksForKeys) :
    (path.fetch s p).2.authority = (s.authority.publishableKeys p.now (path.fresh p)).2 := by
  cases path with
  | http =>
    simp only [fetch, ControlServer.serve_of_asksForKeys asks, ControlServer.keySet_authority]
    rfl
  | inProcess =>
    simp only [fetch, Authority.publicKeys, fresh]
    generalize s.authority.publishableKeys p.now p.fresh = outcome
    obtain ⟨result, authority⟩ := outcome
    cases result <;> rfl

theorem fetch?_of_whole (reason : String) (asks : p.request.AsksForKeys)
    (whole : s.authority.lacksDates p.now (path.fresh p) = false) :
    path.fetch? s p reason = (some (path.fetch s p).1, (path.fetch s p).2) := by
  cases path with
  | http =>
    have answered : s.interrupted? p.now p.draws p.request = none := by
      rw [s.interrupted?_of_asksForKeys _ _ asks]
      exact if_neg (Bool.eq_false_iff.mp whole)
    have met : s.meet ⟨p.now, p.draws, p.request⟩ = _ :=
      ControlServer.meet_of_uninterrupted answered
    simp only [fetch?, met]
    rfl
  | inProcess => exact if_neg (Bool.eq_false_iff.mp whole)

/-- A fetch that breaks off leaves the server as it was.  In process there is no answer, and over HTTP
    it is a fault. -/
theorem fetch?_of_lacksDates (reason : String) (asks : p.request.AsksForKeys)
    (lacks : s.authority.lacksDates p.now (path.fresh p) = true) :
    ∃ answer fault, path.fetch? s p reason = (answer, s) ∧
      answer.getD (.error (.unavailable reason)) = .error fault ∧
      (path = .inProcess → answer = none) := by
  cases path with
  | http =>
    have broken : s.interrupted? p.now p.draws p.request = some s := by
      rw [s.interrupted?_of_asksForKeys _ _ asks]
      exact if_pos lacks
    have met : s.meet ⟨p.now, p.draws, p.request⟩ = _ := ControlServer.meet_of_interrupted broken
    refine ⟨some (keyAnswer (.error reason)), _, ?_, rfl, nofun⟩
    simp only [fetch?, met]
  | inProcess => exact ⟨none, _, if_pos lacks, rfl, fun _ => rfl⟩

end KeyPath

/-- A source that has no keys to give leaves the cache as it is. -/
theorem GateConfig.authorize_fault (g : GateConfig) (h : Headers) (cache : KeyCache)
    (r : RevokedSet) (now : Instant) (fault : ProviderFault) :
    (g.authorize h cache r now (.error fault)).2.1 = cache := by
  unfold authorize
  cases g.present h now with
  | error refusal => rfl
  | ok shown =>
    cases shown with
    | unsigned token claims => rfl
    | signed token key =>
      simp only [KeyCache.resolve_eq]
      cases Sorted.find? key cache.value <;> rfl

/-! ## Gates -/

namespace GatePair

/-- The verdict of one gate, unless it breaks off.  What is put in the place of an answer that there
    is none of matters to nobody. -/
def authorize? (g : GateConfig) (reason : String) (pair : GatePair) (p : Presentation)
    (path : KeyPath) : Option Verdict × GatePair :=
  let (answer, server) := path.fetch? pair.server p reason
  let (verdict, cache, fetched) := g.authorize p.headers (pair.cache path) pair.server.revoked p.now
    (answer.getD (.error (.unavailable reason)))
  (if fetched && answer.isNone then none else some verdict,
    { server := if fetched then server else pair.server
      cache := fun owner => if owner = path then cache else pair.cache owner })

/-- What `present` gives if fetches may break off. -/
def present? (g : GateConfig) (reason : String) (pair : GatePair) (p : Presentation) :
    (Option Verdict × Option Verdict) × GatePair :=
  let (verdict, pair) := pair.authorize? g reason p p.first
  let (verdict', pair) := pair.authorize? g reason p p.first.other
  ((verdict, verdict'), pair)

/-- What `step` leaves if requests, visits and fetches may break off.  A visitor for whom no key can be
    made leaves the authority as it was.  One who gets no token for want of a date at which it ends
    leaves what `visit` does. -/
def meet (g : GateConfig) (reason : String) (pair : GatePair) : Event → GatePair
  | .served now draws request =>
    { pair with server := (pair.server.meet ⟨now, draws, request⟩).2 }
  | .visited v =>
    if pair.server.authority.lacksDates v.now v.fresh then pair else pair.step g (.visited v)
  | .revoked now ids => pair.step g (.revoked now ids)
  | .presented p => (pair.present? g reason p).2

def left (g : GateConfig) (reason : String) (pair : GatePair) (events : List Event) : GatePair :=
  events.foldl (meet g reason) pair

variable {c : AuthorityConfig} {g : GateConfig} {reason : String} {pair : GatePair}
  {p : Presentation} {path : KeyPath}

theorem authorize?_of_whole (g : GateConfig) (reason : String) (asks : p.request.AsksForKeys)
    (whole : pair.server.authority.lacksDates p.now (path.fresh p) = false) :
    pair.authorize? g reason p path =
      (some (pair.authorize g p path).1, (pair.authorize g p path).2) := by
  simp only [authorize?, KeyPath.fetch?_of_whole reason asks whole, authorize, Option.getD_some,
    Option.isNone_some, Bool.and_false, Bool.false_eq_true, if_false]

theorem cache_kept (pair : GatePair) (path : KeyPath) :
    (fun owner => if owner = path then pair.cache path else pair.cache owner) = pair.cache := by
  funext owner
  split
  · next own => rw [own]
  · rfl

/-- A gate that needs no keys is not concerned. -/
theorem authorize?_of_unfetched {answer : KeyAnswer} {verdict : Verdict} {cache : KeyCache}
    (decided : g.authorize p.headers (pair.cache path) pair.server.revoked p.now answer =
      (verdict, cache, false)) : (pair.authorize? g reason p path).1 = some verdict := by
  have same := GateConfig.authorize_of_unfetched (by rw [decided])
    ((path.fetch? pair.server p reason).1.getD (.error (.unavailable reason)))
  simp only [authorize?, same, decided, Bool.false_and, Bool.false_eq_true, if_false]

/-- Where a fetch breaks off nothing changes, and in process there is no verdict but one that needs no
    keys. -/
theorem authorize?_of_lacksDates (g : GateConfig) (reason : String)
    (asks : p.request.AsksForKeys)
    (lacks : pair.server.authority.lacksDates p.now (path.fresh p) = true) :
    (pair.authorize? g reason p path).2 = pair ∧
      (path = .inProcess → ∀ verdict, (pair.authorize? g reason p path).1 = some verdict →
        ∃ answer cache, g.authorize p.headers (pair.cache path) pair.server.revoked p.now answer =
          (verdict, cache, false)) := by
  obtain ⟨answer, fault, fetched, fails, absent⟩ :=
    KeyPath.fetch?_of_lacksDates reason asks lacks
  have cached := g.authorize_fault p.headers (pair.cache path) pair.server.revoked p.now fault
  obtain ⟨verdict, cache, asked, decided⟩ : ∃ verdict cache asked, g.authorize p.headers
      (pair.cache path) pair.server.revoked p.now (.error fault) = (verdict, cache, asked) :=
    ⟨_, _, _, rfl⟩
  simp only [decided] at cached
  simp only [authorize?, fetched, fails, decided, cached, cache_kept, ite_self, true_and]
  intro own verdict' given
  -- A verdict that was reached without asking stands; one that needed the key set does not come.
  cases asked with
  | true =>
    rw [absent own] at given
    contradiction
  | false =>
    obtain rfl := Option.some.inj given
    exact ⟨_, _, decided⟩

namespace InStep

theorem lacksDates_fresh (sound : Event.Sound (.presented p)) (path path' : KeyPath) :
    pair.server.authority.lacksDates p.now (path.fresh p) =
      pair.server.authority.lacksDates p.now (path'.fresh p) := by
  rw [Authority.lacksDates_of_named (sound.2.1 path), Authority.lacksDates_of_named (sound.2.1 path')]

/-- A verdict that is reached in process although fetches break off needs no keys, so that it is
    reached over HTTP as well. -/
theorem authorize?_eq_inProcess (inStep : pair.InStep c p.now)
    (sound : Event.Sound (.presented p))
    (lacks : pair.server.authority.lacksDates p.now p.fresh = true) {verdict : Verdict}
    (given : (pair.authorize? g reason p .inProcess).1 = some verdict) (path : KeyPath) :
    (pair.authorize? g reason p path).1 = some verdict := by
  obtain ⟨answer, cache, decided⟩ :=
    (authorize?_of_lacksDates g reason sound.2.2 lacks).2 rfl verdict given
  cases path with
  | http => exact authorize?_of_unfetched (inStep.same ▸ decided)
  | inProcess => exact given

theorem present?_of_lacksDates (g : GateConfig) (reason : String) (inStep : pair.InStep c p.now)
    (sound : Event.Sound (.presented p))
    (lacks : pair.server.authority.lacksDates p.now p.fresh = true) :
    (pair.present? g reason p).2 = pair ∧
      ∀ verdict verdict', (pair.present? g reason p).1 = (some verdict, some verdict') →
        verdict = verdict' := by
  have unchanged : ∀ path, (pair.authorize? g reason p path).2 = pair := fun path =>
    (authorize?_of_lacksDates g reason sound.2.2 (lacksDates_fresh sound .inProcess path ▸ lacks)).1
  have presented : pair.present? g reason p = (((pair.authorize? g reason p p.first).1,
      (pair.authorize? g reason p p.first.other).1), pair) := by
    simp only [present?, unchanged]
  rw [presented]
  refine ⟨rfl, fun verdict verdict' given => ?_⟩
  obtain ⟨first, second⟩ := Prod.mk.inj given
  cases order : p.first with
  | http =>
    rw [order] at first second
    exact Option.some.inj (first.symm.trans (authorize?_eq_inProcess inStep sound lacks second _))
  | inProcess =>
    rw [order] at first second
    exact Option.some.inj ((authorize?_eq_inProcess inStep sound lacks first _).symm.trans second)

/-- What the first gate fetches does not make the second one break off. -/
theorem lacksDates_authorize (g : GateConfig) (inStep : pair.InStep c p.now)
    (sound : Event.Sound (.presented p))
    (whole : pair.server.authority.lacksDates p.now p.fresh = false) (path path' : KeyPath) :
    (pair.authorize g p path).2.server.authority.lacksDates p.now (path'.fresh p) = false := by
  simp only [authorize]
  split
  · rw [KeyPath.authority_fetch sound.2.2]
    exact Authority.lacksDates_publishableKeys inStep.kept.fleet (sound.2.1 path)
  · rw [lacksDates_fresh sound path' .inProcess]
    exact whole

theorem present?_of_whole (g : GateConfig) (reason : String) (inStep : pair.InStep c p.now)
    (sound : Event.Sound (.presented p))
    (whole : pair.server.authority.lacksDates p.now p.fresh = false) :
    pair.present? g reason p =
      ((some (pair.present g p).1.1, some (pair.present g p).1.2), (pair.present g p).2) := by
  have first := authorize?_of_whole g reason sound.2.2
    (lacksDates_fresh sound .inProcess p.first ▸ whole)
  have second := authorize?_of_whole g reason sound.2.2
    (lacksDates_authorize g inStep sound whole p.first p.first.other)
  simp only [GatePair.present?, first, second]
  rfl

/-- Two gates that are in step stay so, and come to the same verdict if both come to one.  They do if
    a key that is made now has its dates. -/
theorem present? (g : GateConfig) (reason : String) (inStep : pair.InStep c p.now)
    (sound : Event.Sound (.presented p)) :
    (pair.present? g reason p).2.InStep c p.now ∧
      (∀ verdict verdict', (pair.present? g reason p).1 = (some verdict, some verdict') →
        verdict = verdict') ∧
      (c.datesKey p.now = true →
        ∃ verdict, (pair.present? g reason p).1 = (some verdict, some verdict)) := by
  cases lacks : pair.server.authority.lacksDates p.now p.fresh with
  | true =>
    obtain ⟨unchanged, equal⟩ := present?_of_lacksDates g reason inStep sound lacks
    refine ⟨by rwa [unchanged], equal, fun dated => ?_⟩
    rw [Authority.lacksDates, inStep.kept.fleet.config, dated] at lacks
    simp at lacks
  | false =>
    obtain ⟨same, after⟩ := inStep.present (g := g) sound
    rw [present?_of_whole g reason inStep sound lacks, same]
    refine ⟨after, fun verdict verdict' given => ?_, fun _ => ⟨_, rfl⟩⟩
    obtain ⟨first, second⟩ := Prod.mk.inj given
    exact Option.some.inj (first.symm.trans second)

/-- Whatever comes to pass and wherever it breaks off, the two gates stay in step. -/
theorem meet {e : Event} (inStep : pair.InStep c e.now) (sound : e.Sound) :
    (pair.meet g reason e).InStep c e.now := by
  cases e with
  | served now draws request =>
    refine ⟨?_, inStep.same⟩
    rw [GatePair.meet]
    obtain same | same := pair.server.meet_cases ⟨now, draws, request⟩
    · rw [same]
      exact ControlServer.serve_wellKept inStep.kept sound.1 sound.2 request
    · rw [same]
      exact inStep.kept
  | visited v =>
    rw [GatePair.meet]
    split
    · exact inStep
    · exact inStep.step sound
  | revoked now ids => exact ⟨inStep.kept, inStep.same⟩
  | presented p => exact (inStep.present? g reason sound).1

end InStep

theorem keepsStep_meet (c : AuthorityConfig) (g : GateConfig) (reason : String) :
    KeepsStep c (meet g reason) :=
  fun _ _ inStep sound => inStep.meet sound

end GatePair

/-! ## Runs -/

section Runs

variable {c : ControlConfig} {a : AuthorityConfig} {begin : Instant}
  (valid : c.validate a begin = .ok ()) (g : GateConfig) (reason : String)
  {events : List GatePair.Event}
include valid

/-- Two gates come to the same verdict on every token, whatever broke off before, if both come to one.
    They do if a key that is made at that time has its dates. -/
theorem GatePair.same_verdicts_left (p : Presentation)
    (orderly : GatePair.Orderly (events ++ [.presented p])) :
    let verdicts := (((GatePair.start c a).left g reason events).present? g reason p).1
    (∀ verdict verdict', verdicts = (some verdict, some verdict') → verdict = verdict') ∧
      (a.datesKey p.now = true → ∃ verdict, verdicts = (some verdict, some verdict)) := by
  have inStep := inStep_before valid (keepsStep_meet a g reason) orderly
  exact (inStep.present? g reason (orderly.sound _ (by simp))).2

/-- Whoever asks for the published keys after that is shown some, with the current key among them,
    unless a key has to be made for it that does not have its dates. -/
theorem GatePair.shown_left {now : Instant} {draws : Draws} {request : Request}
    (orderly : GatePair.Orderly (events ++ [.served now draws request]))
    (asks : request.AsksForKeys) :
    let server := ((GatePair.start c a).left g reason events).server
    ((server.meet ⟨now, draws, request⟩).1 = none ∧ a.datesKey now = false) ∨
      ∃ key records, server.Shows now draws request key records ∧
        (server.meet ⟨now, draws, request⟩).1 = some (Response.json 200
          (ControlServer.listing "keys" (records.map PublishedKey.render))) := by
  have inStep := inStep_before valid (keepsStep_meet a g reason) orderly
  have sound : GatePair.Event.Sound (.served now draws request) := orderly.sound _ (by simp)
  exact ControlServer.meet_of_asksForKeys inStep.kept sound.1 sound.2 asks

end Runs

end Tollgate
