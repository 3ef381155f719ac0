import Tollgate.Control.Client
import Tollgate.Proofs.Admission.Gate
import Tollgate.Proofs.Proxy.AdminRoute

/-! # Where a proxy sends its questions

A proxy shares a secret with its control server and sends it along with its questions, so that it
matters where they go.  The settings are checked for the scheme of the control server's URL, which
is what stands before `://`; the client takes all slashes from the end of that URL and puts a path
behind it.  `ControlClient.leads_iff` states what comes of the two together: outside insecure mode
every question goes over `https` to the host that was configured, if one was.  It does not without:
of the URL `https://`, which passes the check, the client leaves `https:`, and asks
`https:/api/v1/revoked` (`ControlClient.astray`).
-/

namespace Tollgate

/-! ## Parts of a URL -/

def HasHttpsHost (url : String) : Prop :=
  ∃ c rest, url.toList = "https://".toList ++ c :: rest ∧ c ≠ '/'

/-- The host in a URL that begins with `https://`, where it is known which characters end it. -/
def httpsHost? (ends : Char → Bool) (url : String) : Option (List Char) :=
  if "https://".toList <+: url.toList then
    some ((url.toList.drop "https://".length).takeWhile fun c => !ends c)
  else none

/-- A URL leads to a path at a configured host, and nowhere else. -/
structure Leads (configured path url : String) : Prop where
  begins : HasHttpsHost url
  /-- Whatever else may end a host besides a slash, it is the configured one. -/
  host : ∀ ends : Char → Bool, ends '/' = true → httpsHost? ends url = httpsHost? ends configured
  /-- There is no slash more before the path. -/
  path : ∃ base, url = base ++ path ∧ base.toList.getLast? ≠ some '/'

theorem httpsHost?_eq {url : String} {rest : List Char}
    (begins : url.toList = "https://".toList ++ rest) (ends : Char → Bool) :
    httpsHost? ends url = some (rest.takeWhile fun c => !ends c) := by
  have marked : "https://".toList <+: url.toList := ⟨rest, begins.symm⟩
  have behind : url.toList.drop "https://".length = rest := by
    rw [begins]
    exact List.drop_left
  rw [httpsHost?, if_pos marked, behind]

/-- The scheme is what stands before `://`. -/
theorem ControlLink.of_schemeOf? {cs scheme : List Char} (found : schemeOf? cs = some scheme) :
    ∃ rest, cs = scheme ++ "://".toList ++ rest := by
  fun_induction schemeOf? generalizing scheme with
  | case1 => contradiction
  | case2 rest =>
    cases found
    exact ⟨rest, rfl⟩
  | case3 c cs _ ih =>
    obtain ⟨inner, before, rfl⟩ := Option.map_eq_some_iff.mp found
    obtain ⟨rest, rfl⟩ := ih before
    exact ⟨rest, rfl⟩

/-- Outside insecure mode, the URL of a control server that passes the check begins with
    `https://`. -/
theorem ControlLink.begins_of_validate {c : ProxyConfig} {link : ControlLink}
    (accepted : c.validate = .ok ()) (controlled : c.control = some link)
    (secure : c.insecure = false) : ∃ rest, link.url.toList = "https://".toList ++ rest := by
  obtain ⟨checked, -⟩ := ProxyConfig.validate_eq_ok_iff.mp accepted
  have passed : ProxyConfig.validateUrl false link = .ok () := by
    rw [ProxyConfig.validateControl, controlled, secure] at checked
    cases passed : ProxyConfig.validateUrl false link with
    | ok _ => rfl
    | error fault => simp [passed, bind, Except.bind] at checked
  unfold ProxyConfig.validateUrl at passed
  split at passed
  · contradiction
  · next scheme found =>
    -- The only other scheme that is known is insecure.
    obtain rfl : scheme = "https" := by
      split at passed
      · next same => exact same
      · split at passed <;> contradiction
    obtain ⟨cs, split, named⟩ := Option.map_eq_some_iff.mp found
    obtain ⟨rest, whole⟩ := of_schemeOf? split
    refine ⟨rest, whole.trans ?_⟩
    rw [← String.toList_ofList (l := cs), named]
    rfl

/-- The slashes at the end of a text, and what is left without them. -/
theorem exists_withoutFinalSlashes (s : String) :
    ∃ slashes, s.toList = (withoutFinalSlashes s).toList ++ slashes ∧ (∀ c ∈ slashes, c = '/') ∧
      (withoutFinalSlashes s).toList.getLast? ≠ some '/' := by
  refine ⟨(s.toList.reverse.takeWhile (· = '/')).reverse, ?_, fun c member => ?_, fun last => ?_⟩
  · unfold withoutFinalSlashes
    rw [String.toList_ofList, ← List.reverse_append, List.takeWhile_append_dropWhile,
      List.reverse_reverse]
  · simpa using List.all_eq_true.mp List.all_takeWhile c (List.mem_reverse.mp member)
  · unfold withoutFinalSlashes at last
    rw [String.toList_ofList, List.getLast?_reverse] at last
    simpa using head?_dropWhile last

/-- A host ends at the latest where slashes begin. -/
theorem takeWhile_append_of_slash {ends : Char → Bool} (slash : ends '/' = true)
    (host : List Char) {behind : List Char} (first : ∀ c, behind.head? = some c → c = '/') :
    (host ++ behind).takeWhile (fun c => !ends c) = host.takeWhile fun c => !ends c := by
  induction host with
  | nil =>
    cases behind with
    | nil => rfl
    | cons c behind => simp [first c rfl, slash]
  | cons c host ih => simp only [List.cons_append, List.takeWhile_cons, ih]

/-- A path begins with one slash. -/
theorem Question.path_eq (q : Question) :
    ∃ c rest, q.path.toList = '/' :: c :: rest ∧ c ≠ '/' := by
  cases q with
  | deregister token =>
    refine ⟨'a', "pi/v1/server/".toList ++ token.text.toList, ?_, by decide⟩
    rw [path, String.toList_append]
    rfl
  | publishedKeys => exact ⟨'.', "well-known/jwks.json".toList, rfl, by decide⟩
  | alive => exact ⟨'a', "pi/v1/health".toList, rfl, by decide⟩
  | servers => exact ⟨'a', "pi/v1/servers".toList, rfl, by decide⟩
  | register server =>
    refine ⟨'a', "pi/v1/server".toList, ?_, by decide⟩
    rw [path]
    rfl
  | revoked => exact ⟨'a', "pi/v1/revoked".toList, rfl, by decide⟩

/-! ## What the client leaves of a URL -/

/-- Slashes at the end do not belong to a host. -/
theorem HasHttpsHost.withoutFinalSlashes {url : String} (hosted : HasHttpsHost url) :
    ∃ c rest slashes, c ≠ '/' ∧ (∀ d ∈ slashes, d = '/') ∧
      url.toList = "https://".toList ++ (c :: rest ++ slashes) ∧
      (Tollgate.withoutFinalSlashes url).toList = "https://".toList ++ c :: rest := by
  obtain ⟨c, behind, begins, solid⟩ := hosted
  obtain ⟨slashes, split, slash, -⟩ := exists_withoutFinalSlashes url
  have absent : c ∉ slashes := fun member => solid (slash c member)
  obtain ⟨left, kept, behindEq⟩ | ⟨_, _, gone⟩ :=
    List.append_eq_append_iff.mp (begins.symm.trans split)
  · cases left with
    | nil =>
      rw [List.nil_append] at behindEq
      exact absurd (behindEq ▸ List.mem_cons_self) absent
    | cons d rest =>
      obtain ⟨rfl, rfl⟩ := List.cons.inj behindEq
      exact ⟨c, rest, slashes, solid, slash, begins, kept⟩
  · exact absurd (gone ▸ List.mem_append_right _ List.mem_cons_self) absent

namespace ControlClient

variable {link : ControlLink}

theorem request_url (client : ControlClient) (q : Question) :
    (client.request q).url.toList = client.baseUrl.toList ++ q.path.toList :=
  String.toList_append

theorem leads_of_hosted (hosted : HasHttpsHost link.url) (q : Question) :
    Leads link.url q.path ((ofUrl link.url link.sharedSecret).request q).url := by
  obtain ⟨c, rest, slashes, solid, slash, configured, base⟩ := hosted.withoutFinalSlashes
  obtain ⟨d, path, pathEq, -⟩ := q.path_eq
  obtain ⟨_, _, _, last⟩ := exists_withoutFinalSlashes link.url
  have url : ((ofUrl link.url link.sharedSecret).request q).url.toList =
      "https://".toList ++ (c :: rest ++ q.path.toList) := by
    rw [request_url, ofUrl, base, List.append_assoc]
  refine ⟨⟨c, rest ++ q.path.toList, url, solid⟩, fun ends slashEnds => ?_,
    withoutFinalSlashes link.url, rfl, last⟩
  -- What comes behind the host is a path here and slashes there.
  have ofPath : ∀ e, q.path.toList.head? = some e → e = '/' := by
    intro e first
    rw [pathEq] at first
    exact (Option.some.inj first).symm
  rw [httpsHost?_eq url, httpsHost?_eq configured, takeWhile_append_of_slash slashEnds _ ofPath,
    takeWhile_append_of_slash slashEnds _ fun e first => slash e (List.mem_of_mem_head? first)]

/-- Where no host was configured, no path makes up for it. -/
theorem hosted_of_request {rest : List Char} (begins : link.url.toList = "https://".toList ++ rest)
    {q : Question} (asked : HasHttpsHost ((ofUrl link.url link.sharedSecret).request q).url) :
    HasHttpsHost link.url := by
  obtain ⟨c, behind, askedEq, solid⟩ := asked
  obtain ⟨slashes, split, slash, last⟩ := exists_withoutFinalSlashes link.url
  rw [request_url, ofUrl] at askedEq
  generalize (withoutFinalSlashes link.url).toList = base at *
  obtain ⟨left, rfl, restEq⟩ | ⟨taken, kept, gone⟩ :=
    List.append_eq_append_iff.mp (begins.symm.trans split)
  · cases left with
    | nil => exact absurd rfl last
    | cons d left =>
      -- The client left something of the host.
      rw [List.append_assoc, List.append_cancel_left_eq] at askedEq
      obtain ⟨rfl, -⟩ := List.cons.inj askedEq
      exact ⟨d, left ++ slashes, begins.trans (congrArg _ restEq), solid⟩
  · -- The client took one or both slashes; a path gives back one.
    obtain ⟨d, path, pathEq, single⟩ := q.path_eq
    rw [kept, List.append_assoc, List.append_cancel_left_eq, pathEq] at askedEq
    match taken with
    | [] =>
      rw [List.append_nil] at kept
      exact absurd (kept ▸ rfl) last
    | [x] =>
      obtain ⟨before, -⟩ : "https:/".toList = base ∧ ['/'] = [x] := List.append_inj' kept rfl
      exact absurd (before ▸ rfl) last
    | x :: y :: taken =>
      obtain ⟨-, rfl, -⟩ : '/' = x ∧ d = y ∧ path = taken ++ c :: behind := by simpa using askedEq
      exact absurd (slash d (by simp [gone])) single

/-- Outside insecure mode, a question leads to its path at the configured control server, over
    `https`, if and only if the URL that was configured has a host at all. -/
theorem leads_iff {c : ProxyConfig} (accepted : c.validate = .ok ())
    (controlled : c.control = some link) (secure : c.insecure = false) (q : Question) :
    Leads link.url q.path ((ofUrl link.url link.sharedSecret).request q).url ↔
      HasHttpsHost link.url := by
  obtain ⟨rest, begins⟩ := ControlLink.begins_of_validate accepted controlled secure
  exact ⟨fun leads => hosted_of_request begins leads.begins, fun hosted => leads_of_hosted hosted q⟩

def linked (url : String) : ProxyConfig :=
  { control := some { url, sharedSecret := "secret" } }

theorem validate_linked {url : String} (passes : (linked url).validate.toBool = true) :
    (linked url).validate = .ok () := by
  cases checked : (linked url).validate with
  | ok _ => rfl
  | error fault => simp [checked, Except.toBool] at passes

theorem leads_linked :
    (linked "https://control.example//").validate = .ok () ∧
      Leads "https://control.example//" "/api/v1/revoked"
        ((ofUrl "https://control.example//" "secret").request .revoked).url :=
  have accepted : (linked "https://control.example//").validate = .ok () :=
    validate_linked (by decide +kernel)
  ⟨accepted, (leads_iff accepted rfl rfl .revoked).mpr
    ⟨'c', "ontrol.example//".toList, rfl, by decide⟩⟩

/-- A URL without a host passes the check, and the shared secret goes to a URL in which the path
    stands where the host should be. -/
theorem astray :
    (linked "https://").validate = .ok () ∧ (linked "https://").insecure = false ∧
      (ofUrl "https://" "secret").request .revoked =
        ⟨"GET", "https:/api/v1/revoked", some "Bearer secret", none⟩ ∧
      ¬Leads "https://" "/api/v1/revoked"
        ((ofUrl "https://" "secret").request .revoked).url := by
  refine ⟨validate_linked (by decide +kernel), rfl, by decide +kernel, fun leads => ?_⟩
  have url : ((ofUrl "https://" "secret").request .revoked).url = "https:/api/v1/revoked" := by
    decide +kernel
  obtain ⟨c, rest, begins, -⟩ := leads.begins
  rw [url] at begins
  simp at begins

end ControlClient

end Tollgate
