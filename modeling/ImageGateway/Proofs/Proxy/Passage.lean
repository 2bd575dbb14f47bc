import ImageGateway.Proofs.Access.Gate
import ImageGateway.Proofs.Access.Grant
import ImageGateway.Proofs.Server.Serve

/-!
# What passes through the proxy

A request of a registry client reaches the registry only after a chain of decisions: on its
credentials, on the groups that the directory returns, on the path that was received and on the path
that is sent.  The lemmas below invert the chain link by link, and `vouched_of_sent` puts the links
together: behind every request that the proxy sends there is one group of the user which names the
namespace of the path and whose suffix allows the method.

The path in question is the one of the normalised URL.  No property of the URL parser is used for
that: the second decision is made on the very text that is sent.

* `decide_eq_ok` : what a decision to pass a request on has checked.
* `always_respond` : the only call of the proxy is the one that was decided on.
* `vouched_of_sent` : **nothing is sent that no group of the user vouches for.**
-/

namespace ImageGateway

namespace Proxy

open Http (Request)

/-- The suffix of a group allows the method in the namespace of the group. -/
def SuffixAllows (suffix : String) (m : Http.Method) : Prop :=
  (suffix = "_r" ∨ suffix = "_rd" → m = .get ∨ m = .head) ∧ (suffix = "_rw" → m ≠ .delete)

/-- The raw group `identifier` vouches for a request with the method `m` to the path `q` of the
registry: its name begins with `start` and is `nameSpace ++ suffix`, and the path is one of the ping
paths or lies in the namespace. -/
structure Vouches (start identifier nameSpace suffix q : String) (m : Http.Method) : Prop where
  beginsWith : Text.beginsWith start (Access.groupName identifier) = true
  name_eq : Access.groupName identifier = nameSpace ++ suffix
  nameSpace_ne : nameSpace ≠ ""
  suffix_mem : suffix ∈ ["_rwd", "_rw", "_rd", "_r"]
  path : q = "/v2" ∨ q = "/v2/" ∨
    Text.beginsWith ("/v2/" ++ nameSpace ++ "/") q = true ∧
      (∀ segment ∈ q.toList.splitOn '/',
        UrlPath.isSingleDot segment = false ∧ UrlPath.isDoubleDot segment = false) ∧
      SuffixAllows suffix m

/-! ### The links of the chain -/

theorem credentialsOf_eq_some_iff {request : Request} {c : Login.Credentials} :
    credentialsOf request = some c ↔
      Login.basicCredentials? request.headers = some c ∧ c.password ≠ "" := by
  simp [credentialsOf, Option.filter_eq_some_iff]

theorem registryPath?_eq_some_iff {base : Base} {target : Url} {q : String} :
    base.registryPath? target = some q ↔
      target.pathText = base.path ++ q ∧ Text.beginsWith "/" q = true := by
  simp only [Base.registryPath?, Option.filter_eq_some_iff, Text.dropStart?_eq_some_iff]

theorem authorizeBoth_eq_ok_iff {base : Base} {grant : Access.Grant} {request : Request}
    {target : Url} :
    authorizeBoth base grant request target = .ok () ↔
      Access.authorize grant request.method request.target.path = .ok () ∧
        ∃ q, base.registryPath? target = some q ∧ Access.isProtocolPath q = true ∧
          Access.authorize grant request.method q = .ok () := by
  unfold authorizeBoth
  cases Access.authorize grant request.method request.target.path with
  | error d => simp [bind, Except.bind]
  | ok u =>
    simp only [bind, Except.bind, true_and]
    cases base.registryPath? target with
    | none => simp
    | some q => by_cases hq : Access.isProtocolPath q = true <;> simp [hq]

/-- **What a decision to pass a request on has checked.** -/
theorem decide_eq_ok {s : ProxySettings} {directory : Directory} {request : Request}
    {d : Decision} (h : decide s directory request = .ok d) :
    ∃ c user, credentialsOf request = some c ∧
      Directory.authorizeUser directory s.groupStart c.username c.password = .ok user ∧
      d.actor = user.primary ∧ s.base.target request.target.pathAndQuery = .ok d.target ∧
      authorizeBoth s.base d.actor.grant request d.target = .ok () := by
  unfold decide decideFor at h
  split at h
  · cases h
  rename_i c hc
  split at h
  · cases h
  rename_i user huser
  split at h
  · cases h
  rename_i target htarget
  split at h
  · rename_i hboth
    cases h
    exact ⟨c, user, hc, huser, rfl, htarget, hboth⟩
  · cases h

/-- **The proxy calls the registry for nothing but a request that was decided on**, once, and leaves
redirects to the client. -/
theorem always_respond (s : ProxySettings) (directory : Directory) (request : Request) :
    (respond s directory request).Always (fun c => ∃ d, decide s directory request = .ok d ∧
      c.redirects = .passOn ∧ c.request.method = request.method ∧
      c.request.url.pathText = d.target.pathText) fun _ => True := by
  unfold respond
  cases hd : decide s directory request with
  | error refusal => exact .done trivial
  | ok d =>
    refine Registry.Exchange.always_bind.2 ((Registry.always_send _ _ _ _ _).mono ?_ fun _ _ =>
      .done trivial)
    rintro c ⟨body, rfl⟩
    exact ⟨d, rfl, rfl, rfl, rfl⟩

/-! ### The chain -/

theorem suffixAllows_of_allowsMethod {g : Access.Grant} {e : Access.Suffix}
    (he : e ∈ Access.suffixes) (hp : g.pullOnly = e.pullOnly)
    (hd : g.deleteAllowed = e.deleteAllowed) {m : Http.Method}
    (h : Access.allowsMethod g m = .ok ()) : SuffixAllows e.text m := by
  rw [Access.allowsMethod_eq_ok_iff, hp, hd] at h
  simp only [Access.suffixes, List.mem_cons, List.not_mem_nil, or_false] at he
  rcases he with rfl | rfl | rfl | rfl
  · simp [SuffixAllows]
  · simpa [SuffixAllows] using h
  · simpa [SuffixAllows] using h
  · simpa [SuffixAllows] using h

theorem suffix_text_mem {e : Access.Suffix} (he : e ∈ Access.suffixes) :
    e.text ∈ ["_rwd", "_rw", "_rd", "_r"] :=
  List.mem_map_of_mem (f := Access.Suffix.text) he

theorem beginsWith_protocolRoot {q : String} (h : Access.isProtocolPath q = true) :
    Text.beginsWith Access.protocolRoot q = true := by
  rw [Access.isProtocolPath, Bool.or_eq_true, beq_iff_eq] at h
  rcases h with rfl | h
  · rfl
  · obtain ⟨rest, rfl⟩ := Text.beginsWith_iff.1 h
    exact Text.beginsWith_iff.2 ⟨"/" ++ rest, by rw [← String.append_assoc]; rfl⟩

/-- A grant under which both decisions are favourable comes from a group that vouches for what is
sent. -/
theorem vouches_of_authorize {start identifier q : String} {g : Access.Grant} {m : Http.Method}
    (hg : Access.Grant.ofIdentifier? start identifier = some g)
    (hq : Access.isProtocolPath q = true) (h : Access.authorize g m q = .ok ()) :
    ∃ suffix, Vouches start identifier g.nameSpace suffix q m := by
  obtain ⟨hstart, hname⟩ := Access.Grant.ofIdentifier?_eq_some_iff.1 hg
  obtain ⟨e, he, hgroup, hne, -, hp, hd⟩ := Access.Grant.ofGroup?_eq_some hname
  refine ⟨e.text, hstart, hgroup, hne, suffix_text_mem he, ?_⟩
  rcases Access.authorize_eq_ok_iff.1 h with hping | ⟨hdots, hlies, hmethod⟩
  -- a ping path lies in no namespace and needs none
  · rw [Access.isPing, Bool.or_eq_true, beq_iff_eq, beq_iff_eq] at hping
    exact hping.elim (fun hp => .inr (.inl hp)) .inl
  · rw [Access.liesIn_of_beginsWith (beginsWith_protocolRoot hq)] at hlies
    exact .inr (.inr ⟨hlies, Access.hasDotSegment_eq_false_iff.1 hdots,
      suffixAllows_of_allowsMethod he hp hd hmethod⟩)

theorem vouches_of_decide {s : ProxySettings} {directory : Directory} {request : Request}
    {d : Decision} (h : decide s directory request = .ok d) :
    ∃ c groups identifier nameSpace suffix q,
      Login.basicCredentials? request.headers = some c ∧ c.password ≠ "" ∧
      directory c.username c.password = .ok groups ∧ identifier ∈ groups ∧
      d.target.pathText = s.base.path ++ q ∧
      Vouches s.groupStart identifier nameSpace suffix q request.method := by
  obtain ⟨c, user, hc, huser, hactor, -, hboth⟩ := decide_eq_ok h
  obtain ⟨hbasic, hpassword⟩ := credentialsOf_eq_some_iff.1 hc
  obtain ⟨groups, hgroups, hgrants, hprimary⟩ := Directory.authorizeUser_eq_ok_iff.1 huser
  obtain ⟨-, q, hq, hprotocol, hallowed⟩ := authorizeBoth_eq_ok_iff.1 hboth
  have hgrant : d.actor.grant ∈ Access.Grant.ofGroups s.groupStart groups := by
    rw [hactor, ← hgrants]
    exact (Access.Principal.ofGrants?_eq_some hprimary).2
  obtain ⟨identifier, hidentifier, hof⟩ := Access.Grant.mem_ofGroups.1 hgrant
  obtain ⟨suffix, hvouches⟩ := vouches_of_authorize hof hprotocol hallowed
  exact ⟨c, groups, identifier, _, suffix, q, hbasic, hpassword, hgroups, hidentifier,
    (registryPath?_eq_some_iff.1 hq).1, hvouches⟩

end Proxy

namespace Server

open Http (Request)

/-- **Nothing is sent that no group of the user vouches for.**  Whatever the proxy sends for a
request, it sends for a user whose password the directory accepted, and the path behind the base of
the registry is one of the ping paths or lies, free of dot segments, in the namespace of one of the
user's groups, whose suffix allows the method. -/
theorem vouched_of_sent {σ : Type} (s : Settings) (url : Url) (registry : Registry.Behaviour σ)
    (w : World σ) (o : Occasion) (request : Request)
    (hroute : Route.ofPath? request.target.path = some .proxy) :
    ∀ record ∈ (serveOne (Gateway.withRegistry s url) registry w o request).1.calls,
      ∀ hop ∈ record.hops, ∃ c groups identifier nameSpace suffix q,
        Login.basicCredentials? request.headers = some c ∧ c.password ≠ "" ∧
        o.directory c.username c.password = .ok groups ∧ identifier ∈ groups ∧
        hop.request.url.pathText = Text.trimEnd '/' url.pathText ++ q ∧
        hop.request.method = request.method ∧
        Proxy.Vouches s.ldap.groupStart identifier nameSpace suffix q hop.request.method := by
  intro record hrecord hop hhop
  rw [serveOne_calls hroute] at hrecord
  obtain ⟨c, st, ⟨d, hd, hpassOn, hmethod, hpath⟩, rfl⟩ :=
    (Proxy.always_respond _ o.directory request).calls registry w.registry record hrecord
  -- redirects are passed on, so there is one hop
  obtain rfl : hop = _ := by
    simpa [Registry.CallRecord.hops, Registry.perform_redirects_of_passOn hpassOn] using hhop
  obtain ⟨c', groups, identifier, nameSpace, suffix, q, hbasic, hpassword, hgroups, hidentifier, hq,
    hvouches⟩ := Proxy.vouches_of_decide hd
  rw [Registry.perform_first, hmethod, hpath]
  exact ⟨c', groups, identifier, nameSpace, suffix, q, hbasic, hpassword, hgroups, hidentifier, hq,
    rfl, hvouches⟩

theorem vouched_of_sent_manifest :
    ∃ record ∈ (serveOne Sample.gateway Sample.registry ⟨.empty 1800, ()⟩ (Sample.occasion 0 "t")
        (Sample.request .delete "/v2/team1/app/manifests/sha256:0a" none
          Sample.credentials)).1.calls,
      ∃ hop ∈ record.hops, ∃ c groups identifier nameSpace suffix q,
        Login.basicCredentials? [Sample.credentials] = some c ∧ c.password ≠ "" ∧
        Sample.directory c.username c.password = .ok groups ∧ identifier ∈ groups ∧
        hop.request.url.pathText = Text.trimEnd '/' Sample.url.pathText ++ q ∧
        hop.request.method = .delete ∧
        Proxy.Vouches "team" identifier nameSpace suffix q hop.request.method := by
  have hsent : (serveOne Sample.gateway Sample.registry ⟨.empty 1800, ()⟩ (Sample.occasion 0 "t")
      (Sample.request .delete "/v2/team1/app/manifests/sha256:0a" none
        Sample.credentials)).1.calls ≠ [] := by decide +kernel
  obtain ⟨record, hrecord⟩ := List.exists_mem_of_ne_nil _ hsent
  exact ⟨record, hrecord, record.first, List.mem_cons_self,
    vouched_of_sent Sample.settings Sample.url Sample.registry _ _ _ (by decide +kernel) record
      hrecord record.first List.mem_cons_self⟩

end Server

end ImageGateway
