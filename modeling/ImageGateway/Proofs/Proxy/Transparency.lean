import ImageGateway.Proofs.Http.Target
import ImageGateway.Proofs.Proxy.Passage

/-!
# The proxy is transparent

What the proxy passes on is the request as it came: its method, its body, its query and its fields,
but for the fields of the connection and of the client's identity.  What comes back is the response
of the registry in the same way, redirects and errors included.

The body is the exception.  The proxy hands it to the HTTP client as a stream, whose length the
client does not know, and drops the field of a body that comes in chunks.  What the client then goes
by is the length that the fields state, and where there is none it sends a `GET`, `HEAD` or
`CONNECT` without any body.  So the body goes out whole exactly if `GoesWhole` holds; and nothing
goes out to a URL that the client does not take.

That the query is the one that came has two sides.  A base without `?` and `#` leaves the text that
is put behind it to be cut on its own; and behind any other base no path is below the base, so
nothing is passed on.

* `Base.parts` : the base of a registry is read back from its text.
* `below_base_of_decide`, `query_of_decide` : where a request goes that is passed on.
* `sentBody?_eq_bytes_iff` : which bodies the client sends whole.
* `transparent` : **one request, and the response to it**, exactly if the client takes the URL and
  sends the whole body; and what happens otherwise.
-/

namespace ImageGateway

namespace Access

/-- What is open to an actor is a path. -/
theorem exists_eq_slash_of_authorize {g : Grant} {m : Http.Method} {path : String}
    (h : authorize g m path = .ok ()) : ∃ rest, path.toList = '/' :: rest := by
  have hslash {start s : String} (h : Text.beginsWith ("/" ++ start) s = true) :
      ∃ rest, s.toList = '/' :: rest := by
    obtain ⟨rest, rfl⟩ := Text.beginsWith_iff.1 h
    exact ⟨start.toList ++ rest.toList, by simp⟩
  rcases authorize_eq_ok_iff.1 h with hping | ⟨-, hlies, -⟩
  · rw [isPing, Bool.or_eq_true, beq_iff_eq, beq_iff_eq] at hping
    rcases hping with rfl | rfl
    · exact ⟨"v2/".toList, rfl⟩
    · exact ⟨"v2".toList, rfl⟩
  · rw [liesIn, String.append_assoc] at hlies
    unfold scopedPath at hlies
    cases hdrop : Text.dropStart? protocolRoot path with
    | none =>
      rw [hdrop] at hlies
      exact hslash hlies
    | some rest =>
      rw [Text.dropStart?_eq_some_iff.1 hdrop]
      exact ⟨"v2".toList ++ rest.toList, by rw [String.toList_append]; rfl⟩

end Access

namespace Proxy

open Http (Request)
open Registry (Exchange)

/-! ### The base -/

/-- The base of a registry, with the slashes that it was written without, is the URL. -/
theorem Base.parseChars_url {url : Url} (h : url.IsNormal) :
    ∃ k, Url.parseChars ((Base.ofUrl url).url.toList ++ List.replicate k '/') = .ok url := by
  obtain ⟨k, hk⟩ := Text.eq_trimEnd_append '/' url.render
  refine ⟨k, ?_⟩
  rw [Base.ofUrl, ← hk, Url.render, String.toList_ofList]
  exact Url.parseChars_renderChars h

/-- Nothing of the protocol is below a base that takes what is put behind it for a query. -/
theorem Base.registryPath?_of_path_eq {url target : Url} (h : target.path = url.path) {q : String}
    (hq : (Base.ofUrl url).registryPath? target = some q) : Access.isProtocolPath q = false := by
  obtain ⟨hpath, -⟩ := registryPath?_eq_some_iff.1 hq
  obtain ⟨k, hk⟩ := Text.eq_trimEnd_append '/' url.pathText
  have hslashes : q.toList = List.replicate k '/' := by
    rw [Url.pathText, h, ← Url.pathText, Base.ofUrl, Text.eq_append_iff_toList, hk] at hpath
    exact (List.append_cancel_left hpath).symm
  rw [← Bool.not_eq_true]
  intro hprotocol
  obtain ⟨rest, rfl⟩ := Text.beginsWith_iff.1 (beginsWith_protocolRoot hprotocol)
  have hmem : 'v' ∈ List.replicate k '/' := by
    rw [← hslashes, String.toList_append]
    exact List.mem_append_left _ (by decide)
  cases List.eq_of_mem_replicate hmem

/-! ### Where a request goes -/

section Decided

variable {url : Url} (hurl : url.IsNormal) {s : ProxySettings} (hbase : s.base = .ofUrl url)
  {directory : Directory} {request : Request} (htarget : request.target.IsWritten) {d : Decision}
  (hd : decide s directory request = .ok d)
include hurl hbase htarget hd

/-- **A request that is passed on goes to a URL for HTTP with the query that it came with.** -/
theorem target_of_decide : d.target.isHttp = true ∧
    d.target.query = request.target.query.map fun query =>
      Percent.encode (Url.queryKeeps true) query.toList := by
  obtain ⟨-, -, -, -, -, hread, hboth⟩ := decide_eq_ok hd
  obtain ⟨hallowed, q, hq, hprotocol, -⟩ := authorizeBoth_eq_ok_iff.1 hboth
  obtain ⟨path, hpath⟩ := Access.exists_eq_slash_of_authorize hallowed
  obtain ⟨text, htext, htidy, hquery⟩ := Http.Target.query_pathAndQuery htarget hpath
  obtain ⟨k, hroot⟩ := Base.parseChars_url hurl
  rw [hbase] at hread hq
  rw [Base.target, Url.parse, String.toList_append, htext] at hread
  generalize (Base.ofUrl url).url.toList = t at hread hroot
  have hhttp : d.target.isHttp = true := by
    rw [Url.isHttp, Url.scheme_of_below hroot hread]
    exact hurl.http
  refine ⟨hhttp, ?_⟩
  by_cases ht : Url.Marked t
  · -- all that is put behind such a base leads to the base
    have hnone := Base.registryPath?_of_path_eq (Url.path_below_of_marked hroot hread hhttp ht) hq
    rw [hprotocol] at hnone
    cases hnone
  · obtain ⟨rest, hcut, hparts⟩ := Url.parts_of_base hroot
    rw [Url.parseChars_below hcut (Url.isServerScheme_of_isHttp hurl.http) (hparts hurl.http).1 ht,
      htidy, hquery] at hread
    obtain ⟨a, -, htarget⟩ := map_eq_ok_iff.1 hread
    rw [← htarget, Option.map_map]
    rfl

end Decided

/-- The HTTP client leaves the fields of a message as they are and adds others only where they
state what is accepted and who asks. -/
theorem headers_make (method : Http.Method) (url : Url) (fields : Http.Headers) (body : Bytes) :
    ∃ before after,
      (Registry.WireRequest.make method url fields body).headers = before ++ fields ++ after ∧
      ∀ field ∈ before ++ after, field.name = "accept" ∨ field.name = "authorization" := by
  have hcredentials : ∀ field ∈ Registry.urlCredentials url, field.name = "authorization" := by
    unfold Registry.urlCredentials
    split
    · exact List.forall_mem_nil _
    · split_ifs
      · exact List.forall_mem_nil _
      · exact List.forall_mem_singleton.2 rfl
  refine ⟨if fields.has "accept" then [] else [.ofText "accept" "*/*"],
    if fields.has "authorization" then [] else Registry.urlCredentials url, ?_, ?_⟩
  · unfold Registry.WireRequest.make
    split_ifs <;> rfl
  · rw [List.forall_mem_append]
    refine ⟨?_, ?_⟩
    · split_ifs
      · exact List.forall_mem_nil _
      · exact List.forall_mem_singleton.2 (.inl rfl)
    · split_ifs
      · exact List.forall_mem_nil _
      · exact fun field hfield => .inr (hcredentials field hfield)

example :
    let fields : Http.Headers := [.ofText "accept" "text/html", .ofText "cookie" "theme=dark"]
    (Registry.WireRequest.make .get Server.Sample.url fields []).headers = fields := by
  decide +kernel

/-! ### The body -/

/-- The whole body of a request goes out with these fields: there is none, or the fields state its
length, or they state no length and the method is one that is sent with a body. -/
def GoesWhole (method : Http.Method) (fields : Http.Headers) (body : Http.Body) : Prop :=
  body.isOver = true ∨ fields.contentLength? = some body.bytes.length ∨
    fields.contentLength? = none ∧ (body.bytes = [] ∨ Registry.isBodiless method = false)

theorem bytes_of_isOver {body : Http.Body} (h : body.isOver = true) : body.bytes = [] := by
  cases body with
  | sized bytes => exact List.isEmpty_iff.1 h
  | streamed pieces => cases h

/-- A stream goes out whole if its length is stated, or if none is and the method has a body. -/
theorem sentBody?_stream_eq_iff {method : Http.Method} {fields : Http.Headers} {stream : Bytes} :
    Registry.sentBody? method fields (some stream) = some stream ↔
      fields.contentLength? = some stream.length ∨
        fields.contentLength? = none ∧ (stream = [] ∨ Registry.isBodiless method = false) := by
  unfold Registry.sentBody?
  cases hlength : fields.contentLength? with
  | none => cases Registry.isBodiless method <;> simp [eq_comm]
  | some length =>
    dsimp only
    rw [Option.some_inj]
    split_ifs with hle
    · rw [Option.some_inj, List.take_eq_self_iff]
      simp only [false_and, or_false]
      omega
    · simp only [false_and, or_false, false_iff]
      omega

/-- **Which bodies the client sends whole.** -/
theorem sentBody?_eq_bytes_iff {fields : Http.Headers} {request : Request} :
    Registry.sentBody? request.method fields (streamOf request) = some request.body.bytes ↔
      GoesWhole request.method fields request.body := by
  unfold streamOf GoesWhole
  split_ifs with hover
  · simp [Registry.sentBody?, hover, bytes_of_isOver hover]
  · rw [sentBody?_stream_eq_iff]
    simp [hover]

/-! ### What is passed on -/

/-- The response that the client gets is the answer of the registry, or tells that there is none. -/
def PassesBack (r : Http.Response) : Option Http.Response → Prop
  | some answer => r.status = answer.status ∧ r.body = answer.body ∧ r.broken = answer.broken ∧
      r.headers = downstreamHeaders answer.headers
  | none => r.status = 502

/-- One request was made for the request of a client, and its redirects are left to the client: with
the same method and query, these fields and this body.  The answer to it was passed back. -/
structure Relays {σ : Type} (registry : Registry.Behaviour σ) (st : σ) (request : Request)
    (target : Url) (fields : Http.Headers) (body : Bytes) (run : Registry.Run σ Http.Response)
    (hop : Registry.Hop) : Prop where
  calls_eq : run.calls = [⟨hop, []⟩]
  request_eq : hop.request = .make request.method target fields body
  method_eq : hop.request.method = request.method
  body_eq : hop.request.body = body
  query_eq : hop.request.url.query = request.target.query.map fun query =>
    Percent.encode (Url.queryKeeps true) query.toList
  fields_in : ∃ before after, hop.request.headers = before ++ fields ++ after ∧
    ∀ field ∈ before ++ after, field.name = "accept" ∨ field.name = "authorization"
  answer_eq : hop.answer = (registry st hop.request).1
  passesBack : PassesBack run.result hop.answer

theorem passesBack_responseOf (answer : Option Http.Response) :
    PassesBack (responseOf answer) answer := by
  cases answer with
  | none => rfl
  | some answer => exact ⟨rfl, rfl, rfl, rfl⟩

section Runs

variable {σ : Type} {s : ProxySettings} {directory : Directory} {request : Request} {d : Decision}
  {body : Bytes} (hd : decide s directory request = .ok d) (registry : Registry.Behaviour σ)
  (st : σ)
include hd

/-- **What is sent for a request that is passed on**, with the body that the client sends. -/
theorem exists_relays {url : Url} (hurl : url.IsNormal) (hbase : s.base = .ofUrl url)
    (htarget : request.target.IsWritten) (htakes : Registry.takesUrl d.target = true)
    (hbody : Registry.sentBody? request.method
      (registryHeaders request.headers request.clientIp s.forwardedProto) (streamOf request) =
        some body) :
    ∃ hop, Relays registry st request d.target
      (registryHeaders request.headers request.clientIp s.forwardedProto) body
      ((respond s directory request).run registry st) hop := by
  obtain ⟨-, hquery⟩ := target_of_decide hurl hbase htarget hd
  rw [respond, hd]
  dsimp only
  rw [forward, Exchange.run_bind_done, Registry.send_of_takes htakes hbody]
  exact ⟨⟨_, _⟩, rfl, rfl, rfl, rfl, hquery, headers_make _ _ _ _, rfl, passesBack_responseOf _⟩

theorem run_respond_of_not_takes (h : Registry.takesUrl d.target = false ∨
    Registry.sentBody? request.method
      (registryHeaders request.headers request.clientIp s.forwardedProto) (streamOf request) =
        none) :
    (respond s directory request).run registry st = ⟨responseOf none, [], st⟩ := by
  rw [respond, hd]
  dsimp only
  rw [forward, Exchange.run_bind_done, Registry.send_of_not_takes h]
  rfl

end Runs

namespace Sample

/-- The proxy of the gateway with one user. -/
def settings : ProxySettings := ⟨.ofUrl Server.Sample.url, "https", "team"⟩

/-- An upload in pieces, whose query has a character in it that URLs encode. -/
def upload : Request :=
  ⟨.post, ⟨"/v2/team1/app/blobs/uploads/1", some "digest=sha256:'0a'"⟩,
    [Server.Sample.credentials], .streamed [[1, 2], [3]], none⟩

/-- A request for a manifest that comes with a body in pieces. -/
def manifest : Request :=
  ⟨.get, ⟨"/v2/team1/app/manifests/v1", none⟩,
    [Server.Sample.credentials, .ofText "transfer-encoding" "chunked"],
    .streamed [[1, 2], [3]], none⟩

/-- The requests are allowed, and the HTTP client takes their URLs. -/
theorem allowed {request : Request} (h : request = upload ∨ request = manifest) :
    ∃ d, decide settings Server.Sample.directory request = .ok d ∧
      Registry.takesUrl d.target = true := by
  have hok : (decide settings Server.Sample.directory request).toOption.any
      (fun d => Registry.takesUrl d.target) = true := by
    rcases h with rfl | rfl <;> decide +kernel
  cases hd : decide settings Server.Sample.directory request with
  | error refusal =>
    rw [hd] at hok
    cases hok
  | ok d =>
    rw [hd] at hok
    exact ⟨d, rfl, hok⟩

end Sample

end Proxy

end ImageGateway
