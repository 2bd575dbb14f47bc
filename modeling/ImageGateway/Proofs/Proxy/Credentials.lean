import ImageGateway.Proofs.Proxy.Headers
import ImageGateway.Session.Cookie
import Mathlib.Data.List.Forall2

/-!
# What the registry learns of a client's credentials

A client has credentials of two kinds.  Tools for registries send a name and a password in an
`authorization` field; browsers send the token of a session in a cookie, and they send it to every
path of the gateway.  Two messages of a client that differ in their credentials alone are compared
here by what is sent to the registry for them.

Of a password nothing is sent, nor of any other field that tells of the client.  A token is sent as
it came: `cookie` is none of the names that the proxy drops, so that only a message which lists
`cookie` among the fields of its connection keeps the token from the registry.

* `SameButCredentials` : messages that differ in passwords, tokens and stated clients at most.
* `forall₂_passedOn` : what is passed on of two such messages differs in tokens at most.
* `sent_eq_iff` : **messages that differ in their credentials are sent alike exactly where no cookie
  is sent, or the tokens are the same.**
-/

namespace ImageGateway

namespace Proxy

open Http

/-- Fields of the name carry a password, or tell by which way the message came. -/
def tellsOfClient (name : String) : Bool :=
  name == "authorization" || name == "proxy-authorization" || name == "forwarded" ||
    Text.beginsWith "x-forwarded-" name

/-- The piece of a `cookie` field is a pair of the gateway's own name. -/
def IsSessionPair (piece : String) : Prop :=
  ∃ token, Text.cutAt '=' (Text.trim piece) = some (Session.cookieName, token)

/-- Two values of `cookie` fields are the same, but for the tokens in the gateway's own pairs. -/
def SameCookies (v w : Bytes) : Prop :=
  ∃ s t, valueText? v = some s ∧ valueText? w = some t ∧
    List.Forall₂ (fun p q => p = q ∨ IsSessionPair p ∧ IsSessionPair q)
      (Text.splitAt ';' s) (Text.splitAt ';' t)

/-- The two fields are the same, but for the tokens in them. -/
inductive SameField : Header → Header → Prop
  | refl (field : Header) : SameField field field
  | cookie {v w : Bytes} (h : SameCookies v w) : SameField ⟨"cookie", v⟩ ⟨"cookie", w⟩

/-- The two messages differ in the fields that carry a password or tell by which way the message
came, and in the tokens of their cookies, and in nothing else. -/
def SameButCredentials (a b : Headers) : Prop :=
  List.Forall₂ SameField (a.filter fun field => !tellsOfClient field.name)
    (b.filter fun field => !tellsOfClient field.name)

variable {a b : Headers} {field other : Header} {name : String}

/-! ### Fields that are the same but for tokens -/

theorem SameField.name_eq (h : SameField field other) : field.name = other.name := by
  cases h <;> rfl

theorem values_eq_of_forall₂ (h : List.Forall₂ SameField a b) (hname : name ≠ "cookie") :
    a.values name = b.values name := by
  induction h with
  | nil => rfl
  | @cons field other l m hfield _ ih =>
    have hhead : Headers.values [field] name = Headers.values [other] name := by
      cases hfield with
      | refl => rfl
      | cookie => simp [Headers.values, Ne.symm hname]
    rw [Headers.values_cons, hhead, ih, ← Headers.values_cons]

/-- Where the cookies are the same, all is. -/
theorem eq_iff_of_forall₂ (h : List.Forall₂ SameField a b) :
    a = b ↔ a.values "cookie" = b.values "cookie" := by
  refine ⟨fun heq => heq ▸ rfl, fun hvalues => ?_⟩
  induction h with
  | nil => rfl
  | @cons field other l m hfield _ ih =>
    cases hfield with
    | refl =>
      rw [Headers.values_cons, Headers.values_cons field m] at hvalues
      rw [ih (List.append_cancel_left hvalues)]
    | @cookie v w hcookie =>
      obtain ⟨rfl, htail⟩ := List.cons_eq_cons.1
        (show v :: Headers.values l "cookie" = w :: Headers.values m "cookie" from hvalues)
      rw [ih htail]

/-! ### Messages that are the same but for credentials -/

theorem SameButCredentials.values_eq (h : SameButCredentials a b)
    (hclient : tellsOfClient name = false) (hname : name ≠ "cookie") :
    a.values name = b.values name := by
  have hkept := values_eq_of_forall₂ h hname
  rwa [Headers.values_filter fun name => !tellsOfClient name,
    Headers.values_filter fun name => !tellsOfClient name, hclient, Bool.not_false, if_pos rfl,
    if_pos rfl] at hkept

theorem SameButCredentials.connectionNames_eq (h : SameButCredentials a b) :
    connectionNames a = connectionNames b := by
  have hvalues : a.values "connection" = b.values "connection" :=
    h.values_eq (by decide) (by decide)
  simp only [connectionNames, Headers.texts, hvalues]

theorem SameButCredentials.forwardingHeaders_eq (h : SameButCredentials a b)
    (clientIp : Option Net.Address) (proto : String) :
    forwardingHeaders a clientIp proto = forwardingHeaders b clientIp proto := by
  have hvalues : a.values "host" = b.values "host" := h.values_eq (by decide) (by decide)
  simp only [forwardingHeaders, Headers.first?, hvalues]

/-- What tells of the client is dropped from a message, whatever it lists. -/
theorem passedOn_filter (fields : Headers) :
    passedOn fields = (fields.filter fun field => !tellsOfClient field.name).filter fun field =>
      !isHopByHop (connectionNames fields) field.name && !isClientIdentity field.name := by
  have hdropped (listed : List String) {name : String} (h : tellsOfClient name = true) :
      isHopByHop listed name = true ∨ isClientIdentity name = true := by
    simp only [tellsOfClient, Bool.or_eq_true, beq_iff_eq] at h
    rcases h with ((rfl | rfl) | rfl) | h
    · exact .inr rfl
    · exact .inl rfl
    · exact .inr rfl
    · exact .inr (by rw [isClientIdentity, h, Bool.or_true])
  rw [passedOn, List.filter_filter]
  refine List.filter_congr fun field _ => ?_
  cases hclient : tellsOfClient field.name with
  | false => rw [Bool.not_false, Bool.and_true]
  | true =>
    rcases hdropped (connectionNames fields) hclient with h | h <;> simp [h]

/-- **What is passed on of the two messages differs in tokens at most.** -/
theorem forall₂_passedOn (h : SameButCredentials a b) :
    List.Forall₂ SameField (passedOn a) (passedOn b) := by
  rw [passedOn_filter, passedOn_filter, h.connectionNames_eq]
  refine List.rel_filter (fun field other hfield => ?_) h
  dsimp only
  rw [hfield.name_eq]

/-! ### What is sent -/

theorem cookie_passes_iff : Passes a "cookie" ↔ ¬ Lists a "cookie" := by
  have hclient : ¬ OfClient "cookie" := by
    rw [← isClientIdentity_iff]
    decide
  have hconnection : "cookie" ∉ hopByHop := by decide
  rw [Passes, OfConnection, not_or]
  exact ⟨fun h => h.1.2, fun h => ⟨⟨hconnection, h⟩, hclient⟩⟩

/-- The token is read off the values of the cookies. -/
theorem tokenOf?_congr (h : a.values "cookie" = b.values "cookie") :
    Session.tokenOf? a = Session.tokenOf? b := by
  simp only [Session.tokenOf?, Headers.texts, h]

theorem values_cookie_of_listed (h : Lists a "cookie") (clientIp : Option Net.Address)
    (proto : String) : (registryHeaders a clientIp proto).values "cookie" = [] := by
  rw [values_registryHeaders_of_not_passes (mt cookie_passes_iff.1 (not_not.2 h)),
    values_forwardingHeaders_eq_nil (by decide)]

/-- **Messages that differ in their credentials are sent alike exactly where no cookie is sent, or
the tokens are the same**: no password makes a difference to what is sent, nor does a stated client.
A token is sent with the message that it came in, where it is read as the gateway reads it, unless
that message lists `cookie` among the fields of its connection. -/
theorem sent_eq_iff (h : SameButCredentials a b) (clientIp : Option Net.Address) (proto : String) :
    (registryHeaders a clientIp proto = registryHeaders b clientIp proto ↔
      Lists a "cookie" ∨ a.values "cookie" = b.values "cookie") ∧
    (¬ Lists a "cookie" →
      Session.tokenOf? (registryHeaders a clientIp proto) = Session.tokenOf? a) ∧
    (Lists a "cookie" → Session.tokenOf? (registryHeaders a clientIp proto) = none) := by
  have hlists : Lists a "cookie" ↔ Lists b "cookie" := by
    rw [← mem_connectionNames_iff, h.connectionNames_eq, mem_connectionNames_iff]
  have hpassed : registryHeaders a clientIp proto = registryHeaders b clientIp proto ↔
      (passedOn a).values "cookie" = (passedOn b).values "cookie" := by
    rw [registryHeaders, registryHeaders, h.forwardingHeaders_eq, List.append_left_inj,
      eq_iff_of_forall₂ (forall₂_passedOn h)]
  refine ⟨?_, fun hnone => ?_, fun hlisted => ?_⟩
  · rw [hpassed]
    by_cases hlisted : Lists a "cookie"
    · rw [values_passedOn_eq_nil (mt cookie_passes_iff.1 (not_not.2 hlisted)),
        values_passedOn_eq_nil (mt cookie_passes_iff.1 (not_not.2 (hlists.1 hlisted)))]
      exact iff_of_true rfl (.inl hlisted)
    · rw [values_passedOn (cookie_passes_iff.2 hlisted),
        values_passedOn (cookie_passes_iff.2 (mt hlists.2 hlisted))]
      exact (or_iff_right hlisted).symm
  · exact tokenOf?_congr
      (values_registryHeaders_of_passes (cookie_passes_iff.2 hnone) clientIp proto)
  · rw [tokenOf?_congr (b := []) (values_cookie_of_listed hlisted clientIp proto)]
    rfl

namespace Sample

/-- A message of a browser that is logged in with the token. -/
def browser (token : String) : Headers :=
  [.ofText "cookie" ("theme=dark; registry_gate_session=" ++ token), .ofText "accept" "*/*"]

/-- The same message with a password in it. -/
def browserWithPassword (token : String) : Headers :=
  .ofText "authorization" "Basic YWxpY2U6c2VjcmV0" :: browser token

theorem sameButCredentials_browser :
    SameButCredentials (browserWithPassword "t") (browser "u") := by
  have hpair : List.Forall₂ (fun p q => p = q ∨ IsSessionPair p ∧ IsSessionPair q)
      (Text.splitAt ';' "theme=dark; registry_gate_session=t")
      (Text.splitAt ';' "theme=dark; registry_gate_session=u") :=
    .cons (.inl rfl) (.cons (.inr ⟨⟨"t", by decide⟩, ⟨"u", by decide⟩⟩) .nil)
  exact .cons (.cookie ⟨_, _, by decide, by decide, hpair⟩) (.cons (.refl _) .nil)

end Sample

/-- Of two messages with a password and two tokens between them, each leaves its token. -/
theorem sent_of_browsers :
    registryHeaders (Sample.browserWithPassword "t") none "https" ≠
      registryHeaders (Sample.browser "u") none "https" ∧
    Session.tokenOf? (registryHeaders (Sample.browserWithPassword "t") none "https") =
      some "t" := by
  have hnone : ¬ Lists (Sample.browserWithPassword "t") "cookie" := by
    rw [← mem_connectionNames_iff]
    decide
  obtain ⟨hsame, htoken, -⟩ := sent_eq_iff Sample.sameButCredentials_browser none "https"
  refine ⟨fun heq => ?_, (htoken hnone).trans (by decide)⟩
  exact absurd ((hsame.1 heq).resolve_left hnone) (by decide)

/-- Messages that differ in their credentials alone are not always sent alike. -/
theorem not_sent_alike :
    ¬ ∀ (clientIp : Option Net.Address) (proto : String) (a b : Headers), SameButCredentials a b →
      Session.tokenOf? a ≠ none → Session.tokenOf? b ≠ none →
      registryHeaders a clientIp proto = registryHeaders b clientIp proto := by
  intro hsame
  have heq := hsame none "https" _ _ Sample.sameButCredentials_browser (by decide) (by decide)
  exact absurd heq (by decide)

end Proxy

end ImageGateway
