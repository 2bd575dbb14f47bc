import ImageGateway.Proofs.Text.Cut
import ImageGateway.Proxy.Headers

/-!
# Which fields pass

A message decides itself which of its fields belong to the connection: its `connection` fields list
further names, more than one to a field, in letters of either case, and between texts that are no
text at all.  Fields of those names are dropped on both sides of the proxy, and towards the registry
also those that tell who the client is.

Nothing else is dropped, and nothing is added but the three fields in which the gateway states the
client.  A client can neither send these itself nor, by listing their names, keep the gateway from
sending them.  All of this is said for one name at a time, about the values of that name in order.

* `Lists`, `Passes` : what a message lists, and what passes to the registry.
* `Headers.values_filter` : a filter by name keeps all values of a name or none.
* `values_of_passed` : **a field passes with all its values or not at all**, in both directions.
-/

namespace ImageGateway

namespace Http.Headers

variable {fields other : Headers} {name : String}

theorem values_append :
    values (fields ++ other) name = fields.values name ++ other.values name := by
  simp only [values, List.filter_append, List.map_append]

theorem values_cons (field : Header) (fields : Headers) :
    Headers.values (field :: fields) name = Headers.values [field] name ++ fields.values name := by
  rw [← List.singleton_append, values_append]

theorem values_map_mk (other : String) (values : List Bytes) :
    Headers.values (values.map (Header.mk other)) name = if other = name then values else [] := by
  by_cases h : other = name <;> simp [Headers.values, List.filter_map, Function.comp_def, h]

/-- **A filter by name keeps all values of a name or none.** -/
theorem values_filter (keep : String → Bool) :
    values (fields.filter fun field => keep field.name) name =
      if keep name then fields.values name else [] := by
  have hfilter : (fields.filter fun field => keep field.name).filter (·.name == name) =
      if keep name then fields.filter (·.name == name) else [] := by
    rw [List.filter_filter]
    split_ifs with h
    · refine List.filter_congr fun field _ => ?_
      by_cases hname : field.name = name
      · simp [hname, h]
      · simp [hname]
    · rw [List.filter_eq_nil_iff]
      rintro field - hkept
      simp only [Bool.and_eq_true, beq_iff_eq] at hkept
      exact h (hkept.1 ▸ hkept.2)
  rw [values, hfilter]
  split_ifs <;> rfl

theorem mem_texts_iff {text : String} : text ∈ fields.texts name ↔
    ∃ field ∈ fields, field.name = name ∧ valueText? field.value = some text := by
  simp [texts, values, and_assoc]

end Http.Headers

namespace Proxy

open Http

/-- A `connection` field of the message that is text lists the name, up to blanks around it and the
case of its letters. -/
def Lists (fields : Headers) (name : String) : Prop :=
  name ≠ "" ∧ ∃ field ∈ fields, field.name = "connection" ∧ ∃ text,
    valueText? field.value = some text ∧ ∃ part ∈ Text.splitAt ',' text,
      Text.lowerAscii (Text.trim part) = name

/-- Fields of the name belong to the connection that the message came over. -/
def OfConnection (fields : Headers) (name : String) : Prop :=
  name ∈ hopByHop ∨ Lists fields name

/-- Fields of the name tell who the client is, or claim to. -/
def OfClient (name : String) : Prop :=
  name ∈ ["host", "authorization", "forwarded"] ∨ ∃ rest, name = "x-forwarded-" ++ rest

/-- The names of the fields in which the gateway states the client. -/
def statedNames : List String := ["x-forwarded-for", "x-forwarded-host", "x-forwarded-proto"]

/-- Fields of the name pass from the client's message to the registry. -/
def Passes (fields : Headers) (name : String) : Prop :=
  ¬ OfConnection fields name ∧ ¬ OfClient name

variable {fields : Headers} {name : String}

/-! ### The checks -/

theorem mem_connectionNames_iff : name ∈ connectionNames fields ↔ Lists fields name := by
  simp only [connectionNames, List.mem_filter, List.mem_map, List.mem_flatMap, Lists,
    Headers.mem_texts_iff, Bool.not_eq_true', String.isEmpty_eq_false_iff]
  constructor
  · rintro ⟨⟨part, ⟨text, ⟨field, hfield, hname, htext⟩, hpart⟩, rfl⟩, hne⟩
    exact ⟨hne, field, hfield, hname, text, htext, part, hpart, rfl⟩
  · rintro ⟨hne, field, hfield, hname, text, htext, part, hpart, rfl⟩
    exact ⟨⟨part, ⟨text, ⟨field, hfield, hname, htext⟩, hpart⟩, rfl⟩, hne⟩

theorem isHopByHop_iff :
    isHopByHop (connectionNames fields) name = true ↔ OfConnection fields name := by
  rw [isHopByHop, Bool.or_eq_true, List.contains_iff_mem, List.contains_iff_mem,
    mem_connectionNames_iff, OfConnection]

theorem isClientIdentity_iff : isClientIdentity name = true ↔ OfClient name := by
  simp only [isClientIdentity, OfClient, Bool.or_eq_true, beq_iff_eq, Text.beginsWith_iff,
    List.mem_cons, List.not_mem_nil, or_false, or_assoc]

/-- The check of a field of the client's message. -/
theorem passes_iff : (!isHopByHop (connectionNames fields) name && !isClientIdentity name) = true ↔
    Passes fields name := by
  rw [Bool.and_eq_true, Bool.not_eq_true', Bool.not_eq_true', ← Bool.not_eq_true,
    ← Bool.not_eq_true, isHopByHop_iff, isClientIdentity_iff, Passes]

/-- The fields in which the gateway states the client never pass from the client. -/
theorem not_passes_of_stated (h : name ∈ statedNames) : ¬ Passes fields name := by
  refine fun hpasses => hpasses.2 (.inr ?_)
  simp only [statedNames, List.mem_cons, List.not_mem_nil, or_false] at h
  rcases h with rfl | rfl | rfl
  · exact ⟨"for", rfl⟩
  · exact ⟨"host", rfl⟩
  · exact ⟨"proto", rfl⟩

/-! ### The fields towards the registry -/

theorem values_passedOn (h : Passes fields name) :
    (passedOn fields).values name = fields.values name :=
  (Headers.values_filter fun name =>
    !isHopByHop (connectionNames fields) name && !isClientIdentity name).trans
      (if_pos (passes_iff.2 h))

theorem values_passedOn_eq_nil (h : ¬ Passes fields name) : (passedOn fields).values name = [] :=
  (Headers.values_filter fun name =>
    !isHopByHop (connectionNames fields) name && !isClientIdentity name).trans
      (if_neg (mt passes_iff.1 h))

theorem values_forwardingHeaders (clientIp : Option Net.Address) (proto : String) :
    (forwardingHeaders fields clientIp proto).values name =
      (if "x-forwarded-for" = name then (clientIp.map fun ip => Utf8.encode ip.render).toList
        else []) ++
      (if "x-forwarded-host" = name then (fields.values "host").head?.toList else []) ++
      if "x-forwarded-proto" = name then
        if (Utf8.encode proto).all isValueByte then [Utf8.encode proto] else []
      else [] := by
  have hip : (clientIp.toList.map fun ip => Header.ofText "x-forwarded-for" ip.render) =
      (clientIp.map fun ip => Utf8.encode ip.render).toList.map (.mk "x-forwarded-for") := by
    cases clientIp <;> rfl
  have hproto : (if (Utf8.encode proto).all isValueByte then
      [Header.mk "x-forwarded-proto" (Utf8.encode proto)] else []) =
        (if (Utf8.encode proto).all isValueByte then [Utf8.encode proto] else []).map
          (.mk "x-forwarded-proto") := by
    split_ifs <;> rfl
  rw [forwardingHeaders, hip, hproto]
  simp only [Headers.values_append, Headers.values_map_mk]
  rfl

theorem values_forwardingHeaders_eq_nil {clientIp : Option Net.Address} {proto : String}
    (h : name ∉ statedNames) : (forwardingHeaders fields clientIp proto).values name = [] := by
  simp only [statedNames, List.mem_cons, List.not_mem_nil, or_false, not_or] at h
  rw [values_forwardingHeaders, if_neg (Ne.symm h.1), if_neg (Ne.symm h.2.1),
    if_neg (Ne.symm h.2.2)]
  rfl

/-- What does not pass from the client is there only if the gateway states it. -/
theorem values_registryHeaders_of_not_passes (h : ¬ Passes fields name)
    (clientIp : Option Net.Address) (proto : String) :
    (registryHeaders fields clientIp proto).values name =
      (forwardingHeaders fields clientIp proto).values name := by
  rw [registryHeaders, Headers.values_append, values_passedOn_eq_nil h, List.nil_append]

theorem values_registryHeaders_of_passes (h : Passes fields name)
    (clientIp : Option Net.Address) (proto : String) :
    (registryHeaders fields clientIp proto).values name = fields.values name := by
  have hname : name ∉ statedNames := fun hstated => not_passes_of_stated hstated h
  rw [registryHeaders, Headers.values_append, values_passedOn h,
    values_forwardingHeaders_eq_nil hname, List.append_nil]

/-! ### The fields towards the client -/

theorem values_downstreamHeaders (h : ¬ OfConnection fields name) :
    (downstreamHeaders fields).values name = fields.values name :=
  (Headers.values_filter fun name => !isHopByHop (connectionNames fields) name).trans
    (if_pos (by rwa [Bool.not_eq_true', ← Bool.not_eq_true, isHopByHop_iff]))

theorem values_downstreamHeaders_eq_nil (h : OfConnection fields name) :
    (downstreamHeaders fields).values name = [] :=
  (Headers.values_filter fun name => !isHopByHop (connectionNames fields) name).trans
    (if_neg (by rwa [Bool.not_eq_true', ← Bool.not_eq_true, isHopByHop_iff, not_not]))

theorem not_ofConnection_of_mem {field : Header} (h : field ∈ downstreamHeaders fields) :
    ¬ OfConnection fields field.name := by
  have hkept := List.of_mem_filter h
  rwa [Bool.not_eq_true', ← Bool.not_eq_true, isHopByHop_iff] at hkept

/-- What has passed lists nothing, and passes again. -/
theorem downstreamHeaders_downstreamHeaders (fields : Headers) :
    downstreamHeaders (downstreamHeaders fields) = downstreamHeaders fields := by
  rw [downstreamHeaders, List.filter_eq_self]
  intro field hfield
  rw [Bool.not_eq_true', ← Bool.not_eq_true, isHopByHop_iff]
  rintro (hname | ⟨-, other, hother, hconnection, -⟩)
  · exact not_ofConnection_of_mem hfield (.inl hname)
  · exact not_ofConnection_of_mem hother (.inl (hconnection ▸ by decide))

/-- **A field passes with all its values or not at all**, whatever fields there are and whatever the
`connection` fields list.  Towards the registry, a name that neither belongs to the connection nor
tells of the client keeps its values in order; of the others only three have values, which the
gateway states: the address of the client if it is known, the first host that the client names if it
names one, and the protocol if it is a legal value.  Towards the client, a name keeps its values in
order unless it belongs to the connection, and what has passed once passes again as it is. -/
theorem values_of_passed (incoming : Headers) (clientIp : Option Net.Address) (proto : String)
    (answered : Headers) :
    let sent := registryHeaders incoming clientIp proto
    let returned := downstreamHeaders answered
    (∀ name, Passes incoming name → sent.values name = incoming.values name) ∧
    (∀ name, ¬ Passes incoming name → name ∉ statedNames → sent.values name = []) ∧
    sent.values "x-forwarded-for" = (clientIp.map fun ip => Utf8.encode ip.render).toList ∧
    sent.values "x-forwarded-host" = (incoming.values "host").head?.toList ∧
    ((∀ b ∈ Utf8.encode proto, isValueByte b = true) →
      sent.values "x-forwarded-proto" = [Utf8.encode proto]) ∧
    ((∃ b ∈ Utf8.encode proto, isValueByte b = false) → sent.values "x-forwarded-proto" = []) ∧
    (∀ name, ¬ OfConnection answered name → returned.values name = answered.values name) ∧
    (∀ name, OfConnection answered name → returned.values name = []) ∧
    downstreamHeaders returned = returned := by
  intro sent returned
  have hstated {name : String} (h : name ∈ statedNames) : sent.values name = _ :=
    values_registryHeaders_of_not_passes (not_passes_of_stated h) clientIp proto
  refine ⟨fun name h => values_registryHeaders_of_passes h clientIp proto, fun name h hname => ?_,
    (hstated (by decide)).trans ?_, (hstated (by decide)).trans ?_,
    fun hlegal => (hstated (by decide)).trans ?_, fun hillegal => (hstated (by decide)).trans ?_,
    fun name => values_downstreamHeaders, fun name => values_downstreamHeaders_eq_nil,
    downstreamHeaders_downstreamHeaders answered⟩
  · rw [values_registryHeaders_of_not_passes h, values_forwardingHeaders_eq_nil hname]
  · rw [values_forwardingHeaders]
    exact (List.append_nil _).trans (List.append_nil _)
  · rw [values_forwardingHeaders]
    exact List.append_nil _
  · rw [values_forwardingHeaders, List.all_eq_true.2 hlegal]
    rfl
  · have hall : (Utf8.encode proto).all isValueByte = false := by
      simpa [List.all_eq_false] using hillegal
    rw [values_forwardingHeaders, hall]
    rfl

example :
    registryHeaders [.ofText "connection" "X-Trace , x-forwarded-proto", .ofText "x-trace" "1",
      .ofText "x-forwarded-proto" "http", .ofText "accept" "*/*"] none "https" =
    [.ofText "accept" "*/*", .ofText "x-forwarded-proto" "https"] := by decide +kernel

end Proxy

end ImageGateway
