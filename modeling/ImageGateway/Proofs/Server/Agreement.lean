import ImageGateway.Proofs.Server.Confinement
import ImageGateway.Proofs.Url.Seam

/-!
# Both surfaces ask the same registry

The introspection API puts the paths that it asks for behind the text of the settings, and the proxy
puts the paths of its clients behind the URL that was read from that text.  For names that the API
takes, the proxy always arrives where the settings point to; the API arrives there exactly if the
text is seamless.

* `same_resource_iff` : **when one path leads both surfaces to the same URL**.
-/

namespace ImageGateway

namespace Server

open Registry (Client)

/-- What the API asks for is read as it is written. -/
theorem plainText_of_asked {repo tag path : String} (hrepo : Api.isRepository repo = true)
    (htag : Api.isTag tag = true)
    (hpath : path ∈ [Client.tagsPath repo, Client.manifestPath repo tag, "_catalog"]) :
    Url.PlainText ("v2" ++ "/" ++ path).toList := by
  refine Api.plainText_of_isRepository ?_
  have hname : Api.isRepository path = true := by
    by_cases hcatalog : path = "_catalog"
    · rw [hcatalog]
      decide
    · have hnamed : path ∈ [Client.tagsPath repo, Client.manifestPath repo tag] := by
        simpa [hcatalog] using hpath
      obtain ⟨rest, rfl, hrest⟩ := Api.exists_eq_append_of_named htag hnamed
      rw [Api.isRepository_append, hrepo, hrest]
      rfl
  rw [Api.isRepository_append, hname]
  decide

/-- **One path, two surfaces.**  For every URL in the settings that passes the check and has neither
query nor fragment, and for every name that the API takes: the proxy reads the list of tags, the
manifest and the catalog as a URL, and the API reads them as the same one if and only if the text of
the settings is seamless. -/
theorem same_resource_iff (s : Settings) {root : Url}
    (hchecked : Settings.checkRegistryUrl s.registry.url = .ok ())
    (hroot : Url.parse s.registry.url = .ok root) (hquery : root.query = none)
    (hfragment : root.fragment = none) {repo tag : String} {name : Api.TagName}
    (hname : Api.TagName.ofRaw repo tag = .ok name) {path : String}
    (hpath : path ∈ [Client.tagsPath name.repository.repo,
      Client.manifestPath name.repository.repo name.tag, "_catalog"]) :
    ∃ url, (Gateway.withRegistry s root).proxy.base.target ("/v2/" ++ path) = .ok url ∧
      (Url.parse ((Gateway.withRegistry s root).client.url path) = .ok url ↔
        Url.Seamless s.registry.url) := by
  have hhttp : root.isHttp = true := by
    unfold Settings.checkRegistryUrl at hchecked
    rw [hroot] at hchecked
    dsimp only at hchecked
    split_ifs at hchecked with hempty hhttp
    exact hhttp
  obtain ⟨-, htag, -, hrepo⟩ := Api.ofRaw_eq_ok_iff.1 hname
  have hplain := plainText_of_asked hrepo.1 htag hpath
  have hbelow (base : String) : (base ++ "/v2/" ++ path).toList =
      base.toList ++ '/' :: ("v2" ++ "/" ++ path).toList := by
    rw [← Text.toList_slash]
    simp only [String.append_assoc]
    rfl
  obtain ⟨url, hread, hsame⟩ := Url.parse_below_iff hroot hhttp hquery hfragment hplain
  refine ⟨url, ?_, ?_⟩
  · rw [Proxy.Base.target, ← String.append_assoc, Url.parse, hbelow]
    exact hread
  · rw [Client.url, Url.parse, hbelow]
    exact hsame

namespace Sample

/-- Settings with this text for the registry. -/
def settingsFor (text : String) : Settings := { settings with registry := { url := text } }

/-- The registry of the settings, below no path. -/
def bareUrl : Url := { url with path := .segments [[]] }

end Sample

/-- Another spelling of the registry of the sample settings. -/
theorem same_resource_of_spelling :
    let s := Sample.settingsFor "\tHTTP:\\\\REGISTRY:05000\\mirror/x/../"
    Url.Seamless s.registry.url ∧
      ∃ url, (Gateway.withRegistry s Sample.url).proxy.base.target "/v2/team1/app/manifests/v1" =
          .ok url ∧
        Url.parse ((Gateway.withRegistry s Sample.url).client.url "team1/app/manifests/v1") =
          .ok url := by
  intro s
  have hseamless : Url.Seamless s.registry.url := ⟨by decide +kernel, by decide +kernel⟩
  obtain ⟨url, hproxy, hsame⟩ := same_resource_iff s (by decide +kernel)
    (show Url.parse s.registry.url = .ok Sample.url by decide +kernel) rfl rfl
    (show Api.TagName.ofRaw " team1/app" "v1" = .ok ⟨⟨"team1/app", "team1"⟩, "v1"⟩ by
      decide +kernel)
    (List.mem_cons_of_mem _ List.mem_cons_self)
  exact ⟨hseamless, url, hproxy, hsame.2 hseamless⟩

/-- A blank at the end of the settings leaves the API without a registry, and a backslash leads it
to another path than the proxy. -/
theorem not_same_resource :
    let blank := Sample.settingsFor "http://registry:5000 "
    let backslash := Sample.settingsFor "http://registry:5000\\"
    let catalog : Url := { Sample.bareUrl with path := .segments ["v2".toList, "_catalog".toList] }
    Sample.bareUrl.query = none ∧ Sample.bareUrl.fragment = none ∧
      (∀ s ∈ [blank, backslash], Settings.checkRegistryUrl s.registry.url = .ok () ∧
        Url.parse s.registry.url = .ok Sample.bareUrl ∧
        (Gateway.withRegistry s Sample.bareUrl).proxy.base.target "/v2/_catalog" = .ok catalog) ∧
      Url.parse ((Gateway.withRegistry blank Sample.bareUrl).client.url "_catalog") =
        .error .invalidPort ∧
      (Url.parse ((Gateway.withRegistry backslash Sample.bareUrl).client.url "_catalog")).map
        Url.pathText = .ok "//v2/_catalog" := by
  intro blank backslash catalog
  exact ⟨rfl, rfl, by decide +kernel, by decide +kernel, by decide +kernel⟩

end Server

end ImageGateway
