import ImageGateway.Proofs.Except
import ImageGateway.Proofs.Server.Serve
import ImageGateway.Server.Command

/-!
# From valid settings to a running gateway

The settings are checked when they are loaded, and the parts of the gateway are built from them
afterwards.  Each part has conditions of its own: the URL of the registry must be one, and the store
of sessions takes no lifetime of more than a thousand years.  Of these the check knows the first one
alone, as its only condition on the lifetime is that it is not zero.

* `Settings.Valid` : the conditions under which the check accepts settings, without their order.
* `Settings.validate_of_load` : settings that are loaded have been checked.
* `Gateway.ofSettings_of_valid` : what becomes of valid settings.
* `served_iff_of_validate` : **valid settings are served if and only if the store takes their
  lifetime**, and otherwise the gateway stops although the check has found nothing.
-/

namespace ImageGateway

namespace Settings

/-! ### What is checked -/

theorem checkRegistryUrl_eq_ok_iff {text : String} : checkRegistryUrl text = .ok () ↔
    text.isEmpty = false ∧ ∃ url, Url.parse text = .ok url ∧ url.isHttp = true := by
  unfold checkRegistryUrl
  cases hempty : text.isEmpty with
  | true => simp
  | false =>
    cases Url.parse text with
    | error cause => simp
    | ok url => cases hhttp : url.isHttp <;> simp [hhttp]

/-- The settings have no fault that is looked for. -/
structure Valid (s : Settings) : Prop where
  registry : s.registry.url.isEmpty = false
  registryUrl : ∃ url, Url.parse s.registry.url = .ok url ∧ url.isHttp = true
  directory : s.ldap.url.isEmpty = false
  timeout : s.registry.timeoutSecs ≠ 0
  concurrency : s.registry.catalogConcurrency ≠ 0
  lifetime : s.session.lifetimeSecs ≠ 0

theorem validate_eq_ok_iff {s : Settings} : s.validate = .ok () ↔ s.Valid := by
  unfold validate
  rw [bind_eq_ok_iff]
  constructor
  · rintro ⟨_, hregistry, h⟩
    obtain ⟨hnamed, hurl⟩ := checkRegistryUrl_eq_ok_iff.1 hregistry
    split_ifs at h with hdirectory htimeout hconcurrency hlifetime
    exact ⟨hnamed, hurl, by simpa using hdirectory, htimeout, hconcurrency, hlifetime⟩
  · intro h
    refine ⟨(), checkRegistryUrl_eq_ok_iff.2 ⟨h.registry, h.registryUrl⟩, ?_⟩
    simp only [h.directory, h.timeout, h.concurrency, h.lifetime, if_false, Bool.false_eq_true]

/-- Settings that are loaded have been checked. -/
theorem validate_of_load {env : Environment} {directory runMode : String} {files : Files}
    {l : Loaded} (h : load env directory runMode files = .ok l) : l.settings.validate = .ok () := by
  obtain ⟨v, -, h⟩ := bind_eq_ok_iff.1 h
  obtain ⟨s, -, h⟩ := bind_eq_ok_iff.1 h
  obtain ⟨_, hvalid, h⟩ := bind_eq_ok_iff.1 h
  cases h
  exact mapError_eq_ok_iff.1 hvalid

end Settings

namespace Server

open Session.Store (longestLifetime)

/-! ### What is started -/

namespace Gateway

variable {s : Settings}

theorem ofSettings_of_valid (h : s.Valid) : ∃ url, Url.parse s.registry.url = .ok url ∧
    ofSettings s =
      if s.session.lifetimeSecs ≤ longestLifetime then
        .ok (withRegistry s url, .empty s.session.lifetimeSecs)
      else .error .lifetimeTooLong := by
  obtain ⟨url, hurl, -⟩ := h.registryUrl
  refine ⟨url, hurl, ?_⟩
  rw [ofSettings, hurl]
  dsimp only
  rw [Session.Store.ofLifetime?]
  split_ifs <;> rfl

theorem ofSettings_eq_ok_iff (h : s.Valid) :
    (∃ started, ofSettings s = .ok started) ↔ s.session.lifetimeSecs ≤ longestLifetime := by
  obtain ⟨url, -, hbuilt⟩ := ofSettings_of_valid h
  rw [hbuilt]
  split_ifs with hlifetime <;> simp [hlifetime]

end Gateway

namespace Command

variable {loaded : Except Settings.LoadError Settings.Loaded}

/-- What is reported when the store of sessions does not take the lifetime. -/
def stopped : Report := ⟨101, "", BuildError.lifetimeTooLong.message ++ "\n"⟩

theorem configReport_exit_iff : (configReport loaded).exit = 0 ↔ ∃ l, loaded = .ok l := by
  cases loaded <;> simp [configReport]

theorem start_of_valid {l : Settings.Loaded} (h : l.settings.Valid) :
    ∃ url, Url.parse l.settings.registry.url = .ok url ∧ start (.ok l) =
      if l.settings.session.lifetimeSecs ≤ longestLifetime then
        .ok (Gateway.withRegistry l.settings url, .empty l.settings.session.lifetimeSecs)
      else .error stopped := by
  obtain ⟨url, hurl, hbuilt⟩ := Gateway.ofSettings_of_valid h
  refine ⟨url, hurl, ?_⟩
  rw [start, hbuilt]
  split_ifs <;> rfl

end Command

/-- **Valid settings are served if and only if the store of sessions takes their lifetime.**  Among
the settings that pass the check, no other condition stands between them and a gateway.  So whenever
the check of a configuration reports that it is valid, the gateway that it describes is started with
an empty store, unless the lifetime is too long: then the program stops at its start. -/
theorem served_iff_of_validate (s : Settings) (env : Settings.Environment)
    (directory runMode : String) (files : Settings.Files) :
    (s.validate = .ok () →
      ((∃ started, Gateway.ofSettings s = .ok started) ↔
        s.session.lifetimeSecs ≤ longestLifetime)) ∧
    let loaded := Settings.load env directory runMode files
    (Command.configReport loaded).exit = 0 → ∃ l url, loaded = .ok l ∧
      Url.parse l.settings.registry.url = .ok url ∧
      Command.start loaded =
        if l.settings.session.lifetimeSecs ≤ longestLifetime then
          .ok (Gateway.withRegistry l.settings url, .empty l.settings.session.lifetimeSecs)
        else .error Command.stopped := by
  refine ⟨fun h => Gateway.ofSettings_eq_ok_iff (Settings.validate_eq_ok_iff.1 h), ?_⟩
  intro loaded hreport
  obtain ⟨l, hloaded⟩ := Command.configReport_exit_iff.1 hreport
  obtain ⟨url, hurl, hstart⟩ :=
    Command.start_of_valid (Settings.validate_eq_ok_iff.1 (Settings.validate_of_load hloaded))
  exact ⟨l, url, hloaded, hurl, by rw [hloaded, hstart]⟩

namespace Sample

/-- A directory with one file of settings, with this lifetime in seconds. -/
def configured (lifetime : String) : Settings.Files := fun name =>
  if name = "default.toml" then
    some (Utf8.encode ("[server]\n[registry]\nupstream_url = \"http://registry:5000\"\n" ++
      "[ldap]\nurl = \"ldap://directory\"\n[session]\nttl_secs = " ++ lifetime ++ "\n"))
  else none

/-- What is loaded from there. -/
def loadedWith (lifetime : String) : Except Settings.LoadError Settings.Loaded :=
  Settings.load (fun _ => none) "config" "development" (configured lifetime)

/-- Valid settings with a lifetime that is one second too long. -/
def lasting : Settings := { settings with session := { lifetimeSecs := longestLifetime + 1 } }

end Sample

/-- The longest lifetime that is served, and the shortest one for which the gateway stops. -/
theorem served_of_longest_lifetime :
    (∃ started, Gateway.ofSettings Sample.settings = .ok started) ∧
      (∃ started, Command.start (Sample.loadedWith "31536000000") = .ok started) ∧
      Command.start (Sample.loadedWith "31536000001") = .error Command.stopped := by
  have hserved (lifetime : String) := served_iff_of_validate Sample.settings (fun _ => none)
    "config" "development" (Sample.configured lifetime)
  have hstart (lifetime : String) (seconds : Nat)
      (hread : (Sample.loadedWith lifetime).toOption.map (·.settings.session.lifetimeSecs) =
        some seconds) : ∃ gateway, Command.start (Sample.loadedWith lifetime) =
          if seconds ≤ longestLifetime then .ok (gateway, .empty seconds)
          else .error Command.stopped := by
    cases hloaded : Sample.loadedWith lifetime with
    | error e =>
      rw [hloaded] at hread
      cases hread
    | ok l =>
      rw [hloaded] at hread
      obtain ⟨l', url, hl', -, hstarted⟩ :=
        (hserved lifetime).2 (Command.configReport_exit_iff.2 ⟨l, hloaded⟩)
      obtain rfl : l = l' := Except.ok.inj (hloaded.symm.trans hl')
      obtain rfl : l.settings.session.lifetimeSecs = seconds := Option.some.inj hread
      exact ⟨Gateway.withRegistry l.settings url, hl' ▸ hstarted⟩
  refine ⟨((hserved "1800").1 (by decide +kernel)).2 (by decide), ?_, ?_⟩
  · obtain ⟨gateway, hstarted⟩ := hstart "31536000000" 31536000000 (by decide +kernel)
    exact ⟨_, hstarted⟩
  · obtain ⟨gateway, hstopped⟩ := hstart "31536000001" 31536000001 (by decide +kernel)
    exact hstopped

/-- The check of the settings accepts a lifetime for which the gateway is not started. -/
theorem not_served_of_lasting : ¬ ∀ s : Settings, s.validate = .ok () →
    ∃ started, Gateway.ofSettings s = .ok started := by
  intro hserved
  obtain ⟨started, hstarted⟩ := hserved Sample.lasting (by decide +kernel)
  have hstops : Gateway.ofSettings Sample.lasting = .error .lifetimeTooLong := by decide +kernel
  cases hstops.symm.trans hstarted

end Server

end ImageGateway
