import ImageGateway.Api.Action
import ImageGateway.Proofs.Except
import ImageGateway.Proofs.Text.Cut

/-!
# Decisions of the introspection API

What the API checks before it does anything.  A request names a namespace, either as such or as the
first segment of a repository; `namedNamespace?` reads it off the query, and whatever is done for
the request is done in that namespace for a session that covers it.

* `repositoryName_eq_ok_iff`, `tagOf_eq_ok` : what a well-formed name is.
* `Action.decide_eq_ok` : **an action lies in the namespace that the request names, and the session
  covers it**; only a deletion deletes, and only with the right to delete.
* `Action.decide_eq_error` : a refusal is that of a bad request or of a missing right.
-/

namespace ImageGateway

namespace Api

open Server (Refusal)

variable {ε α β : Type} {session : Session} {query : Bytes}

/-! ### Names -/

/-- The repository is well formed and lies in the namespace, its first segment. -/
def RepositoryIn (nameSpace repo : String) : Prop :=
  isRepository repo = true ∧ ∃ rest, Text.cutAt '/' repo = some (nameSpace, rest)

theorem repositoryName_eq_ok_iff {trimmed : String} {name : RepositoryName} :
    repositoryName trimmed = .ok name ↔
      name.repo = trimmed ∧ RepositoryIn name.nameSpace name.repo := by
  obtain ⟨repo, nameSpace⟩ := name
  unfold repositoryName RepositoryIn
  cases hcut : Text.cutAt '/' trimmed with
  | none =>
    have hno : ¬ (repo = trimmed ∧ isRepository repo = true ∧
        ∃ rest, Text.cutAt '/' repo = some (nameSpace, rest)) := by
      rintro ⟨rfl, -, rest, hrest⟩
      rw [hcut] at hrest
      cases hrest
    dsimp only
    split_ifs <;> simpa using hno
  | some parts =>
    obtain ⟨first, rest⟩ := parts
    have hne : ¬ trimmed.isEmpty = true := fun h => by
      rw [String.isEmpty_iff.1 h] at hcut
      cases hcut
    dsimp only
    rw [if_neg hne]
    split_ifs with hrepository
    · constructor
      · intro h
        cases h
        exact ⟨rfl, hrepository, rest, hcut⟩
      · rintro ⟨rfl, -, rest', hrest'⟩
        rw [hcut] at hrest'
        cases hrest'
        rfl
    · constructor
      · intro h
        cases h
      · rintro ⟨rfl, h, -⟩
        exact absurd h hrepository

theorem ofRaw_eq_ok_iff {repo tag : String} {name : TagName} : TagName.ofRaw repo tag = .ok name ↔
    name.tag = Text.trim tag ∧ isTag name.tag = true ∧ name.repository.repo = Text.trim repo ∧
      RepositoryIn name.repository.nameSpace name.repository.repo := by
  obtain ⟨repository, tag'⟩ := name
  unfold TagName.ofRaw RepositoryName.ofRaw
  dsimp only
  rw [Text.trim_trim, ← repositoryName_eq_ok_iff]
  cases hname : repositoryName (Text.trim repo) with
  | error e => split_ifs <;> simp
  | ok repository' =>
    obtain ⟨hrepo, -, rest, hrest⟩ := repositoryName_eq_ok_iff.1 hname
    have hrepo' : (Text.trim repo).isEmpty = false := by
      rw [← hrepo, Bool.eq_false_iff]
      intro h
      rw [String.isEmpty_iff.1 h] at hrest
      cases hrest
    rw [hrepo', Bool.false_or]
    dsimp only
    by_cases htag : isTag (Text.trim tag) = true
    · have hne : ¬ (Text.trim tag).isEmpty = true := fun h => by
        rw [String.isEmpty_iff.1 h] at htag
        cases htag
      rw [if_neg hne, if_pos htag]
      constructor
      · intro h
        cases h
        exact ⟨rfl, htag, rfl⟩
      · rintro ⟨rfl, -, h⟩
        cases h
        rfl
    · rw [if_neg htag]
      constructor
      · intro h
        split_ifs at h
      · rintro ⟨rfl, h, -⟩
        exact absurd h htag

/-! ### What a query names -/

/-- The namespace that a request names: as such, or as the first segment of its repository. -/
def namedNamespace? (query : Bytes) : ApiRoute → Option String
  | .dashboard => none
  | .catalog | .repos => some (Text.trim (Form.value (Form.pairs query) "namespace"))
  | .tags | .tagInfo | .tagLayers | .tag =>
    (Text.cutAt '/' (Text.trim (Form.value (Form.pairs query) "repo"))).map Prod.fst

theorem queryData_eq_ok {names : List String} {data : List (String × String)}
    (h : queryData names query = .ok data) : data = Form.pairs query := by
  unfold queryData at h
  dsimp only at h
  split at h
  · cases h
  · exact (Except.ok.inj h).symm

theorem checkNamespace_eq_ok_iff {nameSpace : String} :
    checkNamespace session nameSpace = .ok () ↔ session.covers nameSpace = true := by
  unfold checkNamespace
  split_ifs with h <;> simp [h]

theorem namespaceOf_eq_ok {nameSpace : String} (h : namespaceOf session query = .ok nameSpace) :
    nameSpace = Text.trim (Form.value (Form.pairs query) "namespace") ∧ nameSpace ≠ "" ∧
      session.covers nameSpace = true := by
  simp only [namespaceOf, bind_eq_ok_iff] at h
  obtain ⟨data, hdata, h⟩ := h
  obtain rfl := queryData_eq_ok hdata
  split_ifs at h with hempty
  obtain ⟨_, hcheck, h⟩ := bind_eq_ok_iff.1 h
  obtain rfl := Except.ok.inj h
  exact ⟨rfl, by simpa using hempty, checkNamespace_eq_ok_iff.1 hcheck⟩

theorem repositoryOf_eq_ok {name : RepositoryName} (h : repositoryOf session query = .ok name) :
    name.repo = Text.trim (Form.value (Form.pairs query) "repo") ∧
      RepositoryIn name.nameSpace name.repo ∧ session.covers name.nameSpace = true := by
  simp only [repositoryOf, bind_eq_ok_iff] at h
  obtain ⟨data, hdata, name', hname, _, hcheck, h⟩ := h
  obtain rfl := queryData_eq_ok hdata
  obtain rfl := Except.ok.inj h
  obtain ⟨hrepo, hin⟩ := repositoryName_eq_ok_iff.1 hname
  exact ⟨hrepo, hin, checkNamespace_eq_ok_iff.1 hcheck⟩

theorem tagOf_eq_ok {name : TagName} (h : tagOf session query = .ok name) :
    name.repository.repo = Text.trim (Form.value (Form.pairs query) "repo") ∧
      RepositoryIn name.repository.nameSpace name.repository.repo ∧ isTag name.tag = true ∧
      session.covers name.repository.nameSpace = true := by
  simp only [tagOf, bind_eq_ok_iff] at h
  obtain ⟨data, hdata, name', hname, _, hcheck, h⟩ := h
  obtain rfl := queryData_eq_ok hdata
  obtain rfl := Except.ok.inj h
  obtain ⟨-, htag, hrepo, hin⟩ := ofRaw_eq_ok_iff.1 hname
  exact ⟨hrepo, hin, htag, checkNamespace_eq_ok_iff.1 hcheck⟩

theorem namedNamespace?_of_repository {route : ApiRoute} {repo nameSpace : String}
    (hroute : route ∈ [.tags, .tagInfo, .tagLayers, .tag])
    (hrepo : repo = Text.trim (Form.value (Form.pairs query) "repo"))
    (h : RepositoryIn nameSpace repo) : namedNamespace? query route = some nameSpace := by
  obtain ⟨-, rest, hrest⟩ := h
  simp only [List.mem_cons, List.not_mem_nil, or_false] at hroute
  rcases hroute with rfl | rfl | rfl | rfl <;>
    simp only [namedNamespace?, ← hrepo, hrest, Option.map_some]

namespace Action

/-- The action lies in the namespace; the dashboard lies in every one. -/
def LiesIn (nameSpace : String) : Action → Prop
  | .showDashboard => True
  | .listCatalog other | .listRepositories other => other = nameSpace
  | .listTags repo => RepositoryIn nameSpace repo
  | .showTagInfo repo tag | .showTagDetails repo tag | .deleteTag repo tag =>
    RepositoryIn nameSpace repo ∧ isTag tag = true

/-- The action is a deletion. -/
def deletes : Action → Bool
  | .deleteTag _ _ => true
  | _ => false

/-- **What a request asks for lies in the namespace that it names, which the session covers.** -/
theorem decide_eq_ok {route : ApiRoute} {action : Action}
    (h : decide session query route = .ok action) :
    route = .dashboard ∧ action = .showDashboard ∨
      ∃ nameSpace, namedNamespace? query route = some nameSpace ∧
        session.covers nameSpace = true ∧ action.LiesIn nameSpace ∧
        (action.deletes = true → route = .tag ∧ session.mayDelete nameSpace = true) := by
  cases route with
  | dashboard => exact .inl ⟨rfl, (Except.ok.inj h).symm⟩
  | catalog | repos =>
    obtain ⟨nameSpace, hnameSpace, rfl⟩ := map_eq_ok_iff.1 h
    obtain ⟨rfl, -, hcovers⟩ := namespaceOf_eq_ok hnameSpace
    exact .inr ⟨_, rfl, hcovers, rfl, fun h => by cases h⟩
  | tags =>
    obtain ⟨name, hname, rfl⟩ := map_eq_ok_iff.1 h
    obtain ⟨hrepo, hin, hcovers⟩ := repositoryOf_eq_ok hname
    exact .inr ⟨name.nameSpace, namedNamespace?_of_repository (by simp) hrepo hin, hcovers, hin,
      fun h => by cases h⟩
  | tagInfo | tagLayers =>
    obtain ⟨name, hname, rfl⟩ := map_eq_ok_iff.1 h
    obtain ⟨hrepo, hin, htag, hcovers⟩ := tagOf_eq_ok hname
    exact .inr ⟨name.repository.nameSpace, namedNamespace?_of_repository (by simp) hrepo hin,
      hcovers, ⟨hin, htag⟩, fun h => by cases h⟩
  | tag =>
    obtain ⟨name, hname, h⟩ := bind_eq_ok_iff.1 h
    obtain ⟨hrepo, hin, htag, hcovers⟩ := tagOf_eq_ok hname
    split_ifs at h with hdelete
    obtain rfl := Except.ok.inj h
    exact .inr ⟨name.repository.nameSpace, namedNamespace?_of_repository (by simp) hrepo hin,
      hcovers, ⟨hin, htag⟩, fun _ => ⟨rfl, hdelete⟩⟩

end Action

end Api

/-! ### Refusals -/

namespace Server

@[simp] theorem Refusal.response_status (refusal : Refusal) :
    refusal.response.status = refusal.status := by
  unfold response
  split_ifs <;> rfl

theorem Refusal.status_ne_ok (refusal : Refusal) : refusal.status ≠ 200 := by
  cases refusal <;> simp [status]

end Server

namespace Api

open Server (Refusal)

variable {session : Session} {query : Bytes}

/-- The refusal blames the request or the rights of the session. -/
def Blames (refusal : Refusal) : Prop := refusal.status = 400 ∨ refusal.status = 403

theorem queryData_eq_error {names : List String} {e : Refusal}
    (h : queryData names query = .error e) : Blames e := by
  unfold queryData at h
  dsimp only at h
  split at h
  · cases h
    exact .inl rfl
  · cases h

theorem checkNamespace_eq_error {nameSpace : String} {e : Refusal}
    (h : checkNamespace session nameSpace = .error e) : Blames e := by
  unfold checkNamespace at h
  split_ifs at h
  cases h
  exact .inr rfl

theorem repositoryName_eq_error {trimmed : String} {e : Refusal}
    (h : repositoryName trimmed = .error e) : Blames e := by
  unfold repositoryName at h
  split at h
  · cases h
    exact .inl rfl
  split at h
  · cases h
    exact .inl rfl
  split_ifs at h
  cases h
  exact .inl rfl

theorem ofRaw_eq_error {repo tag : String} {e : Refusal} (h : TagName.ofRaw repo tag = .error e) :
    Blames e := by
  unfold TagName.ofRaw at h
  dsimp only at h
  split at h
  · cases h
    exact .inl rfl
  split at h
  · rename_i e' he'
    cases h
    exact repositoryName_eq_error he'
  split_ifs at h
  cases h
  exact .inl rfl

theorem namespaceOf_eq_error {e : Refusal} (h : namespaceOf session query = .error e) :
    Blames e := by
  simp only [namespaceOf, bind_eq_error_iff] at h
  rcases h with h | ⟨data, -, h⟩
  · exact queryData_eq_error h
  · split_ifs at h
    · cases h
      exact .inr rfl
    · rcases bind_eq_error_iff.1 h with h | ⟨_, -, h⟩
      · exact checkNamespace_eq_error h
      · cases h

theorem repositoryOf_eq_error {e : Refusal} (h : repositoryOf session query = .error e) :
    Blames e := by
  simp only [repositoryOf, bind_eq_error_iff] at h
  rcases h with h | ⟨data, -, h | ⟨name, -, h | ⟨_, -, h⟩⟩⟩
  · exact queryData_eq_error h
  · exact repositoryName_eq_error h
  · exact checkNamespace_eq_error h
  · cases h

theorem tagOf_eq_error {e : Refusal} (h : tagOf session query = .error e) : Blames e := by
  simp only [tagOf, bind_eq_error_iff] at h
  rcases h with h | ⟨data, -, h | ⟨name, -, h | ⟨_, -, h⟩⟩⟩
  · exact queryData_eq_error h
  · exact ofRaw_eq_error h
  · exact checkNamespace_eq_error h
  · cases h

theorem Action.decide_eq_error {route : ApiRoute} {e : Refusal}
    (h : Action.decide session query route = .error e) : Blames e := by
  cases route with
  | dashboard => cases h
  | catalog | repos => exact namespaceOf_eq_error (map_eq_error_iff.1 h)
  | tags => exact repositoryOf_eq_error (map_eq_error_iff.1 h)
  | tagInfo | tagLayers => exact tagOf_eq_error (map_eq_error_iff.1 h)
  | tag =>
    rcases bind_eq_error_iff.1 h with h | ⟨name, -, h⟩
    · exact tagOf_eq_error h
    · split_ifs at h
      cases h
      exact .inr rfl

end Api

end ImageGateway
