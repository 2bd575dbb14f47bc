import ImageGateway.Proofs.Access.Gate
import ImageGateway.Proofs.Access.Grant

/-!
# Names that are cut short

In a distinguished name a comma may be part of a value, with a backslash in front of it.
`groupName` knows nothing of that and cuts an identifier at its first comma.  The name that it reads
is compared with the value of the leading component, which goes on to the first comma that is not
escaped:

* `leadingComponent` : the component as it is meant, told by the backslashes in front of a comma.
* `leadingFrom_cases` : the cut is in the right place, or there is a backslash in front of it.
* `groupName_of_whole`, `groupName_of_cut` : the name is the whole value, or a part of it that ends
  in a backslash.
* `Grant.ofGroup?_of_backslash` : no suffix ends in a backslash, so such a name gives nothing.
* `whole_name_of_component` : **a grant is never that of a name cut short**.

Nothing is said of identifiers whose leading component is neither a `cn` nor an `ou`.
-/

namespace ImageGateway

namespace Access

/-! ### The component that is meant -/

/-- The text up to the first comma that an even number of backslashes stands before; `behind` is
what was read in front of the text, the last character first. -/
def leadingFrom (behind : List Char) : List Char → List Char
  | [] => []
  | c :: rest =>
    if c = ',' ∧ (behind.takeWhile (· == '\\')).length % 2 = 0 then []
    else c :: leadingFrom (c :: behind) rest

/-- The identifier up to its first comma that is not escaped. -/
def leadingComponent (identifier : String) : String :=
  String.ofList (leadingFrom [] identifier.toList)

example : leadingComponent "cn=a\\\\\\,b\\\\,ou=c" = "cn=a\\\\\\,b\\\\" := by decide

/-- The first comma ends the component, or a backslash stands in front of it. -/
theorem leadingFrom_cases (behind l : List Char) :
    leadingFrom behind l = l.takeWhile (· != ',') ∨
      ∃ rest, leadingFrom behind l = l.takeWhile (· != ',') ++ ',' :: rest ∧
        ((l.takeWhile (· != ',')).reverse ++ behind).head? = some '\\' := by
  induction l generalizing behind with
  | nil => exact .inl rfl
  | cons c l ih =>
    rw [leadingFrom]
    by_cases hc : c = ','
    · subst hc
      rw [List.takeWhile_cons_of_neg (by simp)]
      by_cases heven : (behind.takeWhile (· == '\\')).length % 2 = 0
      · left
        rw [if_pos ⟨rfl, heven⟩]
      · right
        rw [if_neg fun h => heven h.2]
        refine ⟨_, rfl, ?_⟩
        -- an odd row of backslashes is not empty
        cases behind with
        | nil => exact absurd rfl heven
        | cons b behind =>
          by_cases hb : b = '\\'
          · rw [hb]
            rfl
          · rw [List.takeWhile_cons_of_neg (by simpa using hb)] at heven
            exact absurd rfl heven
    · rw [if_neg fun h => hc h.1, List.takeWhile_cons_of_pos (by simpa using hc)]
      rcases ih (c :: behind) with h | ⟨rest, h, hlast⟩
      · exact .inl (by rw [h])
      · refine .inr ⟨rest, by rw [h]; rfl, ?_⟩
        rw [List.reverse_cons, List.append_assoc]
        exact hlast

/-! ### The name that is read -/

section Key

variable {identifier key v : String}
  (hkey : Text.eqIgnoringCase key "cn=" = true ∨ Text.eqIgnoringCase key "ou=" = true)
include hkey

/-- The key of a component is three characters, the last of which is an equals sign. -/
theorem exists_of_key : ∃ a b, key.toList = [a, b, '='] ∧
    ([a.toLower, b.toLower] = ['c', 'n'] ∨ [a.toLower, b.toLower] = ['o', 'u']) := by
  have hlower : key.toList.map Char.toLower = ['c', 'n', '='] ∨
      key.toList.map Char.toLower = ['o', 'u', '='] := by
    simpa [Text.eqIgnoringCase, Text.lowerAscii, ← String.toList_inj] using hkey
  rcases hlower with h | h <;>
  · simp only [List.map_eq_cons_iff, List.map_eq_nil_iff] at h
    obtain ⟨a, -, hchars, ha, b, -, rfl, hb, c, -, rfl, hc, rfl⟩ := h
    obtain rfl := (toLower_eq_iff_of_lt (by decide)).1 hc
    exact ⟨a, b, hchars, by simp [ha, hb]⟩

theorem componentValue?_of_key (value : List Char) :
    componentValue? (key.toList ++ value) = some value := by
  obtain ⟨a, b, hchars, hab⟩ := exists_of_key hkey
  rw [hchars]
  simp only [List.cons_append, List.nil_append, componentValue?]
  rcases hab with hab | hab <;> rw [hab] <;> rfl

/-- The key has neither a comma nor a backslash in it. -/
theorem notMem_of_key : ',' ∉ key.toList ∧ '\\' ∉ key.toList := by
  obtain ⟨a, b, hchars, hab⟩ := exists_of_key hkey
  have hsmall : ∀ c d : Char, c.toLower = d → d ∈ ['c', 'n', 'o', 'u'] → c ≠ ',' ∧ c ≠ '\\' := by
    rintro c d hc hd
    constructor <;>
    · rintro rfl
      rw [← hc] at hd
      exact absurd hd (by decide)
  have hall : ∀ c ∈ key.toList, c ≠ ',' ∧ c ≠ '\\' := by
    rw [hchars]
    rcases hab with hab | hab <;>
    · obtain ⟨ha, hab⟩ := List.cons.inj hab
      obtain ⟨hb, -⟩ := List.cons.inj hab
      simp only [List.forall_mem_cons]
      exact ⟨hsmall a _ ha (by decide), hsmall b _ hb (by decide), by decide, by simp⟩
  exact ⟨fun h => (hall _ h).1 rfl, fun h => (hall _ h).2 rfl⟩

theorem groupName_of_firstComponent {value : List Char}
    (h : (firstComponent identifier).toList = key.toList ++ value) :
    groupName identifier = String.ofList value := by
  rw [groupName, h, componentValue?_of_key hkey]

/-- Where the first comma ends the component, the name is the whole value. -/
theorem groupName_of_whole (hleading : Text.trim (leadingComponent identifier) = key ++ v)
    (hwhole : leadingFrom [] identifier.toList = identifier.toList.takeWhile (· != ',')) :
    groupName identifier = v ∧ ',' ∉ v.toList := by
  have hfirst : (firstComponent identifier).toList = key.toList ++ v.toList := by
    rw [firstComponent, ← hwhole, ← leadingComponent, hleading, String.toList_append]
  refine ⟨by rw [groupName_of_firstComponent hkey hfirst, String.ofList_toList], fun hcomma => ?_⟩
  have hmem : ',' ∈ (firstComponent identifier).toList := by
    rw [hfirst]
    exact List.mem_append_right _ hcomma
  rw [firstComponent, Text.trim, String.toList_ofList, Text.mem_trimWhere_iff (by decide),
    String.toList_ofList] at hmem
  simpa using List.mem_takeWhile_imp hmem

/-- Where the component goes on behind the first comma, the name that is read ends in a backslash,
and the value has the comma in it. -/
theorem groupName_of_cut (hleading : Text.trim (leadingComponent identifier) = key ++ v)
    {rest : List Char}
    (hcut : leadingFrom [] identifier.toList =
      identifier.toList.takeWhile (· != ',') ++ ',' :: rest)
    (hlast : (identifier.toList.takeWhile (· != ',')).getLast? = some '\\') :
    (groupName identifier).toList.getLast? = some '\\' ∧ ',' ∈ v.toList := by
  obtain ⟨front, hfront⟩ := List.getLast?_eq_some_iff.1 hlast
  obtain ⟨hcommaKey, hslashKey⟩ := notMem_of_key hkey
  have hstays : Text.isBlank '\\' = false := by decide
  -- a backslash is no blank, so the part in front of the comma is trimmed at its front only
  have hfirst : (firstComponent identifier).toList = front.dropWhile Text.isBlank ++ ['\\'] := by
    rw [firstComponent, Text.trim, String.toList_ofList, String.toList_ofList, hfront,
      Text.trimWhere_append hstays, List.rdropWhile_nil]
  have hwhole : key.toList ++ v.toList =
      front.dropWhile Text.isBlank ++ '\\' :: (',' :: rest).rdropWhile Text.isBlank := by
    rw [← String.toList_append, ← hleading, Text.trim, leadingComponent, String.toList_ofList,
      String.toList_ofList, hcut, hfront, List.append_assoc, List.singleton_append,
      Text.trimWhere_append hstays]
  have hcomma : ',' ∈ v.toList := by
    have hrest : (',' :: rest).rdropWhile Text.isBlank = ',' :: rest.rdropWhile Text.isBlank :=
      Text.rdropWhile_append (by decide) [] rest
    have hmem : ',' ∈ key.toList ++ v.toList := by
      rw [hwhole, hrest]
      simp
    exact (List.mem_append.1 hmem).resolve_left hcommaKey
  refine ⟨?_, hcomma⟩
  -- the backslash stands behind the key
  obtain ⟨value, hvalue⟩ : ∃ value, front.dropWhile Text.isBlank = key.toList ++ value := by
    rcases List.append_eq_append_iff.1 hwhole with ⟨value, hvalue, -⟩ | ⟨value, hvalue, htail⟩
    · exact ⟨value, hvalue⟩
    · cases value with
      | nil => exact ⟨[], by rw [hvalue]; simp⟩
      | cons c value =>
        obtain ⟨rfl, -⟩ := List.cons.inj htail
        exact absurd (by rw [hvalue]; simp) hslashKey
  rw [hvalue, List.append_assoc] at hfirst
  rw [groupName_of_firstComponent hkey hfirst, String.toList_ofList, List.getLast?_concat]

end Key

/-- **A name that ends in a backslash gives nothing.** -/
theorem Grant.ofGroup?_of_backslash {name : String} (h : name.toList.getLast? = some '\\') :
    ofGroup? name = none := by
  by_contra hne
  obtain ⟨g, hg⟩ := Option.ne_none_iff_exists'.1 hne
  obtain ⟨e, he, hname, -⟩ := ofGroup?_eq_some hg
  have hends : ∀ e ∈ suffixes, e.text.toList ≠ [] ∧ e.text.toList.getLast? ≠ some '\\' := by decide
  rw [hname, String.toList_append, List.getLast?_append_of_ne_nil _ (hends e he).1] at h
  exact (hends e he).2 h

theorem Grant.ofGroups_append_cons_of_none {start identifier : String}
    (h : ofGroup? (groupName identifier) = none) (before after : List String) :
    ofGroups start (before ++ identifier :: after) = ofGroups start (before ++ after) := by
  have hnone : ofIdentifier? start identifier = none := by
    rw [ofIdentifier?, h, ite_self]
  rw [ofGroups, ofGroups, List.filterMap_append, List.filterMap_cons_none hnone,
    List.filterMap_append]

/-- **A grant is never that of a name cut short.**  Let the leading component of an identifier, up
to its first comma that is not escaped and without the blanks around it, be a `cn` or an `ou` with
the value `v`.  Without a comma in it, `v` is the name that is read.  In any case every grant that
the identifier gives is one of the group `v`; and where `v` has a comma in it, the identifier gives
nothing, whatever stands around it in the list. -/
theorem whole_name_of_component (identifier key v : String)
    (hkey : Text.eqIgnoringCase key "cn=" = true ∨ Text.eqIgnoringCase key "ou=" = true)
    (hleading : Text.trim (leadingComponent identifier) = key ++ v) :
    (',' ∉ v.toList → groupName identifier = v) ∧
      ∀ start, (∀ g ∈ Grant.ofGroups start [identifier], g.group = v) ∧
        (',' ∈ v.toList → ∀ before after, Grant.ofGroups start (before ++ identifier :: after) =
          Grant.ofGroups start (before ++ after)) := by
  have hgives {start : String} {g : Grant} (hg : g ∈ Grant.ofGroups start [identifier]) :
      Grant.ofGroup? (groupName identifier) = some g := by
    obtain ⟨i, hi, hidentifier⟩ := Grant.mem_ofGroups.1 hg
    obtain rfl := List.mem_singleton.1 hi
    exact (Grant.ofIdentifier?_eq_some_iff.1 hidentifier).2
  rcases leadingFrom_cases [] identifier.toList with hwhole | ⟨rest, hcut, hlast⟩
  · obtain ⟨hname, hcomma⟩ := groupName_of_whole hkey hleading hwhole
    refine ⟨fun _ => hname, fun start => ⟨fun g hg => ?_, fun h => absurd h hcomma⟩⟩
    obtain ⟨-, -, -, -, hgroup, -⟩ := Grant.ofGroup?_eq_some (hgives hg)
    rw [hgroup, hname]
  · rw [List.append_nil, List.head?_reverse] at hlast
    obtain ⟨hbackslash, hcomma⟩ := groupName_of_cut hkey hleading hcut hlast
    have hnone := Grant.ofGroup?_of_backslash hbackslash
    refine ⟨fun h => absurd hcomma h, fun start => ⟨fun g hg => ?_, fun _ before after =>
      Grant.ofGroups_append_cons_of_none hnone before after⟩⟩
    rw [hgives hg] at hnone
    cases hnone

/-- A member of a group with an escaped comma in its name gets no rights from it. -/
theorem whole_name_of_escaped_comma :
    let identifier := " Ou=team1_rwd\\,x ,ou=groups,dc=example"
    Text.trim (leadingComponent identifier) = "Ou=" ++ "team1_rwd\\,x" ∧
      Grant.ofGroups "team" ["team2_r", identifier, "cn=team3_rw,ou=groups"] =
        Grant.ofGroups "team" ["team2_r", "cn=team3_rw,ou=groups"] := by
  intro identifier
  have hleading : Text.trim (leadingComponent identifier) = "Ou=" ++ "team1_rwd\\,x" := by
    decide +kernel
  obtain ⟨-, hgives⟩ := whole_name_of_component identifier "Ou=" "team1_rwd\\,x" (.inr (by decide))
    hleading
  exact ⟨hleading, (hgives "team").2 (by decide) ["team2_r"] ["cn=team3_rw,ou=groups"]⟩

end Access

end ImageGateway
