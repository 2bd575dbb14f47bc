import ImageGateway.Directory.Ldap
import ImageGateway.Proofs.Access.Grant

/-!
# Authentication against an LDAP server

Authenticating a user is a conversation of at most four operations: a request to secure the
connection, a bind, a search and an unbind.  The first three are sent only after the one before has
succeeded, and there are groups only behind all of them.  The server is any `LdapServer`, so what is
shown here depends neither on how it behaves nor on how the text of a filter is read.

* `LdapEntry.texts_eq_iff` : which values of an attribute count.
* `LdapServer.Connects`, `LdapServer.Binds`, `LdapServer.Finds` : that an operation succeeds.
* `LdapServer.Conversation` : the six ways in which a conversation ends.
* `LdapServer.authenticate_eq_ok_iff` : **there are groups if and only if everything succeeds**.
* `LdapServer.sent_prefix`, `LdapServer.binds_of_search` : what is sent, and in which order.
* `authenticated_iff` : all of this together, with the grants that come of it.
-/

namespace ImageGateway

namespace Directory

/-! ### Values of an attribute -/

/-- The values are those of the last occurrence of the attribute all of whose values are text; an
attribute without such an occurrence has no values. -/
def LdapEntry.Lists (entry : LdapEntry) (key : String) (values : List String) : Prop :=
  (∃ before raw after, entry.attributes = before ++ (key, raw) :: after ∧
    raw.mapM Utf8.decode? = some values ∧
    ∀ later, (key, later) ∈ after → later.mapM Utf8.decode? = none) ∨
  values = [] ∧ ∀ raw, (key, raw) ∈ entry.attributes → raw.mapM Utf8.decode? = none

namespace LdapEntry

variable {entry : LdapEntry} {key : String} {values : List String}

/-- What an occurrence of an attribute gives for the key. -/
def given (key : String) (occurrence : String × List Bytes) : Option (List String) :=
  if occurrence.1 == key then occurrence.2.mapM Utf8.decode? else none

theorem given_eq_some_iff {name : String} {raw : List Bytes} :
    given key (name, raw) = some values ↔ name = key ∧ raw.mapM Utf8.decode? = some values := by
  simp [given]

theorem given_eq_none_iff {name : String} {raw : List Bytes} :
    given key (name, raw) = none ↔ (name = key → raw.mapM Utf8.decode? = none) := by
  simp [given]

/-- The occurrences are looked through from the last one on. -/
theorem texts_eq : entry.texts key = (entry.attributes.reverse.findSome? (given key)).getD [] := by
  rw [← List.getLast?_filterMap]
  rfl

theorem texts_of_last {before after : List (String × List Bytes)} {raw : List Bytes}
    (hsplit : entry.attributes = before ++ (key, raw) :: after)
    (hraw : raw.mapM Utf8.decode? = some values)
    (hafter : ∀ later, (key, later) ∈ after → later.mapM Utf8.decode? = none) :
    entry.texts key = values := by
  have hlast : entry.attributes.reverse.findSome? (given key) = some values := by
    refine List.findSome?_eq_some_iff.2 ⟨after.reverse, (key, raw), before.reverse,
      by simp [hsplit], given_eq_some_iff.2 ⟨rfl, hraw⟩, ?_⟩
    rintro ⟨name, later⟩ hlater
    exact given_eq_none_iff.2 fun hname => hafter later (hname ▸ List.mem_reverse.1 hlater)
  rw [texts_eq, hlast]
  rfl

theorem texts_of_none
    (h : ∀ raw, (key, raw) ∈ entry.attributes → raw.mapM Utf8.decode? = none) :
    entry.texts key = [] := by
  have hnone : entry.attributes.reverse.findSome? (given key) = none := by
    refine List.findSome?_eq_none_iff.2 ?_
    rintro ⟨name, raw⟩ hraw
    exact given_eq_none_iff.2 fun hname => h raw (hname ▸ List.mem_reverse.1 hraw)
  rw [texts_eq, hnone]
  rfl

theorem lists_texts (entry : LdapEntry) (key : String) : entry.Lists key (entry.texts key) := by
  rw [texts_eq]
  cases hlast : entry.attributes.reverse.findSome? (given key) with
  | none =>
    exact .inr ⟨rfl, fun raw hraw => given_eq_none_iff.1
      (List.findSome?_eq_none_iff.1 hlast _ (List.mem_reverse.2 hraw)) rfl⟩
  | some values =>
    obtain ⟨after, ⟨name, raw⟩, before, hsplit, hvalues, hafter⟩ :=
      List.findSome?_eq_some_iff.1 hlast
    obtain ⟨rfl, hraw⟩ := given_eq_some_iff.1 hvalues
    refine .inl ⟨before.reverse, raw, after.reverse, ?_, hraw, fun later hlater =>
      given_eq_none_iff.1 (hafter _ (List.mem_reverse.1 hlater)) rfl⟩
    simpa using congrArg List.reverse hsplit

theorem texts_eq_iff : entry.texts key = values ↔ entry.Lists key values := by
  constructor
  · rintro rfl
    exact lists_texts entry key
  · rintro (⟨before, raw, after, hsplit, hraw, hafter⟩ | ⟨rfl, hnone⟩)
    · exact texts_of_last hsplit hraw hafter
    · exact texts_of_none hnone

end LdapEntry

/-! ### The single operations -/

/-- What is sent to open a connection. -/
def LdapSettings.opening (s : LdapSettings) : List LdapOperation :=
  if s.securesConnection then [.startTls] else []

namespace LdapServer

variable {server : LdapServer} {s : LdapSettings} {identity username password : String}
  {groups : List String} {entries : List LdapEntry}

/-- What is sent to search for an identity, which is nothing if the filter cannot be read. -/
def searches (server : LdapServer) (s : LdapSettings) (identity : String) : List LdapOperation :=
  ((server.readFilter (Directory.userFilter s.userFilter identity)).map fun filter =>
    .search s.baseDn filter [s.groupAttribute]).toList

/-- What is sent over a connection once the bind of an identity has succeeded. -/
def conversation (server : LdapServer) (s : LdapSettings) (identity password : String) :
    List LdapOperation :=
  s.opening ++ .bind identity password :: (server.searches s identity ++ [.unbind])

/-- A connection is opened, and it is secured where the settings ask for it. -/
structure Connects (server : LdapServer) (s : LdapSettings) : Prop where
  opened : server.connect s = .ok ()
  secured : s.securesConnection = true → server.startTls = .ok ()

/-- A bind succeeds. -/
def Binds (server : LdapServer) (name password : String) : Prop :=
  ∃ result, server.bind name password = .ok result ∧ result.code = 0

/-- The search for an identity succeeds and finds the entries. -/
def Finds (server : LdapServer) (s : LdapSettings) (identity : String)
    (entries : List LdapEntry) : Prop :=
  ∃ filter result, server.readFilter (userFilter s.userFilter identity) = some filter ∧
    server.search s.baseDn filter [s.groupAttribute] = .ok (result, entries) ∧ result.code = 0

theorem findGroups_of_finds (h : server.Finds s identity entries) :
    server.findGroups s identity =
      (match entries with
        | [] => .error (.userNotFound identity)
        | entry :: _ => .ok (entry.texts s.groupAttribute), server.searches s identity) := by
  obtain ⟨filter, result, hfilter, hsearch, hcode⟩ := h
  simp only [findGroups, searches, hfilter, hsearch, hcode]
  cases entries <;> rfl

theorem findGroups_of_not_finds (h : ∀ entries, ¬ server.Finds s identity entries) :
    ∃ reason, server.findGroups s identity =
      (.error (.search reason), server.searches s identity) := by
  unfold findGroups searches
  cases hfilter : server.readFilter (userFilter s.userFilter identity) with
  | none => exact ⟨_, rfl⟩
  | some filter =>
    dsimp only
    cases hsearch : server.search s.baseDn filter [s.groupAttribute] with
    | error reason => exact ⟨reason, rfl⟩
    | ok found =>
      have hcode : found.1.code ≠ 0 := fun hcode =>
        h found.2 ⟨filter, found.1, hfilter, hsearch, hcode⟩
      exact ⟨found.1.message, by simp [hcode]⟩

theorem bindAndSearch_of_binds (h : server.Binds (bindIdentity username s.mailDomain) password) :
    server.bindAndSearch s username password =
      ((server.findGroups s (bindIdentity username s.mailDomain)).1,
        .bind (bindIdentity username s.mailDomain) password ::
          ((server.findGroups s (bindIdentity username s.mailDomain)).2 ++ [.unbind])) := by
  obtain ⟨result, hbind, hcode⟩ := h
  simp only [bindAndSearch, hbind, hcode]
  rfl

theorem bindAndSearch_of_not_binds
    (h : ¬ server.Binds (bindIdentity username s.mailDomain) password) :
    ∃ reason, server.bindAndSearch s username password = (.error (.bindRejected reason),
      [.bind (bindIdentity username s.mailDomain) password]) := by
  unfold bindAndSearch
  cases hbind : server.bind (bindIdentity username s.mailDomain) password with
  | error reason => exact ⟨reason, by simp only [hbind]⟩
  | ok result =>
    have hcode : result.code ≠ 0 := fun hcode => h ⟨result, hbind, hcode⟩
    exact ⟨result.message, by simp [hbind, hcode]⟩

theorem authenticate_of_nameless (h : username = "" ∨ password = "") :
    server.authenticate s username password = (.error .missingCredentials, []) := by
  rcases h with rfl | rfl <;> simp [authenticate]

theorem isEmpty_or_isEmpty_of_named (h : username ≠ "" ∧ password ≠ "") :
    (username.isEmpty || password.isEmpty) = false := by
  simp [h]

theorem authenticate_of_connects (hnamed : username ≠ "" ∧ password ≠ "")
    (h : server.Connects s) : server.authenticate s username password =
      ((server.bindAndSearch s username password).1,
        s.opening ++ (server.bindAndSearch s username password).2) := by
  unfold authenticate LdapSettings.opening
  simp only [isEmpty_or_isEmpty_of_named hnamed, h.opened, Bool.false_eq_true, if_false]
  cases hsecures : s.securesConnection with
  | false => rfl
  | true =>
    simp only [h.secured hsecures, if_true]
    rfl

theorem authenticate_of_not_connects (hnamed : username ≠ "" ∧ password ≠ "")
    (h : ¬ server.Connects s) : ∃ reason sent, sent <+: s.opening ∧
      server.authenticate s username password = (.error (.connection reason), sent) := by
  unfold authenticate LdapSettings.opening
  simp only [isEmpty_or_isEmpty_of_named hnamed, Bool.false_eq_true, if_false]
  cases hopened : server.connect s with
  | error reason => exact ⟨reason, [], List.nil_prefix, rfl⟩
  | ok u =>
    cases hsecures : s.securesConnection with
    | false => exact absurd ⟨hopened, by simp [hsecures]⟩ h
    | true =>
      cases hsecured : server.startTls with
      | error reason => exact ⟨reason, [.startTls], List.prefix_refl _, rfl⟩
      | ok u => exact absurd ⟨hopened, fun _ => hsecured⟩ h

/-! ### Whole conversations -/

/-- How a conversation ends, by the first thing that is missing, and what has been sent by then. -/
inductive Conversation (server : LdapServer) (s : LdapSettings)
    (username identity password : String) :
    Except DirectoryError (List String) × List LdapOperation → Prop
  | nameless (h : username = "" ∨ password = "") :
    Conversation server s username identity password (.error .missingCredentials, [])
  | unconnected {reason : String} {sent : List LdapOperation}
    (hnamed : username ≠ "" ∧ password ≠ "") (h : ¬ server.Connects s)
    (hsent : sent <+: s.opening) :
    Conversation server s username identity password (.error (.connection reason), sent)
  | unbound {reason : String} (hnamed : username ≠ "" ∧ password ≠ "")
    (hconnects : server.Connects s) (h : ¬ server.Binds identity password) :
    Conversation server s username identity password
      (.error (.bindRejected reason), s.opening ++ [.bind identity password])
  | unsearched {reason : String} (hnamed : username ≠ "" ∧ password ≠ "")
    (hconnects : server.Connects s) (hbinds : server.Binds identity password)
    (h : ∀ entries, ¬ server.Finds s identity entries) :
    Conversation server s username identity password
      (.error (.search reason), server.conversation s identity password)
  | unknown (hnamed : username ≠ "" ∧ password ≠ "") (hconnects : server.Connects s)
    (hbinds : server.Binds identity password) (h : server.Finds s identity []) :
    Conversation server s username identity password
      (.error (.userNotFound identity), server.conversation s identity password)
  | found {entry : LdapEntry} {more : List LdapEntry} (hnamed : username ≠ "" ∧ password ≠ "")
    (hconnects : server.Connects s) (hbinds : server.Binds identity password)
    (h : server.Finds s identity (entry :: more)) :
    Conversation server s username identity password
      (.ok (entry.texts s.groupAttribute), server.conversation s identity password)

/-- **Every conversation is one of these**, whatever the server does. -/
theorem conversation_authenticate (server : LdapServer) (s : LdapSettings)
    (username password : String) : Conversation server s username
      (bindIdentity username s.mailDomain) password (server.authenticate s username password) := by
  by_cases hnamed : username ≠ "" ∧ password ≠ ""
  swap
  · have hnameless : username = "" ∨ password = "" := by
      simpa only [not_and_or, not_not] using hnamed
    rw [authenticate_of_nameless hnameless]
    exact .nameless hnameless
  by_cases hconnects : server.Connects s
  swap
  · obtain ⟨reason, sent, hsent, h⟩ := authenticate_of_not_connects hnamed hconnects
    rw [h]
    exact .unconnected hnamed hconnects hsent
  rw [authenticate_of_connects hnamed hconnects]
  by_cases hbinds : server.Binds (bindIdentity username s.mailDomain) password
  swap
  · obtain ⟨reason, h⟩ := bindAndSearch_of_not_binds hbinds
    rw [h]
    exact .unbound hnamed hconnects hbinds
  rw [bindAndSearch_of_binds hbinds]
  by_cases hfinds : ∃ entries, server.Finds s (bindIdentity username s.mailDomain) entries
  · obtain ⟨entries, hfinds⟩ := hfinds
    rw [findGroups_of_finds hfinds]
    cases entries with
    | nil => exact .unknown hnamed hconnects hbinds hfinds
    | cons entry more => exact .found hnamed hconnects hbinds hfinds
  · rw [not_exists] at hfinds
    obtain ⟨reason, h⟩ := findGroups_of_not_finds hfinds
    rw [h]
    exact .unsearched hnamed hconnects hbinds hfinds

/-- **There are groups if and only if everything succeeds.** -/
theorem authenticate_eq_ok_iff : (server.authenticate s username password).1 = .ok groups ↔
    username ≠ "" ∧ password ≠ "" ∧ server.Connects s ∧
      server.Binds (bindIdentity username s.mailDomain) password ∧
      ∃ entry more, server.Finds s (bindIdentity username s.mailDomain) (entry :: more) ∧
        entry.Lists s.groupAttribute groups := by
  constructor
  · intro h
    have hconversation := conversation_authenticate server s username password
    generalize server.authenticate s username password = ending at h hconversation
    cases hconversation with
    | @found entry more hnamed hconnects hbinds hfinds =>
      exact ⟨hnamed.1, hnamed.2, hconnects, hbinds, entry, more, hfinds,
        LdapEntry.texts_eq_iff.1 (Except.ok.inj h)⟩
    | _ => cases h
  · rintro ⟨husername, hpassword, hconnects, hbinds, entry, more, hfinds, hlists⟩
    rw [authenticate_of_connects ⟨husername, hpassword⟩ hconnects, bindAndSearch_of_binds hbinds,
      findGroups_of_finds hfinds]
    exact congrArg Except.ok (LdapEntry.texts_eq_iff.2 hlists)

/-- **There is one order for what is sent.** -/
theorem sent_prefix : (server.authenticate s username password).2 <+:
    server.conversation s (bindIdentity username s.mailDomain) password := by
  have hconversation := conversation_authenticate server s username password
  generalize server.authenticate s username password = ending at hconversation
  cases hconversation with
  | nameless => exact List.nil_prefix
  | unconnected _ _ hsent => exact hsent.trans (List.prefix_append _ _)
  | unbound => exact (List.prefix_append_right_inj _).2 (by simp)
  | _ => exact List.prefix_refl _

/-- **No search without a bind.** -/
theorem binds_of_search {base : String} {filter : Filter} {attributes : List String}
    (h : .search base filter attributes ∈ (server.authenticate s username password).2) :
    server.Connects s ∧ server.Binds (bindIdentity username s.mailDomain) password := by
  have hopening : .search base filter attributes ∉ s.opening := by
    unfold LdapSettings.opening
    split_ifs <;> simp
  have hconversation := conversation_authenticate server s username password
  generalize server.authenticate s username password = ending at h hconversation
  cases hconversation with
  | nameless => cases h
  | unconnected _ _ hsent => exact absurd (hsent.subset h) hopening
  | unbound => simp [hopening] at h
  | unsearched _ hconnects hbinds | unknown _ hconnects hbinds | found _ hconnects hbinds =>
    exact ⟨hconnects, hbinds⟩

/-- The directory counts as unavailable only if there is no connection. -/
theorem authenticate_eq_connection_iff :
    (∃ reason, (server.authenticate s username password).1 = .error (.connection reason)) ↔
      (username ≠ "" ∧ password ≠ "") ∧ ¬ server.Connects s := by
  constructor
  · rintro ⟨reason, h⟩
    have hconversation := conversation_authenticate server s username password
    generalize server.authenticate s username password = ending at h hconversation
    cases hconversation with
    | unconnected hnamed hconnects => exact ⟨hnamed, hconnects⟩
    | _ => cases h
  · rintro ⟨hnamed, hconnects⟩
    obtain ⟨reason, sent, -, h⟩ := authenticate_of_not_connects hnamed hconnects
    exact ⟨reason, congrArg Prod.fst h⟩

end LdapServer

/-! ### Grants -/

section

variable {directory : Directory} {start username password : String}

theorem exists_authorizeUser_iff :
    (∃ user, authorizeUser directory start username password = .ok user) ↔
      ∃ groups, directory username password = .ok groups ∧ ∃ identifier ∈ groups, ∃ grant,
        Access.Grant.ofIdentifier? start identifier = some grant := by
  constructor
  · rintro ⟨user, h⟩
    obtain ⟨groups, hgroups, hgrants, -⟩ := authorizeUser_eq_ok_iff.1 h
    obtain ⟨grant, hgrant⟩ := List.exists_mem_of_ne_nil _ (grants_ne_nil_of_authorizeUser h)
    rw [hgrants] at hgrant
    obtain ⟨identifier, hidentifier, hof⟩ := Access.Grant.mem_ofGroups.1 hgrant
    exact ⟨groups, hgroups, identifier, hidentifier, grant, hof⟩
  · rintro ⟨groups, hgroups, identifier, hidentifier, grant, hof⟩
    have hgrants : Access.Grant.ofGroups start groups ≠ [] :=
      List.ne_nil_of_mem (Access.Grant.mem_ofGroups.2 ⟨identifier, hidentifier, hof⟩)
    obtain ⟨primary, h⟩ := authorizeUser_of_grants hgroups hgrants
    exact ⟨_, h⟩

theorem unavailable_iff :
    (∃ e, authorizeUser directory start username password = .error e ∧ e.isUnavailable = true) ↔
      ∃ reason, directory username password = .error (.connection reason) := by
  unfold authorizeUser
  cases hgroups : directory username password with
  | error cause => cases cause <;> simp [AuthError.isUnavailable]
  | ok groups =>
    dsimp only
    split <;> simp [AuthError.isUnavailable]

end

/-- **No authentication without a bind.**  For every server, all settings and every user name and
password: there are groups if and only if neither is empty, there is a connection, the bind of the
user's identity with that password succeeds, and the search succeeds and finds an entry; then they
are the values that the first entry lists under the attribute of the settings.  Without a name or a
password the server is not asked at all; otherwise what is sent is a beginning of one conversation,
in which nothing is searched for before a bind that succeeded and which ends with an unbind.  The
user is authorized if and only if some of the groups gives a grant, and the directory counts as
unavailable if and only if there is no connection for a user with a name and a password. -/
theorem authenticated_iff (server : LdapServer) (s : LdapSettings) (username password : String) :
    let identity := bindIdentity username s.mailDomain
    let ending := server.authenticate s username password
    (∀ groups, ending.1 = .ok groups ↔
      username ≠ "" ∧ password ≠ "" ∧ server.Connects s ∧ server.Binds identity password ∧
        ∃ entry more, server.Finds s identity (entry :: more) ∧
          entry.Lists s.groupAttribute groups) ∧
    (username = "" ∨ password = "" → ending = (.error .missingCredentials, [])) ∧
    ending.2 <+: server.conversation s identity password ∧
    (∀ base filter attributes, .search base filter attributes ∈ ending.2 →
      server.Connects s ∧ server.Binds identity password) ∧
    ∀ start,
      ((∃ user, authorizeUser (server.directory s) start username password = .ok user) ↔
        ∃ groups, ending.1 = .ok groups ∧ ∃ identifier ∈ groups, ∃ grant,
          Access.Grant.ofIdentifier? start identifier = some grant) ∧
      ((∃ e, authorizeUser (server.directory s) start username password = .error e ∧
          e.isUnavailable = true) ↔
        (username ≠ "" ∧ password ≠ "") ∧ ¬ server.Connects s) :=
  ⟨fun _ => LdapServer.authenticate_eq_ok_iff, LdapServer.authenticate_of_nameless,
    LdapServer.sent_prefix, fun _ _ _ => LdapServer.binds_of_search,
    fun _ => ⟨exists_authorizeUser_iff,
      unavailable_iff.trans LdapServer.authenticate_eq_connection_iff⟩⟩

namespace Sample

/-- An entry with an attribute that occurs twice, the second time with a value that is no text. -/
def entry : LdapEntry where
  dn := "uid=alice"
  attributes := [("memberOf", [Utf8.encode "cn=team1_rwd,ou=groups"]), ("memberOf", [[0xff]])]

/-- A server with one user, who has that entry. -/
def server : LdapServer where
  connect _ := .ok ()
  startTls := .ok ()
  bind name password :=
    if name = "alice@example.com" && password = "secret" then .ok ⟨0, "", ""⟩
    else .ok ⟨49, "", "no such user"⟩
  search _ _ _ := .ok (⟨0, "", ""⟩, [entry])

/-- Settings with a domain for user names, under which connections are secured. -/
def settings : LdapSettings :=
  { url := "ldap://directory", mailDomain := "example.com", startTls := true }

end Sample

/-- A user is authenticated and authorized, and another password is refused without a search. -/
theorem authenticated_of_entry :
    (Sample.server.authenticate Sample.settings "alice" "secret").1 =
        .ok ["cn=team1_rwd,ou=groups"] ∧
      (∃ user, authorizeUser (Sample.server.directory Sample.settings) "team" "alice" "secret" =
        .ok user) ∧
      Sample.server.authenticate Sample.settings "alice" "" = (.error .missingCredentials, []) ∧
      ∀ base filter attributes, .search base filter attributes ∉
        (Sample.server.authenticate Sample.settings "alice" "public").2 := by
  have hspec := authenticated_iff Sample.server Sample.settings "alice"
  have hgroups : (Sample.server.authenticate Sample.settings "alice" "secret").1 =
      .ok ["cn=team1_rwd,ou=groups"] := by
    obtain ⟨filter, hfilter⟩ := Option.isSome_iff_exists.1 (show (Sample.server.readFilter
      (userFilter Sample.settings.userFilter "alice@example.com")).isSome = true by decide +kernel)
    have hfinds : Sample.server.Finds Sample.settings "alice@example.com" [Sample.entry] :=
      ⟨filter, ⟨0, "", ""⟩, hfilter, rfl, rfl⟩
    have hlists : Sample.entry.Lists "memberOf" ["cn=team1_rwd,ou=groups"] := by
      refine .inl ⟨[], _, _, rfl, by decide +kernel, fun later hlater => ?_⟩
      obtain rfl : later = [[0xff]] := by simpa using hlater
      decide +kernel
    exact ((hspec "secret").1 _).2 ⟨by decide, by decide, ⟨rfl, fun _ => rfl⟩,
      ⟨⟨0, "", ""⟩, by decide +kernel, rfl⟩, Sample.entry, [], hfinds, hlists⟩
  refine ⟨hgroups, ?_, (hspec "").2.1 (.inr rfl), fun base filter attributes hsearch => ?_⟩
  · refine ((hspec "secret").2.2.2.2 "team").1.2 ⟨_, hgroups, _, List.mem_singleton_self _, ?_⟩
    exact ⟨⟨"team1_rwd", "team1", false, true⟩, by decide +kernel⟩
  · obtain ⟨-, result, hbind, hcode⟩ := (hspec "public").2.2.2.1 base filter attributes hsearch
    have hrefused : Sample.server.bind "alice@example.com" "public" =
        .ok ⟨49, "", "no such user"⟩ := by decide +kernel
    obtain rfl := Except.ok.inj (hrefused.symm.trans hbind)
    cases hcode

end Directory

end ImageGateway
