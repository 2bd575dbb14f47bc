import ImageGateway.Proofs.Url.Base
import ImageGateway.Proofs.Url.Host

/-!
# Authorities in normal form

The text of an authority has a user name and a password in front of its last `@`, and a port behind
its first colon outside brackets.  What is read there is encoded, brought to one form or left out
where it says nothing, and none of the separators is left in any of the parts: so the text of an
authority in normal form is cut where it was put together.

* `Authority.IsNormal` : the authorities that reading yields.
* `Authority.forall_mem_render` : the text has nothing in it that would end it too early.
* `Url.isBlank_getLast?_of_authorityOf` : the text of an authority ends in no blank.
* `Url.authorityOf_render` : **an authority in normal form is read as itself.**
-/

namespace ImageGateway

namespace Net

theorem forall_mem_renderIpv6 {p : Char → Prop} (hcolon : p ':')
    (hdigit : ∀ k < 16, p (Text.hexDigit k)) (pieces : Ipv6) :
    ∀ c ∈ (renderIpv6 pieces).toList, p c := by
  have hpieces (pieces : List Nat) : ∀ c ∈ (renderPieces pieces).toList, p c := by
    rw [renderPieces_toList]
    refine forall_mem_intercalate hcolon ?_
    simp only [List.forall_mem_map]
    intro n _ c hc
    obtain ⟨k, hk, rfl⟩ := Text.mem_hexDigits hc
    exact hdigit k hk
  unfold renderIpv6
  dsimp only
  split_ifs
  · exact hpieces pieces
  · simp only [String.toList_append, List.forall_mem_append]
    exact ⟨⟨hpieces _, by simpa using hcolon⟩, hpieces _⟩

end Net

namespace Host

theorem render_ne_nil {host : Host} (h : host.IsNormal) : host.render ≠ [] := by
  cases h with
  | name hne => exact hne
  | v4 => exact renderIpv4_ne_nil (by simp)
  | v6 => exact List.cons_ne_nil _ _

/-- The characters of a host, if colons and brackets are among those of the class. -/
theorem forall_mem_render {p : Char → Prop} (hname : ∀ c, Domain.isNormal c = true → p c)
    (hmarks : p ':' ∧ p '[' ∧ p ']') {host : Host} (h : host.IsNormal) :
    ∀ c ∈ host.render, p c := by
  cases h with
  | name _ hchars => exact fun c hc => hname c (hchars c hc)
  | v4 => exact fun c hc => hname c (isNormal_of_mem_renderIpv4 c hc)
  | v6 =>
    have hdigit : ∀ k < 16, Domain.isNormal (Text.hexDigit k) = true := by decide
    rw [render, List.cons_append, List.forall_mem_cons, List.forall_mem_append]
    exact ⟨hmarks.2.1, Net.forall_mem_renderIpv6 hmarks.1 (fun k hk => hname _ (hdigit k hk)) _,
      by simpa using hmarks.2.2⟩

end Host

namespace Url

/-! ### Cutting an authority -/

theorem cutLastAt_append (s : List Char) {t : List Char} (h : '@' ∉ t) :
    cutLastAt (s ++ '@' :: t) = some (s, t) := by
  have hcut : Text.cutWhere (· == '@') (s ++ '@' :: t).reverse =
      some (t.reverse, s.reverse) := by
    refine Text.cutWhere_eq_some_iff.2 ⟨'@', rfl, fun c hc => ?_, by simp⟩
    rw [beq_eq_false_iff_ne]
    rintro rfl
    exact h (List.mem_reverse.1 hc)
  rw [cutLastAt, hcut]
  simp

theorem cutLastAt_eq_none {t : List Char} (h : '@' ∉ t) : cutLastAt t = none := by
  rw [cutLastAt, Option.map_eq_none_iff, Option.eq_none_iff_forall_ne_some]
  rintro ⟨x, y⟩ hcut
  obtain ⟨c, hc, -, heq⟩ := Text.cutWhere_eq_some_iff.1 hcut
  obtain rfl : c = '@' := by simpa using hc
  exact h (List.mem_reverse.1 (heq ▸ by simp))

/-- A text without the mark stays in front of it. -/
theorem cutMark_append_left {mark : Char} {x : List Char} (h : mark ∉ x) (y : List Char) :
    cutMark mark (x ++ y) = (x ++ (cutMark mark y).1, (cutMark mark y).2) := by
  have hne : ∀ c ∈ x, (c != mark) = true := fun c hc => by
    rw [bne_iff_ne]
    rintro rfl
    exact h hc
  unfold cutMark
  rw [List.dropWhile_append_of_pos hne, List.takeWhile_append_of_pos hne]
  cases y.dropWhile (· != mark) <;> rfl

theorem cutMark_eq_none {mark : Char} {s : List Char} (h : mark ∉ s) :
    cutMark mark s = (s, none) := by
  have hcut := cutMark_append_left h []
  rw [List.append_nil] at hcut
  rw [hcut]
  exact congrArg (·, none) (List.append_nil s)

theorem cutMark_append {mark : Char} {s : List Char} (h : mark ∉ s) (t : List Char) :
    cutMark mark (s ++ mark :: t) = (s, some t) := by
  rw [cutMark_append_left h]
  simp [cutMark]

/-- A row of characters that neither opens nor closes brackets nor ends the host. -/
theorem cutHost_append {inside : Bool} {s : List Char}
    (h : ∀ c ∈ s, c ≠ '[' ∧ c ≠ ']' ∧ (c = ':' → inside = true)) (t : List Char) :
    cutHost inside (s ++ t) = (s ++ (cutHost inside t).1, (cutHost inside t).2) := by
  induction s with
  | nil => rfl
  | cons c s ih =>
    rw [List.forall_mem_cons] at h
    obtain ⟨⟨hopen, hclose, hcolon⟩, hs⟩ := h
    have hstay : ¬ (c == ':' && !inside) = true := by
      simp only [Bool.and_eq_true, beq_iff_eq, Bool.not_eq_true', not_and, Bool.not_eq_false]
      exact hcolon
    rw [List.cons_append, cutHost, if_neg hstay]
    simp only [beq_iff_eq, hopen, hclose, if_false, ih hs]
    rfl

/-- Nothing is lost between a host and a port. -/
theorem cutHost_eq (inside : Bool) (s : List Char) :
    (cutHost inside s).1 ++ (cutHost inside s).2 = s ∧
      ((cutHost inside s).2 = [] ∨ ∃ digits, (cutHost inside s).2 = ':' :: digits) := by
  fun_induction cutHost inside s with
  | case1 => exact ⟨rfl, .inl rfl⟩
  | case2 inside c s h =>
    rw [Bool.and_eq_true, beq_iff_eq] at h
    obtain ⟨rfl, -⟩ := h
    exact ⟨rfl, .inr ⟨s, rfl⟩⟩
  | case3 inside c s h host rest heq ih =>
    rw [heq] at ih
    exact ⟨congrArg (c :: ·) ih.1, ih.2⟩

/-- What may stand behind a host: a port or nothing. -/
theorem cutHost_render {host : Host} (h : host.IsNormal) {rest : List Char}
    (hrest : rest.head? = none ∨ rest.head? = some ':') :
    cutHost false (host.render ++ rest) = (host.render, rest) := by
  have hend : cutHost false rest = ([], rest) := by
    rcases hrest with hrest | hrest
    · rw [List.head?_eq_none_iff.1 hrest]
      rfl
    · obtain ⟨tail, rfl⟩ := List.head?_eq_some_iff.1 hrest
      rfl
  have hname (c : Char) (hc : Domain.isNormal c = true) :
      c ≠ '[' ∧ c ≠ ']' ∧ (c = ':' → false = true) :=
    ⟨Domain.isNormal_imp_ne hc (by decide), Domain.isNormal_imp_ne hc (by decide),
      fun heq => absurd heq (Domain.isNormal_imp_ne hc (by decide))⟩
  cases h with
  | name _ hchars =>
    rw [Host.render, cutHost_append fun c hc => hname c (hchars c hc), hend, List.append_nil]
  | v4 =>
    rw [Host.render, cutHost_append fun c hc => hname c (Host.isNormal_of_mem_renderIpv4 c hc),
      hend, List.append_nil]
  | @v6 pieces =>
    -- the colons of the address stand between the brackets
    have hchars : ∀ c ∈ (Net.renderIpv6 pieces).toList,
        c ≠ '[' ∧ c ≠ ']' ∧ (c = ':' → true = true) :=
      Net.forall_mem_renderIpv6 (by decide) (by decide) pieces
    have hinside := cutHost_append hchars (']' :: rest)
    have hclose : cutHost true (']' :: rest) = ([']'], rest) := by
      rw [cutHost]
      simp [hend]
    rw [hclose] at hinside
    rw [Host.render, List.append_assoc, List.cons_append, List.singleton_append, cutHost]
    simp [hinside]

end Url

/-! ### Normal form -/

/-- An authority in normal form: user name and password are encoded, the host is in normal form,
and the port is one that the scheme does not have anyway. -/
structure Authority.IsNormal (scheme : List Char) (a : Authority) : Prop where
  username : a.username.all Url.userInfoKeeps = true
  password : a.password.all Url.userInfoKeeps = true
  host : a.host.IsNormal
  port : ∀ n, a.port = some n → n ≤ 65535 ∧ Url.defaultPort? scheme ≠ some n

namespace Authority

variable {scheme : List Char} {a : Authority}

theorem forall_mem_hostAndPort {p : Char → Prop} (hname : ∀ c, Domain.isNormal c = true → p c)
    (hmarks : p ':' ∧ p '[' ∧ p ']') (h : a.IsNormal scheme) : ∀ c ∈ a.hostAndPort, p c := by
  rw [hostAndPort, List.forall_mem_append]
  refine ⟨Host.forall_mem_render hname hmarks h.host, ?_⟩
  cases a.port with
  | none => simp
  | some n =>
    dsimp only
    rw [Text.toString_toList, List.forall_mem_cons]
    exact ⟨hmarks.1, fun c hc =>
      hname c (Host.isNormal_of_isDigit (Text.isDigit_of_mem_toDigits hc))⟩

/-- The characters of an authority, if its separators are among those of the class. -/
theorem forall_mem_render {p : Char → Prop} (huser : ∀ c, Url.userInfoKeeps c = true → p c)
    (hname : ∀ c, Domain.isNormal c = true → p c) (hmarks : p ':' ∧ p '[' ∧ p ']') (hat : p '@')
    (h : a.IsNormal scheme) : ∀ c ∈ a.render, p c := by
  have husername : ∀ c ∈ a.username, p c := fun c hc => huser c (List.all_eq_true.1 h.username c hc)
  have hpassword : ∀ c ∈ a.password, p c := fun c hc => huser c (List.all_eq_true.1 h.password c hc)
  rw [render, List.forall_mem_append]
  refine ⟨?_, forall_mem_hostAndPort hname hmarks h⟩
  unfold userInfo
  split_ifs
  · simp
  · simpa [or_imp, forall_and] using ⟨husername, hat⟩
  · simpa [or_imp, forall_and] using ⟨husername, hmarks.1, hpassword, hat⟩

theorem render_ne_nil (h : a.IsNormal scheme) : a.render ≠ [] := fun hnil =>
  Host.render_ne_nil h.host (List.append_eq_nil_iff.1 (List.append_eq_nil_iff.1 hnil).2).1

/-- **Nothing in the text of an authority ends it too early.** -/
theorem isAuthorityText_render (h : a.IsNormal scheme) :
    ∀ c ∈ a.render, Url.isBlank c = false ∧ Url.isFront c = true ∧ Url.isSlash c = false := by
  have hiff (c : Char) : (Url.isBlank c = false ∧ Url.isFront c = true ∧ Url.isSlash c = false) ↔
      0x20 < c.toNat ∧ c ∉ ['?', '#', '/', '\\'] := by
    simp [Url.isBlank, Url.isFront, Url.isSlash, and_assoc]
  simp only [hiff]
  refine forall_mem_render (fun c hc => ?_) (fun c hc => ?_) (by decide) (by decide) h
  · have hmarks : ['?', '#', '/', '\\'].any Url.userInfoKeeps = false := by decide
    refine ⟨?_, fun hmem => List.any_eq_false.1 hmarks c hmem hc⟩
    · simp only [Url.userInfoKeeps, Url.keepsOutside, Bool.and_eq_true, decide_eq_true_eq] at hc
      exact hc.1.1
  · have hmarks : ['?', '#', '/', '\\'].all Domain.isForbidden = true := by decide
    refine ⟨?_, fun hmem => Domain.isNormal_imp_ne hc (List.all_eq_true.1 hmarks c hmem) rfl⟩
    have hforbidden := (Domain.isNormal_iff.1 hc).2.1
    simp only [Domain.isForbidden, Bool.or_eq_false_iff, decide_eq_false_iff_not] at hforbidden
    omega

end Authority

namespace Url

theorem keepsTriples_userInfo : Percent.KeepsTriples userInfoKeeps := by decide

theorem portOf_ok {scheme rest : List Char} {port : Option Nat}
    (h : portOf scheme rest = .ok port) :
    ∀ n, port = some n → n ≤ 65535 ∧ defaultPort? scheme ≠ some n := by
  rintro n rfl
  unfold portOf at h
  split at h
  · dsimp only at h
    split_ifs at h with hinvalid hdefault
    · cases h
    · cases h
      simp only [Bool.or_eq_true, decide_eq_true_eq, not_or, Nat.not_lt] at hinvalid
      simp only [Bool.or_eq_true, beq_iff_eq, not_or] at hdefault
      exact ⟨hinvalid.2, hdefault.2⟩
  · cases h

theorem isDigit_of_portOf {scheme digits : List Char} {port : Option Nat}
    (h : portOf scheme (':' :: digits) = .ok port) : digits.all Char.isDigit = true := by
  rw [portOf] at h
  by_contra hinvalid
  rw [Bool.not_eq_true] at hinvalid
  simp only [hinvalid, Bool.not_false, Bool.true_or, if_true, reduceCtorEq] at h

/-- What stands in front of the last `@` is no part of the host. -/
theorem exists_of_authorityOf {scheme text : List Char} {a : Authority}
    (h : authorityOf scheme text = .ok a) :
    ∃ username password front rest, text = front ++ rest ∧ (front = [] ∨ rest ≠ []) ∧
      authorityWith scheme username password rest = .ok a := by
  unfold authorityOf at h
  split at h
  · exact ⟨[], [], [], text, rfl, .inl rfl, h⟩
  · rename_i userInfo rest hcut
    split_ifs at h with hempty
    obtain ⟨⟨x, y⟩, hwhere, heq⟩ := Option.map_eq_some_iff.1 hcut
    obtain ⟨d, -, -, htext⟩ := Text.cutWhere_eq_some_iff.1 hwhere
    obtain ⟨-, rfl⟩ := Prod.mk.inj heq
    refine ⟨_, _, y.reverse ++ [d], x.reverse, ?_, .inr (by simpa using hempty), h⟩
    rw [← List.reverse_reverse text, htext]
    simp

variable {scheme : List Char} (hserver : isServerScheme scheme = true)
include hserver

/-- The host and the port that an authority was read from. -/
theorem exists_of_authorityWith {username password text : List Char} {a : Authority}
    (h : authorityWith scheme username password text = .ok a) :
    ∃ hostText rest, text = hostText ++ rest ∧ (rest = [] ∨ ∃ digits, rest = ':' :: digits) ∧
      Host.ofDomain hostText = .ok a.host ∧ portOf scheme rest = .ok a.port ∧
      a.username = Percent.encode userInfoKeeps username ∧
      a.password = Percent.encode userInfoKeeps password := by
  obtain ⟨htext, hrest⟩ := cutHost_eq false text
  unfold authorityWith at h
  generalize cutHost false text = parts at h htext hrest
  obtain ⟨hostText, rest⟩ := parts
  obtain ⟨host, hhost, h⟩ := bind_eq_ok_iff.1 h
  obtain ⟨port, hport, h⟩ := bind_eq_ok_iff.1 h
  cases h
  simp only [hostOf, hserver, if_true] at hhost
  split_ifs at hhost
  exact ⟨hostText, rest, htext.symm, hrest, hhost, hport, rfl, rfl⟩

/-- **Reading yields an authority in normal form.** -/
theorem isNormal_of_authorityOf {text : List Char} {a : Authority}
    (h : authorityOf scheme text = .ok a) : a.IsNormal scheme := by
  obtain ⟨username, password, front, rest, -, -, h⟩ := exists_of_authorityOf h
  obtain ⟨hostText, portText, -, -, hhost, hport, husername, hpassword⟩ :=
    exists_of_authorityWith hserver h
  refine ⟨?_, ?_, Host.isNormal_of_ofDomain hhost, portOf_ok hport⟩
  · rw [husername]
    exact Percent.all_encode keepsTriples_userInfo _
  · rw [hpassword]
    exact Percent.all_encode keepsTriples_userInfo _

/-- The text of an authority ends in no blank. -/
theorem isBlank_getLast?_of_authorityWith {username password text : List Char} {a : Authority}
    (h : authorityWith scheme username password text = .ok a) :
    ∀ c ∈ text.getLast?, isBlank c = false := by
  obtain ⟨hostText, rest, rfl, hrest, hhost, hport, -, -⟩ := exists_of_authorityWith hserver h
  intro c hc
  rcases hrest with rfl | ⟨digits, rfl⟩
  · rw [List.append_nil] at hc
    simpa [isBlank] using Host.lt_toNat_of_ofDomain hhost c hc
  · rw [List.getLast?_append_of_ne_nil _ (List.cons_ne_nil _ _)] at hc
    rcases List.mem_cons.1 (List.mem_of_mem_getLast? hc) with rfl | hmem
    · rfl
    · have hdigit := List.all_eq_true.1 (isDigit_of_portOf hport) c hmem
      have hnormal := Domain.isNormal_iff.1 (Host.isNormal_of_isDigit hdigit)
      simp only [Domain.isForbidden, Bool.or_eq_false_iff] at hnormal
      exact hnormal.2.1.1.1

theorem isBlank_getLast?_of_authorityOf {text : List Char} {a : Authority}
    (h : authorityOf scheme text = .ok a) : ∀ c ∈ text.getLast?, isBlank c = false := by
  obtain ⟨username, password, front, rest, rfl, hne, h⟩ := exists_of_authorityOf h
  have hlast : (front ++ rest).getLast? = rest.getLast? := by
    rcases hne with rfl | hne
    · rfl
    · exact List.getLast?_append_of_ne_nil _ hne
  rw [hlast]
  exact isBlank_getLast?_of_authorityWith hserver h

/-- The host and the port are read back. -/
theorem authorityWith_hostAndPort {a : Authority} (h : a.IsNormal scheme) :
    authorityWith scheme a.username a.password a.hostAndPort = .ok a := by
  obtain ⟨username, password, host, port⟩ := a
  obtain ⟨husername, hpassword, hhost, hport⟩ := h
  dsimp only at husername hpassword hhost hport
  have hread : ∀ rest, (rest.head? = none ∨ rest.head? = some ':') →
      portOf scheme rest = .ok port →
      authorityWith scheme username password (host.render ++ rest) =
        .ok ⟨username, password, host, port⟩ := by
    intro rest hrest hportOf
    have hnonempty : host.render.isEmpty = false := by
      simpa using Host.render_ne_nil hhost
    simp [authorityWith, cutHost_render hhost hrest, hostOf, hserver, hnonempty,
      Host.ofDomain_render hhost, hportOf, Percent.encode_eq_self husername,
      Percent.encode_eq_self hpassword, bind, Except.bind]
  cases port with
  | none => exact hread [] (.inl rfl) rfl
  | some n =>
    obtain ⟨hle, hdefault⟩ := hport n rfl
    refine hread _ (.inr rfl) ?_
    have hdigits : (Nat.toDigits 10 n).all Char.isDigit = true :=
      List.all_eq_true.2 fun _ => Text.isDigit_of_mem_toDigits
    dsimp only
    rw [Text.toString_toList, portOf, Text.foldl_toDigits, hdigits]
    simp [Nat.not_lt.2 hle, hdefault, Nat.toDigits_ne_nil]

/-- **An authority in normal form is read as itself.** -/
theorem authorityOf_render {a : Authority} (h : a.IsNormal scheme) :
    authorityOf scheme a.render = .ok a := by
  have hat : '@' ∉ a.hostAndPort := fun hmem =>
    Authority.forall_mem_hostAndPort (p := (· ≠ '@'))
      (fun c hc => Domain.isNormal_imp_ne hc (by decide)) (by decide) h _ hmem rfl
  have hread := authorityWith_hostAndPort hserver h
  have hne : a.hostAndPort ≠ [] := fun hnil =>
    Host.render_ne_nil h.host (List.append_eq_nil_iff.1 hnil).1
  have hcolon : ':' ∉ a.username := fun hmem => by
    cases List.all_eq_true.1 h.username ':' hmem
  unfold Authority.render Authority.userInfo
  split_ifs with hempty hpassword
  · -- nothing is written in front of the host
    simp only [Bool.and_eq_true, List.isEmpty_iff] at hempty
    rw [hempty.1, hempty.2] at hread
    rw [List.nil_append, authorityOf, cutLastAt_eq_none hat]
    exact hread
  · rw [List.isEmpty_iff] at hpassword
    rw [hpassword] at hread
    rw [List.append_nil, List.append_assoc, List.singleton_append, authorityOf,
      cutLastAt_append _ hat]
    simp only [cutMark_eq_none hcolon]
    rw [if_neg (by simpa using hne)]
    exact hread
  · rw [List.append_assoc, List.singleton_append, authorityOf, cutLastAt_append _ hat]
    simp only [cutMark_append hcolon]
    rw [if_neg (by simpa using hne)]
    exact hread

end Url

end ImageGateway
