import ImageGateway.Login.Credentials
import ImageGateway.Proofs.Codec.Base64
import ImageGateway.Proofs.Http.Header
import ImageGateway.Proofs.Text.Character
import ImageGateway.Proofs.Text.Cut

/-!
# Which fields carry credentials

Credentials are written into a field value in four layers: name and password with a colon between
them, the bytes of that, their Base64 form, and the scheme in front of it.  Every layer is undone by
the reader, and since each byte string has one Base64 form and each text one coding, there is one
way of writing for the innermost three.  Only the letters of the scheme and the blanks around the
Base64 form are left to the client.

* `eqIgnoringCase_basic_iff` : the ways of writing the scheme.
* `credentialsIn?_eq_some_iff` : the texts that carry credentials.
* `Credentials.header` : a field that carries them.
* `credentials_of_first_field` : **credentials are those that the first field was written for, and
  all without a colon in the name can be written**.
-/

namespace ImageGateway

namespace Login

variable {scheme value w u p : String}

/-! ### The scheme -/

/-- A letter of the scheme, made small or not, is a visible character other than the blank. -/
theorem isTextChar_of_scheme (h : Text.eqIgnoringCase scheme "basic" = true) :
    ∀ c ∈ scheme.toList, Http.IsTextChar c ∧ c ≠ ' ' := by
  have hlower : scheme.toList.map Char.toLower = "basic".toList := by
    simpa [Text.eqIgnoringCase, Text.lowerAscii, ← String.toList_inj] using h
  intro c hc
  have hcode : c.toLower ∈ "basic".toList := hlower ▸ List.mem_map_of_mem hc
  have hletters : "basic".toList.all (fun d => 97 ≤ d.toNat ∧ d.toNat ≤ 115) = true := by decide
  have hletter := of_decide_eq_true (List.all_eq_true.1 hletters _ hcode)
  rw [Text.toNat_toLower] at hletter
  have hbounds : 65 ≤ c.toNat ∧ c.toNat ≤ 115 := by
    split_ifs at hletter <;> omega
  refine ⟨.inr ⟨by omega, by omega⟩, ?_⟩
  rintro rfl
  exact absurd hbounds (by decide)

/-! ### Values -/

/-- The characters that stand for credentials behind the scheme. -/
def Credentials.written (c : Credentials) : List Char :=
  Base64.encode (Utf8.encode (c.username ++ ":" ++ c.password))

theorem cutAt_colon_iff {pair : String} : Text.cutAt ':' pair = some (u, p) ↔
    pair = u ++ ":" ++ p ∧ ':' ∉ u.toList := by
  rw [Text.cutAt_eq_some_iff, ← String.toList_inj]
  simp

/-- **The texts that carry credentials.** -/
theorem credentialsIn?_eq_some_iff : credentialsIn? value = some ⟨u, p⟩ ↔
    ∃ scheme w, value = scheme ++ " " ++ w ∧ Text.eqIgnoringCase scheme "basic" = true ∧
      (Text.trim w).toList = Credentials.written ⟨u, p⟩ ∧ ':' ∉ u.toList := by
  simp only [credentialsIn?, Option.bind_eq_bind, Option.bind_eq_some_iff, Prod.exists]
  constructor
  · rintro ⟨scheme, w, hcut, h⟩
    split_ifs at h with hscheme
    simp only [Option.bind_eq_some_iff, Prod.exists] at h
    obtain ⟨bytes, hbytes, pair, hpair, u, p, hcolon, h⟩ := h
    cases h
    obtain ⟨rfl, hu⟩ := cutAt_colon_iff.1 hcolon
    rw [← Utf8.encode_of_decode? hpair] at hbytes
    refine ⟨scheme, w, ?_, hscheme, Base64.encode_of_decode? hbytes, hu⟩
    rw [← String.toList_inj, (Text.cutAt_eq_some_iff.1 hcut).1]
    simp
  · rintro ⟨scheme, w, rfl, hscheme, hw, hu⟩
    have hcut : Text.cutAt ' ' (scheme ++ " " ++ w) = some (scheme, w) :=
      Text.cutAt_eq_some_iff.2
        ⟨by simp, fun hmem => (isTextChar_of_scheme hscheme _ hmem).2 rfl⟩
    refine ⟨scheme, w, hcut, ?_⟩
    simp only [if_pos hscheme, Option.bind_eq_some_iff, Prod.exists, hw, Credentials.written]
    exact ⟨_, Base64.decode?_encode _, _, Utf8.decode?_encode _, u, p,
      cutAt_colon_iff.2 ⟨rfl, hu⟩, rfl⟩

/-! ### Fields -/

/-- The field that carries credentials, with this way of writing the scheme. -/
def Credentials.header (scheme : String) (c : Credentials) : Http.Header :=
  .ofText "authorization" (scheme ++ " " ++ String.ofList c.written)

theorem Credentials.isTextChar_of_mem_written {c : Credentials} {a : Char} (h : a ∈ c.written) :
    Http.IsTextChar a ∧ Text.isBlank a = false := by
  have hall : ('=' :: Base64.alphabet).all (fun a =>
      (0x20 ≤ a.toNat ∧ a.toNat < 0x7f) ∧ Text.isBlank a = false) = true := by decide +kernel
  obtain ⟨htext, hblank⟩ :=
    of_decide_eq_true (List.all_eq_true.1 hall a (Base64.encode_subset _ h))
  exact ⟨.inr htext, hblank⟩

/-- There is nothing to trim around what was written. -/
theorem Credentials.trim_written (c : Credentials) :
    (Text.trim (String.ofList c.written)).toList = c.written := by
  have hblank : ∀ a ∈ c.written, Text.isBlank a = false := fun a ha =>
    (isTextChar_of_mem_written ha).2
  rw [Text.trim, String.toList_ofList, String.toList_ofList]
  simpa using Text.trimWhere_surround (x := []) (y := []) (by simp) (by simp)
    (fun a ha => hblank a (List.mem_of_mem_head? ha))
    (fun a ha => hblank a (List.mem_of_mem_getLast? ha))

/-- The value of a field that carries credentials is text. -/
theorem Credentials.valueText?_header (h : Text.eqIgnoringCase scheme "basic" = true)
    (c : Credentials) : Http.valueText? (c.header scheme).value =
      some (scheme ++ " " ++ String.ofList c.written) := by
  refine Http.valueText?_eq_some_iff.2 ⟨rfl, ?_⟩
  simp only [String.toList_append, String.toList_ofList, List.forall_mem_append]
  exact ⟨⟨fun a ha => (isTextChar_of_scheme h a ha).1, by simp [Http.IsTextChar]⟩,
    fun a ha => (isTextChar_of_mem_written ha).1⟩

/-- **Credentials are those that the first field was written for.**  A request has the name `u` and
the password `p` exactly if the value of its first `authorization` field is text and consists of
`basic` in letters of either case, a blank, and the Base64 form of the two with a colon between
them, with any blanks around that; and `u` has no colon in it.  So all names without a colon can be
written, with every password, and are read back. -/
theorem credentials_of_first_field (fields : Http.Headers) (u p : String) :
    (basicCredentials? fields = some ⟨u, p⟩ ↔
      ∃ value scheme w, fields.first? "authorization" = some value ∧
        Http.valueText? value = some (scheme ++ " " ++ w) ∧
        Text.eqIgnoringCase scheme "basic" = true ∧
        (Text.trim w).toList = Base64.encode (Utf8.encode (u ++ ":" ++ p)) ∧ ':' ∉ u.toList) ∧
    ∀ scheme, Text.eqIgnoringCase scheme "basic" = true → ':' ∉ u.toList →
      basicCredentials? (Credentials.header scheme ⟨u, p⟩ :: fields) = some ⟨u, p⟩ := by
  constructor
  · simp only [basicCredentials?, Http.Headers.firstText?, Option.bind_eq_some_iff,
      credentialsIn?_eq_some_iff]
    constructor
    · rintro ⟨_, ⟨value, hvalue, htext⟩, scheme, w, rfl, hscheme, hw, hu⟩
      exact ⟨value, scheme, w, hvalue, htext, hscheme, hw, hu⟩
    · rintro ⟨value, scheme, w, hvalue, htext, hscheme, hw, hu⟩
      exact ⟨_, ⟨value, hvalue, htext⟩, scheme, w, rfl, hscheme, hw, hu⟩
  · intro scheme hscheme hu
    have hfirst : Http.Headers.firstText? (Credentials.header scheme ⟨u, p⟩ :: fields)
        "authorization" = some (scheme ++ " " ++ String.ofList (Credentials.written ⟨u, p⟩)) :=
      Credentials.valueText?_header hscheme ⟨u, p⟩
    rw [basicCredentials?, hfirst, Option.bind_some, credentialsIn?_eq_some_iff]
    exact ⟨scheme, _, rfl, hscheme, Credentials.trim_written _, hu⟩

/-- A name outside ASCII and a password with colons, in front of a field that carries nothing. -/
theorem credentials_of_colons :
    let field : Http.Header := .ofText "authorization" "bAsIc asO2cmc6YTpiOg=="
    Text.eqIgnoringCase "bAsIc" "basic" = true ∧ ':' ∉ "jörg".toList ∧
      basicCredentials? [field, .ofText "authorization" "Bearer t"] = some ⟨"jörg", "a:b:"⟩ := by
  intro field
  have hscheme : Text.eqIgnoringCase "bAsIc" "basic" = true := by decide
  have hname : ':' ∉ "jörg".toList := by decide
  have hfield : field = Credentials.header "bAsIc" ⟨"jörg", "a:b:"⟩ := by decide +kernel
  refine ⟨hscheme, hname, ?_⟩
  rw [hfield]
  exact (credentials_of_first_field _ "jörg" "a:b:").2 "bAsIc" hscheme hname

end Login

end ImageGateway
