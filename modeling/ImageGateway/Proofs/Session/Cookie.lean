import ImageGateway.Proofs.Text.Cut
import ImageGateway.Session.Cookie

/-!
# Cookies that come back

The gateway writes its token into the first part of a `set-cookie` field, and the browser sends
that part back among the pairs of other cookies, in as many fields as it likes.  Of all the pieces
that the fields of a request are cut into, the first one that is a pair of the gateway's name
counts; what stands around it, before it or behind it is looked at for nothing else.

* `cookiePieces`, `IsOwnPair` : the pieces of all fields in order, and those that may count.
* `sentBack` : the part of a written cookie that comes back.
* `tokenOf?_eq` : a request carries the value of the first own pair, if it is not empty.
* `token_of_sentBack` : **a cookie is read back as it was written, whatever surrounds it**, and one
  that was cleared hides all others.
-/

namespace ImageGateway

namespace Session

/-- The pieces between semicolons of the `cookie` fields that are text, in order. -/
def cookiePieces (fields : Http.Headers) : List String :=
  (fields.texts "cookie").flatMap (Text.splitAt ';')

/-- Without the blanks around it, the piece is a pair of the gateway's name. -/
def IsOwnPair (piece : String) : Prop := ∃ v, Text.trim piece = cookieName ++ "=" ++ v

/-- The text up to its first semicolon, which is what a browser sends back of a cookie. -/
def sentBack (cookie : String) : String := String.ofList (cookie.toList.takeWhile (· != ';'))

/-- The part stands among the pieces of the `cookie` fields, with any blanks around it, and no piece
in front of it is a pair of the gateway's name. -/
def StandsFirst (part : String) (fields : Http.Headers) : Prop :=
  ∃ before left right after, cookiePieces fields = before ++ (left ++ part ++ right) :: after ∧
    (∀ c ∈ left.toList ++ right.toList, Text.isBlank c = true) ∧ ∀ piece ∈ before, ¬ IsOwnPair piece

variable {fields : Http.Headers} {token piece v : String}

/-! ### The piece that counts -/

/-- The value of a pair of the gateway's name. -/
def ownValue? (piece : String) : Option String :=
  Text.dropStart? (cookieName ++ "=") (Text.trim piece)

theorem ownValue?_eq_some_iff :
    ownValue? piece = some v ↔ Text.trim piece = cookieName ++ "=" ++ v :=
  Text.dropStart?_eq_some_iff

theorem ownValue?_eq_none_iff : ownValue? piece = none ↔ ¬ IsOwnPair piece := by
  simp only [IsOwnPair, ← ownValue?_eq_some_iff, ← Option.isSome_iff_exists,
    Option.not_isSome_iff_eq_none]

/-- The name of the cookie has no equals sign in it, so that its pairs are cut behind it. -/
theorem cutAt_eq_some_iff {s : String} :
    Text.cutAt '=' s = some (cookieName, v) ↔ s = cookieName ++ "=" ++ v := by
  have hname : '=' ∉ cookieName.toList := by decide
  rw [Text.cutAt_eq_some_iff, ← String.toList_inj]
  simp [hname]

/-- Looking for the first own pair among the pairs is looking for it among the pieces. -/
theorem cookieIn?_eq (value : String) :
    cookieIn? value = (Text.splitAt ';' value).findSome? ownValue? := by
  rw [cookieIn?, cookiePairs]
  induction Text.splitAt ';' value with
  | nil => rfl
  | cons piece pieces ih =>
    rw [List.findSome?_cons, ← ih, List.filterMap_cons]
    cases hown : ownValue? piece with
    | some v =>
      rw [cutAt_eq_some_iff.2 (ownValue?_eq_some_iff.1 hown)]
      exact congrArg (Option.map Prod.snd) (List.find?_cons_of_pos (beq_self_eq_true cookieName))
    | none =>
      cases hcut : Text.cutAt '=' (Text.trim piece) with
      | none => rfl
      | some pair =>
        obtain ⟨name, v⟩ := pair
        -- a pair of the gateway's name would be an own one
        have hname : ¬ (name == cookieName) = true := by
          intro hname
          obtain rfl := beq_iff_eq.1 hname
          rw [ownValue?_eq_some_iff.2 (cutAt_eq_some_iff.1 hcut)] at hown
          cases hown
        exact congrArg _ (List.find?_cons_of_neg hname)

/-- **A request carries the value of the first own pair in all its fields**, if it is not empty. -/
theorem tokenOf?_eq (fields : Http.Headers) :
    tokenOf? fields = ((cookiePieces fields).findSome? ownValue?).filter (!·.isEmpty) := by
  have hfound : (fields.texts "cookie").findSome? cookieIn? =
      (cookiePieces fields).findSome? ownValue? := by
    rw [cookiePieces]
    induction fields.texts "cookie" with
    | nil => rfl
    | cons text texts ih =>
      rw [List.findSome?_cons, List.flatMap_cons, List.findSome?_append, ← ih, cookieIn?_eq]
      cases (Text.splitAt ';' text).findSome? ownValue? <;> rfl
  rw [tokenOf?, hfound]
  cases (cookiePieces fields).findSome? ownValue? with
  | none => rfl
  | some token => cases h : token.isEmpty <;> simp [Option.filter, h]

/-! ### The cookie that was written -/

/-- What comes back of a cookie is its pair, which the attributes stand behind. -/
theorem sentBack_setCookie (h : ';' ∉ token.toList) (settings : CookieSettings) (maxAge : Nat) :
    sentBack (setCookie token settings maxAge) = cookieName ++ "=" ++ token := by
  obtain ⟨first, attributes, hattributes⟩ : ∃ first attributes,
      cookieAttributes settings maxAge = first :: attributes := ⟨_, _, rfl⟩
  have hpair : ∀ c ∈ (cookieName ++ "=" ++ token).toList, (c != ';') = true := by
    have hname : ∀ c ∈ (cookieName ++ "=").toList, (c != ';') = true :=
      List.all_eq_true.1 (by decide)
    rw [String.toList_append, List.forall_mem_append]
    exact ⟨hname, fun c hc => bne_iff_ne.2 fun heq => h (heq ▸ hc)⟩
  rw [sentBack, setCookie, hattributes, Text.joinWith, String.toList_intercalate, List.map_cons,
    List.map_cons, List.intercalate_cons_cons, List.append_assoc,
    List.takeWhile_append_of_pos hpair]
  -- the separator begins with a semicolon
  exact (congrArg _ (List.append_nil _)).trans String.ofList_toList

/-- A pair is what is left when the blanks around it are trimmed. -/
theorem trim_ownPair {left right : String}
    (hblank : ∀ c ∈ left.toList ++ right.toList, Text.isBlank c = true)
    (hlast : ∀ c, v.toList.getLast? = some c → Text.isBlank c = false) :
    Text.trim (left ++ (cookieName ++ "=" ++ v) ++ right) = cookieName ++ "=" ++ v := by
  rw [List.forall_mem_append] at hblank
  rw [Text.trim, String.toList_append, String.toList_append,
    Text.trimWhere_surround hblank.1 hblank.2, String.ofList_toList]
  · intro c hc
    rw [String.toList_append, String.toList_append, List.append_assoc,
      List.head?_append_of_ne_nil _ (by decide)] at hc
    obtain rfl : 'r' = c := Option.some.inj hc
    decide
  · intro c hc
    rw [String.toList_append, List.getLast?_append] at hc
    cases hend : v.toList.getLast? with
    | none =>
      rw [hend] at hc
      obtain rfl : '=' = c := Option.some.inj hc
      decide
    | some d =>
      rw [hend] at hc
      obtain rfl : d = c := Option.some.inj hc
      exact hlast d hend

/-- **The pair that stands first is the one that counts.** -/
theorem tokenOf?_of_standsFirst (hlast : ∀ c, v.toList.getLast? = some c → Text.isBlank c = false)
    (h : StandsFirst (cookieName ++ "=" ++ v) fields) :
    tokenOf? fields = (some v).filter (!·.isEmpty) := by
  obtain ⟨before, left, right, after, hpieces, hblank, hbefore⟩ := h
  have hnone : before.findSome? ownValue? = none :=
    List.findSome?_eq_none_iff.2 fun piece hpiece => ownValue?_eq_none_iff.2 (hbefore piece hpiece)
  have hown : ownValue? (left ++ (cookieName ++ "=" ++ v) ++ right) = some v :=
    ownValue?_eq_some_iff.2 (trim_ownPair hblank hlast)
  rw [tokenOf?_eq, hpieces, List.findSome?_append, hnone, Option.none_or, List.findSome?_cons, hown]

/-- **A cookie is read back as it was written, whatever surrounds it.**  Where the pair of a token
stands first among the gateway's own, in whatever fields and with whatever pieces and blanks around
it, a request carries that token; where the pair of a cleared cookie stands there, it carries none,
even if there is a token behind it.  A token may hold anything but a semicolon, a blank at its end
apart, since the fields that hold what is not visible are passed over as no text. -/
theorem token_of_sentBack (fields : Http.Headers) (settings : CookieSettings) :
    (∀ token maxAge, token ≠ "" → ';' ∉ token.toList →
      (∀ c, token.toList.getLast? = some c → Text.isBlank c = false) →
      StandsFirst (sentBack (setCookie token settings maxAge)) fields →
      tokenOf? fields = some token) ∧
    (StandsFirst (sentBack (clearCookie settings)) fields → tokenOf? fields = none) := by
  constructor
  · intro token maxAge hne hsemicolon hlast h
    rw [sentBack_setCookie hsemicolon] at h
    rw [tokenOf?_of_standsFirst hlast h]
    simp [Option.filter, hne]
  · intro h
    rw [clearCookie, sentBack_setCookie (by simp)] at h
    rw [tokenOf?_of_standsFirst (by simp) h]
    rfl

/-- A token with an equals sign in it behind a cookie of a similar name and a field that is no text,
and behind a cleared one. -/
theorem token_of_second_field :
    let settings : CookieSettings := ⟨"example.com", true⟩
    let fields : Http.Headers := [.ofText "cookie" "theme=dark; registry_gate_sessions=u",
      .ofText "cookie" "registry_gate_session=ü",
      .ofText "cookie" "a;\t registry_gate_session=x=1 ;registry_gate_session=u"]
    let cleared : Http.Headers := .ofText "cookie" "registry_gate_session=; b=c" :: fields
    StandsFirst (sentBack (setCookie "x=1" settings 1800)) fields ∧
      tokenOf? fields = some "x=1" ∧
      StandsFirst (sentBack (clearCookie settings)) cleared ∧ tokenOf? cleared = none := by
  intro settings fields cleared
  have hfirst : StandsFirst (sentBack (setCookie "x=1" settings 1800)) fields :=
    ⟨["theme=dark", " registry_gate_sessions=u", "a"], "\t ", " ", ["registry_gate_session=u"],
      by decide +kernel, List.all_eq_true.1 (by decide), fun piece hpiece => ownValue?_eq_none_iff.1
        ((by decide +kernel : ∀ piece ∈ ["theme=dark", " registry_gate_sessions=u", "a"],
          ownValue? piece = none) piece hpiece)⟩
  have hcleared : StandsFirst (sentBack (clearCookie settings)) cleared :=
    ⟨[], "", "", " b=c" :: cookiePieces fields, by decide +kernel, by simp, by simp⟩
  have hlast (c : Char) (hc : "x=1".toList.getLast? = some c) : Text.isBlank c = false := by
    obtain rfl : '1' = c := Option.some.inj hc
    decide
  exact ⟨hfirst, (token_of_sentBack fields settings).1 "x=1" 1800 (by decide) (by decide) hlast
    hfirst, hcleared, (token_of_sentBack cleared settings).2 hcleared⟩

end Session

end ImageGateway
