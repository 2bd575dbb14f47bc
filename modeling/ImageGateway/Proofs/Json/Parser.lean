import ImageGateway.Json.Parser
import ImageGateway.Proofs.Json.Token

/-!
# The parser and the grammar

The automaton is run over what is left of a text.  Where it expects a value and one stands there, it
comes out behind the value as if the value had been a single token; that is an induction on how the
value is written.  Conversely it only comes through a text in front of which a value stands, which
is an induction on the length of the text.

* `Reading.read?` : what a text gives from a reading on.
* `Reading.readAs_of_writes` : a value is passed over as one.
* `Reading.beginsWithValue` : there is a value where one is expected.
* `parse?_eq_some_iff` : **a text is read as a value if and only if it writes that value**.
-/

namespace ImageGateway

namespace Json

theorem blanks_cons {b : UInt8} {s : Bytes} :
    Blanks (b :: s) ↔ isBlankByte b = true ∧ Blanks s := by
  rw [isBlankByte_iff]
  exact List.forall_mem_cons

theorem tokens?_cons {b : UInt8} (h : isBlankByte b = false) (s : Bytes) :
    tokens? (b :: s) =
      (token? b s).bind fun (t, rest) => (tokens? rest).map (t :: ·) := by
  rw [tokens?, if_neg (by simp [h])]
  split <;> next htoken => rw [htoken]; rfl

namespace Reading

variable {r r' : Reading} {stack : List Open} {v w : Value} {s rest : Bytes}

/-- The value that is read when the text comes next. -/
def read? (r : Reading) (s : Bytes) : Option Value :=
  (tokens? s).bind fun tokens => (tokens.foldlM step? r).bind result?

/-! ### Blanks and tokens -/

theorem read?_nil (r : Reading) : r.read? [] = r.result? := by
  rw [read?, tokens?]
  rfl

theorem read?_blank {b : UInt8} (h : isBlankByte b = true) : r.read? (b :: s) = r.read? s := by
  rw [read?, tokens?, if_pos h]
  rfl

theorem read?_cons {b : UInt8} (h : isBlankByte b = false) (r : Reading) (s : Bytes) :
    r.read? (b :: s) =
      (token? b s).bind fun (t, rest) => (r.step? t).bind fun r' => r'.read? rest := by
  rw [read?, tokens?_cons h]
  cases token? b s with
  | none => rfl
  | some p =>
    obtain ⟨t, rest⟩ := p
    simp only [Option.bind_some]
    cases htokens : tokens? rest with
    | none => simp [read?, htokens]
    | some tokens =>
      simp only [read?, htokens, Option.map_some, Option.bind_some, List.foldlM_cons]
      cases r.step? t <;> rfl

theorem read?_blanks (h : Blanks s) (r : Reading) (rest : Bytes) :
    r.read? (s ++ rest) = r.read? rest := by
  induction s with
  | nil => rfl
  | cons b s ih =>
    obtain ⟨hb, hs⟩ := blanks_cons.1 h
    rw [List.cons_append, read?_blank hb, ih hs]

/-- A token makes a step. -/
theorem read?_append {t : Token} (h : TokenText t s) (hrest : EndsBefore rest t) (r : Reading) :
    r.read? (s ++ rest) = (r.step? t).bind fun r' => r'.read? rest := by
  obtain ⟨b, more, rfl, hblank, htoken⟩ := token?_append h hrest
  rw [List.cons_append, read?_cons hblank, htoken]
  rfl

theorem read?_mark {b : UInt8} {t : Token} (h : punctuation? b = some t) :
    r.read? (b :: rest) = (r.step? t).bind fun r' => r'.read? rest :=
  read?_append (.mark h) (endsBefore_of_punctuation? h) r

/-- What is read begins with a token, or there is nothing to read. -/
theorem read?_eq_some (h : r.read? s = some v) : (Blanks s ∧ r.result? = some v) ∨
    ∃ before t text rest r', s = before ++ (text ++ rest) ∧ Blanks before ∧ TokenText t text ∧
      EndsBefore rest t ∧ r.step? t = some r' ∧ r'.read? rest = some v := by
  induction s with
  | nil => exact .inl ⟨blanks_nil, read?_nil r ▸ h⟩
  | cons b s ih =>
    cases hb : isBlankByte b with
    | true =>
      rw [read?_blank hb] at h
      rcases ih h with ⟨hs, hr⟩ | ⟨before, t, text, rest, r', rfl, hbefore, htoken⟩
      · exact .inl ⟨blanks_cons.2 ⟨hb, hs⟩, hr⟩
      · exact .inr ⟨b :: before, t, text, rest, r', rfl, blanks_cons.2 ⟨hb, hbefore⟩, htoken⟩
    | false =>
      rw [read?_cons hb] at h
      obtain ⟨⟨t, rest⟩, htoken, hstep⟩ := Option.bind_eq_some_iff.1 h
      obtain ⟨r', hr', hread⟩ := Option.bind_eq_some_iff.1 hstep
      obtain ⟨text, hs, htext, hends⟩ := tokenText_of_token? htoken
      exact .inr ⟨[], t, text, rest, r', hs, blanks_nil, htext, hends, hr', hread⟩

/-! ### A value is passed over -/

/-- A value is expected, with this stack around it. -/
def Expects (r : Reading) (stack : List Open) : Prop :=
  ∀ t, t ≠ .closeBracket → r.step? t = begin? stack t

/-- A key is expected behind these entries. -/
def ExpectsKey (r : Reading) (entries : List (RawText × Value)) (stack : List Open) : Prop :=
  ∀ raw, r.step? (.string raw) = some (.colon entries raw stack)

theorem expects_value (stack : List Open) : Expects (.value stack) stack := fun _ _ => rfl

theorem expects_firstItem (stack : List Open) :
    Expects (.firstItem stack) (.array [] :: stack) := fun t ht => by
  cases t <;> first | rfl | exact absurd rfl ht

/-- Where a value is expected, the bytes are passed over as this one. -/
def ReadAs (w : Value) (text : Bytes) : Prop :=
  ∀ {r stack rest}, Expects r stack → Stops isNumberByte rest →
    r.read? (text ++ rest) = (close w stack).read? rest

theorem stops_of_blanks (h : Blanks s) (hrest : Stops isNumberByte rest) :
    Stops isNumberByte (s ++ rest) := by
  cases s with
  | nil => exact hrest
  | cons b s =>
    refine stops_cons ?_
    rcases h b List.mem_cons_self with rfl | rfl | rfl | rfl <;> rfl

/-- A token that is a value. -/
theorem readAs_token {t : Token} {text : Bytes} (h : TokenText t text) (hne : t ≠ .closeBracket)
    (hbegin : ∀ stack, begin? stack t = some (close w stack)) : ReadAs w text := by
  intro r stack rest hr hrest
  have hends : EndsBefore rest t := by
    cases t <;> first | exact hrest | trivial
  rw [read?_append h hends, hr t hne, hbegin]
  rfl

theorem read?_openBracket (hr : Expects r stack) (rest : Bytes) :
    r.read? (0x5b :: rest) = (firstItem stack).read? rest := by
  rw [read?_mark (b := 0x5b) rfl, hr _ (by simp)]
  rfl

theorem read?_openBrace (hr : Expects r stack) (rest : Bytes) :
    r.read? (0x7b :: rest) = (firstKey stack).read? rest := by
  rw [read?_mark (b := 0x7b) rfl, hr _ (by simp)]
  rfl

/-- An item comes out as its value. -/
theorem read?_item {i : Item} {b : UInt8} (h : ReadAs i.value i.text) (hspaced : i.Spaced)
    (hr : Expects r stack) (hb : isNumberByte b = false) :
    r.read? (i.written ++ b :: rest) = (close i.value stack).read? (b :: rest) := by
  obtain ⟨hbefore, hafter⟩ := hspaced
  simp only [Item.written, List.append_assoc]
  rw [read?_blanks hbefore, h hr (stops_of_blanks hafter (stops_cons hb)), read?_blanks hafter]

/-- The items up to the end of the array. -/
theorem read?_items {items : List Item} (hne : items ≠ []) {done : List Value}
    (h : ∀ i ∈ items, ReadAs i.value i.text) (hspaced : ∀ i ∈ items, i.Spaced)
    (hr : Expects r (.array done :: stack)) :
    r.read? ([0x2c].intercalate (items.map Item.written) ++ 0x5d :: rest) =
      (close (.array (done.reverse ++ items.map Item.value)) stack).read? rest := by
  induction items generalizing r done with
  | nil => exact absurd rfl hne
  | cons i more ih =>
    rw [List.forall_mem_cons] at h hspaced
    cases more with
    | nil =>
      rw [List.map_singleton, List.intercalate_singleton, read?_item h.1 hspaced.1 hr rfl, close,
        read?_mark (b := 0x5d) rfl]
      simp [step?]
    | cons j more =>
      rw [List.map_cons, List.map_cons, List.intercalate_cons_cons, List.append_assoc,
        List.append_assoc, List.singleton_append, read?_item h.1 hspaced.1 hr rfl, close,
        read?_mark (b := 0x2c) rfl, step?, Option.bind_some, ← List.map_cons,
        ih (List.cons_ne_nil j more) h.2 hspaced.2 (expects_value _)]
      simp

/-- A member comes out as an entry. -/
theorem read?_member {m : Member} {b : UInt8} {done : List (RawText × Value)}
    (h : ReadAs m.item.value m.item.text) (hspaced : m.Spaced)
    (hr : ExpectsKey r done stack) (hb : isNumberByte b = false) :
    r.read? (m.written ++ b :: rest) =
      (nextEntry ((m.key, m.item.value) :: done) stack).read? (b :: rest) := by
  obtain ⟨hbefore, hkey, hgap, hitem⟩ := hspaced
  simp only [Member.written, List.append_assoc, List.cons_append]
  rw [read?_blanks hbefore, read?_append (.string hkey) trivial, hr, Option.bind_some,
    read?_blanks hgap, read?_mark (b := 0x3a) rfl]
  exact read?_item h hitem (expects_value _) hb

/-- The members up to the end of the object. -/
theorem read?_members {members : List Member} (hne : members ≠ [])
    {done : List (RawText × Value)} (h : ∀ m ∈ members, ReadAs m.item.value m.item.text)
    (hspaced : ∀ m ∈ members, m.Spaced) (hr : ExpectsKey r done stack) :
    r.read? ([0x2c].intercalate (members.map Member.written) ++ 0x7d :: rest) =
      (close (.object (done.reverse ++ members.map fun m => (m.key, m.item.value))) stack).read?
        rest := by
  induction members generalizing r done with
  | nil => exact absurd rfl hne
  | cons m more ih =>
    rw [List.forall_mem_cons] at h hspaced
    cases more with
    | nil =>
      rw [List.map_singleton, List.intercalate_singleton, read?_member h.1 hspaced.1 hr rfl,
        read?_mark (b := 0x7d) rfl]
      simp [step?]
    | cons n more =>
      rw [List.map_cons, List.map_cons, List.intercalate_cons_cons, List.append_assoc,
        List.append_assoc, List.singleton_append, read?_member h.1 hspaced.1 hr rfl,
        read?_mark (b := 0x2c) rfl, step?, Option.bind_some, ← List.map_cons,
        ih (List.cons_ne_nil n more) h.2 hspaced.2 fun _ => rfl]
      simp

/-- **A value is passed over as one**, however it is written. -/
theorem readAs_of_writes {text : Bytes} (h : Writes w text) : ReadAs w text := by
  -- the stack is general in `ReadAs`, so that the hypotheses hold inside of arrays and objects
  induction h with
  | null => exact readAs_token .null (by simp) fun _ => rfl
  | yes => exact readAs_token .yes (by simp) fun _ => rfl
  | no => exact readAs_token .no (by simp) fun _ => rfl
  | number hs => exact readAs_token (.number hs) (by simp) fun _ => rfl
  | string hraw => exact readAs_token (.string hraw) (by simp) fun _ => rfl
  | emptyArray hgap =>
    intro r stack rest hr _
    simp only [List.cons_append, List.append_assoc]
    rw [read?_openBracket hr, read?_blanks hgap, List.nil_append, read?_mark (b := 0x5d) rfl]
    rfl
  | array hne hspaced _ ih =>
    intro r stack rest hr _
    simp only [List.cons_append, List.append_assoc]
    rw [read?_openBracket hr, List.nil_append, read?_items hne ih hspaced (expects_firstItem stack)]
    rfl
  | emptyObject hgap =>
    intro r stack rest hr _
    simp only [List.cons_append, List.append_assoc]
    rw [read?_openBrace hr, read?_blanks hgap, List.nil_append, read?_mark (b := 0x7d) rfl]
    rfl
  | object hne hspaced _ ih =>
    intro r stack rest hr _
    simp only [List.cons_append, List.append_assoc]
    rw [read?_openBrace hr, List.nil_append, read?_members hne ih hspaced fun _ => rfl]
    rfl

/-- A text that writes a value is read as that value. -/
theorem read?_of_jsonText (h : JsonText v s) : (value []).read? s = some v := by
  obtain ⟨before, text, after, rfl, hbefore, htext, hafter⟩ := h
  rw [read?_blanks hbefore, ← List.append_nil after,
    readAs_of_writes htext (expects_value []) (stops_of_blanks hafter stops_nil), close,
    read?_blanks hafter, read?_nil, result?]

/-! ### A value stands where one is read -/

/-- A value stands in front, and what is behind it is read once the value is closed. -/
def BeginsWithValue (stack : List Open) (s : Bytes) (v : Value) : Prop :=
  ∃ before w text rest, s = before ++ (text ++ rest) ∧ Blanks before ∧ Writes w text ∧
    (close w stack).read? rest = some v

theorem begin?_eq_some {t : Token} {text : Bytes} (htext : TokenText t text)
    (h : begin? stack t = some r) : (∃ w, Writes w text ∧ r = close w stack) ∨
      (text = [0x5b] ∧ r = .firstItem stack) ∨ (text = [0x7b] ∧ r = .firstKey stack) := by
  cases htext with
  | mark hb =>
    rcases eq_of_punctuation? hb with rfl | rfl | rfl | rfl | rfl | rfl <;> cases hb <;> cases h
    · exact .inr (.inl ⟨rfl, rfl⟩)
    · exact .inr (.inr ⟨rfl, rfl⟩)
  | null => cases h; exact .inl ⟨_, .null, rfl⟩
  | yes => cases h; exact .inl ⟨_, .yes, rfl⟩
  | no => cases h; exact .inl ⟨_, .no, rfl⟩
  | number hs => cases h; exact .inl ⟨_, .number hs, rfl⟩
  | string hraw => cases h; exact .inl ⟨_, .string hraw, rfl⟩

/-- A token comes next where the reading is not finished. -/
theorem exists_token (hr : r.result? = none) (h : r.read? s = some v) :
    ∃ before t text rest r', s = before ++ (text ++ rest) ∧ Blanks before ∧ TokenText t text ∧
      EndsBefore rest t ∧ r.step? t = some r' ∧ r'.read? rest = some v := by
  rcases read?_eq_some h with ⟨-, hresult⟩ | htoken
  · rw [hr] at hresult
    cases hresult
  · exact htoken

/-- A comma or the end comes next where nothing else can. -/
theorem read?_commaOr {b : UInt8} {t : Token} {last next : Reading} (hb : punctuation? b = some t)
    (hr : r.result? = none)
    (hstep : ∀ u r', r.step? u = some r' → (u = t ∧ r' = last) ∨ (u = .comma ∧ r' = next))
    (h : r.read? s = some v) :
    ∃ after rest, Blanks after ∧ ((s = after ++ b :: rest ∧ last.read? rest = some v) ∨
      (s = after ++ 0x2c :: rest ∧ next.read? rest = some v)) := by
  obtain ⟨after, u, text, rest, r', rfl, hafter, htext, -, hu, hread⟩ := exists_token hr h
  refine ⟨after, rest, hafter, ?_⟩
  rcases hstep u r' hu with ⟨rfl, rfl⟩ | ⟨rfl, rfl⟩
  · obtain rfl := eq_of_tokenText htext hb
    exact .inl ⟨rfl, hread⟩
  · obtain rfl := eq_of_tokenText (b := 0x2c) htext rfl
    exact .inr ⟨rfl, hread⟩

theorem read?_nextItem {items : List Value} (h : (nextItem items stack).read? s = some v) :
    ∃ after rest, Blanks after ∧
      ((s = after ++ 0x5d :: rest ∧ (close (.array items.reverse) stack).read? rest = some v) ∨
        (s = after ++ 0x2c :: rest ∧ (value (.array items :: stack)).read? rest = some v)) :=
  read?_commaOr rfl rfl (by rintro (_ | _) _ ⟨⟩ <;> simp) h

theorem read?_nextEntry {entries : List (RawText × Value)}
    (h : (nextEntry entries stack).read? s = some v) :
    ∃ after rest, Blanks after ∧
      ((s = after ++ 0x7d :: rest ∧ (close (.object entries.reverse) stack).read? rest = some v) ∨
        (s = after ++ 0x2c :: rest ∧ (nextKey entries stack).read? rest = some v)) :=
  read?_commaOr rfl rfl (by rintro (_ | _) _ ⟨⟩ <;> simp) h

theorem read?_firstItem (h : (firstItem stack).read? s = some v) :
    (∃ gap rest, Blanks gap ∧ s = gap ++ 0x5d :: rest ∧
      (close (.array []) stack).read? rest = some v) ∨
    (value (.array [] :: stack)).read? s = some v := by
  obtain ⟨gap, t, text, rest, r, rfl, hgap, htext, hends, hstep, hread⟩ := exists_token rfl h
  by_cases ht : t = .closeBracket
  · subst ht
    cases hstep
    obtain rfl := eq_of_tokenText (b := 0x5d) htext rfl
    exact .inl ⟨gap, rest, hgap, rfl, hread⟩
  · rw [expects_firstItem stack t ht] at hstep
    right
    rw [read?_blanks hgap, read?_append htext hends, step?, hstep]
    exact hread

/-- A key and its colon come next. -/
theorem read?_nextKey {entries : List (RawText × Value)}
    (h : (nextKey entries stack).read? s = some v) :
    ∃ before key gap rest, s = before ++ (Value.quoted key ++ (gap ++ 0x3a :: rest)) ∧
      Blanks before ∧ Raw key ∧ Blanks gap ∧
      (value (.object entries key :: stack)).read? rest = some v := by
  obtain ⟨before, t, text, rest, r, rfl, hbefore, htext, -, hstep, hread⟩ := exists_token rfl h
  cases t with
  | string key =>
    cases hstep
    obtain ⟨gap, t, colon, rest, r, rfl, hgap, hcolon, -, hstep, hvalue⟩ := exists_token rfl hread
    cases t with
    | colon =>
      cases hstep
      obtain rfl := eq_of_tokenText (b := 0x3a) hcolon rfl
      obtain ⟨rfl, hkey⟩ := eq_quoted_of_tokenText htext
      exact ⟨before, key, gap, rest, rfl, hbefore, hkey, hgap, hvalue⟩
    | _ => cases hstep
  | _ => cases hstep

theorem read?_firstKey (h : (firstKey stack).read? s = some v) :
    (∃ gap rest, Blanks gap ∧ s = gap ++ 0x7d :: rest ∧
      (close (.object []) stack).read? rest = some v) ∨
    (nextKey [] stack).read? s = some v := by
  obtain ⟨gap, t, text, rest, r, rfl, hgap, htext, hends, hstep, hread⟩ := exists_token rfl h
  cases t with
  | closeBrace =>
    cases hstep
    obtain rfl := eq_of_tokenText (b := 0x7d) htext rfl
    exact .inl ⟨gap, rest, hgap, rfl, hread⟩
  | string key =>
    cases hstep
    right
    rw [read?_blanks hgap, read?_append htext hends]
    exact hread
  | _ => cases hstep

/-- The items up to the end of the array, if values stand where they are read in shorter texts. -/
theorem exists_items {n : Nat} {done : List Value}
    (hvalue : ∀ s stack, s.length < n → (value stack).read? s = some v → BeginsWithValue stack s v)
    (hs : s.length < n) (h : (value (.array done :: stack)).read? s = some v) :
    ∃ items rest, items ≠ [] ∧ (∀ i ∈ items, i.Spaced) ∧ (∀ i ∈ items, Writes i.value i.text) ∧
      s = [0x2c].intercalate (items.map Item.written) ++ 0x5d :: rest ∧
      (close (.array (done.reverse ++ items.map Item.value)) stack).read? rest = some v := by
  -- the values come from the hypothesis, the induction is on what is behind the commas
  induction hm : s.length using Nat.strong_induction_on generalizing s done with
  | h m ih =>
    obtain ⟨before, w, text, rest, rfl, hbefore, htext, hrest⟩ := hvalue s _ hs h
    obtain ⟨after, rest, hafter, ⟨rfl, hread⟩ | ⟨rfl, hread⟩⟩ := read?_nextItem hrest
    · refine ⟨[⟨before, w, text, after⟩], rest, by simp, ?_, ?_, ?_, ?_⟩
      · simpa using ⟨hbefore, hafter⟩
      · simpa using htext
      · simp [Item.written]
      · simpa using hread
    · have hshorter : rest.length < (before ++ (text ++ (after ++ 0x2c :: rest))).length := by
        simp only [List.length_append, List.length_cons]
        omega
      obtain ⟨items, rest, hne, hspaced, hwrites, rfl, hclose⟩ :=
        ih _ (hm ▸ hshorter) (Nat.lt_trans hshorter hs) hread rfl
      refine ⟨⟨before, w, text, after⟩ :: items, rest, by simp, ?_, ?_, ?_, ?_⟩
      · exact List.forall_mem_cons.2 ⟨⟨hbefore, hafter⟩, hspaced⟩
      · exact List.forall_mem_cons.2 ⟨htext, hwrites⟩
      · rw [List.map_cons, List.intercalate_cons_of_ne_nil (by simpa using hne)]
        simp [Item.written]
      · simpa using hclose

/-- The members up to the end of the object, if values stand where they are read in shorter
texts. -/
theorem exists_members {n : Nat} {done : List (RawText × Value)}
    (hvalue : ∀ s stack, s.length < n → (value stack).read? s = some v → BeginsWithValue stack s v)
    (hs : s.length < n) (h : (nextKey done stack).read? s = some v) :
    ∃ members rest, members ≠ [] ∧ (∀ m ∈ members, m.Spaced) ∧
      (∀ m ∈ members, Writes m.item.value m.item.text) ∧
      s = [0x2c].intercalate (members.map Member.written) ++ 0x7d :: rest ∧
      (close (.object (done.reverse ++ members.map fun m => (m.key, m.item.value))) stack).read?
        rest = some v := by
  induction hm : s.length using Nat.strong_induction_on generalizing s done with
  | h m ih =>
    obtain ⟨front, key, gap, rest, rfl, hfront, hkey, hgap, hcolon⟩ := read?_nextKey h
    have hrest : rest.length < n := by
      simp only [List.length_append, List.length_cons] at hs
      omega
    obtain ⟨before, w, text, rest, rfl, hbefore, htext, hentry⟩ := hvalue _ _ hrest hcolon
    obtain ⟨after, rest, hafter, ⟨rfl, hread⟩ | ⟨rfl, hread⟩⟩ := read?_nextEntry hentry
    · refine ⟨[⟨front, key, gap, before, w, text, after⟩], rest, by simp, ?_, ?_, ?_, ?_⟩
      · simpa using ⟨hfront, hkey, hgap, hbefore, hafter⟩
      · simpa using htext
      · simp [Member.written, Item.written]
      · simpa using hread
    · have hshorter : rest.length < m := by
        rw [← hm]
        simp only [List.length_append, List.length_cons]
        omega
      obtain ⟨members, rest, hne, hspaced, hwrites, rfl, hclose⟩ :=
        ih _ hshorter (Nat.lt_trans hshorter (hm ▸ hs)) hread rfl
      refine ⟨⟨front, key, gap, before, w, text, after⟩ :: members, rest, by simp, ?_, ?_, ?_, ?_⟩
      · exact List.forall_mem_cons.2 ⟨⟨hfront, hkey, hgap, hbefore, hafter⟩, hspaced⟩
      · exact List.forall_mem_cons.2 ⟨htext, hwrites⟩
      · rw [List.map_cons, List.intercalate_cons_of_ne_nil (by simpa using hne)]
        simp [Member.written, Item.written]
      · simpa using hclose

/-- **There is a value where one is read.** -/
theorem beginsWithValue (h : (value stack).read? s = some v) : BeginsWithValue stack s v := by
  induction hm : s.length using Nat.strong_induction_on generalizing s stack with
  | h m ih =>
    have hvalue (s : Bytes) (stack : List Open) (hs : s.length < m)
        (h : (value stack).read? s = some v) : BeginsWithValue stack s v := ih _ hs h rfl
    obtain ⟨before, t, text, rest, r, rfl, hbefore, htext, -, hstep, hread⟩ := exists_token rfl h
    have hrest : rest.length < m := by
      have := List.length_pos_iff.2 (ne_nil_of_tokenText htext)
      simp only [List.length_append] at hm
      omega
    rcases begin?_eq_some htext hstep with ⟨w, hw, rfl⟩ | ⟨rfl, rfl⟩ | ⟨rfl, rfl⟩
    · exact ⟨before, w, text, rest, rfl, hbefore, hw, hread⟩
    · rcases read?_firstItem hread with ⟨gap, rest, hgap, rfl, hclose⟩ | hitem
      · exact ⟨before, _, _, rest, by simp, hbefore, .emptyArray hgap, hclose⟩
      · obtain ⟨items, rest, hne, hspaced, hwrites, rfl, hclose⟩ := exists_items hvalue hrest hitem
        exact ⟨before, _, _, rest, by simp, hbefore, .array hne hspaced hwrites, hclose⟩
    · rcases read?_firstKey hread with ⟨gap, rest, hgap, rfl, hclose⟩ | hkey
      · exact ⟨before, _, _, rest, by simp, hbefore, .emptyObject hgap, hclose⟩
      · obtain ⟨members, rest, hne, hspaced, hwrites, rfl, hclose⟩ :=
          exists_members hvalue hrest hkey
        exact ⟨before, _, _, rest, by simp, hbefore, .object hne hspaced hwrites, hclose⟩

theorem jsonText_of_read? (h : (value []).read? s = some v) : JsonText v s := by
  obtain ⟨before, w, text, after, rfl, hbefore, htext, hread⟩ := beginsWithValue h
  obtain ⟨hafter, hresult⟩ | ⟨_, t, _, _, _, -, -, -, -, hstep, -⟩ := read?_eq_some hread
  · cases hresult
    exact ⟨before, text, after, rfl, hbefore, htext, hafter⟩
  · cases hstep

end Reading

/-- **A text is read as a value if and only if it writes that value.**  So no text writes two
values. -/
theorem parse?_eq_some_iff {s : Bytes} {v : Value} : parse? s = some v ↔ JsonText v s :=
  ⟨Reading.jsonText_of_read?, Reading.read?_of_jsonText⟩

end Json

end ImageGateway
