import ImageGateway.Json.Decode
import ImageGateway.Proofs.Json.Text
import Mathlib.Data.List.Forall2
import Mathlib.Data.Option.Basic

/-!
# The fields of records

What the value of a record says about its fields is told without decoding it: a field is given by
the one entry whose key spells its name, or by the item in its place.  Other entries may stand
anywhere, and what they hold is not looked at.

* `Value.Gives` : the values that a record gives to its fields, and the fields that it leaves out.
* `Value.fields?_of_gives` : **the fields are found**, whatever else there is.
* `Value.RepeatsKey`, `Value.fields?_of_repeatsKey` : an object that names a field twice has none.
-/

namespace ImageGateway

namespace Json

theorem mapM_eq_some_iff {α β : Type} {f : α → Option β} {l : List α} {found : List β} :
    l.mapM f = some found ↔ l.map f = found.map some := by
  induction l generalizing found with
  | nil =>
    rw [List.mapM_nil, List.map_nil, eq_comm (a := []), List.map_eq_nil_iff]
    exact Option.some_inj.trans eq_comm
  | cons a l ih =>
    rw [List.mapM_cons, List.map_cons]
    constructor
    · intro h
      obtain ⟨b, hb, h⟩ := Option.bind_eq_some_iff.1 h
      obtain ⟨rest, hrest, h⟩ := Option.bind_eq_some_iff.1 h
      cases h
      rw [hb, ih.1 hrest, List.map_cons]
    · intro h
      cases found with
      | nil => cases h
      | cons b rest =>
        obtain ⟨hb, hrest⟩ := List.cons.inj h
        rw [hb, ih.2 hrest]
        rfl

namespace Value

variable {names : List String} {name : String} {v w : Value} {slots : List (Option Value)}
  {raws : List (RawText × Value)} {entries : List (String × Value)}

/-! ### The fields of a record -/

/-- The keys of the first entries spell those of the others, and the values are the same. -/
def Spelled (raws : List (RawText × Value)) (entries : List (String × Value)) : Prop :=
  List.Forall₂ (fun raw entry => Spells raw.1 entry.1.toList ∧ raw.2 = entry.2) raws entries

/-- The slot has the value of the one entry with this key, or there is none. -/
def Given (entries : List (String × Value)) (name : String) (slot : Option Value) : Prop :=
  (entries.filter (·.1 == name)).map Prod.snd = slot.toList

/-- The value is a record, and gives these values to the fields with these names.  The entries of an
object may have other keys as well, in any place and with any values; an array has the fields in
their order and may end before the last one. -/
inductive Gives (names : List String) : Value → List (Option Value) → Prop where
  | object {raws : List (RawText × Value)} {entries : List (String × Value)}
      {slots : List (Option Value)} (hkeys : Spelled raws entries)
      (hslots : List.Forall₂ (Given entries) names slots) : Gives names (.object raws) slots
  | array {items : List Value} {missing : Nat} (h : items.length + missing = names.length) :
      Gives names (.array items) (items.map some ++ List.replicate missing none)

/-- How an entry is decoded. -/
theorem entries?_eq_some_iff : entries? raws = some entries ↔
    raws.map (fun raw => raw.1.decode?.map (·, raw.2)) = entries.map some := mapM_eq_some_iff

theorem entries?_of_spelled (h : Spelled raws entries) : entries? raws = some entries := by
  rw [entries?_eq_some_iff]
  induction h with
  | nil => rfl
  | cons hfirst _ ih =>
    obtain ⟨hkey, hvalue⟩ := hfirst
    rw [List.map_cons, List.map_cons, ih, RawText.decode?_of_spells hkey, hvalue,
      String.ofList_toList]
    rfl

theorem lookup_eq_head? (name : String) (entries : List (String × Value)) :
    entries.lookup name = ((entries.filter (·.1 == name)).map Prod.snd).head? := by
  induction entries with
  | nil => rfl
  | cons entry entries ih =>
    obtain ⟨key, v⟩ := entry
    rw [List.lookup_cons]
    by_cases h : key = name
    · simp [h]
    · rw [beq_eq_false_iff_ne.2 (Ne.symm h), ih]
      simp [h]

theorem lookup_of_given {slot : Option Value} (h : Given entries name slot) :
    entries.lookup name = slot := by
  rw [lookup_eq_head?, h]
  cases slot <;> rfl

theorem length_of_given {slot : Option Value} (h : Given entries name slot) :
    (entries.filter (·.1 == name)).length ≤ 1 := by
  have hlength := congrArg List.length h
  rw [List.length_map] at hlength
  rw [hlength]
  cases slot <;> simp

/-- **The fields are found**, whatever else there is. -/
theorem fields?_of_gives (h : v.Gives names slots) : v.fields? names = some slots := by
  cases h with
  | @object raws entries slots hkeys hslots =>
    have hfields : distinctKeys names entries = true ∧ names.map (entries.lookup ·) = slots := by
      induction hslots with
      | nil => exact ⟨rfl, rfl⟩
      | cons hfirst _ ih =>
        rw [distinctKeys, List.all_cons, List.map_cons, lookup_of_given hfirst, ih.2]
        simpa using ⟨length_of_given hfirst, by simpa [distinctKeys] using ih.1⟩
    rw [fields?, entries?_of_spelled hkeys, Option.bind_eq_bind, Option.bind_some,
      if_pos hfields.1, hfields.2]
  | @array items missing h =>
    rw [fields?, if_pos (by omega), ← h, Nat.add_sub_cancel_left]

/-! ### Fields that are given twice -/

/-- The value is an object with two entries for one of the names. -/
def RepeatsKey (names : List String) (v : Value) : Prop :=
  ∃ name ∈ names, ∃ raws first second, v = .object raws ∧ [first, second].Sublist raws ∧
    Spells first.1 name.toList ∧ Spells second.1 name.toList

/-- **An object that names a field twice has no fields.** -/
theorem fields?_of_repeatsKey (h : RepeatsKey names v) : v.fields? names = none := by
  obtain ⟨name, hname, raws, first, second, rfl, hsublist, hfirst, hsecond⟩ := h
  rw [fields?]
  cases hentries : entries? raws with
  | none => rfl
  | some entries =>
    have htwice : 2 ≤ (entries.filter (·.1 == name)).length := by
      have hmap := hsublist.map fun raw => raw.1.decode?.map (·, raw.2)
      rw [entries?_eq_some_iff.1 hentries, List.sublist_map_iff] at hmap
      obtain ⟨found, hfound, heq⟩ := hmap
      rw [List.map_cons, List.map_singleton, RawText.decode?_of_spells hfirst,
        RawText.decode?_of_spells hsecond, String.ofList_toList] at heq
      obtain rfl : [(name, first.2), (name, second.2)] = found :=
        List.map_injective_iff.2 (Option.some_injective _) heq
      simpa using (hfound.filter (·.1 == name)).length_le
    have hdistinct : ¬ distinctKeys names entries = true := by
      rw [distinctKeys, List.all_eq_true]
      intro hall
      have := of_decide_eq_true (hall name hname)
      omega
    rw [Option.bind_eq_bind, Option.bind_some, if_neg hdistinct]

/-- The record has the value in the place of the field. -/
inductive StandsAt (names : List String) (name : String) : Value → Value → Prop where
  | object {raws : List (RawText × Value)} {raw : RawText × Value} (hmem : raw ∈ raws)
      (hkey : Spells raw.1 name.toList) : StandsAt names name (.object raws) raw.2
  | array {items : List Value} {i : Nat} {w : Value} (hname : names[i]? = some name)
      (hitem : items[i]? = some w) : StandsAt names name (.array items) w

theorem lookup_of_mem (h : (name, w) ∈ entries)
    (hone : (entries.filter (·.1 == name)).length ≤ 1) : entries.lookup name = some w := by
  have hmem : (name, w) ∈ entries.filter (·.1 == name) := List.mem_filter.2 ⟨h, by simp⟩
  obtain ⟨only, honly⟩ := List.length_eq_one_iff.1
    (Nat.le_antisymm hone (List.length_pos_iff.2 (List.ne_nil_of_mem hmem)))
  rw [honly, List.mem_singleton] at hmem
  rw [lookup_eq_head?, honly, ← hmem]
  rfl

/-- What stands in the place of a field is the field, if the record can be read at all. -/
theorem mem_zip_of_standsAt (h : StandsAt names name v w) (hname : name ∈ names)
    (hfields : v.fields? names = some slots) : (name, some w) ∈ names.zip slots := by
  cases h with
  | @object raws raw hmem hkey =>
    rw [fields?] at hfields
    obtain ⟨entries, hentries, hfields⟩ := Option.bind_eq_some_iff.1 hfields
    split_ifs at hfields with hdistinct
    cases hfields
    have hentry : (name, raw.2) ∈ entries := by
      have hmap := List.mem_map_of_mem (f := fun raw => raw.1.decode?.map (·, raw.2)) hmem
      rw [entries?_eq_some_iff.1 hentries, RawText.decode?_of_spells hkey,
        String.ofList_toList] at hmap
      simpa using hmap
    rw [distinctKeys, List.all_eq_true] at hdistinct
    have hone := of_decide_eq_true (hdistinct name hname)
    rw [← lookup_of_mem hentry hone, ← List.map_prod_left_eq_zip]
    exact List.mem_map_of_mem hname
  | @array items i w hplace hitem =>
    rw [fields?] at hfields
    split_ifs at hfields with hlength
    cases hfields
    refine List.mem_of_getElem? (i := i) (List.getElem?_zip_eq_some.2 ⟨hplace, ?_⟩)
    have hi : i < (items.map some).length := by
      rw [List.length_map]
      exact (List.getElem?_eq_some_iff.1 hitem).1
    rw [List.getElem?_append_left hi, List.getElem?_map, hitem]
    rfl

end Value

end Json

end ImageGateway
