import ImageGateway.Registry.Manifest
import Mathlib.Algebra.BigOperators.Group.List.Basic
import Mathlib.Algebra.Order.BigOperators.Group.List
import Mathlib.Algebra.Order.Ring.Int
import Mathlib.Data.List.Infix

/-!
# Sizes of manifests

The compressed size of an image is the size of its configuration and of its layers, added up in
order in 64-bit integers.  What counts for the outcome are the sums on the way: the fold fails as
soon as one of them is no 64-bit integer, whatever the whole sum is.

* `totalSize`, `Overflows` : the sum of a size and of those of some layers, and that a sum on the
  way is too large or too small.
* `compressedSize_of_fits`, `compressedSize_of_overflows` : **the compressed size is the exact sum,
  unless a sum on the way is no 64-bit integer.**
* `overflows_iff_of_nonneg`, `compressedSize_of_perm` : where no size is negative, the whole sum
  decides, and the order of the layers does not matter.
* `fits_of_decodeBody` : the size of the configuration is one in every manifest that can be read.
* `exact_or_overflow` : all of this together.
-/

namespace ImageGateway

namespace Json

theorem Value.fits_of_integer? {v : Value} {n : Int} (h : v.integer? = some n) :
    fits n = true := by
  unfold integer? at h
  split at h
  · exact (Option.filter_eq_some_iff.1 h).2
  · cases h

theorem Value.fits_eq_false_iff {n : Int} : fits n = false ↔ n < least ∨ greatest < n := by
  simp only [fits, Bool.and_eq_false_iff, decide_eq_false_iff_not, Int.not_le]

/-- What holds of the default of a field and of every value that it may have holds of the field. -/
theorem Value.of_field? {α : Type} {P : α → Prop} {default a : α} {value : Value → Option α}
    {field : Option Value} (h : field? default value field = some a) (hdefault : P default)
    (hvalue : ∀ {v a}, value v = some a → P a) : P a := by
  cases field with
  | none => exact Option.some.inj h ▸ hdefault
  | some v => exact hvalue h

end Json

namespace Registry

open Json (Value)

/-! ### Sums -/

/-- The size and those of the layers together. -/
def totalSize (start : Int) (layers : List Descriptor) : Int := start + (layers.map (·.size)).sum

/-- Some sum of the size and those of the first layers is no 64-bit integer. -/
def Overflows (start : Int) (layers : List Descriptor) : Prop :=
  ∃ first ∈ layers.inits, Value.fits (totalSize start first) = false

instance (start : Int) (layers : List Descriptor) : Decidable (Overflows start layers) :=
  inferInstanceAs (Decidable (∃ first ∈ layers.inits, _))

variable {start : Int} {layer : Descriptor} {layers : List Descriptor}

@[simp] theorem totalSize_nil : totalSize start [] = start := by simp [totalSize]

theorem totalSize_cons :
    totalSize start (layer :: layers) = totalSize (start + layer.size) layers := by
  simp [totalSize, Int.add_assoc]

theorem overflows_nil : Overflows start [] ↔ Value.fits start = false := by
  simp [Overflows]

/-- An overflow is one of the first size, or of what comes once the next one is added. -/
theorem overflows_cons : Overflows start (layer :: layers) ↔
    Value.fits start = false ∨ Overflows (start + layer.size) layers := by
  simp [Overflows, totalSize_cons]

theorem fits_of_not_overflows (h : ¬ Overflows start layers) : Value.fits start = true := by
  cases layers with
  | nil => simpa [overflows_nil] using h
  | cons layer layers =>
    rw [overflows_cons, not_or] at h
    simpa using h.1

theorem addSizes?_of_fits {a b : Int} (h : Value.fits (a + b) = true) :
    addSizes? a b = some (a + b) := by
  simp [addSizes?, h]

theorem addSizes?_of_not_fits {a b : Int} (h : Value.fits (a + b) = false) :
    addSizes? a b = none := by
  simp [addSizes?, h]

/-- Added up one by one, the sizes come to their sum if no sum on the way overflows. -/
theorem foldlM_addSizes? (h : ¬ Overflows start layers) :
    (layers.map (·.size)).foldlM addSizes? start = some (totalSize start layers) := by
  induction layers generalizing start with
  | nil => simp
  | cons layer layers ih =>
    rw [overflows_cons, not_or] at h
    rw [List.map_cons, List.foldlM_cons, addSizes?_of_fits (fits_of_not_overflows h.2),
      totalSize_cons]
    exact ih h.2

theorem foldlM_addSizes?_of_overflows (hstart : Value.fits start = true)
    (h : Overflows start layers) : (layers.map (·.size)).foldlM addSizes? start = none := by
  induction layers generalizing start with
  | nil =>
    rw [overflows_nil, hstart] at h
    cases h
  | cons layer layers ih =>
    have hrest : Overflows (start + layer.size) layers := by
      simpa [overflows_cons, hstart] using h
    rw [List.map_cons, List.foldlM_cons]
    by_cases hnext : Value.fits (start + layer.size) = true
    · rw [addSizes?_of_fits hnext]
      exact ih hnext hrest
    · rw [addSizes?_of_not_fits (by simpa using hnext)]
      rfl

/-! ### Sizes that are not negative -/

theorem totalSize_eq_of_perm {layers' : List Descriptor} (h : layers'.Perm layers) :
    totalSize start layers' = totalSize start layers := by
  rw [totalSize, totalSize, (h.map _).sum_eq]

theorem totalSize_mono {first : List Descriptor} (h : first <+: layers)
    (hnonneg : ∀ layer ∈ layers, 0 ≤ layer.size) :
    totalSize start first ≤ totalSize start layers := by
  have hsizes : ∀ size ∈ layers.map (·.size), 0 ≤ size := by simpa using hnonneg
  exact Int.add_le_add_left ((h.map (·.size)).sublist.sum_le_sum hsizes) start

/-- Where no size is negative, the sums on the way only grow, so the last one decides. -/
theorem overflows_iff_of_nonneg (hstart : 0 ≤ start)
    (hnonneg : ∀ layer ∈ layers, 0 ≤ layer.size) :
    Overflows start layers ↔ Value.greatest < totalSize start layers := by
  constructor
  · rintro ⟨first, hfirst, hout⟩
    have hbegins : first <+: layers := (List.mem_inits _ _).1 hfirst
    have hnonneg' : 0 ≤ totalSize start first := calc
      0 ≤ totalSize start [] := by rwa [totalSize_nil]
      _ ≤ totalSize start first := totalSize_mono List.nil_prefix
        fun layer hlayer => hnonneg layer (hbegins.subset hlayer)
    rcases Value.fits_eq_false_iff.1 hout with hlow | hhigh
    · have : Value.least < 0 := by decide
      omega
    · exact Int.lt_of_lt_of_le hhigh (totalSize_mono hbegins hnonneg)
  · intro h
    exact ⟨layers, (List.mem_inits _ _).2 List.prefix_rfl, Value.fits_eq_false_iff.2 (.inr h)⟩

/-! ### Manifests -/

namespace ImageManifest

variable {m : ImageManifest}

theorem compressedSize_of_fits (h : ¬ Overflows m.config.size m.layers) :
    m.compressedSize = .ok (totalSize m.config.size m.layers) := by
  rw [compressedSize, foldlM_addSizes? h]

theorem compressedSize_of_overflows (hconfig : Value.fits m.config.size = true)
    (h : Overflows m.config.size m.layers) :
    m.compressedSize = .error (.invalidResponse .sizesOverflow) := by
  rw [compressedSize, foldlM_addSizes?_of_overflows hconfig h]

theorem compressedSize_eq_ok_iff {n : Int} (hconfig : Value.fits m.config.size = true) :
    m.compressedSize = .ok n ↔
      ¬ Overflows m.config.size m.layers ∧ totalSize m.config.size m.layers = n := by
  by_cases h : Overflows m.config.size m.layers
  · simp [compressedSize_of_overflows hconfig h, h]
  · simp [compressedSize_of_fits h, h]

theorem compressedSize_eq_error {e : RegistryError} (h : m.compressedSize = .error e) :
    e = .invalidResponse .sizesOverflow := by
  unfold compressedSize at h
  split at h <;> cases h
  rfl

theorem compressedSize_eq_error_iff {e : RegistryError}
    (hconfig : Value.fits m.config.size = true) :
    m.compressedSize = .error e ↔
      Overflows m.config.size m.layers ∧ e = .invalidResponse .sizesOverflow := by
  constructor
  · intro h
    refine ⟨?_, compressedSize_eq_error h⟩
    by_contra hfits
    rw [compressedSize_of_fits hfits] at h
    cases h
  · rintro ⟨hoverflow, rfl⟩
    exact compressedSize_of_overflows hconfig hoverflow

/-- **Where no size is negative, the order of the layers does not matter.** -/
theorem compressedSize_of_perm {layers : List Descriptor}
    (hconfig : Value.fits m.config.size = true) (hstart : 0 ≤ m.config.size)
    (hnonneg : ∀ layer ∈ m.layers, 0 ≤ layer.size) (h : layers.Perm m.layers) :
    { m with layers }.compressedSize = m.compressedSize := by
  have hnonneg' : ∀ layer ∈ layers, 0 ≤ layer.size :=
    fun layer hlayer => hnonneg layer (h.mem_iff.1 hlayer)
  have hsame : Overflows m.config.size layers ↔ Overflows m.config.size m.layers := by
    rw [overflows_iff_of_nonneg hstart hnonneg', overflows_iff_of_nonneg hstart hnonneg,
      totalSize_eq_of_perm h]
  by_cases hoverflow : Overflows m.config.size m.layers
  · rw [compressedSize_of_overflows hconfig hoverflow]
    exact compressedSize_of_overflows (m := { m with layers }) hconfig (hsame.2 hoverflow)
  · rw [compressedSize_of_fits hoverflow, ← totalSize_eq_of_perm h]
    exact compressedSize_of_fits (m := { m with layers }) (mt hsame.1 hoverflow)

end ImageManifest

theorem decodeBody_eq_ok_iff {α : Type} {decode : Value → Option α} {body : Bytes} {a : α} :
    decodeBody decode body = .ok a ↔ ∃ v, Json.parse? body = some v ∧ decode v = some a := by
  unfold decodeBody
  rw [← Option.bind_eq_some_iff]
  cases (Json.parse? body).bind decode <;> simp

theorem Descriptor.fits_of_ofJson? {v : Value} {d : Descriptor} (h : ofJson? v = some d) :
    Value.fits d.size = true := by
  simp only [ofJson?, Option.bind_eq_bind, Option.bind_eq_some_iff] at h
  obtain ⟨fields, -, h⟩ := h
  split at h
  · simp only [Option.bind_eq_some_iff, Option.some.injEq] at h
    obtain ⟨_, -, _, -, size, hsize, rfl⟩ := h
    exact Value.of_field? (P := fun size => Value.fits size = true) hsize rfl
      Value.fits_of_integer?
  · cases h

theorem ImageManifest.fits_of_ofJson? {v : Value} {m : ImageManifest} (h : ofJson? v = some m) :
    Value.fits m.config.size = true := by
  simp only [ofJson?, Option.bind_eq_bind, Option.bind_eq_some_iff] at h
  obtain ⟨fields, -, h⟩ := h
  split at h
  · simp only [Option.bind_eq_some_iff, Option.some.injEq] at h
    obtain ⟨_, -, _, -, config, hconfig, _, -, rfl⟩ := h
    exact Value.of_field? (P := fun config => Value.fits config.size = true) hconfig rfl
      Descriptor.fits_of_ofJson?
  · cases h

/-- The size of the configuration is a 64-bit integer in every manifest that can be read. -/
theorem ImageManifest.fits_of_decodeBody {body : Bytes} {m : ImageManifest}
    (h : decodeBody ImageManifest.ofJson? body = .ok m) : Value.fits m.config.size = true := by
  obtain ⟨v, -, hv⟩ := decodeBody_eq_ok_iff.1 h
  exact fits_of_ofJson? hv

/-- **The compressed size is exact or an error**, for every manifest whose configuration has a
64-bit size, and so for every one that can be read.  What is returned is the sum of all sizes.
There is an error, and always the same one, exactly if a sum on the way from the configuration
through the layers is no 64-bit integer, whatever the whole sum is.  If no size is negative, that is
the case exactly if the whole sum is too large, and the layers may then stand in any order. -/
theorem ImageManifest.exact_or_overflow {m : ImageManifest}
    (hconfig : Value.fits m.config.size = true) :
    (∀ n, m.compressedSize = .ok n ↔
        ¬ Overflows m.config.size m.layers ∧ totalSize m.config.size m.layers = n) ∧
      (∀ e, m.compressedSize = .error e ↔
        Overflows m.config.size m.layers ∧ e = .invalidResponse .sizesOverflow) ∧
      (0 ≤ m.config.size → (∀ layer ∈ m.layers, 0 ≤ layer.size) →
        ((∃ e, m.compressedSize = .error e) ↔
          Value.greatest < totalSize m.config.size m.layers) ∧
        ∀ layers, layers.Perm m.layers →
          { m with layers }.compressedSize = m.compressedSize) := by
  refine ⟨fun n => compressedSize_eq_ok_iff hconfig, fun e => compressedSize_eq_error_iff hconfig,
    fun hstart hnonneg => ⟨?_, fun layers => compressedSize_of_perm hconfig hstart hnonneg⟩⟩
  simp only [compressedSize_eq_error_iff hconfig, exists_and_left, exists_eq, and_true]
  exact overflows_iff_of_nonneg hstart hnonneg

/-- Two layers that lead out of the 64-bit integers and back again: in this order there is no size,
in the other there is, although the sum is the same.  Without negative sizes neither order has. -/
theorem ImageManifest.exact_or_overflow_of_crossing :
    let crossing : ImageManifest :=
      { config := { size := 9223372036854775807 }, layers := [{ size := 1 }, { size := -1 }] }
    let large : ImageManifest :=
      { config := { size := 9223372036854775000 }, layers := [{ size := 800 }, { size := 8 }] }
    let back : ImageManifest := { crossing with layers := crossing.layers.reverse }
    (totalSize crossing.config.size crossing.layers = 9223372036854775807 ∧
        crossing.compressedSize = .error (.invalidResponse .sizesOverflow) ∧
        back.compressedSize = .ok 9223372036854775807) ∧
      (∃ e, large.compressedSize = .error e) ∧
        { large with layers := large.layers.reverse }.compressedSize = large.compressedSize := by
  intro crossing large back
  have hcrossing : Value.fits crossing.config.size = true := by decide
  have hback : Value.fits back.config.size = true := by decide
  have hlarge : Value.fits large.config.size = true := by decide
  obtain ⟨-, herror, -⟩ := exact_or_overflow hcrossing
  obtain ⟨hsize, -, -⟩ := exact_or_overflow hback
  obtain ⟨-, -, hnonneg⟩ := exact_or_overflow hlarge
  obtain ⟨hlarge, horder⟩ := hnonneg (by decide) (by decide)
  exact ⟨⟨by decide, (herror _).2 ⟨by decide, rfl⟩, (hsize _).2 ⟨by decide, by decide⟩⟩,
    hlarge.2 (by decide), horder _ (List.reverse_perm _)⟩

end Registry

end ImageGateway
