import ImageGateway.Settings.Substitution
import Mathlib.Data.List.Infix

/-!
# Placeholders in texts

A text is taken for what it is put together from: literals and placeholders in turn, with a literal,
which may be empty, at both ends.  Replacing the placeholders goes over it once, from left to right,
and two things might go wrong on the way: a `${` might come about where two pieces meet, and a
placeholder might be found to end elsewhere than it does.  Neither happens.  A literal holds no
`${`, and behind it comes a `$` or nothing; a name ends at the first `}` or `:`, and a default at
the first `}`, whatever other marks they hold.  What is put in stands behind the place where the
pass goes on, so it is not looked at.

* `IsLiteral`, `Placeholder.WellFormed`, `Template` : the pieces, and a text that is made of them.
* `placeholder?_inside` : **a placeholder is read as the one that it was written for**.
* `substituteChars_append` : a literal stays, whatever it ends or begins with.
* `Template.substituteChars_render` : the pass, from one placeholder to the next.
* `substitute_of_template` : the literals stay, and each placeholder gives way to its value.
-/

namespace ImageGateway

namespace Settings

/-- The beginning of a placeholder. -/
def opening : List Char := ['$', '{']

/-- There is no `${` in the text. -/
def IsLiteral (l : List Char) : Prop := ¬ opening <:+: l

instance (l : List Char) : Decidable (IsLiteral l) := inferInstanceAs (Decidable (¬ _))

namespace Placeholder

/-- What stands between `${` and `}`. -/
def inside (p : Placeholder) : List Char :=
  match p.default with
  | none => p.name
  | some default => p.name ++ ':' :: '-' :: default

/-- The spelling of a placeholder. -/
def written (p : Placeholder) : List Char := opening ++ p.inside ++ ['}']

/-- The name is not empty, and neither the name nor the default holds the mark that ends it. -/
structure WellFormed (p : Placeholder) : Prop where
  name_ne_nil : p.name ≠ []
  of_mem_name : ∀ c ∈ p.name, c ≠ '}' ∧ c ≠ ':'
  notMem_default : '}' ∉ p.default.getD []

theorem wellFormed_iff {p : Placeholder} :
    p.WellFormed ↔ p.name ≠ [] ∧ p.name.all isNameChar = true ∧ '}' ∉ p.default.getD [] := by
  have hname : p.name.all isNameChar = true ↔ ∀ c ∈ p.name, c ≠ '}' ∧ c ≠ ':' := by
    simp [isNameChar]
  rw [hname]
  exact ⟨fun ⟨hne, hname, hdefault⟩ => ⟨hne, hname, hdefault⟩,
    fun ⟨hne, hname, hdefault⟩ => ⟨hne, hname, hdefault⟩⟩

instance (p : Placeholder) : Decidable p.WellFormed := decidable_of_iff _ wellFormed_iff.symm

end Placeholder

/-- A text in pieces: a literal, and placeholders with a literal behind each of them. -/
structure Template where
  first : List Char
  more : List (Placeholder × List Char)
deriving Repr

namespace Template

/-- The text that has `f p` in the place of each placeholder `p`. -/
def render (f : Placeholder → List Char) (t : Template) : List Char :=
  t.first ++ t.more.flatMap fun (p, literal) => f p ++ literal

/-- The pieces are literals and well-formed placeholders. -/
structure WellFormed (t : Template) : Prop where
  first : IsLiteral t.first
  more : ∀ piece ∈ t.more, piece.1.WellFormed ∧ IsLiteral piece.2

instance (t : Template) : Decidable t.WellFormed :=
  decidable_of_iff (IsLiteral t.first ∧ ∀ piece ∈ t.more, piece.1.WellFormed ∧ IsLiteral piece.2)
    ⟨fun ⟨hfirst, hmore⟩ => ⟨hfirst, hmore⟩, fun ⟨hfirst, hmore⟩ => ⟨hfirst, hmore⟩⟩

end Template

variable {env : Environment} {p : Placeholder} {c : Char} {l s rest : List Char}

/-! ### Reading a placeholder -/

theorem takeWhile_append_cons {q : Char → Bool} (hl : ∀ d ∈ l, q d = true) (hc : q c = false)
    (rest : List Char) :
    (l ++ c :: rest).takeWhile q = l ∧ (l ++ c :: rest).dropWhile q = c :: rest := by
  rw [List.takeWhile_append_of_pos hl, List.dropWhile_append_of_pos hl]
  simp [hc]

/-- **A placeholder is read as the one that it was written for**, and the text goes on behind it. -/
theorem placeholder?_inside (hp : p.WellFormed) (rest : List Char) :
    placeholder? (p.inside ++ '}' :: rest) = some (p, rest) := by
  obtain ⟨name, default⟩ := p
  have hne : name.isEmpty = false := by simpa using hp.name_ne_nil
  have hname : ∀ d ∈ name, isNameChar d = true :=
    List.all_eq_true.1 (Placeholder.wellFormed_iff.1 hp).2.1
  cases default with
  | none =>
    obtain ⟨htake, hdrop⟩ := takeWhile_append_cons (c := '}') hname (by decide) rest
    simp [placeholder?, Placeholder.inside, htake, hdrop, hne]
  | some default =>
    have hdefault : ∀ d ∈ default, (d != '}') = true := fun d hd => by
      simpa using ne_of_mem_of_not_mem hd hp.notMem_default
    obtain ⟨htake, hdrop⟩ :=
      takeWhile_append_cons (c := ':') hname (by decide) ('-' :: (default ++ '}' :: rest))
    obtain ⟨htake', hdrop'⟩ := takeWhile_append_cons (c := '}') hdefault (by decide) rest
    simp [placeholder?, Placeholder.inside, htake, hdrop, hne, htake', hdrop']

/-! ### The pass -/

theorem substituteChars_of_placeholder? (h : placeholder? s = some (p, rest)) :
    substituteChars env (opening ++ s) = p.value env ++ substituteChars env rest := by
  rw [opening, List.cons_append, List.cons_append, List.nil_append, substituteChars]
  split
  · rename_i heq
    rw [h] at heq
    cases heq
    rfl
  · rename_i heq
    rw [h] at heq
    cases heq

/-- Where no placeholder begins, a character stays. -/
theorem substituteChars_cons (h : ¬ opening <+: c :: s) :
    substituteChars env (c :: s) = c :: substituteChars env s := by
  rw [substituteChars]
  rintro t rfl rfl
  exact h ⟨t, rfl⟩

theorem substituteChars_written (hp : p.WellFormed) :
    substituteChars env (p.written ++ rest) = p.value env ++ substituteChars env rest := by
  rw [Placeholder.written, List.append_assoc, List.append_assoc]
  exact substituteChars_of_placeholder? (placeholder?_inside hp rest)

theorem opening_prefix_iff : opening <+: c :: s ↔ c = '$' ∧ s.head? = some '{' := by
  rw [opening, List.cons_prefix_cons, eq_comm]
  cases s <;> simp [eq_comm]

/-- **A literal stays**, whatever marks it ends or begins with, if the text behind it does not go on
with `{`. -/
theorem substituteChars_append (hl : IsLiteral l) (hrest : rest.head? ≠ some '{') :
    substituteChars env (l ++ rest) = l ++ substituteChars env rest := by
  induction l with
  | nil => rfl
  | cons c l ih =>
    rw [IsLiteral, List.infix_cons_iff, not_or] at hl
    obtain ⟨hfront, hl⟩ := hl
    have hfront' : ¬ opening <+: c :: (l ++ rest) := by
      rw [opening_prefix_iff] at hfront ⊢
      cases l with
      | nil => exact fun h => hrest h.2
      | cons d l => exact hfront
    rw [List.cons_append, substituteChars_cons hfront', ih hl, List.cons_append]

/-! ### Templates -/

namespace Template

theorem render_cons (f : Placeholder → List Char) (first literal : List Char)
    (more : List (Placeholder × List Char)) :
    render f ⟨first, (p, literal) :: more⟩ = first ++ (f p ++ render f ⟨literal, more⟩) := by
  simp [render]

/-- **One pass over a template** puts the value of each placeholder between its literals. -/
theorem substituteChars_render {t : Template} (ht : t.WellFormed) :
    substituteChars env (t.render Placeholder.written) = t.render (·.value env) := by
  obtain ⟨first, more⟩ := t
  induction more generalizing first with
  | nil =>
    have hstays : substituteChars env (first ++ []) = first ++ substituteChars env [] :=
      substituteChars_append ht.first (by simp)
    simpa [render, substituteChars] using hstays
  | cons piece more ih =>
    obtain ⟨p, literal⟩ := piece
    obtain ⟨⟨hp, hliteral⟩, hmore⟩ := List.forall_mem_cons.1 ht.more
    have hopens : (p.written ++ render Placeholder.written ⟨literal, more⟩).head? ≠ some '{' := by
      simp [Placeholder.written, opening]
    rw [render_cons, render_cons, substituteChars_append ht.first hopens,
      substituteChars_written hp, ih literal ⟨hliteral, hmore⟩]

end Template

/-- What stands for a placeholder is the value of its variable if that is set, otherwise its
default, and nothing if it has none. -/
theorem Placeholder.value_eq (env : Environment) (p : Placeholder) :
    p.value env = (((env (String.ofList p.name)).map String.toList).or p.default).getD [] := by
  rw [Placeholder.value]
  cases env (String.ofList p.name) <;> rfl

/-- **The placeholders of a text are replaced in one pass.**  For every environment, a text that is
made of literals without `${` and of well-formed placeholders becomes the text with the same
literals, in which each placeholder has given way to the value of its variable, or else to its
default, or else to nothing.  Nothing is asked of the values, of the `$` and `{` in names and
defaults, or of the marks at the ends of the literals: whatever they are, no other placeholder is
seen. -/
theorem substitute_of_template (env : Environment) {t : Template} (ht : t.WellFormed) :
    substitute env (String.ofList (t.render Placeholder.written)) =
      String.ofList (t.render fun p =>
        (((env (String.ofList p.name)).map String.toList).or p.default).getD []) := by
  rw [substitute, String.toList_ofList, Template.substituteChars_render ht]
  simp only [Placeholder.value_eq]

/-- A name, a default and a value that hold `${`, and literals that end in `$` or begin with `{`:
the pass sees the three placeholders of the template, and no other. -/
theorem substitute_of_tangled_template :
    let env : Environment := fun name =>
      if name = "A" then some (String.ofList ['$', '{', 'B', '}'])
      else if name = "B" then some "b" else none
    let t : Template := {
      first := ['a', '$']
      more := [
        (⟨['A'], none⟩, ['{', 'B', '}', '$']),
        (⟨['x', '$', '{', 'A'], none⟩, []),
        (⟨['C'], some ['$', '{', 'B']⟩, ['{'])] }
    t.WellFormed ∧
      t.render Placeholder.written =
        "a$$\x7bA\x7d\x7bB\x7d$$\x7bx$\x7bA\x7d$\x7bC:-$\x7bB\x7d\x7b".toList ∧
      substitute env (String.ofList (t.render Placeholder.written)) =
        String.ofList "a$$\x7bB\x7d\x7bB\x7d$$\x7bB\x7b".toList := by
  intro env t
  have ht : t.WellFormed := by decide
  exact ⟨ht, by decide, (substitute_of_template env ht).trans (congrArg String.ofList (by decide))⟩

end Settings

end ImageGateway
