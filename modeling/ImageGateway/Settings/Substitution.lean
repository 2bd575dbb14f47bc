import ImageGateway.Settings.Value

/-!
# Environment variables in settings

A text may hold placeholders: `${NAME}` stands for a variable of the environment, and
`${NAME:-DEFAULT}` for the default if there is no such variable.  A variable that is not there and
has no default is empty.

Placeholders are replaced in one pass from left to right.  What is put in is not looked at again.

* `Value.substituted` : the value with its placeholders replaced.
* `Value.variableNames` : the variables on which that may depend.
-/

namespace ImageGateway

namespace Settings

/-- The environment: the values of the variables that are set. -/
abbrev Environment := String → Option String

/-- A placeholder. -/
structure Placeholder where
  name : List Char
  default : Option (List Char)
deriving DecidableEq, Repr

/-- What a placeholder stands for. -/
def Placeholder.value (env : Environment) (p : Placeholder) : List Char :=
  match env (String.ofList p.name) with
  | some v => v.toList
  | none => p.default.getD []

/-- A character of the name of a variable. -/
def isNameChar (c : Char) : Bool := c != '}' && c != ':'

/-- Reads the placeholder whose `${` stands in front of the text. -/
def placeholder? (s : List Char) : Option (Placeholder × List Char) :=
  let name := s.takeWhile isNameChar
  if name.isEmpty then none
  else match s.dropWhile isNameChar with
    | '}' :: rest => some (⟨name, none⟩, rest)
    | ':' :: '-' :: more =>
      match more.dropWhile (· != '}') with
      | _ :: rest => some (⟨name, some (more.takeWhile (· != '}'))⟩, rest)
      | [] => none
    | _ => none

theorem placeholder?_length {s rest : List Char} {p : Placeholder}
    (h : placeholder? s = some (p, rest)) : rest.length < s.length := by
  have hs : (s.dropWhile isNameChar).length ≤ s.length := (List.dropWhile_suffix _).length_le
  unfold placeholder? at h
  simp only at h
  split at h
  · contradiction
  · split at h
    · rename_i hd
      cases h
      rw [hd] at hs
      simp only [List.length_cons] at hs
      omega
    · rename_i more hd
      have hm : (more.dropWhile (· != '}')).length ≤ more.length :=
        (List.dropWhile_suffix _).length_le
      split at h
      · rename_i hr
        cases h
        rw [hr] at hm
        rw [hd] at hs
        simp only [List.length_cons] at hs hm
        omega
      · contradiction
    · contradiction

/-- The text with its placeholders replaced. -/
def substituteChars (env : Environment) : List Char → List Char
  | '$' :: '{' :: s =>
    match _h : placeholder? s with
    | some (p, rest) => p.value env ++ substituteChars env rest
    | none => '$' :: substituteChars env ('{' :: s)
  | c :: s => c :: substituteChars env s
  | [] => []
termination_by s => s.length
decreasing_by
  · have := placeholder?_length _h
    simp only [List.length_cons]
    omega
  · simp
  · simp

/-- The text with its placeholders replaced. -/
def substitute (env : Environment) (s : String) : String :=
  String.ofList (substituteChars env s.toList)

mutual

/-- The value with the placeholders in its texts replaced; keys are left as they are. -/
def Value.substituted (env : Environment) : Value → Value
  | .null => .null
  | .boolean b => .boolean b
  | .integer n => .integer n
  | .decimal written => .decimal written
  | .text s => .text (substitute env s)
  | .list items => .list (substitutedItems env items)
  | .table entries => .table (substitutedEntries env entries)

/-- The items with their placeholders replaced. -/
def substitutedItems (env : Environment) : List Value → List Value
  | [] => []
  | v :: rest => v.substituted env :: substitutedItems env rest

/-- The entries with the placeholders of their values replaced. -/
def substitutedEntries (env : Environment) : Table → Table
  | [] => []
  | (key, v) :: rest => (key, v.substituted env) :: substitutedEntries env rest

end

/-- The names that stand behind a `${`. -/
def namesIn : List Char → List String
  | '$' :: '{' :: s => String.ofList (s.takeWhile isNameChar) :: namesIn s
  | _ :: s => namesIn s
  | [] => []

mutual

/-- The variables that the texts of a value may ask for. -/
def Value.variableNames : Value → List String
  | .text s => namesIn s.toList
  | .list items => namesOfItems items
  | .table entries => namesOfEntries entries
  | _ => []

/-- The variables that items may ask for. -/
def namesOfItems : List Value → List String
  | [] => []
  | v :: rest => v.variableNames ++ namesOfItems rest

/-- The variables that the values of entries may ask for. -/
def namesOfEntries : Table → List String
  | [] => []
  | (_, v) :: rest => v.variableNames ++ namesOfEntries rest

end

end Settings

end ImageGateway
