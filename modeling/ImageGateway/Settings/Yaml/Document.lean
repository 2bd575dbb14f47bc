import ImageGateway.Settings.Yaml.Lexeme
import ImageGateway.Settings.Yaml.Node

/-!
# Reading YAML files

A file holds one document, which is a mapping; a file without a document is an empty table.
Directives may stand before the mark that begins the document.

* `parse?` : the table that a file is.
-/

namespace ImageGateway

namespace Settings

namespace Yaml

open NodeReader

/-- Takes the marks in front that end documents. -/
def skipDocumentEnds : List Token → List Token := List.dropWhile (· == .documentEnd)

/-- Takes directives.  The version may be given once.  Of several directives only the last one says
what a handle stands for. -/
def directives? (hasVersion : Bool) (meaning : Option (String × String)) :
    List Token → Option (Option (String × String) × List Token)
  | .directive .version :: rest => if hasVersion then none else directives? true none rest
  | .directive (.meaning handle full) :: rest => directives? hasVersion (some (handle, full)) rest
  | rest => some (meaning, rest)

/-- The token begins or ends a document. -/
def isBoundary : Token → Bool
  | .directive _ => true
  | .documentStart => true
  | .documentEnd => true
  | _ => false

/-- The depth of recursion that so many tokens can ask for. -/
def depthFor (tokens : List Token) : Nat := 4 * tokens.length + 8

/-- The node in front of the tokens, and what is behind it. -/
def root? (meaning : Option (String × String)) (tokens : List Token) :
    Option (Node × List Token) :=
  (Node.read true false (depthFor tokens) { tokens := tokens, meaning := meaning }).map
    fun (node, progress) => (node, progress.tokens)

/-- The node of the document in front of the tokens, and what is behind it. -/
def document? (tokens : List Token) : Option (Node × List Token) :=
  if (tokens.head?.map isBoundary).getD false then
    match directives? false none tokens with
    | some (meaning, .documentStart :: rest) =>
      if (rest.head?.map isBoundary).getD true then some (.null, rest) else root? meaning rest
    | _ => none
  else root? none tokens

/-- The table that the only document among the tokens is. -/
def table? (tokens : List Token) : Option Table :=
  match skipDocumentEnds tokens with
  | [] => some []
  | tokens =>
    match document? tokens with
    | none => none
    | some (node, rest) =>
      if !(skipDocumentEnds rest).isEmpty then none
      else match node.toValue? with
        | some (.table entries) => some entries
        | _ => none

/-- The table that a file is. -/
def parse? (s : List Char) : Option Table := (tokens? s).bind table?

end Yaml

end Settings

end ImageGateway
