import ImageGateway.Server.Refusal
import ImageGateway.Text.Cut

/-!
# Names of repositories and tags

A repository is a row of segments between slashes, two at least, of which the first one is its
namespace.  A tag begins with a letter, a digit or an underscore and has 128 characters at most.
Blanks around a name that a client sends do not count.
-/

namespace ImageGateway

namespace Api

open Server (Refusal)

/-- A character of a name. -/
def isNameChar (c : Char) : Bool := c.isAlphanum || c == '.' || c == '_' || c == '-'

/-- A segment of the name of a repository. -/
def isSegment (segment : List Char) : Bool :=
  !segment.isEmpty && segment != ['.'] && segment != ['.', '.'] && segment.all isNameChar

/-- All segments are well formed. -/
def isRepository (repo : String) : Bool := (repo.toList.splitOn '/').all isSegment

/-- The name of a tag is well formed. -/
def isTag (tag : String) : Bool :=
  match tag.toList with
  | [] => false
  | c :: rest => (c.isAlphanum || c == '_') && tag.utf8ByteSize ≤ 128 && rest.all isNameChar

/-- A repository and its namespace. -/
structure RepositoryName where
  repo : String
  nameSpace : String
deriving DecidableEq, Repr

/-- A tag of a repository. -/
structure TagName where
  repository : RepositoryName
  tag : String
deriving DecidableEq, Repr

/-- The repository that a text names once it is trimmed. -/
def repositoryName (trimmed : String) : Except Refusal RepositoryName :=
  if trimmed.isEmpty then .error .missingRepo
  else match Text.cutAt '/' trimmed with
    | none => .error .invalidRepo
    | some (nameSpace, _) =>
      if isRepository trimmed then .ok ⟨trimmed, nameSpace⟩ else .error .invalidRepo

/-- The repository that a client names. -/
def RepositoryName.ofRaw (repo : String) : Except Refusal RepositoryName :=
  repositoryName (Text.trim repo)

/-- The tag that a client names. -/
def TagName.ofRaw (repo tag : String) : Except Refusal TagName :=
  let repo := Text.trim repo
  let tag := Text.trim tag
  if repo.isEmpty || tag.isEmpty then .error .missingRepoOrTag
  else match RepositoryName.ofRaw repo with
    | .error e => .error e
    | .ok repository => if isTag tag then .ok ⟨repository, tag⟩ else .error .invalidTag

end Api

end ImageGateway
