import ImageGateway.Registry.Client

/-!
# Deleting a tag

A tag is deleted in two steps: its digest is looked up, and the manifest with that digest is
deleted, which removes every tag of that manifest.

* `DeletionError` : the step that failed, and why.
-/

namespace ImageGateway

namespace Registry

/-- Why a tag was not deleted. -/
inductive DeletionError where
  | lookup (cause : RegistryError)
  | delete (cause : RegistryError)
deriving DecidableEq, Repr

namespace DeletionError

/-- What went wrong in the step. -/
def cause : DeletionError → RegistryError
  | .lookup e => e
  | .delete e => e

/-- What the wording begins with. -/
def heading : DeletionError → String
  | .lookup _ => "Tag lookup failed: "
  | .delete _ => "Manifest delete failed: "

/-- The wording, unless the transport words the cause. -/
def message? (e : DeletionError) : Option String := e.cause.message?.map (e.heading ++ ·)

end DeletionError

/-- The status of a deletion that was done or accepted. -/
def isDeleted (status : Http.Status) : Bool := status = 200 || status = 202

/-- What an answer to a deletion says. -/
def deletedOf (answer : Option Http.Response) : Except RegistryError Unit :=
  match answer with
  | none => .error .network
  | some response =>
    if isDeleted response.status then .ok () else .error (.ofResponse response)

namespace Client

/-- Deletes a manifest. -/
def deleteManifest (c : Client) (repo digest : String) : Lookup Unit :=
  c.fetch .delete (manifestPath repo digest) [] deletedOf

/-- Deletes the manifest of a tag. -/
def deleteTag (c : Client) (repo tag : String) : ExceptT DeletionError Exchange Unit := do
  let digest ← (c.fetchDigest repo tag).adapt .lookup
  (c.deleteManifest repo digest).adapt .delete

end Client

end Registry

end ImageGateway
