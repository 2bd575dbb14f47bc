import ImageGateway.Access.Grant

/-!
# Directories

The gateway asks a directory one thing: are these the credentials of a user, and if so, in which
groups is the user?  A directory is therefore a function.

* `DirectoryError` : why a directory gives no groups.
* `authorizeUser` : the grants of a user and the most permissive of them, or why there are none.
-/

namespace ImageGateway

namespace Directory

/-- Why a directory gives no groups for a user name and a password. -/
inductive DirectoryError where
  | missingCredentials
  | connection (reason : String)
  | bindRejected (reason : String)
  | search (reason : String)
  | userNotFound (identity : String)
deriving DecidableEq, Repr

/-- The wording of a directory error. -/
def DirectoryError.message : DirectoryError → String
  | .missingCredentials => "Missing credentials"
  | .connection reason => "Directory connection failed: " ++ reason
  | .bindRejected reason => "Directory bind failed: " ++ reason
  | .search reason => "Directory search failed: " ++ reason
  | .userNotFound identity => "User " ++ identity ++ " not found"

end Directory

/-- Checks a user name and a password and gives the raw identifiers of the user's groups. -/
abbrev Directory := String → String → Except Directory.DirectoryError (List String)

namespace Directory

/-- Why a user is turned away. -/
inductive AuthError where
  | directory (cause : DirectoryError)
  | noAuthorizedGroups (username : String)
deriving DecidableEq, Repr

/-- The wording of a refusal. -/
def AuthError.message : AuthError → String
  | .directory cause => cause.message
  | .noAuthorizedGroups username => "No authorized groups for " ++ username

/-- The directory could not be reached, so the credentials were not looked at. -/
def AuthError.isUnavailable : AuthError → Bool
  | .directory (.connection _) => true
  | _ => false

/-- The grants of an authenticated user and the actor that the user is on the raw protocol. -/
structure Authorized where
  grants : List Access.Grant
  primary : Access.Principal
deriving DecidableEq, Repr

/-- Asks the directory and keeps the groups that carry a permission and begin with `start`. -/
def authorizeUser (directory : Directory) (start username password : String) :
    Except AuthError Authorized :=
  match directory username password with
  | .error cause => .error (.directory cause)
  | .ok groups =>
    let grants := Access.Grant.ofGroups start groups
    match Access.Principal.ofGrants? username grants with
    | none => .error (.noAuthorizedGroups username)
    | some primary => .ok { grants, primary }

end Directory

end ImageGateway
