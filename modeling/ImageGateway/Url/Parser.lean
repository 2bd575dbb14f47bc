import ImageGateway.Url.Basic
import ImageGateway.Url.Path
import ImageGateway.Text.Cut

/-!
# Reading URLs

A text is cleaned of the characters that never count, and then cut into its parts at the marks
between them: scheme, authority, path, query and fragment.  Under a scheme that names a server any
row of slashes or backslashes leads to the authority, and a backslash in the path is a slash.

* `Url.parse` : the URL that a text writes on its own.
* `Url.join` : the URL that a text writes where `base` stands.
-/

namespace ImageGateway

namespace Url

/-- The text without control characters and spaces at its ends, tabs and line ends. -/
def clean (s : List Char) : List Char :=
  (Text.trimWhere (·.toNat ≤ 0x20) s).filter fun c => c != '\t' && c != '\n' && c != '\r'

/-- A character of a scheme behind its first letter. -/
def isSchemeChar (c : Char) : Bool := c.isAlphanum || c == '+' || c == '-' || c == '.'

/-- The scheme, in small letters, and what stands behind its colon. -/
def cutScheme? (s : List Char) : Option (List Char × List Char) :=
  match s.takeWhile isSchemeChar, s.dropWhile isSchemeChar with
  | c :: name, ':' :: rest => if c.isAlpha then some ((c :: name).map Char.toLower, rest) else none
  | _, _ => none

/-- What stands behind the scheme, cut at the first `#` and before that at the first `?`. -/
structure Tail where
  front : List Char
  query : Option (List Char)
  fragment : Option (List Char)

/-- The part up to the first `mark` and the part behind it, if there is one. -/
def cutMark (mark : Char) (s : List Char) : List Char × Option (List Char) :=
  match s.dropWhile (· != mark) with
  | [] => (s, none)
  | _ :: rest => (s.takeWhile (· != mark), some rest)

/-- Cuts fragment and query off. -/
def Tail.ofChars (s : List Char) : Tail :=
  let (s, fragment) := cutMark '#' s
  let (front, query) := cutMark '?' s
  ⟨front, query, fragment⟩

/-- A slash or a backslash. -/
def isSlash (c : Char) : Bool := c == '/' || c == '\\'

/-- A visible ASCII character outside the list. -/
def keepsOutside (encoded : List Char) (c : Char) : Bool :=
  0x20 < c.toNat && c.toNat < 0x7f && !encoded.contains c

/-- A character that stands in a query as it is. -/
def queryKeeps (server : Bool) : Char → Bool :=
  keepsOutside (if server then "\"#<>'".toList else "\"#<>".toList)

/-- A character that stands in a fragment as it is. -/
def fragmentKeeps : Char → Bool := keepsOutside "\"<>\x60".toList

/-- A character that stands in a user name or a password as it is. -/
def userInfoKeeps : Char → Bool := keepsOutside "\"#<>?\x60\x7b\x7d/:;=@[\\]^|".toList

/-- Splits at the last `@`, which belongs to neither part. -/
def cutLastAt (s : List Char) : Option (List Char × List Char) :=
  (Text.cutWhere (· == '@') s.reverse).map fun (after, before) => (before.reverse, after.reverse)

/-- The host, up to the first colon outside brackets, and the rest from there. -/
def cutHost (inside : Bool) : List Char → List Char × List Char
  | [] => ([], [])
  | c :: s =>
    -- the colons of a version 6 address stand between brackets
    if c == ':' && !inside then ([], c :: s)
    else
      let (host, rest) := cutHost (if c == '[' then true else if c == ']' then false else inside) s
      (c :: host, rest)

/-- The port behind the host; none where the scheme has the same. -/
def portOf (scheme : List Char) : List Char → Except UrlError (Option Nat)
  | ':' :: digits =>
    let port := digits.foldl (fun n c => n * 10 + (c.toNat - 0x30)) 0
    if !digits.all Char.isDigit || 65535 < port then .error .invalidPort
    else if digits.isEmpty || defaultPort? scheme == some port then .ok none
    else .ok (some port)
  | _ => .ok none

/-- The host that a text writes under the scheme. -/
def hostOf (scheme : List Char) (text rest : List Char) : Except UrlError Host :=
  if isServerScheme scheme then
    if text.isEmpty then .error .emptyHost else Host.ofDomain text
  else if text.isEmpty && !rest.isEmpty then .error .emptyHost
  else Host.ofOpaqueText text

/-- The authority that a text writes, given its user name and password. -/
def authorityWith (scheme username password text : List Char) : Except UrlError Authority := do
  let (hostText, rest) := cutHost false text
  let host ← hostOf scheme hostText rest
  let port ← portOf scheme rest
  .ok ⟨Percent.encode userInfoKeeps username, Percent.encode userInfoKeeps password, host, port⟩

/-- The authority that a text writes. -/
def authorityOf (scheme text : List Char) : Except UrlError Authority :=
  match cutLastAt text with
  | none => authorityWith scheme [] [] text
  | some (userInfo, rest) =>
    -- an `@` may stand in the password as well, so the last one counts
    if rest.isEmpty then .error .emptyHost
    else match cutMark ':' userInfo with
      | (username, password) => authorityWith scheme username (password.getD []) rest

/-- The segments between the slashes of a path; the slash in front belongs to the first one. -/
def segmentsOf (isSeparator : Char → Bool) (path : List Char) : List (List Char) :=
  (path.drop 1).splitOnP isSeparator

/-- The URL of a scheme that names a server, from the text behind the slashes. -/
def ofServerText (scheme : List Char) (tail : Tail) (text : List Char) : Except UrlError Url := do
  let authority ← authorityOf scheme (text.takeWhile (!isSlash ·))
  .ok {
    scheme
    authority := some authority
    path := .segments (UrlPath.ofSegments (segmentsOf isSlash (text.dropWhile (!isSlash ·))))
    query := tail.query.map (Percent.encode (queryKeeps true))
    fragment := tail.fragment.map (Percent.encode fragmentKeeps) }

/-- The two characters name a drive. -/
def isDrive : List Char → Bool
  | [c, d] => c.isAlpha && (d == ':' || d == '|')
  | _ => false

/-- The host and the path of a URL for a file. -/
def fileParts (front : List Char) : Except UrlError (Host × List Char) :=
  match front with
  | a :: b :: text =>
    if isSlash a && isSlash b then
      let hostText := text.takeWhile (!isSlash ·)
      if hostText.isEmpty then .ok (.name [], text)
      -- `file://c:/etc` has a drive where a host would stand
      else if isDrive hostText then .ok (.name [], '/' :: text)
      else match Host.ofDomain hostText with
        | .error e => .error e
        | .ok host =>
          .ok (if host == .name "localhost".toList then .name [] else host,
            text.dropWhile (!isSlash ·))
    else .ok (.name [], if isSlash a then front else '/' :: front)
  | _ => .ok (.name [], if front.any isSlash then front else '/' :: front)

/-- The URL for a file. -/
def ofFileText (scheme : List Char) (tail : Tail) : Except UrlError Url := do
  let (host, path) ← fileParts tail.front
  .ok {
    scheme
    authority := some ⟨[], [], host, none⟩
    path := .segments (UrlPath.ofSegments (segmentsOf isSlash path))
    query := tail.query.map (Percent.encode (queryKeeps true))
    fragment := tail.fragment.map (Percent.encode fragmentKeeps) }

/-- The authority and the path of any other scheme. -/
def otherParts (scheme : List Char) : List Char → Except UrlError (Option Authority × UrlPath)
  | '/' :: '/' :: text => do
    let authority ← authorityOf scheme (text.takeWhile (· != '/'))
    let path := text.dropWhile (· != '/')
    .ok (some authority,
      .segments (if path.isEmpty then [] else UrlPath.ofSegments (segmentsOf (· == '/') path)))
  | '/' :: path => .ok (none, .segments (UrlPath.ofSegments (segmentsOf (· == '/') ('/' :: path))))
  | path => .ok (none, .flat (Percent.encode (fun c => 0x20 ≤ c.toNat && c.toNat < 0x7f) path))

/-- The URL of any other scheme. -/
def ofOtherText (scheme : List Char) (tail : Tail) : Except UrlError Url := do
  let (authority, path) ← otherParts scheme tail.front
  .ok {
    scheme, authority, path
    query := tail.query.map (Percent.encode (queryKeeps false))
    fragment := tail.fragment.map (Percent.encode fragmentKeeps) }

/-- The URL of a scheme and the text behind its colon. -/
def ofScheme (scheme rest : List Char) : Except UrlError Url :=
  let tail := Tail.ofChars rest
  if isServerScheme scheme then ofServerText scheme tail (tail.front.dropWhile isSlash)
  else if scheme == "file".toList then ofFileText scheme tail
  else ofOtherText scheme tail

/-- The URL that the characters write. -/
def parseChars (s : List Char) : Except UrlError Url :=
  match cutScheme? (clean s) with
  | some (scheme, rest) => ofScheme scheme rest
  | none => .error .relativeWithoutBase

/-- The URL that a text writes. -/
def parse (text : String) : Except UrlError Url := parseChars text.toList

/-- The URL that a reference without a scheme writes where `base` stands. -/
def ofReference (base : Url) (reference : List Char) : Except UrlError Url :=
  let tail := Tail.ofChars reference
  let query := tail.query.map (Percent.encode (queryKeeps true))
  let fragment := tail.fragment.map (Percent.encode fragmentKeeps)
  match base.path, tail.front with
  | .flat _, _ => .error .relativeWithoutBase
  | .segments _, [] =>
    .ok { base with query := if tail.query.isSome then query else base.query, fragment }
  | .segments parts, front =>
    -- two slashes in front begin an authority of the reference's own
    if 2 ≤ (front.takeWhile isSlash).length then
      ofServerText base.scheme tail (front.dropWhile isSlash)
    else
      let added :=
        -- without a slash in front, the reference takes the place of the last segment
        if (front.takeWhile isSlash).isEmpty then parts.dropLast ++ front.splitOnP isSlash
        else segmentsOf isSlash front
      .ok { base with path := .segments (UrlPath.ofSegments added), query, fragment }

/-- The URL that a text writes where `base` stands. -/
def join (base : Url) (text : String) : Except UrlError Url :=
  let s := clean text.toList
  match cutScheme? s with
  | some (scheme, rest) =>
    -- `http:page` is a reference where the base has the same scheme
    if scheme == base.scheme && isServerScheme scheme && (rest.takeWhile isSlash).length < 2 then
      ofReference base rest
    else ofScheme scheme rest
  | none => ofReference base s

end Url

end ImageGateway
