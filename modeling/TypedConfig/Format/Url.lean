import TypedConfig.Format.Url.Authority
/-!
Absolute URLs of the schemes `http` and `https`, in normal form: the host resolved, the default port
dropped, the dot segments of the path removed, and every part encoded as far as it has to be.
-/
namespace TypedConfig

/-- A URL in normal form. -/
structure Url where
  secure : Bool
  authority : Url.Authority
  path : List Char
  query : Option (List Char)
  fragment : Option (List Char)
deriving Repr, DecidableEq

namespace Url

/-- The name of the scheme. -/
def scheme (u : Url) : List Char := if u.secure then "https".toList else "http".toList

/-- The host, as the URL writes it. -/
def host (u : Url) : List Char := u.authority.host

/-- The text of a URL. -/
def text (u : Url) : List Char :=
  u.scheme ++ [':', '/', '/'] ++ u.authority.userinfo ++ u.authority.host ++
    (match u.authority.port with
      | some port => ':' :: Number.digits port
      | none => []) ++
    u.path ++
    (match u.query with
      | some query => '?' :: query
      | none => []) ++
    (match u.fragment with
      | some fragment => '#' :: fragment
      | none => [])

/-! ### Paths -/

/-- Whether a segment means the directory it stands in. -/
def isSingleDot (segment : List Char) : Bool :=
  ["." , "%2e", "%2E"].contains (String.ofList segment)

/-- Whether a segment means the directory above. -/
def isDoubleDot (segment : List Char) : Bool :=
  ["..", "%2e%2e", "%2e%2E", "%2E%2e", "%2E%2E", "%2e.", "%2E.", ".%2e", ".%2E"].contains
    (String.ofList segment)

/-- Adds a segment that a slash follows to the segments before it, the last of them first. No step
upwards removes a drive letter. -/
def addSegment (before : List (List Char)) (segment : List Char) : List (List Char) :=
  if isDoubleDot segment then
    match before with
    | [] => []
    | last :: others => if isDriveLetter last then before else others
  else if isSingleDot segment then before
  else percentEncode inPathSet segment :: before

/-- The normal form of a path whose first slash is left out. -/
def normalPath (cs : List Char) : List Char :=
  let segments := Text.splitOn '/' (cs.map fun c => if c == '\\' then '/' else c)
  let closed := segments.dropLast.foldl addSegment []
  let last := segments.getLastD []
  let write (before : List (List Char)) : List Char :=
    '/' :: (before.reverse.flatMap fun segment => segment ++ ['/'])
  if isDoubleDot last || isSingleDot last then write (addSegment closed last)
  else write closed ++ percentEncode inPathSet last

/-! ### Reading -/

/-- Drops controls and spaces at both ends, and tabs and line ends everywhere. -/
def trimmed (raw : List Char) : List Char :=
  let dropEdge (cs : List Char) := cs.dropWhile fun c => c.toNat ≤ 0x20
  (dropEdge (dropEdge raw).reverse).reverse.filter fun c => !(['\t', '\n', '\r'].contains c)

/-- Splits off the scheme, in lower case, and the colon after it. -/
def readScheme (cs : List Char) : Option (List Char × List Char) :=
  let isSchemeChar (c : Char) : Bool := c.isAlphanum || c == '+' || c == '-' || c == '.'
  match cs.dropWhile isSchemeChar with
  | ':' :: rest =>
    if cs.head?.any Char.isAlpha then some ((cs.takeWhile isSchemeChar).map Char.toLower, rest)
    else none
  | _ => none

/-- Reads what follows the authority. -/
def ofParts (secure : Bool) (authority : Authority) (rest : List Char) : Url :=
  let (main, fragment) := match rest.dropWhile (· != '#') with
    | _ :: fragment => (rest.takeWhile (· != '#'), some (percentEncode inFragmentSet fragment))
    | [] => (rest, none)
  let (path, query) := match main.dropWhile (· != '?') with
    | _ :: query => (main.takeWhile (· != '?'), some (percentEncode inQuerySet query))
    | [] => (main, none)
  let path := match path with
    | '/' :: path => path
    | '\\' :: path => path
    | path => path
  ⟨secure, authority, normalPath path, query, fragment⟩

/-- Reads a URL. An address of another scheme is refused for its scheme only if it is one. -/
def parse (raw : List Char) : Except Fault Url := do
  match readScheme (trimmed raw) with
  | none => throw .relative
  | some (scheme, rest) =>
    match SchemeKind.ofName (String.ofList scheme) with
    | .web port =>
      let kind := SchemeKind.web port
      let (authority, rest) ← readAuthority kind (rest.dropWhile fun c => c == '/' || c == '\\')
      if scheme == "http".toList then return ofParts false authority rest
      if scheme == "https".toList then return ofParts true authority rest
      throw (.scheme scheme)
    | .file =>
      checkFileHost rest
      throw (.scheme scheme)
    | .other =>
      match rest with
      | '/' :: '/' :: rest => let _ ← readAuthority .other rest
      | _ => pure ()
      throw (.scheme scheme)

end Url

end TypedConfig
