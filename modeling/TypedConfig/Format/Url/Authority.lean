import TypedConfig.Format.Url.Host
/-!
The authority of a URL: an optional user name and password, a host, and an optional port.
-/
namespace TypedConfig.Url

/-- What kind of address a scheme announces. Web schemes, also those that no document may use, read
their host as a domain name; an unknown scheme reads it as it stands. -/
inductive SchemeKind where
  | web (defaultPort : Nat)
  | file
  | other
deriving Repr, DecidableEq

namespace SchemeKind

/-- The kind of a scheme in lower case. -/
def ofName (name : String) : SchemeKind :=
  if name = "http" || name = "ws" then .web 80
  else if name = "https" || name = "wss" then .web 443
  else if name = "ftp" then .web 21
  else if name = "file" then .file
  else .other

/-- In addresses whose scheme is known a backslash does the work of a slash. -/
def isSpecial : SchemeKind → Bool
  | .other => false
  | _ => true

/-- The port that need not be written. -/
def defaultPort? : SchemeKind → Option Nat
  | .web port => some port
  | _ => none

/-- Whether a character ends an authority. -/
def endsAuthority (kind : SchemeKind) (c : Char) : Bool :=
  c == '/' || c == '?' || c == '#' || (c == '\\' && kind.isSpecial)

end SchemeKind

/-- An authority. The user name and the password are encoded, and empty if they are absent. -/
structure Authority where
  username : List Char
  password : List Char
  host : List Char
  port : Option Nat
deriving Repr, DecidableEq

/-- A user name and a password, with the text after the last at sign of an authority. -/
structure Userinfo where
  username : List Char
  password : List Char
  rest : List Char

/-- Splits off the user name and password. An at sign with nothing before it is dropped, but then
a host has to follow. -/
def readUserinfo (kind : SchemeKind) (cs : List Char) : Except Fault Userinfo :=
  let extent := cs.takeWhile (!kind.endsAuthority ·)
  match Text.splitLast '@' extent with
  | none => .ok ⟨[], [], cs⟩
  | some (before, after) =>
    let rest := after ++ cs.drop extent.length
    if before.isEmpty then
      if rest.head?.any kind.endsAuthority then .error .emptyHost else .ok ⟨[], [], rest⟩
    else
      .ok ⟨percentEncode inUserinfoSet (before.takeWhile (· != ':')),
        percentEncode inUserinfoSet ((before.dropWhile (· != ':')).drop 1), rest⟩

/-- The number of characters of a host: up to a colon outside brackets or the authority's end. -/
def hostLength (kind : SchemeKind) (bracketed : Bool) : List Char → Nat
  | [] => 0
  | c :: rest =>
    if (c == ':' && !bracketed) || kind.endsAuthority c then 0
    else 1 + hostLength kind (if c == '[' then true else if c == ']' then false else bracketed) rest

/-- Reads a port up to the end of the authority; no digits at all are no port. -/
def readPort (kind : SchemeKind) (cs : List Char) : Except Fault (Option Nat × List Char) :=
  let ds := cs.takeWhile Char.isDigit
  let rest := cs.dropWhile Char.isDigit
  let value := Number.digitsValue ds
  if 65535 < value || rest.head?.any fun c => !(['/', '\\', '?', '#'].contains c) then .error .port
  else if ds.isEmpty || kind.defaultPort? == some value then .ok (none, rest)
  else .ok (some value, rest)

/-- Reads an authority and gives the text after it. -/
def readAuthority (kind : SchemeKind) (cs : List Char) : Except Fault (Authority × List Char) := do
  let user ← readUserinfo kind cs
  let length := hostLength kind false user.rest
  let written := user.rest.take length
  let rest := user.rest.drop length
  if kind.isSpecial && written.isEmpty then throw .emptyHost
  let host ← if kind.isSpecial then webHost written else opaqueHost written
  if host.isEmpty && rest.head? == some ':' then throw .emptyHost
  let (port, rest) ← match rest with
    | ':' :: rest => readPort kind rest
    | _ => pure (none, rest)
  if host.isEmpty && !(user.username.isEmpty && user.password.isEmpty) then throw .emptyHost
  return (⟨user.username, user.password, host, port⟩, rest)

/-- The user name and password with their marks, as a URL writes them. -/
def Authority.userinfo (a : Authority) : List Char :=
  let password := if a.password.isEmpty then [] else ':' :: a.password
  if a.username.isEmpty && a.password.isEmpty then [] else a.username ++ password ++ ['@']

/-- A letter with a colon or a bar, which is a drive in the address of a file. -/
def isDriveLetter : List Char → Bool
  | [letter, mark] => letter.isAlpha && (mark == ':' || mark == '|')
  | _ => false

/-- Checks the host of a file address, which may be missing or a drive letter. -/
def checkFileHost (cs : List Char) : Except Fault Unit :=
  match cs with
  | first :: second :: rest =>
    if (first == '/' || first == '\\') && (second == '/' || second == '\\') then
      let host := rest.takeWhile (!SchemeKind.file.endsAuthority ·)
      if host.isEmpty || isDriveLetter host then .ok () else (webHost host).map fun _ => ()
    else .ok ()
  | _ => .ok ()

end TypedConfig.Url
