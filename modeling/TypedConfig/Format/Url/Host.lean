import TypedConfig.Format.SocketAddress
import TypedConfig.Format.Url.DomainName
/-!
Hosts of a URL: a domain name, an address of four octets in any of its old spellings, or an address
of eight groups between brackets. Each is kept as the text that a URL writes for it.
-/
namespace TypedConfig.Url

/-- Why a text is no URL that can be used. -/
inductive Fault where
  | relative
  | emptyHost
  | port
  | ipv4
  | ipv6
  | domainName
  | domainCharacter
  | scheme (found : List Char)
deriving Repr, DecidableEq

/-- The wording of a fault. -/
def Fault.message : Fault → String
  | .relative => "relative URL without a base"
  | .emptyHost => "empty host"
  | .port => "invalid port number"
  | .ipv4 => "invalid IPv4 address"
  | .ipv6 => "invalid IPv6 address"
  | .domainName => "invalid international domain name"
  | .domainCharacter => "invalid domain character"
  | .scheme found => "scheme must be http or https, found '" ++ String.ofList found ++ "'"

/-! ### Addresses of four octets -/

/-- Reads a number of an address: decimal, octal after a zero, or hexadecimal after `0x`. -/
def ipv4Number? (cs : List Char) : Option Nat :=
  let readAll (base : Nat) (ds : List Char) : Option Nat :=
    (ds.mapM fun d => (Number.hexValue? d).filter (· < base)).map (Number.ofRadix base)
  match cs with
  | [] => none
  | '0' :: 'x' :: ds => readAll 16 ds
  | '0' :: 'X' :: ds => readAll 16 ds
  | '0' :: d :: ds => readAll 8 (d :: ds)
  | ds => readAll 10 ds

/-- The labels of a name without the empty one after a last point. -/
def labels (cs : List Char) : List (List Char) :=
  let pieces := Text.splitOn '.' cs
  if 1 < pieces.length && pieces.getLast? == some [] then pieces.dropLast else pieces

/-- Whether a name ends in a number, so that it has to be an address. -/
def endsInNumber (cs : List Char) : Bool :=
  match (labels cs).getLast? with
  | none => false
  | some last => (!last.isEmpty && last.all Char.isDigit) || (ipv4Number? last).isSome

/-- Reads one to four numbers; the last one fills all octets that the others leave. -/
def ipv4? (cs : List Char) : Option (List Char) := do
  let parts := labels cs
  if 4 < parts.length then none
  let numbers ← parts.mapM ipv4Number?
  let last ← numbers.getLast?
  let others := numbers.dropLast
  let room := Nat.pow 256 (4 - others.length)
  if others.any (255 < ·) || room ≤ last then none
  let value := Number.ofRadix 256 others * room + last
  return Text.joinWith ['.'] <| [0x1000000, 0x10000, 0x100, 1].map fun unit =>
    Number.digits (value / unit % 256)

/-! ### Addresses of eight groups -/

/-- Reads a group of one to four hexadecimal digits. -/
def group? (cs : List Char) : Option Nat :=
  if cs.isEmpty || 4 < cs.length then none
  else (cs.mapM Number.hexValue?).map (Number.ofRadix 16)

/-- Reads groups; the last place may hold four octets, which are two groups. -/
def groups? : List (List Char) → Option (List Nat)
  | [] => none
  | [piece] =>
    if piece.contains '.' then
      (Ipv4.read piece).map fun ip =>
        [256 * ip.a.toNat + ip.b.toNat, 256 * ip.c.toNat + ip.d.toNat]
    else (group? piece).map ([·])
  | piece :: pieces => do return (← group? piece) :: (← groups? pieces)

/-- The parts before and after the first double colon. -/
def splitDoubleColon : List Char → Option (List Char × List Char)
  | ':' :: ':' :: rest => some ([], rest)
  | c :: rest => (splitDoubleColon rest).map fun (before, after) => (c :: before, after)
  | [] => none

/-- Reads eight groups, or at most seven with a double colon for the zeros between. -/
def ipv6? (cs : List Char) : Option (List Nat) :=
  match splitDoubleColon cs with
  | none => (groups? (Text.splitOn ':' cs)).filter (·.length == 8)
  | some (before, after) => do
    let left ← if before.isEmpty then some [] else (Text.splitOn ':' before).mapM group?
    let right ← if after.isEmpty then some [] else groups? (Text.splitOn ':' after)
    if left.length + right.length ≤ 7 then
      some (left ++ List.replicate (8 - left.length - right.length) 0 ++ right)
    else none

/-- The length of the run of zeros at the front. -/
def zeroRun (groups : List Nat) : Nat := (groups.takeWhile (· == 0)).length

/-- Writes eight groups, a double colon standing for the first longest run of two zeros or more. -/
def writeIpv6 (groups : List Nat) : List Char :=
  let hex (gs : List Nat) : List Char := Text.joinWith [':'] (gs.map (Nat.toDigits 16))
  let runs := (List.range 8).map fun i => (i, zeroRun (groups.drop i))
  let longest := runs.foldl (fun best run => if best.2 < run.2 then run else best) (0, 0)
  if longest.2 < 2 then hex groups
  else hex (groups.take longest.1) ++ [':', ':'] ++ hex (groups.drop (longest.1 + longest.2))

/-! ### Hosts -/

/-- Reads the host of a web address. -/
def webHost (cs : List Char) : Except Fault (List Char) :=
  match cs with
  | '[' :: inner =>
    if inner.getLast? == some ']' then
      match ipv6? inner.dropLast with
      | some groups => .ok ('[' :: writeIpv6 groups ++ [']'])
      | none => .error .ipv6
    else .error .ipv6
  | _ =>
    match (String.fromUTF8? ⟨(percentDecode cs).toArray⟩).bind fun s => asciiDomain? s.toList with
    | none => .error .domainName
    | some [] => .error .emptyHost
    | some domain =>
      if endsInNumber domain then
        match ipv4? domain with
        | some text => .ok text
        | none => .error .ipv4
      else .ok domain

/-- ASCII characters that no host of an address outside the web holds. -/
def isForbiddenInHost (c : Char) : Bool :=
  ['\x00', '\t', '\n', '\r', ' ', '#', '/', ':', '<', '>', '?', '@', '[', '\\', ']', '^',
    '|'].contains c

/-- Reads the host of an address whose scheme is not known: only its form is checked. -/
def opaqueHost (cs : List Char) : Except Fault (List Char) :=
  match cs with
  | '[' :: _ => webHost cs
  | _ =>
    if cs.any isForbiddenInHost then .error .domainCharacter
    else .ok (percentEncode isControl cs)

end TypedConfig.Url
