import TypedConfig.Number.Digits
import TypedConfig.Text.Split
/-!
Socket addresses `A.B.C.D:PORT`: four octets in decimal without leading zeros, and a port in
decimal, with leading zeros or without.
-/
namespace TypedConfig

/-- An address of four octets. -/
structure Ipv4 where
  a : UInt8
  b : UInt8
  c : UInt8
  d : UInt8
deriving Repr, DecidableEq

namespace Ipv4

/-- Reads one to three digits of value at most 255, a leading zero only in `0` itself. -/
def readOctet (ds : List Char) : Option UInt8 :=
  if ds.isEmpty || 3 < ds.length || !ds.all Char.isDigit then none
  else if 1 < ds.length && ds.head? == some '0' then none
  else if Number.digitsValue ds ≤ 255 then some (UInt8.ofNat (Number.digitsValue ds))
  else none

/-- Reads four octets with points between them. -/
def read (cs : List Char) : Option Ipv4 :=
  match Text.splitOn '.' cs with
  | [a, b, c, d] => do
    return ⟨← readOctet a, ← readOctet b, ← readOctet c, ← readOctet d⟩
  | _ => none

/-- The octets with points between them. -/
def text (ip : Ipv4) : List Char :=
  Text.joinWith ['.'] ([ip.a, ip.b, ip.c, ip.d].map fun octet => Number.digits octet.toNat)

end Ipv4

/-- An address and a port. -/
structure SocketAddress where
  ip : Ipv4
  port : UInt16
deriving Repr, DecidableEq

namespace SocketAddress

/-- Why a text is no socket address. -/
inductive Fault where
  | shape
  | address (part : List Char)
  | port (part : List Char)
deriving Repr, DecidableEq

/-- The wording of a fault. -/
def Fault.message : Fault → String
  | .shape => "expected A.B.C.D:PORT"
  | .address part => "'" ++ String.ofList part ++ "' is not an IPv4 address"
  | .port part => "port '" ++ String.ofList part ++ "' is not in 0..=65535"

/-- Reads a port: one or more digits of value at most 65535. -/
def readPort (ds : List Char) : Option UInt16 :=
  if ds.isEmpty || !ds.all Char.isDigit then none
  else if Number.digitsValue ds ≤ 65535 then some (UInt16.ofNat (Number.digitsValue ds))
  else none

/-- Why a text between the last colon and the end is no port. A number in range after a plus sign
is one, but not in this place, so the shape of the whole is at fault. -/
def portFault (part : List Char) : Fault :=
  match part with
  | '+' :: ds => if (readPort ds).isSome then .shape else .port part
  | _ => .port part

/-- Reads an address and a port, taken apart at the last colon. -/
def parse (raw : List Char) : Except Fault SocketAddress :=
  match Text.splitLast ':' raw with
  | none => .error .shape
  | some (before, after) =>
    match Ipv4.read before with
    | none => .error (.address before)
    | some ip =>
      match readPort after with
      | none => .error (portFault after)
      | some port => .ok ⟨ip, port⟩

/-- The address, a colon and the port. -/
def text (s : SocketAddress) : List Char :=
  s.ip.text ++ ':' :: Number.digits s.port.toNat

end SocketAddress

end TypedConfig
