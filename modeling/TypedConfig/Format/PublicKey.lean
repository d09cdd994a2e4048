import TypedConfig.Format.Base58
import TypedConfig.Format.Edwards25519
/-!
Public keys: thirty-two bytes, written in Base58.
-/
namespace TypedConfig

/-- A public key. -/
structure PublicKey where
  bytes : List UInt8
  length_bytes : bytes.length = 32
deriving Repr, DecidableEq

namespace PublicKey

/-- Why a text is no public key. -/
inductive Fault where
  | base58 (fault : Base58.Fault)
  | length (found : Nat)
  | notOnCurve
deriving Repr, DecidableEq

/-- The wording of a fault. -/
def Fault.message : Fault → String
  | .base58 fault => "invalid Base58: " ++ fault.message
  | .length found => "decoded to " ++ toString found ++ " bytes, expected 32"
  | .notOnCurve => "not a valid ed25519 curve point"

/-- The key with the given bytes, if they are thirty-two. -/
def ofBytes? (bytes : List UInt8) : Option PublicKey :=
  if h : bytes.length = 32 then some ⟨bytes, h⟩ else none

/-- Whether the bytes encode a point of the curve. -/
def isPoint (k : PublicKey) : Bool := Edwards25519.isPoint k.bytes

/-- The text of a key. -/
def text (k : PublicKey) : List Char := Base58.encode k.bytes

/-- Reads a key; a strict reader also wants a point of the curve. -/
def parse (strict : Bool) (raw : List Char) : Except Fault PublicKey :=
  match Base58.decode raw with
  | .error fault => .error (.base58 fault)
  | .ok bytes =>
    match ofBytes? bytes with
    | none => .error (.length bytes.length)
    | some k => if strict && !k.isPoint then .error .notOnCurve else .ok k

end PublicKey

end TypedConfig
