import TypedConfig.Number.Digits
import TypedConfig.Number.Radix
/-!
Base58: bytes written as a number in base 58, over the digits and letters that are hard to confuse.
Every leading zero byte is written as one more leading `1`, which no number begins with.
-/
namespace TypedConfig.Base58

/-- The fifty-eight digits in order of their values. -/
def alphabet : List Char :=
  "123456789ABCDEFGHJKLMNPQRSTUVWXYZabcdefghijkmnopqrstuvwxyz".toList

/-- Why a text is no Base58: its first character outside the alphabet, and where it stands. -/
inductive Fault where
  | nonAscii (index : Nat)
  | character (c : Char) (index : Nat)
deriving Repr, DecidableEq

/-- The value of a digit. -/
def digit? (c : Char) : Option Nat := alphabet.idxOf? c

/-- The values of all digits, or the first character that is none. The index counts from `index`;
the characters before a fault are all ASCII, so it counts bytes as well. -/
def values (index : Nat) : List Char → Except Fault (List Nat)
  | [] => .ok []
  | c :: rest =>
    match digit? c with
    | some d => (values (index + 1) rest).map (d :: ·)
    | none => .error (if c.toNat < 128 then .character c index else .nonAscii index)

/-- The bytes that a text stands for. -/
def decode (text : List Char) : Except Fault (List UInt8) :=
  (values 0 text).map fun ds =>
    List.replicate (ds.takeWhile (· == 0)).length 0 ++
      (Number.toRadix 256 (Number.ofRadix 58 ds)).map UInt8.ofNat

/-- The text that stands for bytes. -/
def encode (bytes : List UInt8) : List Char :=
  List.replicate (bytes.takeWhile (· == 0)).length '1' ++
    (Number.toRadix 58 (Number.ofRadix 256 (bytes.map UInt8.toNat))).map fun d =>
      alphabet.getD d '1'

/-- A character as a diagnostic shows it: controls, the apostrophe and the backslash escaped. -/
def shown (c : Char) : String :=
  if c = '\x00' then "\\0"
  else if c = '\t' then "\\t"
  else if c = '\n' then "\\n"
  else if c = '\r' then "\\r"
  else if c = '\x27' then "\\'"
  else if c = '\\' then "\\\\"
  else if c.toNat < 0x20 || c.toNat = 0x7F then
    "\\u\x7b" ++ String.ofList (Nat.toDigits 16 c.toNat) ++ "\x7d"
  else String.singleton c

/-- The wording of a fault. -/
def Fault.message : Fault → String
  | .nonAscii index =>
    "provided string contained non-ascii character starting at byte " ++ toString index
  | .character c index =>
    "provided string contained invalid character '" ++ shown c ++ "' at byte " ++ toString index

end TypedConfig.Base58
