import TypedConfig.Number.Hexadecimal
/-!
Percent encoding: a byte written as a percent sign and two hexadecimal digits. Each part of a URL
has its own set of ASCII characters to encode; other characters are always encoded, byte by byte.
-/
namespace TypedConfig.Url

/-- The upper-case hexadecimal digit of a value below sixteen. -/
def hexDigit (d : Nat) : Char :=
  if d < 10 then Char.ofNat (48 + d) else Char.ofNat (55 + d)

/-- A percent sign and two digits. -/
def percentByte (b : UInt8) : List Char :=
  ['%', hexDigit (b.toNat / 16), hexDigit (b.toNat % 16)]

/-- Encodes the characters of a set and all that are not ASCII. -/
def percentEncode (encoded : Char → Bool) (cs : List Char) : List Char :=
  cs.flatMap fun c =>
    if c.toNat < 0x80 && !encoded c then [c]
    else (String.utf8EncodeChar c).flatMap percentByte

/-- The bytes meant by a text: a percent sign with two digits is one byte, and any other character
stands for its own bytes. -/
def percentDecode : List Char → List UInt8
  | [] => []
  | '%' :: h :: l :: rest =>
    match Number.hexValue? h, Number.hexValue? l with
    | some high, some low => UInt8.ofNat (16 * high + low) :: percentDecode rest
    | _, _ => '%'.toUInt8 :: percentDecode (h :: l :: rest)
  | c :: rest => String.utf8EncodeChar c ++ percentDecode rest

/-- Whether a character is an ASCII control. -/
def isControl (c : Char) : Bool := c.toNat < 0x20 || c.toNat == 0x7F

/-- What is encoded in a fragment. -/
def inFragmentSet (c : Char) : Bool := isControl c || [' ', '"', '<', '>', '`'].contains c

/-- What is encoded in the query of a web address. -/
def inQuerySet (c : Char) : Bool := isControl c || [' ', '"', '#', '<', '>', '\x27'].contains c

/-- What is encoded in a path. -/
def inPathSet (c : Char) : Bool := inFragmentSet c || ['#', '?', '{', '}'].contains c

/-- What is encoded in a user name or a password. -/
def inUserinfoSet (c : Char) : Bool :=
  inPathSet c || ['/', ':', ';', '=', '@', '[', '\\', ']', '^', '|'].contains c

end TypedConfig.Url
