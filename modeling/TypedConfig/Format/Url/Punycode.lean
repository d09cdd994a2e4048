import TypedConfig.Text.Split
/-!
Punycode: a label of any characters as ASCII letters, digits and hyphens. The ASCII characters come
first; then each other character, in the order of code points, as the distance from the one before
in a variable-length number of base 36 whose digit thresholds follow a bias that adapts.
-/
namespace TypedConfig.Url.Punycode

/-- The digit of a value below 36: letters first. -/
def digit (d : Nat) : Char :=
  if d < 26 then Char.ofNat (97 + d) else Char.ofNat (22 + d)

/-- The value of a digit, in either case of letters. -/
def digitValue? (c : Char) : Option Nat :=
  if 'a' ≤ c && c ≤ 'z' then some (c.toNat - 97)
  else if 'A' ≤ c && c ≤ 'Z' then some (c.toNat - 65)
  else if '0' ≤ c && c ≤ '9' then some (c.toNat - 22)
  else none

/-- From this value on a digit says that more digits follow. `k` is 36 times the digit's place. -/
def threshold (k bias : Nat) : Nat :=
  if k ≤ bias then 1 else min 26 (k - bias)

theorem threshold_pos (k bias : Nat) : 0 < threshold k bias := by
  unfold threshold
  split <;> omega

/-- Divides a distance by 35 until it is at most 455, adding 36 for each division. -/
def shrink (delta k : Nat) : Nat × Nat :=
  if 455 < delta then shrink (delta / 35) (k + 36) else (delta, k)
termination_by delta
decreasing_by exact Nat.div_lt_self (by omega) (by omega)

/-- The bias after a distance, given how many characters are placed and whether it was the first. -/
def adapt (delta placed : Nat) (first : Bool) : Nat :=
  let scaled := if first then delta / 700 else delta / 2
  let (rest, k) := shrink (scaled + scaled / placed) 0
  k + 36 * rest / (rest + 38)

/-- The digits of a distance. -/
def digits (bias k q : Nat) : List Char :=
  let t := threshold k bias
  if q < t then [digit q]
  else digit (t + (q - t) % (36 - t)) :: digits bias (k + 36) ((q - t) / (36 - t))
termination_by q
decreasing_by
  have hPos := threshold_pos k bias
  have hLe : (q - threshold k bias) / (36 - threshold k bias) ≤ q - threshold k bias :=
    Nat.div_le_self _ _
  omega

/-- What an encoder carries from character to character. -/
structure State where
  delta : Nat
  bias : Nat
  placed : Nat
  basic : Nat
  output : List Char

/-- Passes one character while those of code point `m` are placed. -/
def State.pass (m : Nat) (s : State) (c : Char) : State :=
  if c.toNat < m then { s with delta := s.delta + 1 }
  else if c.toNat = m then
    { s with
      delta := 0
      bias := adapt s.delta (s.placed + 1) (s.placed == s.basic)
      placed := s.placed + 1
      output := s.output ++ digits s.bias 36 s.delta }
  else s

/-- Encodes a label. -/
def encode (cs : List Char) : List Char :=
  let basic := cs.filter fun c => c.toNat < 0x80
  let others := ((cs.map Char.toNat).filter (0x80 ≤ ·)).mergeSort.eraseDups
  let start : State :=
    { delta := 0, bias := 72, placed := basic.length, basic := basic.length
      output := if basic.isEmpty then [] else basic ++ ['-'] }
  let final := others.foldl (fun (s, n) m =>
      let s := { s with delta := s.delta + (m - n) * (s.placed + 1) }
      let s := cs.foldl (State.pass m) s
      ({ s with delta := s.delta + 1 }, m + 1))
    (start, 0x80)
  final.1.output

/-- Reads one distance: its value and the digits after it. -/
def readDistance (bias : Nat) (k weight value : Nat) : List Char → Option (Nat × List Char)
  | [] => none
  | c :: rest =>
    match digitValue? c with
    | none => none
    | some d =>
      let t := threshold k bias
      if d < t then some (value + d * weight, rest)
      else readDistance bias (k + 36) (weight * (36 - t)) (value + d * weight) rest

/-- Inserts the characters whose distances are read, at most `budget` of them. -/
def insertAll : (budget : Nat) → (bias n i : Nat) → (first : Bool) → List Char → List Char →
    Option (List Char)
  | _, _, _, _, _, placed, [] => some placed
  | 0, _, _, _, _, _, _ :: _ => none
  | budget + 1, bias, n, i, first, placed, cs =>
    match readDistance bias 36 1 0 cs with
    | none => none
    | some (distance, rest) =>
      let size := placed.length + 1
      let n := n + (i + distance) / size
      let place := (i + distance) % size
      if h : n.isValidChar then
        insertAll budget (adapt distance size first) n (place + 1) false
          (placed.insertIdx place (Char.ofNatAux n h)) rest
      else none

/-- Decodes a label. The last hyphen ends the ASCII characters, of which there has to be one if
there is a hyphen. -/
def decode (cs : List Char) : Option (List Char) :=
  match Text.splitLast '-' cs with
  | none => insertAll cs.length 72 0x80 0 true [] cs
  | some ([], _) => none
  | some (head, tail) =>
    if head.all fun c => c.toNat < 0x80 then insertAll tail.length 72 0x80 0 true head tail
    else none

end TypedConfig.Url.Punycode
