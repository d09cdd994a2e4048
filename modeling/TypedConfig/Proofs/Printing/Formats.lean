import TypedConfig.Format.PublicKey
import TypedConfig.Format.SocketAddress
import TypedConfig.Proofs.Inclusion.Paths
import TypedConfig.Proofs.Printing.Lexing
/-!
The texts of addresses and of keys read back. Digits go over to another base and come back, but a
number has no leading zeros, which is why leading zero bytes are written apart.
-/
namespace TypedConfig

namespace Number

/-! ### Digits in another base -/

variable {base : Nat}

/-- Digits in one base as digits in another one, with as many leading zeros. -/
def rebase (base base' : Nat) (ds : List Nat) : List Nat :=
  List.replicate (ds.takeWhile (· == 0)).length 0 ++ toRadix base' (ofRadix base ds)

theorem head?_dropWhile_zero (ds : List Nat) : (ds.dropWhile (· == 0)).head? ≠ some 0 := by
  intro head
  have hStop := List.head?_dropWhile_not (· == 0) ds
  rw [head] at hStop
  simp at hStop

theorem lt_of_mem_rebase {base' : Nat} (two_le : 2 ≤ base') {ds : List Nat} {d : Nat}
    (mem : d ∈ rebase base base' ds) : d < base' := by
  rcases List.mem_append.1 mem with mem | mem
  · rw [List.eq_of_mem_replicate mem]
    omega
  · exact lt_of_mem_toRadix two_le mem

/-- Digits come back from another base. Leading zeros are the ones that were put there, as a number
begins with none, and what follows them is the digits of the number. -/
theorem rebase_rebase {base' : Nat} (two_le : 2 ≤ base) (two_le' : 2 ≤ base') {ds : List Nat}
    (small : ∀ d ∈ ds, d < base) : rebase base' base (rebase base base' ds) = ds := by
  let zeros := (ds.takeWhile (· == 0)).length
  let others := ds.dropWhile (· == 0)
  have hDigits : List.replicate zeros 0 ++ others = ds := replicate_takeWhile_eq 0 ds
  have hNumber : ofRadix base ds = ofRadix base others := by
    rw [← hDigits, ofRadix_append, ofRadix_replicate_zero, Nat.zero_mul, Nat.zero_add]
  have hZeros : (rebase base base' ds).takeWhile (· == 0) = List.replicate zeros 0 := by
    apply takeWhile_append_stop
    · intro d mem
      rw [List.eq_of_mem_replicate mem]
      rfl
    · intro d mem
      rw [beq_eq_false_iff_ne]
      rintro rfl
      exact head?_toRadix two_le' _ mem
  have hBack : ofRadix base' (rebase base base' ds) = ofRadix base others := by
    rw [rebase, ofRadix_append, ofRadix_replicate_zero, Nat.zero_mul, Nat.zero_add,
      ofRadix_toRadix two_le', hNumber]
  have hOthers : toRadix base (ofRadix base others) = others :=
    toRadix_ofRadix two_le (fun d mem => small d ((List.dropWhile_sublist _).mem mem))
      (head?_dropWhile_zero ds)
  rw [rebase, hZeros, List.length_replicate, hBack, hOthers, hDigits]

/-! ### Decimal digits -/

theorem all_isDigit_digits (n : Nat) : (digits n).all Char.isDigit = true :=
  List.all_eq_true.2 fun _ mem => isDigit_of_mem_digits mem

theorem not_mem_digits {n : Nat} {c : Char} (other : c.isDigit = false) : c ∉ digits n := by
  intro mem
  rw [isDigit_of_mem_digits mem] at other
  cases other

end Number

/-! ### Socket addresses -/

theorem Text.splitLast_append {sep : Char} {before after : List Char} (absent : sep ∉ after) :
    splitLast sep (before ++ sep :: after) = some (before, after) := by
  have hOther : ∀ c ∈ after.reverse, (c != sep) = true := by
    intro c mem
    rw [bne_iff_ne]
    rintro rfl
    exact absent (List.mem_reverse.1 mem)
  have hReverse : (before ++ sep :: after).reverse = after.reverse ++ sep :: before.reverse := by
    simp
  rw [splitLast, hReverse, List.dropWhile_append_of_pos hOther, List.takeWhile_append_of_pos hOther]
  simp

theorem Ipv4.readOctet_digits (octet : UInt8) :
    readOctet (Number.digits octet.toNat) = some octet := by
  have hRange := octet.toNat_lt
  have hLength : (Number.digits octet.toNat).length ≤ 3 := by
    by_cases positive : 0 < octet.toNat
    · have hPow := Number.pow_length_digits_le positive
      by_contra hLong
      have hThousand : 10 ^ 3 ≤ 10 ^ ((Number.digits octet.toNat).length - 1) :=
        Nat.pow_le_pow_right (by omega) (by omega)
      omega
    · rw [show octet.toNat = 0 by omega, Number.digits_of_lt (by omega)]
      simp
  have hLeading : ¬ (1 < (Number.digits octet.toNat).length ∧
      (Number.digits octet.toNat).head? = some '0') := by
    rintro ⟨hLong, hZero⟩
    by_cases positive : 0 < octet.toNat
    · exact Number.head?_digits positive hZero
    · rw [show octet.toNat = 0 by omega, Number.digits_of_lt (by omega)] at hLong
      simp at hLong
  have hValue := Number.digitsValue_digits octet.toNat
  simp [readOctet, Number.digits_ne_nil, Number.all_isDigit_digits, hValue, hLeading]
  omega

theorem Ipv4.read_text (ip : Ipv4) : read ip.text = some ip := by
  have hAbsent : ∀ n, '.' ∉ Number.digits n := fun n => Number.not_mem_digits (by decide)
  have hSplit : Text.splitOn '.' (Text.joinWith ['.'] [Number.digits ip.a.toNat,
      Number.digits ip.b.toNat, Number.digits ip.c.toNat, Number.digits ip.d.toNat]) = _ :=
    Text.splitOn_joinWith (by simp [hAbsent])
  rw [read, text]
  simp [hSplit, readOctet_digits]

theorem SocketAddress.readPort_digits (port : UInt16) :
    readPort (Number.digits port.toNat) = some port := by
  have hRange := port.toNat_lt
  have hValue := Number.digitsValue_digits port.toNat
  simp [readPort, Number.digits_ne_nil, Number.all_isDigit_digits, hValue]
  omega

/-- An address is read back from its text. -/
theorem SocketAddress.parse_text (a : SocketAddress) : parse a.text = .ok a := by
  have hSplit : Text.splitLast ':' a.text = some (a.ip.text, Number.digits a.port.toNat) :=
    Text.splitLast_append (Number.not_mem_digits (by decide))
  rw [parse, hSplit]
  simp [Ipv4.read_text, readPort_digits]

/-! ### Public keys -/

namespace Base58

/-- The digit of a value. -/
def digit (d : Nat) : Char := alphabet.getD d '1'

theorem digit?_eq_some_iff {c : Char} {d : Nat} : digit? c = some d ↔ c = digit d ∧ d < 58 := by
  constructor
  · intro h
    rw [digit?, List.idxOf?, List.findIdx?_eq_some_iff_getElem] at h
    obtain ⟨hLength, hChar, -⟩ := h
    refine ⟨?_, hLength⟩
    rw [digit, List.getD_eq_getElem?_getD, List.getElem?_eq_getElem hLength, Option.getD_some]
    exact (beq_iff_eq.1 hChar).symm
  · rintro ⟨rfl, small⟩
    revert d
    decide

/-- Digits are read as their values. -/
theorem values_eq_ok_iff {text : List Char} {ds : List Nat} (index : Nat) :
    values index text = .ok ds ↔ text = ds.map digit ∧ ∀ d ∈ ds, d < 58 := by
  induction text generalizing index ds with
  | nil => cases ds <;> simp [values]
  | cons c text ih =>
      rw [values]
      cases hDigit : digit? c with
      | none =>
          refine ⟨nofun, ?_⟩
          rintro ⟨hText, hSmall⟩
          cases ds with
          | nil => cases hText
          | cons d ds =>
              rw [digit?_eq_some_iff.2 ⟨(List.cons.inj hText).1, hSmall d (by simp)⟩] at hDigit
              cases hDigit
      | some d =>
          obtain ⟨rfl, hSmall⟩ := digit?_eq_some_iff.1 hDigit
          dsimp only
          constructor
          · intro h
            cases hRest : values (index + 1) text with
            | error fault =>
                rw [hRest] at h
                cases h
            | ok rest =>
                rw [hRest] at h
                cases h
                obtain ⟨rfl, hSmalls⟩ := (ih (index + 1)).1 hRest
                exact ⟨rfl, List.forall_mem_cons.2 ⟨hSmall, hSmalls⟩⟩
          · rintro ⟨hText, hSmalls⟩
            cases ds with
            | nil => cases hText
            | cons e ds =>
                obtain ⟨hFirst, hSmalls⟩ := List.forall_mem_cons.1 hSmalls
                obtain ⟨hChar, rfl⟩ := List.cons.inj hText
                have hSame := hDigit.symm.trans (digit?_eq_some_iff.2 ⟨hChar, hFirst⟩)
                rw [(ih (index + 1)).2 ⟨rfl, hSmalls⟩, Option.some.inj hSame]
                rfl

theorem encode_eq (bytes : List UInt8) :
    encode bytes = (Number.rebase 256 58 (bytes.map UInt8.toNat)).map digit := by
  have hZero : (· == 0) ∘ UInt8.toNat = (· == 0) := by
    funext byte
    simp [← UInt8.toNat_inj]
  rw [encode, Number.rebase, List.takeWhile_map, hZero, List.length_map, List.map_append,
    List.map_replicate]
  rfl

theorem decode_eq (text : List Char) :
    decode text = (values 0 text).map fun ds => (Number.rebase 58 256 ds).map UInt8.ofNat := by
  simp only [decode, Number.rebase, List.map_append, List.map_replicate]
  rfl

/-- Bytes are read from their text and from no other one. -/
theorem decode_eq_ok_iff {text : List Char} {bytes : List UInt8} :
    decode text = .ok bytes ↔ text = encode bytes := by
  rw [decode_eq, encode_eq]
  constructor
  · intro h
    cases hValues : values 0 text with
    | error fault =>
        rw [hValues] at h
        cases h
    | ok ds =>
        obtain ⟨hText, hSmall⟩ := (values_eq_ok_iff 0).1 hValues
        rw [hValues] at h
        cases h
        have hBytes : ((Number.rebase 58 256 ds).map UInt8.ofNat).map UInt8.toNat =
            Number.rebase 58 256 ds := by
          have hByte : ∀ d ∈ Number.rebase 58 256 ds, (UInt8.toNat ∘ UInt8.ofNat) d = id d := by
            intro d mem
            have hRange : d < 256 := Number.lt_of_mem_rebase (by omega) mem
            exact UInt8.toNat_ofNat_of_lt hRange
          rw [List.map_map, List.map_congr_left hByte, List.map_id]
        rw [hBytes, Number.rebase_rebase (by omega) (by omega) hSmall, hText]
  · rintro rfl
    have hSmall : ∀ d ∈ Number.rebase 256 58 (bytes.map UInt8.toNat), d < 58 := fun d mem =>
      Number.lt_of_mem_rebase (by omega) mem
    have hBytes : ∀ d ∈ bytes.map UInt8.toNat, d < 256 := by
      intro d mem
      obtain ⟨byte, -, rfl⟩ := List.mem_map.1 mem
      exact byte.toNat_lt
    rw [(values_eq_ok_iff 0).2 ⟨rfl, hSmall⟩]
    have hBack : UInt8.ofNat ∘ UInt8.toNat = id := funext fun _ => UInt8.ofNat_toNat
    rw [Except.map, Number.rebase_rebase (by omega) (by omega) hBytes, List.map_map, hBack,
      List.map_id]

end Base58

/-- A key is read from its text and from no other one; a strict reader wants a point. -/
theorem PublicKey.parse_eq_ok_iff {strict : Bool} {raw : List Char} {k : PublicKey} :
    parse strict raw = .ok k ↔ raw = k.text ∧ (strict = true → k.isPoint = true) := by
  rw [text, ← Base58.decode_eq_ok_iff, parse]
  cases Base58.decode raw with
  | error fault => simp
  | ok bytes =>
      by_cases hLength : bytes.length = 32
      · simp only [ofBytes?, dif_pos hLength]
        constructor
        · intro h
          split at h
          · cases h
          · next hPoint =>
            cases h
            exact ⟨rfl, by simpa using hPoint⟩
        · rintro ⟨hBytes, hPoint⟩
          obtain rfl : bytes = k.bytes := Except.ok.inj hBytes
          rw [if_neg (by simpa using hPoint)]
      · simp only [ofBytes?, dif_neg hLength]
        refine ⟨nofun, ?_⟩
        rintro ⟨hBytes, -⟩
        rw [Except.ok.inj hBytes] at hLength
        exact absurd k.length_bytes hLength

/-- A key is read back from its text, also by a strict reader that has accepted it. -/
theorem PublicKey.parse_text {strict : Bool} {raw : List Char} {k : PublicKey}
    (parses : parse strict raw = .ok k) : parse strict k.text = .ok k :=
  parse_eq_ok_iff.2 ⟨rfl, (parse_eq_ok_iff.1 parses).2⟩

end TypedConfig
