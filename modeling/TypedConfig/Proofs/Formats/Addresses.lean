import Mathlib.Data.List.TakeWhile
import TypedConfig.Proofs.Printing.Formats
/-!
Which texts are socket addresses, and what is said about the others. Four octets and a port are
written down in a grammar of their own; a text is read if it is derived there, and then as the
numbers that stand in it.
-/
namespace TypedConfig

/-! ### Cutting at separators -/

namespace Text

variable {sep : Char} {cs : List Char}

/-- A text is its pieces with separators between them. -/
theorem joinWith_splitOn (cs : List Char) : joinWith [sep] (splitOn sep cs) = cs := by
  induction cs with
  | nil => rfl
  | cons c rest ih =>
      obtain ⟨piece, pieces, hSplit⟩ := List.exists_cons_of_ne_nil (@splitOn_ne_nil sep rest)
      rw [hSplit] at ih
      rw [splitOn_cons hSplit]
      split
      · next hSep =>
        rw [hSep, ← ih]
        rfl
      · rw [← ih]
        cases pieces <;> simp [joinWith]

theorem splitOn_eq_cons_iff {piece : List Char} {pieces : List (List Char)} :
    splitOn sep cs = piece :: pieces ↔
      cs = joinWith [sep] (piece :: pieces) ∧ ∀ p ∈ piece :: pieces, sep ∉ p := by
  constructor
  · intro split
    rw [← split]
    exact ⟨(joinWith_splitOn cs).symm, not_mem_of_mem_splitOn⟩
  · rintro ⟨rfl, absent⟩
    exact splitOn_joinWith absent

theorem exists_last_of_mem (mem : sep ∈ cs) :
    ∃ before after, cs = before ++ sep :: after ∧ sep ∉ after := by
  obtain ⟨after, before, hReverse, hAbsent⟩ :=
    List.eq_append_cons_of_mem (List.mem_reverse.2 mem)
  refine ⟨before.reverse, after.reverse, ?_, by simpa using hAbsent⟩
  rw [← List.reverse_reverse cs, hReverse]
  simp

theorem splitLast_of_not_mem (absent : sep ∉ cs) : splitLast sep cs = none := by
  have hRest : cs.reverse.dropWhile (· != sep) = [] := by
    rw [List.dropWhile_eq_nil_iff]
    intro c mem
    rw [bne_iff_ne]
    rintro rfl
    exact absent (List.mem_reverse.1 mem)
  rw [splitLast, hRest]

/-- A text is cut at the separator that has no other one behind it. -/
theorem splitLast_eq_some_iff {before after : List Char} :
    splitLast sep cs = some (before, after) ↔ cs = before ++ sep :: after ∧ sep ∉ after := by
  constructor
  · intro split
    by_cases mem : sep ∈ cs
    · obtain ⟨before', after', rfl, absent⟩ := exists_last_of_mem mem
      rw [splitLast_append absent] at split
      cases split
      exact ⟨rfl, absent⟩
    · rw [splitLast_of_not_mem mem] at split
      cases split
  · rintro ⟨rfl, absent⟩
    exact splitLast_append absent

theorem splitLast_eq_none_iff : splitLast sep cs = none ↔ sep ∉ cs := by
  constructor
  · intro none mem
    obtain ⟨before, after, rfl, absent⟩ := exists_last_of_mem mem
    rw [splitLast_append absent] at none
    cases none
  · exact splitLast_of_not_mem

end Text

/-! ### The grammar -/

/-- One to three digits for an octet, at most 255 and without a leading zero unless it is zero. -/
structure Ipv4.IsOctet (ds : List Char) (octet : UInt8) : Prop where
  isDigits : Number.IsDigits ds
  length_le : ds.length ≤ 3
  leading : ds.head? = some '0' → ds = ['0']
  le_max : Number.digitsValue ds ≤ 255
  value : octet.toNat = Number.digitsValue ds

/-- Four octets with points between them. -/
inductive Ipv4.Written : List Char → Ipv4 → Prop where
  | intro {a b c d : List Char} {ip : Ipv4} (first : IsOctet a ip.a) (second : IsOctet b ip.b)
      (third : IsOctet c ip.c) (fourth : IsOctet d ip.d) :
      Written (a ++ '.' :: (b ++ '.' :: (c ++ '.' :: d))) ip

/-- One or more digits for a port, at most 65535. -/
structure SocketAddress.IsPort (ds : List Char) (port : UInt16) : Prop where
  isDigits : Number.IsDigits ds
  le_max : Number.digitsValue ds ≤ 65535
  value : port.toNat = Number.digitsValue ds

/-- An address, a colon and a port. -/
inductive SocketAddress.Written : List Char → SocketAddress → Prop where
  | intro {before after : List Char} {s : SocketAddress} (address : Ipv4.Written before s.ip)
      (port : IsPort after s.port) : Written (before ++ ':' :: after) s

/-- The reasons that are given for a text that is no address. A part that is said to be at fault is
not found in its place in any text that is one: in front of the last colon, or behind it. -/
inductive SocketAddress.Refused (raw : List Char) : String → Prop where
  | noColon (absent : ':' ∉ raw) : Refused raw "expected A.B.C.D:PORT"
  | address {before after : List Char} (cut : raw = before ++ ':' :: after) (last : ':' ∉ after)
      (never : ∀ after' s, ':' ∉ after' → ¬ Written (before ++ ':' :: after') s) :
      Refused raw ("'" ++ String.ofList before ++ "' is not an IPv4 address")
  | port {before after : List Char} {ip : Ipv4} (cut : raw = before ++ ':' :: after)
      (last : ':' ∉ after) (address : Ipv4.Written before ip)
      (never : ∀ before' s, ¬ Written (before' ++ ':' :: after) s)
      (unsigned : ∀ ds port, after = '+' :: ds → ¬ IsPort ds port) :
      Refused raw ("port '" ++ String.ofList after ++ "' is not in 0..=65535")
  | plusSign {before ds : List Char} {ip : Ipv4} {port : UInt16}
      (cut : raw = before ++ ':' :: '+' :: ds) (address : Ipv4.Written before ip)
      (number : IsPort ds port) : Refused raw "expected A.B.C.D:PORT"

/-! ### Reading -/

theorem Number.isDigits_iff {ds : List Char} :
    IsDigits ds ↔ ds.isEmpty = false ∧ ds.all Char.isDigit = true := by
  simp [IsDigits]

namespace Ipv4

variable {ds cs : List Char}

theorem readOctet_eq_some_iff {octet : UInt8} : readOctet ds = some octet ↔ IsOctet ds octet := by
  constructor
  · intro read
    rw [readOctet] at read
    split at read
    · cases read
    · next hShape =>
      split at read
      · cases read
      · next hLeading =>
        split at read
        · next hRange =>
          cases read
          simp only [Bool.or_eq_true, not_or, decide_eq_true_eq, Bool.not_eq_true,
            Bool.not_eq_false'] at hShape
          obtain ⟨⟨hNonempty, hShort⟩, hDigits⟩ := hShape
          simp only [Bool.and_eq_true, decide_eq_true_eq, beq_iff_eq] at hLeading
          have hValue : Number.digitsValue ds < UInt8.size := Nat.lt_succ_of_le hRange
          refine ⟨Number.isDigits_iff.2 ⟨hNonempty, hDigits⟩, by omega, fun hZero => ?_, hRange,
            UInt8.toNat_ofNat_of_lt hValue⟩
          obtain ⟨rest, rfl⟩ := List.head?_eq_some_iff.1 hZero
          cases rest with
          | nil => rfl
          | cons d rest => exact absurd ⟨by simp, hZero⟩ hLeading
        · cases read
  · intro isOctet
    have hDigits := isOctet.isDigits.digits_digitsValue isOctet.leading
    rw [← isOctet.value] at hDigits
    rw [← hDigits, readOctet_digits]

/-- An octet is written in one way only. -/
theorem isOctet_iff {octet : UInt8} : IsOctet ds octet ↔ ds = Number.digits octet.toNat := by
  constructor
  · intro isOctet
    rw [isOctet.value, isOctet.isDigits.digits_digitsValue isOctet.leading]
  · rintro rfl
    exact readOctet_eq_some_iff.1 (readOctet_digits octet)

theorem written_iff {ip : Ipv4} : Written cs ip ↔ cs = ip.text := by
  have hText : ip.text = Number.digits ip.a.toNat ++ '.' :: (Number.digits ip.b.toNat ++
      '.' :: (Number.digits ip.c.toNat ++ '.' :: Number.digits ip.d.toNat)) := by
    simp [text, Text.joinWith]
  constructor
  · rintro ⟨first, second, third, fourth⟩
    rw [hText, isOctet_iff.1 first, isOctet_iff.1 second, isOctet_iff.1 third,
      isOctet_iff.1 fourth]
  · rintro rfl
    rw [hText]
    exact ⟨isOctet_iff.2 rfl, isOctet_iff.2 rfl, isOctet_iff.2 rfl, isOctet_iff.2 rfl⟩

theorem read_eq_some_iff {ip : Ipv4} : read cs = some ip ↔ Written cs ip := by
  constructor
  · intro h
    rw [read] at h
    split at h
    · next a b c d hSplit =>
      obtain ⟨rfl, -⟩ := Text.splitOn_eq_cons_iff.1 hSplit
      simp only [Option.bind_eq_bind, Option.bind_eq_some_iff, Option.pure_def,
        Option.some.injEq] at h
      obtain ⟨octetA, hA, octetB, hB, octetC, hC, octetD, hD, rfl⟩ := h
      simpa [Text.joinWith] using Written.intro (readOctet_eq_some_iff.1 hA)
        (readOctet_eq_some_iff.1 hB) (readOctet_eq_some_iff.1 hC) (readOctet_eq_some_iff.1 hD)
    · cases h
  · intro written
    rw [written_iff.1 written, read_text]

end Ipv4

namespace SocketAddress

variable {ds raw : List Char}

theorem readPort_eq_some_iff {port : UInt16} : readPort ds = some port ↔ IsPort ds port := by
  rw [readPort]
  split
  · next hShape =>
    rw [eq_comm, iff_false_left (Option.some_ne_none port)]
    intro isPort
    obtain ⟨hNonempty, hDigits⟩ := Number.isDigits_iff.1 isPort.isDigits
    simp [hNonempty, hDigits] at hShape
  · next hShape =>
    simp only [Bool.or_eq_true, not_or, Bool.not_eq_true, Bool.not_eq_false'] at hShape
    split
    · next hRange =>
      have hValue : Number.digitsValue ds < UInt16.size := Nat.lt_succ_of_le hRange
      have hToNat : (UInt16.ofNat (Number.digitsValue ds)).toNat = Number.digitsValue ds :=
        UInt16.toNat_ofNat_of_lt hValue
      constructor
      · intro h
        cases h
        exact ⟨Number.isDigits_iff.2 hShape, hRange, hToNat⟩
      · intro isPort
        rw [Option.some_inj, ← UInt16.toNat_inj, hToNat, isPort.value]
    · next hRange =>
      rw [eq_comm, iff_false_left (Option.some_ne_none port)]
      exact fun isPort => hRange isPort.le_max

/-- A port is written with any number of leading zeros. -/
theorem isPort_iff {port : UInt16} :
    IsPort ds port ↔ ∃ zeros, ds = List.replicate zeros '0' ++ Number.digits port.toNat := by
  constructor
  · intro isPort
    rw [isPort.value]
    exact isPort.isDigits.exists_zeros
  · rintro ⟨zeros, rfl⟩
    have hValue : Number.digitsValue (List.replicate zeros '0' ++ Number.digits port.toNat) =
        port.toNat := by
      rw [Number.digitsValue_append, Number.digitsValue_replicate_zero,
        Number.digitsValue_digits, Nat.zero_mul, Nat.zero_add]
    have hRange := port.toNat_lt
    refine ⟨⟨by simp [Number.digits_ne_nil], fun c mem => ?_⟩, by omega, hValue.symm⟩
    rcases List.mem_append.1 mem with mem | mem
    · rw [List.eq_of_mem_replicate mem]
      rfl
    · exact Number.isDigit_of_mem_digits mem

theorem IsPort.colon_not_mem {port : UInt16} (isPort : IsPort ds port) : ':' ∉ ds := fun mem =>
  absurd (isPort.isDigits.2 _ mem) (by decide)

theorem written_append_iff {before after : List Char} {s : SocketAddress} (last : ':' ∉ after) :
    Written (before ++ ':' :: after) s ↔ Ipv4.Written before s.ip ∧ IsPort after s.port := by
  constructor
  · have hCut := @Text.splitLast_append ':' before after last
    generalize before ++ ':' :: after = raw at hCut
    rintro ⟨address, port⟩
    rw [Text.splitLast_append port.colon_not_mem] at hCut
    obtain ⟨rfl, rfl⟩ := Prod.mk.inj (Option.some.inj hCut)
    exact ⟨address, port⟩
  · rintro ⟨address, port⟩
    exact ⟨address, port⟩

theorem parse_eq_ok_iff_written {s : SocketAddress} : parse raw = .ok s ↔ Written raw s := by
  constructor
  · intro h
    rw [parse] at h
    split at h
    · cases h
    · next before after hCut =>
      obtain ⟨rfl, -⟩ := Text.splitLast_eq_some_iff.1 hCut
      split at h
      · cases h
      · next ip hAddress =>
        split at h
        · cases h
        · next port hPort =>
          cases h
          exact ⟨Ipv4.read_eq_some_iff.1 hAddress, readPort_eq_some_iff.1 hPort⟩
  · rintro ⟨address, port⟩
    rw [parse, Text.splitLast_append port.colon_not_mem]
    simp [Ipv4.read_eq_some_iff.2 address, readPort_eq_some_iff.2 port]

/-- An address is written in one way only, but for leading zeros of the port. -/
theorem written_iff {s : SocketAddress} : Written raw s ↔ ∃ zeros,
    raw = s.ip.text ++ ':' :: (List.replicate zeros '0' ++ Number.digits s.port.toNat) := by
  constructor
  · rintro ⟨address, port⟩
    obtain ⟨zeros, rfl⟩ := isPort_iff.1 port
    exact ⟨zeros, by rw [Ipv4.written_iff.1 address]⟩
  · rintro ⟨zeros, rfl⟩
    exact ⟨Ipv4.written_iff.2 rfl, isPort_iff.2 ⟨zeros, rfl⟩⟩

/-! ### Reasons -/

variable {before after : List Char}

theorem read_eq_none_of_never
    (never : ∀ after' s, ':' ∉ after' → ¬ Written (before ++ ':' :: after') s) :
    Ipv4.read before = none := by
  have hPort : IsPort ['0'] 0 := isPort_iff.2 ⟨0, by rw [Number.digits_of_lt (by decide)]; rfl⟩
  cases hRead : Ipv4.read before with
  | none => rfl
  | some ip =>
      exact absurd ⟨Ipv4.read_eq_some_iff.1 hRead, hPort⟩ (never ['0'] ⟨ip, 0⟩ (by decide))

/-- A sign is no part of a port. -/
theorem not_isPort_plus {port : UInt16} : ¬ IsPort ('+' :: ds) port := fun isPort =>
  absurd (isPort.isDigits.2 '+' List.mem_cons_self) (by decide)

theorem readPort_eq_none_iff : readPort ds = none ↔ ∀ port, ¬ IsPort ds port := by
  rw [Option.eq_none_iff_forall_ne_some]
  exact forall_congr' fun port => not_congr readPort_eq_some_iff

theorem portFault_plus {port : UInt16} (number : IsPort ds port) :
    portFault ('+' :: ds) = .shape := by
  rw [portFault, if_pos (by rw [readPort_eq_some_iff.2 number]; rfl)]

theorem portFault_unsigned (unsigned : ∀ ds port, after = '+' :: ds → ¬ IsPort ds port) :
    portFault after = .port after := by
  rw [portFault.eq_def]
  split
  · next ds =>
    rw [readPort_eq_none_iff.2 fun port => unsigned ds port rfl]
    rfl
  · rfl

/-- The reason that is given is true. -/
theorem refused_of_parse {fault : Fault} (h : parse raw = .error fault) :
    Refused raw fault.message := by
  rw [parse] at h
  split at h
  · next hCut =>
    cases h
    exact .noColon (Text.splitLast_eq_none_iff.1 hCut)
  · next before after hCut =>
    obtain ⟨hText, hLast⟩ := Text.splitLast_eq_some_iff.1 hCut
    split at h
    · next hNone =>
      cases h
      refine .address hText hLast fun after' s last written => ?_
      obtain ⟨address, -⟩ := (written_append_iff last).1 written
      rw [Ipv4.read_eq_some_iff.2 address] at hNone
      cases hNone
    · next ip hAddress =>
      replace hAddress := Ipv4.read_eq_some_iff.1 hAddress
      split at h
      · next hNone =>
        cases h
        rw [readPort_eq_none_iff] at hNone
        have hNever : ∀ before' s, ¬ Written (before' ++ ':' :: after) s := fun before' s written =>
          hNone s.port ((written_append_iff hLast).1 written).2
        by_cases hSign : ∃ ds port, after = '+' :: ds ∧ IsPort ds port
        · obtain ⟨ds, port, rfl, number⟩ := hSign
          rw [portFault_plus number]
          exact .plusSign hText hAddress number
        · have hUnsigned : ∀ ds port, after = '+' :: ds → ¬ IsPort ds port :=
            fun ds port head number => hSign ⟨ds, port, head, number⟩
          rw [portFault_unsigned hUnsigned]
          exact .port hText hLast hAddress hNever hUnsigned
      · cases h

/-- A text with a true reason against it is refused for that reason. -/
theorem parse_of_refused {reason : String} (refused : Refused raw reason) :
    ∃ fault, parse raw = .error fault ∧ fault.message = reason := by
  cases refused with
  | noColon absent =>
      exact ⟨.shape, by rw [parse, Text.splitLast_of_not_mem absent], rfl⟩
  | @address before after cut last never =>
      refine ⟨.address before, ?_, rfl⟩
      rw [cut, parse, Text.splitLast_append last]
      simp [read_eq_none_of_never never]
  | @port before after ip cut last address never unsigned =>
      have hPort : readPort after = none := readPort_eq_none_iff.2 fun port isPort =>
        never before ⟨ip, port⟩ ⟨address, isPort⟩
      refine ⟨.port after, ?_, rfl⟩
      rw [cut, parse, Text.splitLast_append last]
      simp [Ipv4.read_eq_some_iff.2 address, hPort, portFault_unsigned unsigned]
  | @plusSign before ds ip port cut address number =>
      have hPort : readPort ('+' :: ds) = none := readPort_eq_none_iff.2 fun _ => not_isPort_plus
      have hLast : ':' ∉ '+' :: ds := by simpa using number.colon_not_mem
      refine ⟨.shape, ?_, rfl⟩
      rw [cut, parse, Text.splitLast_append hLast]
      simp [Ipv4.read_eq_some_iff.2 address, hPort, portFault_plus number]

/-- A text is read as an address just if it is written like one, and then as the numbers in it.
The text of an address is read back, and every text that is read as the address is that text but
for leading zeros of the port. The reasons given for other texts are the true ones: a part that is
said to be no address, or to be out of range, stands in its place in no text that is read. -/
theorem parse_decides_written (raw : List Char) :
    (∀ s, parse raw = .ok s ↔ Written raw s) ∧
      (∀ s, Written raw s ↔ ∃ zeros,
        raw = s.ip.text ++ ':' :: (List.replicate zeros '0' ++ Number.digits s.port.toNat)) ∧
      (∀ s : SocketAddress, parse s.text = .ok s) ∧
      ∀ reason, (parse raw).mapError Fault.message = .error reason ↔ Refused raw reason := by
  refine ⟨fun _ => parse_eq_ok_iff_written, fun _ => written_iff, parse_text, fun reason => ?_⟩
  constructor
  · intro h
    cases hParse : parse raw with
    | ok s =>
        rw [hParse] at h
        cases h
    | error fault =>
        rw [hParse] at h
        cases h
        exact refused_of_parse hParse
  · intro refused
    obtain ⟨fault, hParse, rfl⟩ := parse_of_refused refused
    rw [hParse]
    rfl

/-- A sign makes a port that is in range no port, but no reason against the number. -/
example : parse "1.2.3.4:+80".toList = .error .shape ∧
    parse "1.2.3.4:+65536".toList = .error (.port "+65536".toList) := by
  decide

end SocketAddress

end TypedConfig
