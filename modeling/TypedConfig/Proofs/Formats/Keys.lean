import TypedConfig.Configuration.Printer
import TypedConfig.Proofs.Formats.Curve
import TypedConfig.Proofs.Printing.Formats
import TypedConfig.Typing.Demand
/-!
Public keys and their texts. Every key has one text, which is read as the key again, and no other
text is; so a literal that is accepted is printed as it was written.
-/
namespace TypedConfig

theorem Extended.source_inj {kind : Extended} {cs ds : List Char} :
    source kind cs = source kind ds ↔ cs = ds := by
  simp [source, Text.quote_inj]

namespace PublicKey

/-- The curve has a point with the `y` that the bytes of a key encode. -/
def Decompresses (k : PublicKey) : Prop :=
  ∃ x, Edwards25519.OnCurve x (Edwards25519.encoded k.bytes)

theorem isPoint_iff_decompresses {k : PublicKey} : k.isPoint = true ↔ k.Decompresses :=
  Edwards25519.isPoint_iff k.bytes

theorem parse_eq_ok_iff_decompresses {strict : Bool} {raw : List Char} {k : PublicKey} :
    parse strict raw = .ok k ↔ raw = k.text ∧ (strict = false ∨ k.Decompresses) := by
  rw [parse_eq_ok_iff, isPoint_iff_decompresses]
  cases strict <;> simp

/-- A key is read from its text, by a strict reader just if the curve has such a point, and from no
other text, so keys and the texts that are read as keys are in bijection. A key literal is accepted
as a key just if it is the literal that is printed for the key. -/
theorem parse_inverts_text (k : PublicKey) :
    parse false k.text = .ok k ∧
      (parse true k.text = .ok k ↔ k.Decompresses) ∧
      (∀ strict raw, parse strict raw = .ok k ↔ raw = k.text ∧ (strict = false ∨ k.Decompresses)) ∧
      (∃! raw, parse false raw = .ok k) ∧
      ∀ (options : Options) (raw : String) (depth : Nat),
        options.denote .pubkey raw = .ok (.pubkey k) ↔
          (Value.pubkey k).source depth = Extended.source .pubkey raw.toList ∧
            (options.strictPubkey = false ∨ k.Decompresses) := by
  have hParse := @parse_eq_ok_iff_decompresses
  refine ⟨hParse.2 ⟨rfl, .inl rfl⟩, by simp [hParse], fun _ _ => hParse,
    ⟨k.text, hParse.2 ⟨rfl, .inl rfl⟩, fun raw h => (hParse.1 h).1⟩, fun options raw depth => ?_⟩
  have hDenote : options.denote .pubkey raw = .ok (.pubkey k) ↔
      parse options.strictPubkey raw.toList = .ok k := by
    rw [Options.denote]
    cases parse options.strictPubkey raw.toList <;> simp [Except.map, Except.mapError]
  have hSource : (Value.pubkey k).source depth = Extended.source .pubkey k.text := by
    rw [Value.source]
  rw [hDenote, hParse, hSource, Extended.source_inj, eq_comm]

/-- Every leading zero byte has a digit of its own. -/
example : parse false (List.replicate 31 '1' ++ ['5']) = .ok ⟨List.replicate 31 0 ++ [4], rfl⟩ := by
  decide +kernel

end PublicKey

end TypedConfig
