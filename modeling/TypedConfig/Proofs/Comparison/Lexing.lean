import TypedConfig.Proofs.Comparison.Reading
import TypedConfig.Proofs.Lexing.Locality
/-!
Lexing two texts side by side. The kinds of tokens do not depend on where a text stands, and what
stands in front of a quoted text is cut into the same lexemes whatever is quoted; so texts whose
directives are spelled in other ways have tokens of the same kinds, apart from these paths.
-/
namespace TypedConfig

/-! ### Lexemes in front of a quoted text -/

namespace Lexeme

namespace Reads

variable {text rest : List Char} {kinds : List Token.Kind}

theorem exists_append (reads : Reads text kinds rest) : ∃ front, text = front ++ rest := by
  induction reads with
  | done => exact ⟨[], rfl⟩
  | @step c cs rest l kinds first _ ih =>
      obtain ⟨front, hFront⟩ := ih
      refine ⟨l.used ++ front, ?_⟩
      rw [List.append_assoc, ← hFront, used_append_rest first]

/-- By induction on the lexemes: each of them stands in front of the quote. -/
theorem before_quote (reads : Reads text kinds rest) {front back : List Char}
    (whole : text = front ++ '"' :: back) (left : rest = '"' :: back) (back' : List Char) :
    Reads (front ++ '"' :: back') kinds ('"' :: back') := by
  induction reads generalizing front with
  | done =>
      obtain rfl : front = [] := by simpa [left] using whole
      exact .done
  | @step c cs rest l kinds first others ih =>
      subst left
      obtain ⟨later, hLater⟩ := others.exists_append
      have hAlike : StopsAlike l.rest (later ++ '"' :: back') := by
        rw [hLater]
        exact (StopsAlike.quote back back').append later
      obtain ⟨used, hUsed, hNext⟩ := next_local first hAlike
      have hFront : front = c :: used ++ later := by
        have hWhole := used_append_rest first
        rw [hUsed, hLater, whole, ← List.append_assoc] at hWhole
        exact (List.append_cancel_right hWhole).symm
      rw [hFront, List.append_assoc]
      exact .step (l := ⟨l.kind, l.used, later ++ '"' :: back'⟩) hNext (ih hLater rfl)

end Reads

end Lexeme

/-! ### Tokens -/

namespace Token

variable {file file' : String} {p p' : Position} {directory : Path}

/-- What is left of a text behind some lexemes is scanned alone. -/
theorem scanFrom_reads {text rest : List Char} {kinds : List Kind}
    (reads : Lexeme.Reads text kinds rest) (file : String) (p : Position) :
    ∃ q ts, ts.map Token.kind = kinds ∧
      scanFrom file p text = (scanFrom file q rest).map (ts ++ ·) := by
  induction reads generalizing p with
  | done =>
      refine ⟨p, [], rfl, ?_⟩
      cases scanFrom file p _ <;> rfl
  | @step c cs rest l kinds first others ih =>
      obtain ⟨q, ts, hKinds, hScan⟩ := ih (p.after l.used)
      refine ⟨q, l.kind.toList.map (⟨·, p⟩) ++ ts, ?_, ?_⟩
      · rw [List.map_append, hKinds, List.map_map]
        simp [Function.comp_def]
      · rw [scanFrom_cons first, hScan]
        cases scanFrom file q rest with
        | error d => rfl
        | ok us => simp [Except.map]

theorem SameKinds.append {Q : String → String → Prop} {ks ls : List Kind} (front : List Kind)
    (same : SameKinds Q ks ls) : SameKinds Q (front ++ ks) (front ++ ls) := by
  induction front with
  | nil => exact same
  | cons k front ih => exact .kind ih

/-- The kinds of the tokens of a text, of which there is one at least, do not depend on where the
text stands. -/
theorem scanFrom_anywhere (file file' : String) (p p' : Position) (text : List Char) :
    EndsAlike (fun ts us => ts ≠ [] ∧ ts.map Token.kind = us.map Token.kind)
      (scanFrom file p text) (scanFrom file' p' text) := by
  induction text using Lexeme.induct generalizing p p' with
  | nil =>
      rw [scanFrom, scanFrom]
      exact .ok ⟨List.cons_ne_nil _ _, rfl⟩
  | fault c cs fault hNext =>
      rw [scanFrom_cons_error hNext, scanFrom_cons_error hNext]
      exact .error rfl
  | step c cs l hNext ih =>
      rw [scanFrom_cons hNext, scanFrom_cons hNext]
      have hRest := ih (p.after l.used) (p'.after l.used)
      generalize scanFrom file (p.after l.used) l.rest = run at hRest ⊢
      generalize scanFrom file' (p'.after l.used) l.rest = run' at hRest ⊢
      cases hRest with
      | error code => exact .error code
      | ok related =>
          obtain ⟨hNonempty, hSame⟩ := related
          refine .ok ⟨by simp [hNonempty], ?_⟩
          simp only [List.map_append, List.map_map, Function.comp_def, hSame]

/-- A text has tokens of the same kinds in every file. -/
theorem scan_anywhere (file file' source : String) :
    EndsAlike (fun ts us => ts.map Token.kind = us.map Token.kind) (scan file source)
      (scan file' source) :=
  (scanFrom_anywhere file file' .start .start source.toList).imp fun _ _ => And.right

/-- Texts with tokens of the same kinds in one file are alike in all files. -/
theorem ScanAlike.of_kinds {source other : String} {ts us : List Token}
    (scans : scan file source = .ok ts) (scans' : scan file' other = .ok us)
    (same : ts.map Token.kind = us.map Token.kind) : ScanAlike directory source other := by
  intro name name'
  have hLeft := scan_anywhere file name source
  have hRight := scan_anywhere file' name' other
  rw [scans] at hLeft
  rw [scans'] at hRight
  generalize scan name source = run at hLeft ⊢
  generalize scan name' other = run' at hRight ⊢
  cases hLeft with
  | ok left =>
      cases hRight with
      | ok right =>
          refine .ok ?_
          rw [← left, same, right]
          exact .refl _

theorem ScanAlike.refl (directory : Path) (source : String) : ScanAlike directory source source :=
  fun file file' => (scan_anywhere file file' source).imp fun _ _ same => same ▸ .refl _

/-- By induction on the directives that are spelled in another way: what stands in front of such a
path is read alike, and then the path, and then what follows. -/
theorem Respelled.scanFrom {text text' : List Char} (respelled : Respelled directory text text')
    (file file' : String) (p p' : Position) :
    EndsAlike (fun ts us => ts ≠ [] ∧
        SameKinds directory.Together (ts.map Token.kind) (us.map Token.kind))
      (scanFrom file p text) (scanFrom file' p' text') := by
  induction respelled generalizing p p' with
  | same =>
      exact (scanFrom_anywhere file file' p p' _).imp fun _ _ related =>
        ⟨related.1, related.2 ▸ .refl _⟩
  | @literal front written written' back back' kinds i j reads path path' together _ ih =>
      obtain ⟨q, ts, hKinds, hScan⟩ := scanFrom_reads reads file p
      obtain ⟨q', us, hKinds', hScan'⟩ := scanFrom_reads (reads.before_quote rfl rfl _) file' p'
      rw [hScan, hScan', scanFrom_cons path, scanFrom_cons path']
      have hBack := ih (q.after ('"' :: written)) (q'.after ('"' :: written'))
      dsimp only
      generalize Token.scanFrom file (q.after ('"' :: written)) back = run at hBack ⊢
      generalize Token.scanFrom file' (q'.after ('"' :: written')) back' = run' at hBack ⊢
      cases hBack with
      | error code => exact .error code
      | @ok vs ws related =>
          obtain ⟨hNonempty, hSame⟩ := related
          refine .ok ⟨by simp, ?_⟩
          -- some token follows the path
          obtain ⟨v, vs, rfl⟩ := List.exists_cons_of_ne_nil hNonempty
          obtain ⟨w, ws, rfl⟩ : ∃ w ws', ws = w :: ws' := by
            refine List.exists_cons_of_ne_nil fun h => ?_
            have := hSame.length_eq
            simp [h] at this
          simp only [List.map_append, hKinds, hKinds', List.append_assoc]
          exact .append kinds (.directive together hSame)

/-- Texts whose directives are spelled in other ways have tokens of the same kinds but for these. -/
theorem Respelled.scanAlike {source other : String}
    (respelled : Respelled directory source.toList other.toList) :
    ScanAlike directory source other :=
  fun file file' => (respelled.scanFrom file file' .start .start).imp fun _ _ => And.right

end Token

end TypedConfig
