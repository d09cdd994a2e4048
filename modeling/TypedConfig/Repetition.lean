/-!
Repeated keys. The first element of a list whose key an earlier element has is found together with
that earlier element; there is none exactly if the keys are pairwise different.
-/
namespace TypedConfig

variable {α κ : Type} [DecidableEq κ]

/-- The first element whose key is also that of an earlier one, after that earlier one. The elements
already passed have different keys. -/
def firstRepeatAfter? (key : α → κ) (passed : List α) : List α → Option (α × α)
  | [] => none
  | x :: xs =>
    match passed.find? fun y => key y = key x with
    | some y => some (y, x)
    | none => firstRepeatAfter? key (x :: passed) xs

/-- The first two elements of a list that have the same key. -/
def firstRepeat? (key : α → κ) (xs : List α) : Option (α × α) :=
  firstRepeatAfter? key [] xs

theorem firstRepeatAfter?_eq_none_iff {key : α → κ} {passed xs : List α} :
    firstRepeatAfter? key passed xs = none ↔
      (xs.map key).Nodup ∧ ∀ x ∈ xs, ∀ y ∈ passed, key y ≠ key x := by
  induction xs generalizing passed with
  | nil => simp [firstRepeatAfter?]
  | cons x xs ih =>
    rw [firstRepeatAfter?]
    split
    · next y hy =>
      have hmem := List.mem_of_find?_eq_some hy
      have hkey := List.find?_some hy
      simp at hkey
      simp only [reduceCtorEq, List.mem_cons, false_iff, not_and, Classical.not_forall]
      intro _
      exact ⟨x, .inl rfl, y, hmem, by simp [hkey]⟩
    · next hnone =>
      simp only [List.find?_eq_none, decide_eq_true_eq] at hnone
      simp only [ih, List.map_cons, List.nodup_cons, List.mem_map, List.mem_cons]
      grind

theorem firstRepeat?_eq_none_iff {key : α → κ} {xs : List α} :
    firstRepeat? key xs = none ↔ (xs.map key).Nodup := by
  simp [firstRepeat?, firstRepeatAfter?_eq_none_iff]

/-- By induction on the list: the earlier element is one that was passed, or stands in front of the
later one. -/
theorem sublist_of_firstRepeatAfter? {key : α → κ} {passed xs : List α} {a b : α}
    (found : firstRepeatAfter? key passed xs = some (a, b)) :
    key a = key b ∧ (a ∈ passed ∧ b ∈ xs ∨ [a, b].Sublist xs) := by
  induction xs generalizing passed with
  | nil => cases found
  | cons x xs ih =>
    rw [firstRepeatAfter?] at found
    split at found
    · next y hy =>
      cases found
      have hkey := List.find?_some hy
      exact ⟨by simpa using hkey, .inl ⟨List.mem_of_find?_eq_some hy, List.mem_cons_self⟩⟩
    · obtain ⟨hkey, ⟨hmem, hagain⟩ | htwice⟩ := ih found
      · rcases List.mem_cons.1 hmem with rfl | hmem
        · exact ⟨hkey, .inr ((List.singleton_sublist.2 hagain).cons_cons a)⟩
        · exact ⟨hkey, .inl ⟨hmem, List.mem_cons_of_mem x hagain⟩⟩
      · exact ⟨hkey, .inr (htwice.cons x)⟩

/-- The two elements that are found have one key, and stand in the list one behind the other. -/
theorem sublist_of_firstRepeat? {key : α → κ} {xs : List α} {a b : α}
    (found : firstRepeat? key xs = some (a, b)) : key a = key b ∧ [a, b].Sublist xs := by
  simpa using sublist_of_firstRepeatAfter? found

end TypedConfig
