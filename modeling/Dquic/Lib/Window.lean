import Mathlib.Tactic

/-!
# Reading a sliding window downwards

The indices of a window `[lo, hi)` whose ends only move up are looked up one by one, from the
highest down, while it moves.
-/

namespace Dquic.Lib

/-- The indices from `next` on were looked up in a window that is now `[lo, hi)`, and `found` were there, the lowest
first. -/
def Lookup (lo hi next : Nat) (found : List Nat) : Prop :=
  ∃ a, found = List.range' a found.length ∧ next ≤ a ∧ (found ≠ [] → a + found.length ≤ hi ∧ (a = next ∨ next ≤ lo))

namespace Lookup

variable {lo hi next i : Nat} {found : List Nat}

lemma start (lo hi next : Nat) : Lookup lo hi next [] := ⟨next, rfl, le_rfl, fun h => absurd rfl h⟩

lemma slide (h : Lookup lo hi next found) {lo' hi' : Nat} (hlo : lo ≤ lo') (hhi : hi ≤ hi') : Lookup lo' hi' next found := by
  obtain ⟨a, hrun, hnext, hfound⟩ := h
  refine ⟨a, hrun, hnext, fun hne => ?_⟩
  obtain ⟨hend, hplace⟩ := hfound hne
  exact ⟨hend.trans hhi, hplace.imp_right fun hle => hle.trans hlo⟩

lemma hit (h : Lookup lo hi (i + 1) found) (hlo : lo ≤ i) (hhi : i < hi) : Lookup lo hi i (i :: found) := by
  obtain ⟨a, hrun, hnext, hfound⟩ := h
  refine ⟨i, ?_, le_rfl, fun _ => ?_⟩
  · rw [List.length_cons, List.range'_succ]
    cases found with
    | nil => rfl
    | cons b found =>
      obtain ⟨-, hplace⟩ := hfound (List.cons_ne_nil _ _)
      have ha : a = i + 1 := hplace.resolve_right fun hle => by omega
      rw [ha] at hrun
      exact congrArg (i :: ·) hrun
  · rw [List.length_cons]
    cases found with
    | nil => exact ⟨hhi, .inl rfl⟩
    | cons b found =>
      obtain ⟨hend, hplace⟩ := hfound (List.cons_ne_nil _ _)
      exact ⟨by omega, .inl rfl⟩

lemma miss (h : Lookup lo hi (i + 1) found) (hout : ¬(lo ≤ i ∧ i < hi)) : Lookup lo hi i found := by
  obtain ⟨a, hrun, hnext, hfound⟩ := h
  refine ⟨a, hrun, by omega, fun hne => ?_⟩
  obtain ⟨hend, hplace⟩ := hfound hne
  -- the window reaches beyond what was found above
  exact ⟨hend, .inr (by omega)⟩

lemma run (h : Lookup lo hi next found) : ∃ a, found = List.range' a found.length ∧ (found ≠ [] → a + found.length ≤ hi) := by
  obtain ⟨a, hrun, -, hfound⟩ := h
  exact ⟨a, hrun, fun hne => (hfound hne).1⟩

end Lookup

end Dquic.Lib
