import Mathlib.Data.List.TakeWhile
import Mathlib.Tactic

/-!
# Indexed queues whose operations may abort

Positional updates of a double-ended queue, modelled on lists.
-/

namespace Dquic.Lib

variable {α : Type*}

/-- Insert before position `i`. -/
def insertAt (l : List α) (i : Nat) (x : α) : Option (List α) :=
  if i ≤ l.length then some (l.take i ++ x :: l.drop i) else none

/-- Assign position `i`. -/
def setAt (l : List α) (i : Nat) (x : α) : Option (List α) :=
  if i < l.length then some (l.set i x) else none

/-- Remove the positions from `i` up to and excluding `j`. -/
def drain (l : List α) (i j : Nat) : Option (List α) :=
  if i ≤ j ∧ j ≤ l.length then some (l.take i ++ l.drop j) else none

/-- Reuse position `lo` when it is about to be drained, otherwise insert there. -/
def putAt (l : List α) (lo hi : Nat) (x : α) : Option (List α) :=
  if lo < hi then setAt l lo x else insertAt l lo x

def drainIf (l : List α) (lo hi : Nat) : Option (List α) :=
  if lo < hi then drain l lo hi else some l

lemma insertAt_append (K Z : List α) (x : α) :
    insertAt (K ++ Z) K.length x = some (K ++ x :: Z) := by
  simp [insertAt]

lemma setAt_append (K Z : List α) (x y : α) :
    setAt (K ++ y :: Z) K.length x = some (K ++ x :: Z) := by
  simp [setAt]

lemma drain_append (K D Z : List α) :
    drain (K ++ D ++ Z) K.length (K.length + D.length) = some (K ++ Z) := by
  have hd : (K ++ D ++ Z).drop (K.length + D.length) = Z := by
    rw [← List.length_append, List.drop_left]
  have ht : (K ++ D ++ Z).take K.length = K := by
    rw [List.append_assoc, List.take_left]
  unfold drain
  rw [if_pos (by simp), hd, ht]

/-- A queue split at a range `lo..hi` that will be replaced: `K` stays, `D` goes, `Z` stays.
Positions already consumed by `putAt` leave `hi` behind `lo` with nothing to drain. -/
structure Gap (l : List α) (lo hi : Nat) (K D Z : List α) : Prop where
  split : l = K ++ D ++ Z
  low : K.length = lo
  high : D.length = hi - lo

variable {D K Z l : List α} {hi lo : Nat}

/-- Writing into the range moves its lower end past the new element. -/
theorem Gap.put (h : Gap l lo hi K D Z) (x : α) :
    ∃ l', putAt l lo hi x = some l' ∧ Gap l' (lo + 1) hi (K ++ [x]) D.tail Z := by
  obtain ⟨hsplit, hlow, hhigh⟩ := h
  subst hlow
  cases D with
  | nil =>
    have hlt : ¬K.length < hi := by simp only [List.length_nil] at hhigh; omega
    refine ⟨K ++ x :: Z, ?_, by simp, by simp, by simp at hhigh ⊢; omega⟩
    rw [putAt, if_neg hlt, hsplit, List.append_nil, insertAt_append]
  | cons y D =>
    have hlt : K.length < hi := by simp only [List.length_cons] at hhigh; omega
    refine ⟨K ++ x :: (D ++ Z), ?_, by simp, by simp, by simp at hhigh ⊢; omega⟩
    rw [putAt, if_pos hlt, hsplit, List.append_assoc, List.cons_append, setAt_append]

/-- Draining what is left of the range closes it. -/
theorem Gap.close (h : Gap l lo hi K D Z) : drainIf l lo hi = some (K ++ Z) := by
  obtain ⟨hsplit, hlow, hhigh⟩ := h
  subst hlow
  by_cases hlt : K.length < hi
  · have hhi : hi = K.length + D.length := by omega
    rw [drainIf, if_pos hlt, hsplit, hhi, drain_append]
  · have hD : D = [] := List.length_eq_zero_iff.mp (by omega)
    rw [drainIf, if_neg hlt, hsplit, hD, List.append_nil]

section Search

variable (key : α → Nat)

/-- Position of the element with the given key in a queue sorted by key, or else the
position where it would be inserted. -/
def binarySearchBy (l : List α) (k : Nat) : Except Nat Nat :=
  let i := (l.takeWhile (fun x => key x < k)).length
  if l[i]?.map key = some k then .ok i else .error i

lemma search_split (l : List α) (k : Nat) (hl : l.Pairwise (fun a b => key a < key b)) :
    ∃ A B, l = A ++ B ∧ A = l.takeWhile (fun x => key x < k) ∧
      (∀ a ∈ A, key a < k) ∧ ∀ b ∈ B, k ≤ key b := by
  refine ⟨l.takeWhile (fun x => key x < k), l.dropWhile (fun x => key x < k),
    List.takeWhile_append_dropWhile.symm, rfl, ?_, ?_⟩
  · intro a ha
    simpa using List.mem_takeWhile_imp ha
  · intro b hb
    induction l with
    | nil => simp at hb
    | cons x l ih =>
      by_cases hx : key x < k
      · simp only [List.dropWhile_cons, hx, decide_true, if_true] at hb
        exact ih (List.pairwise_cons.mp hl).2 hb
      · simp only [List.dropWhile_cons, hx, decide_false, Bool.false_eq_true, if_false] at hb
        rcases List.mem_cons.mp hb with rfl | hb
        · omega
        · have := (List.pairwise_cons.mp hl).1 b hb
          omega

variable {i k : Nat}

/-- A successful search splits the queue around the element found. -/
theorem binarySearchBy_ok (hl : l.Pairwise (fun a b => key a < key b)) (h : binarySearchBy key l k = .ok i) :
    ∃ A x B, l = A ++ x :: B ∧ A.length = i ∧ key x = k ∧ (∀ a ∈ A, key a < k) ∧
      ∀ b ∈ B, k < key b := by
  obtain ⟨A, B, hAB, hA, hlt, hle⟩ := search_split key l k hl
  unfold binarySearchBy at h
  simp only [← hA] at h
  split at h
  · rename_i hget
    injection h with hi
    cases B with
    | nil => simp [hAB] at hget
    | cons x B =>
      have hx : key x = k := by simpa [hAB] using hget
      refine ⟨A, x, B, hAB, hi, hx, hlt, fun b hb => ?_⟩
      rw [hAB] at hl
      have := (List.pairwise_cons.mp (List.pairwise_append.mp hl).2.1).1 b hb
      omega
  · cases h

/-- A failed search splits the queue where the key would go. -/
theorem binarySearchBy_error (hl : l.Pairwise (fun a b => key a < key b)) (h : binarySearchBy key l k = .error i) :
    ∃ A B, l = A ++ B ∧ A.length = i ∧ (∀ a ∈ A, key a < k) ∧ ∀ b ∈ B, k < key b := by
  obtain ⟨A, B, hAB, hA, hlt, hle⟩ := search_split key l k hl
  unfold binarySearchBy at h
  simp only [← hA] at h
  split at h
  · cases h
  · rename_i hget
    injection h with hi
    refine ⟨A, B, hAB, hi, hlt, fun b hb => ?_⟩
    cases B with
    | nil => simp at hb
    | cons x B =>
      have hne : key x ≠ k := by simpa [hAB] using hget
      have hx := hle x (by simp)
      rw [hAB] at hl
      rcases List.mem_cons.mp hb with rfl | hb
      · omega
      · have := (List.pairwise_cons.mp (List.pairwise_append.mp hl).2.1).1 b hb
        omega

end Search

end Dquic.Lib
