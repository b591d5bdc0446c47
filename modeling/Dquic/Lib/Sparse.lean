import Mathlib.Tactic

/-!
# Sparse sequences

A sequence of which only some positions are known, stored as chunks of consecutive elements.
-/

namespace Dquic.Lib

/-- Elements known from `offset` on. -/
structure Chunk (α : Type*) where
  offset : Nat
  data : List α
  deriving DecidableEq, Repr

variable {α : Type*}

namespace Chunk

def stop (c : Chunk α) : Nat := c.offset + c.data.length

def get (c : Chunk α) (i : Nat) : Option α := if c.offset ≤ i then c.data[i - c.offset]? else none

lemma get_eq_none_iff (c : Chunk α) (i : Nat) : c.get i = none ↔ i < c.offset ∨ c.stop ≤ i := by
  unfold get stop
  by_cases h : c.offset ≤ i
  · rw [if_pos h, List.getElem?_eq_none_iff]
    omega
  · rw [if_neg h]
    simp only [true_iff]
    omega

lemma get_nil (s i : Nat) : (⟨s, []⟩ : Chunk α).get i = none := by
  simp [get]

lemma get_take (s k : Nat) (d : List α) (i : Nat) :
    (⟨s, d.take k⟩ : Chunk α).get i = if i < s + k then (⟨s, d⟩ : Chunk α).get i else none := by
  unfold get
  by_cases h : s ≤ i
  · simp only [h, if_true, List.getElem?_take]
    have hiff : i - s < k ↔ i < s + k := by omega
    simp only [hiff]
  · simp [h]

lemma get_drop (s k : Nat) (d : List α) (i : Nat) :
    (⟨s + k, d.drop k⟩ : Chunk α).get i = if s + k ≤ i then (⟨s, d⟩ : Chunk α).get i else none := by
  unfold get
  by_cases h : s + k ≤ i
  · have hs : s ≤ i := by omega
    have hidx : k + (i - (s + k)) = i - s := by omega
    simp only [h, hs, if_true, List.getElem?_drop, hidx]
  · simp [h]

lemma get_split (s k : Nat) (d : List α) (i : Nat) :
    (⟨s, d⟩ : Chunk α).get i =
      ((⟨s, d.take k⟩ : Chunk α).get i).or ((⟨s + k, d.drop k⟩ : Chunk α).get i) := by
  rw [get_take, get_drop]
  by_cases h : i < s + k
  · rw [if_pos h, if_neg (by omega), Option.or_none]
  · rw [if_neg h, if_pos (by omega), Option.none_or]

end Chunk

def lookup (l : List (Chunk α)) (i : Nat) : Option α := l.findSome? (fun c => c.get i)

structure Apart (l : List (Chunk α)) : Prop where
  ordered : l.Pairwise (fun c d => c.stop ≤ d.offset)
  nonempty : ∀ c ∈ l, c.data ≠ []

@[simp] lemma lookup_nil (i : Nat) : lookup ([] : List (Chunk α)) i = none := rfl

lemma lookup_append (l r : List (Chunk α)) (i : Nat) :
    lookup (l ++ r) i = (lookup l i).or (lookup r i) := by
  simp [lookup, List.findSome?_append]

lemma lookup_cons (c : Chunk α) (l : List (Chunk α)) (i : Nat) :
    lookup (c :: l) i = (c.get i).or (lookup l i) := by
  rw [← List.singleton_append, lookup_append]
  congr 1
  simp [lookup]

variable {i : Nat} {l : List (Chunk α)} {c : Chunk α}

lemma lookup_eq_none (h : ∀ c ∈ l, c.get i = none) : lookup l i = none := by
  rw [lookup, List.findSome?_eq_none_iff]
  exact h

lemma Chunk.offset_lt_stop (h : c.data ≠ []) : c.offset < c.stop := by
  have := List.length_pos_iff.mpr h
  unfold stop
  omega

namespace Apart

variable {l A B : List (Chunk α)} {c : Chunk α}

lemma nil : Apart ([] : List (Chunk α)) := ⟨List.Pairwise.nil, by simp⟩

lemma right (h : Apart (A ++ B)) : Apart B :=
  ⟨(List.pairwise_append.mp h.ordered).2.1, fun c hc => h.nonempty c (by simp [hc])⟩

lemma increasing (h : Apart l) : l.Pairwise (fun c d => c.offset < d.offset) := by
  refine List.Pairwise.imp_of_mem (fun hc _ hcd => ?_) h.ordered
  exact lt_of_lt_of_le (Chunk.offset_lt_stop (h.nonempty _ hc)) hcd

lemma insert (h : Apart (A ++ B)) (hc : c.data ≠ []) (hA : ∀ a ∈ A, a.stop ≤ c.offset)
    (hB : ∀ b ∈ B, c.stop ≤ b.offset) : Apart (A ++ c :: B) := by
  have hord := List.pairwise_append.mp h.ordered
  refine ⟨List.pairwise_append.mpr ⟨hord.1, List.pairwise_cons.mpr ⟨hB, hord.2.1⟩, fun a ha b hb => ?_⟩,
    fun d hd => ?_⟩
  · rcases List.mem_cons.mp hb with rfl | hb
    · exact hA a ha
    · exact hord.2.2 a ha b hb
  · rcases List.mem_append.mp hd with hd | hd
    · exact h.nonempty d (by simp [hd])
    · rcases List.mem_cons.mp hd with rfl | hd
      · exact hc
      · exact h.nonempty d (by simp [hd])

end Apart

/-- Storing a chunk before the chunks that start behind it. -/
theorem lookup_insert {A B : List (Chunk α)} (hB : ∀ b ∈ B, c.stop ≤ b.offset) (i : Nat) :
    lookup (A ++ c :: B) i = (lookup (A ++ B) i).or (c.get i) := by
  rw [lookup_append, lookup_append, lookup_cons, Option.or_assoc]
  congr 1
  cases hc : c.get i with
  | none => simp
  | some x =>
    have hnone : lookup B i = none := by
      refine lookup_eq_none (fun b hb => (b.get_eq_none_iff i).mpr (.inl ?_))
      have hin : ¬(i < c.offset ∨ c.stop ≤ i) := fun h => by simp [(c.get_eq_none_iff i).mpr h] at hc
      have := hB b hb
      omega
    rw [hnone]
    simp

lemma lookup_isSome_of_mem (hc : c ∈ l) (h₁ : c.offset ≤ i) (h₂ : i < c.stop) : (lookup l i).isSome := by
  rw [Option.isSome_iff_ne_none]
  intro hnone
  rw [lookup, List.findSome?_eq_none_iff] at hnone
  have := (c.get_eq_none_iff i).mp (hnone c hc)
  omega

end Dquic.Lib
