import Dquic.Frame.Frames

/-!
# The room for a CRYPTO frame

`CryptoFrame::estimate_max_capacity` of `qbase/src/frame/crypto.rs`: how much data a frame at some
offset can carry in the room that is left.
-/

namespace Dquic

namespace CryptoFrame

def encodingSize (f : CryptoFrame) : Nat := 1 + f.offset.encodingSize + f.length.encodingSize

/-- A frame needs a byte for its length and a byte of data at least. Room for `2^30` bytes of data ends in a panic. -/
def estimateMaxCapacity (capacity offset : Nat) : Option (Option Nat) := do
  debugAssert (offset ≤ varintMax)
  let offset ← VarInt.fromU64 offset
  match checkedSub capacity (1 + offset.encodingSize + 2) with
  | none => some none
  | some remaining =>
    if remaining ≤ 62 then some (some (remaining + 1))
    else if remaining ≤ 0x3FFF then some (some remaining)
    -- four bytes for the length would not leave room for as much data
    else if remaining ≤ 0x4001 then some (some 0x3FFF)
    else if remaining ≤ 0x40000001 then some (some (remaining - 2))
    else none

def need (length : Nat) : Nat := VarInt.sizeOf length + length

lemma need_mono {a b : Nat} (h : a ≤ b) : need a ≤ need b := Nat.add_le_add (VarInt.sizeOf_mono h) h

lemma encodingSize_add_length (f : CryptoFrame) :
    f.encodingSize + f.length.val = 1 + f.offset.encodingSize + need f.length.val := by
  unfold encodingSize need VarInt.encodingSize
  omega

variable {capacity : Nat} {offset : VarInt}

lemma estimateMaxCapacity_of_lt (h : capacity < 1 + offset.encodingSize + 2) :
    estimateMaxCapacity capacity offset.val = some none := by
  have hmax : offset.val ≤ varintMax := Nat.le_of_lt_succ offset.lt
  unfold estimateMaxCapacity
  rw [debugAssert_of hmax, VarInt.fromU64_of_lt offset.lt]
  simp only [some_bind]
  rw [checkedSub, if_neg (not_le.mpr h)]

lemma estimateMaxCapacity_add (remaining : Nat) (offset : VarInt) :
    estimateMaxCapacity (1 + offset.encodingSize + 2 + remaining) offset.val =
      if remaining ≤ 62 then some (some (remaining + 1))
      else if remaining ≤ 0x3FFF then some (some remaining)
      else if remaining ≤ 0x4001 then some (some 0x3FFF)
      else if remaining ≤ 0x40000001 then some (some (remaining - 2))
      else none := by
  have hmax : offset.val ≤ varintMax := Nat.le_of_lt_succ offset.lt
  have hsub : checkedSub (1 + offset.encodingSize + 2 + remaining) (1 + offset.encodingSize + 2) = some remaining := by
    rw [checkedSub_of_le (Nat.le_add_right _ _), Nat.add_sub_cancel_left]
  unfold estimateMaxCapacity
  rw [debugAssert_of hmax, VarInt.fromU64_of_lt offset.lt]
  simp only [some_bind]
  rw [hsub]

lemma estimateMaxCapacity_some {n : Nat} (h : estimateMaxCapacity capacity offset.val = some (some n)) :
    1 + offset.encodingSize + need n ≤ capacity ∧ capacity < 1 + offset.encodingSize + need (n + 1) := by
  by_cases hlt : capacity < 1 + offset.encodingSize + 2
  · rw [estimateMaxCapacity_of_lt hlt] at h
    cases h
  · obtain ⟨remaining, rfl⟩ := Nat.exists_eq_add_of_le (not_lt.mp hlt)
    rw [estimateMaxCapacity_add] at h
    unfold need VarInt.sizeOf
    -- on each branch the length of the data and that of one more byte have a known size
    split_ifs at h <;> cases h <;> constructor <;> split_ifs <;> omega

lemma estimateMaxCapacity_none (h : estimateMaxCapacity capacity offset.val = some none) :
    capacity < 1 + offset.encodingSize + need 1 := by
  by_cases hlt : capacity < 1 + offset.encodingSize + 2
  · exact hlt
  · obtain ⟨remaining, rfl⟩ := Nat.exists_eq_add_of_le (not_lt.mp hlt)
    rw [estimateMaxCapacity_add] at h
    split_ifs at h <;> cases h

lemma estimateMaxCapacity_eq_none :
    estimateMaxCapacity capacity offset.val = none ↔ 1 + offset.encodingSize + 2 ^ 30 + 4 ≤ capacity := by
  by_cases hlt : capacity < 1 + offset.encodingSize + 2
  · rw [estimateMaxCapacity_of_lt hlt]
    simp only [reduceCtorEq, false_iff]
    omega
  · obtain ⟨remaining, rfl⟩ := Nat.exists_eq_add_of_le (not_lt.mp hlt)
    rw [estimateMaxCapacity_add]
    split_ifs <;> simp only [true_iff, false_iff] <;> omega

/-- An estimate is sound and maximal: all frames up to it fit, the next one does not, and without an estimate not even
a byte does. There is an estimate or none for every room that cannot hold `2^30` bytes of data. -/
theorem estimateMaxCapacity_exact (capacity : Nat) (offset : VarInt) :
    (∀ n, estimateMaxCapacity capacity offset.val = some (some n) →
      (∀ f : CryptoFrame, f.offset = offset → f.length.val ≤ n → f.encodingSize + f.length.val ≤ capacity) ∧
      ∀ f : CryptoFrame, f.offset = offset → f.length.val = n + 1 → capacity < f.encodingSize + f.length.val) ∧
    (estimateMaxCapacity capacity offset.val = some none →
      ∀ f : CryptoFrame, f.offset = offset → 1 ≤ f.length.val → capacity < f.encodingSize + f.length.val) ∧
    (estimateMaxCapacity capacity offset.val = none ↔ 1 + offset.encodingSize + 2 ^ 30 + 4 ≤ capacity) := by
  refine ⟨?_, ?_, ?_⟩
  · intro n hn
    obtain ⟨hfits, hnext⟩ := estimateMaxCapacity_some hn
    constructor
    · rintro f rfl hle
      have hneed := need_mono hle
      rw [encodingSize_add_length]
      omega
    · rintro f rfl hlen
      rw [encodingSize_add_length, hlen]
      exact hnext
  · rintro hnone f rfl hle
    have hneed := need_mono hle
    have hone := estimateMaxCapacity_none hnone
    rw [encodingSize_add_length]
    omega
  · exact estimateMaxCapacity_eq_none

end CryptoFrame

end Dquic
