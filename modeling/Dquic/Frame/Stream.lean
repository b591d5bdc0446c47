import Dquic.Basic

/-!
# STREAM frames

`StreamFrame` of `qbase/src/frame/stream.rs`: how much of a packet it takes, and how its encoding
is chosen for the room that is left.
-/

namespace Dquic

/-- `VarInt`, an integer that fits the 62-bit encoding. -/
structure VarInt where
  val : Nat
  lt : val < 2 ^ 62
  deriving DecidableEq, Repr

namespace VarInt

def fromU64 (n : Nat) : Option VarInt := if h : n < 2 ^ 62 then some ⟨n, h⟩ else none

/-- Bytes that an integer below `2^62` is encoded in. -/
def sizeOf (x : Nat) : Nat := if x < 2 ^ 6 then 1 else if x < 2 ^ 14 then 2 else if x < 2 ^ 30 then 4 else 8

def encodingSize (v : VarInt) : Nat := sizeOf v.val

lemma fromU64_of_lt {n : Nat} (h : n < 2 ^ 62) : fromU64 n = some ⟨n, h⟩ := dif_pos h

lemma val_of_fromU64 {n : Nat} {v : VarInt} (h : fromU64 n = some v) : v.val = n := by
  unfold fromU64 at h
  split at h
  · cases h
    rfl
  · cases h

lemma sizeOf_mono {a b : Nat} (h : a ≤ b) : sizeOf a ≤ sizeOf b := by
  unfold sizeOf
  split_ifs <;> omega

lemma encodingSize_le (v : VarInt) : v.encodingSize ≤ 8 := by
  unfold encodingSize sizeOf
  split_ifs <;> decide

lemma encodingSize_pos (v : VarInt) : 0 < v.encodingSize := by
  unfold encodingSize sizeOf
  split_ifs <;> decide

end VarInt

structure StreamId where
  raw : VarInt
  deriving DecidableEq, Repr

def StreamId.encodingSize (sid : StreamId) : Nat := sid.raw.encodingSize

inductive Len
  | explicit
  | omitted
  deriving DecidableEq, Repr

structure StreamFrame where
  id : StreamId
  offset : VarInt
  length : Nat
  lenBit : Len
  finBit : Bool
  deriving DecidableEq, Repr

def streamFrameMaxEncodingSize : Nat := 1 + 8 + 8 + 8

/-- `EncodingStrategy`. -/
structure EncodingStrategy where
  lenBit : Len
  prePadding : Nat
  deriving DecidableEq, Repr

namespace StreamFrame

def new (id : StreamId) (offset length : Nat) : Option StreamFrame := do
  let offset ← VarInt.fromU64 offset
  some ⟨id, offset, length, .omitted, false⟩

def isFin (f : StreamFrame) : Bool := f.finBit

def range (f : StreamFrame) : Range := ⟨f.offset.val, f.offset.val + f.length⟩

def setEosFlag (f : StreamFrame) (isEos : Bool) : StreamFrame := { f with finBit := isEos }

def setLenBit (f : StreamFrame) (lenBit : Len) : StreamFrame := { f with lenBit := lenBit }

/-- The header. The length, when it is written, must fit a `VarInt`. -/
def encodingSize (f : StreamFrame) : Option Nat := do
  let length ← if f.lenBit = .explicit then (VarInt.fromU64 f.length).map VarInt.encodingSize else some 0
  some (1 + f.id.encodingSize + (if f.offset.val ≠ 0 then f.offset.encodingSize else 0) + length)

/-- Write the length unless only the data fits, and pad in front of the frame where no other
frame would fit behind it. -/
def encodingStrategy (f : StreamFrame) (capacity : Nat) : Option EncodingStrategy := do
  debugAssert (f.lenBit = .omitted)
  let size ← f.encodingSize
  debugAssert (size + f.length ≤ capacity)
  let lenSize ← (VarInt.fromU64 f.length).map VarInt.encodingSize
  let remaining := capacity - (size + f.length)
  if lenSize ≤ remaining then
    let remaining := remaining - lenSize
    if remaining < streamFrameMaxEncodingSize then some ⟨.explicit, remaining⟩ else some ⟨.explicit, 0⟩
  else some ⟨.omitted, remaining⟩

/-- What the header takes without the length. -/
def least (sid : StreamId) (offset : Nat) : Nat :=
  1 + sid.encodingSize + if offset ≠ 0 then VarInt.sizeOf offset else 0

/-- How many bytes a frame at `offset` can carry. The source asserts that the offset fits a `VarInt`. -/
def estimateMaxCapacity (capacity : Nat) (sid : StreamId) (offset : Nat) : Option Nat :=
  if capacity ≤ least sid offset then none else some (capacity - least sid offset)

end StreamFrame

namespace StreamFrame

variable {a b capacity : Nat} {sid : StreamId}

lemma least_mono (sid : StreamId) (h : a ≤ b) : least sid a ≤ least sid b := by
  have hsize := VarInt.sizeOf_mono h
  unfold least
  split_ifs <;> omega

lemma estimateMaxCapacity_pos {offset n : Nat} (h : estimateMaxCapacity capacity sid offset = some n) :
    0 < n ∧ n + least sid offset = capacity := by
  unfold estimateMaxCapacity at h
  split at h
  · cases h
  · obtain rfl := Option.some.inj h
    omega

lemma estimateMaxCapacity_ne_none (h : estimateMaxCapacity capacity sid b ≠ none) (hab : a ≤ b) :
    estimateMaxCapacity capacity sid a ≠ none := by
  have hleast := least_mono sid hab
  unfold estimateMaxCapacity at *
  by_cases hb : capacity ≤ least sid b
  · rw [if_pos hb] at h
    exact absurd rfl h
  · rw [if_neg (by omega)]
    exact Option.some_ne_none _

/-- A frame without its length that fits the room has a strategy, and the strategy fits too. -/
theorem encodingStrategy_fits {f : StreamFrame} (hlen : f.lenBit = .omitted) (hlt : f.length < 2 ^ 62)
    (hfit : least f.id f.offset.val + f.length ≤ capacity) :
    ∃ strategy size, f.encodingStrategy capacity = some strategy ∧
      (f.setLenBit strategy.lenBit).encodingSize = some size ∧
      strategy.prePadding + size + f.length ≤ capacity := by
  have hsize : f.encodingSize = some (least f.id f.offset.val) := by
    simp [encodingSize, hlen, least, VarInt.encodingSize]
  have hlong : (f.setLenBit .explicit).encodingSize =
      some (least f.id f.offset.val + VarInt.sizeOf f.length) := by
    simp only [encodingSize, setLenBit, VarInt.fromU64_of_lt hlt, if_true, Option.map_some]
    rfl
  have hshort : (f.setLenBit .omitted).encodingSize = some (least f.id f.offset.val) := by
    rw [← hsize, setLenBit, ← hlen]
  unfold encodingStrategy
  simp only [hlen, hsize, hfit, debugAssert_of, some_bind,
    VarInt.fromU64_of_lt hlt, Option.map_some, VarInt.encodingSize]
  by_cases hroom : VarInt.sizeOf f.length ≤ capacity - (least f.id f.offset.val + f.length)
  · rw [if_pos hroom]
    by_cases hpad : capacity - (least f.id f.offset.val + f.length) - VarInt.sizeOf f.length <
        streamFrameMaxEncodingSize
    · rw [if_pos hpad]
      refine ⟨_, _, rfl, hlong, ?_⟩
      change capacity - (least f.id f.offset.val + f.length) - VarInt.sizeOf f.length + _ + _ ≤ _
      omega
    · rw [if_neg hpad]
      refine ⟨_, _, rfl, hlong, ?_⟩
      change 0 + _ + _ ≤ _
      omega
  · rw [if_neg hroom]
    refine ⟨_, _, rfl, hshort, ?_⟩
    change capacity - (least f.id f.offset.val + f.length) + _ + _ ≤ _
    omega

end StreamFrame

/-! ### What frames claim -/

def claimedBy : List StreamFrame → Nat
  | [] => 0
  | f :: l => max f.range.stop (claimedBy l)

lemma le_claimedBy {l : List StreamFrame} {f : StreamFrame} (h : f ∈ l) : f.range.stop ≤ claimedBy l := by
  induction l with
  | nil => cases h
  | cons g l ih =>
    unfold claimedBy
    cases List.mem_cons.mp h with
    | inl h => exact h ▸ le_max_left _ _
    | inr h => exact (ih h).trans (le_max_right _ _)

end Dquic
