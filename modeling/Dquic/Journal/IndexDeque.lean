import Mathlib.Data.List.ReduceOption
import Dquic.Basic

/-!
# A queue indexed by the order of entry

`IndexDeque` of `qbase/src/util/index_deque.rs`, and the slots of the sent journal on top of it:
an element keeps its index while those before it leave.
-/

namespace Dquic

structure IndexDeque (α : Type) (limit : Nat) where
  deque : List α
  offset : Nat

namespace IndexDeque

variable {α φ : Type} {limit : Nat}

def empty : IndexDeque α limit := ⟨[], 0⟩

def largest (d : IndexDeque α limit) : Option Nat := checkedAdd d.offset d.deque.length

/-- `none` below the first index and behind the last one, where indexing panics. -/
def get (d : IndexDeque α limit) (idx : Nat) : Option α := if d.offset ≤ idx then d.deque[idx - d.offset]? else none

def set (d : IndexDeque α limit) (idx : Nat) (a : α) : IndexDeque α limit :=
  { d with deque := d.deque.set (idx - d.offset) a }

/-- `none` stands for the error of an index above the limit. -/
def pushBack (d : IndexDeque α limit) (a : α) : Option (IndexDeque α limit) :=
  if d.offset + d.deque.length < 2 ^ 64 ∧ d.offset + d.deque.length ≤ limit then
    some { d with deque := d.deque ++ [a] }
  else none

def pushAll (d : IndexDeque α limit) : List α → Option (IndexDeque α limit)
  | [] => some d
  | a :: as => do pushAll (← d.pushBack a) as

def reclaim (d : IndexDeque (Option φ) limit) : IndexDeque (Option φ) limit :=
  go d.deque d.offset
where
  go : List (Option φ) → Nat → IndexDeque (Option φ) limit
    | none :: l, offset => go l (offset + 1)
    | l, offset => ⟨l, offset⟩

/-- `advance` panics behind the last element. -/
def advance (d : IndexDeque α limit) (n : Nat) : Option (IndexDeque α limit) :=
  if n ≤ d.deque.length then some ⟨d.deque.drop n, d.offset + n⟩ else none

/-- `drain_to`, with its debug assertion. -/
def drainTo (d : IndexDeque α limit) (stop : Nat) : Option (List α × IndexDeque α limit) :=
  if d.offset ≤ stop ∧ stop ≤ d.offset + d.deque.length then
    some (d.deque.take (stop - d.offset), ⟨d.deque.drop (stop - d.offset), stop⟩)
  else none

def resetOffset (d : IndexDeque α limit) (offset : Nat) : IndexDeque α limit := { d with offset := offset }

/-- Take the elements of `n` slots from `start` on. -/
def takeSlots (d : IndexDeque (Option φ) limit) (start : Nat) : Nat → Option (List φ × IndexDeque (Option φ) limit)
  | 0 => some ([], d)
  | n + 1 => do
    let slot ← d.get start
    let frame ← slot
    let (frames, d) ← takeSlots (d.set start none) (start + 1) n
    some (frame :: frames, d)

/-- Look at the elements of `n` slots from `start` on. -/
def readSlots (d : IndexDeque (Option φ) limit) (start : Nat) : Nat → Option (List φ)
  | 0 => some []
  | n + 1 => do
    let slot ← d.get start
    let frame ← slot
    let frames ← d.readSlots (start + 1) n
    some (frame :: frames)

/-! ### Slots -/

def slot (d : IndexDeque (Option φ) limit) (i : Nat) : Option φ := (d.get i).join

def next (d : IndexDeque α limit) : Nat := d.offset + d.deque.length

variable {d d' : IndexDeque (Option φ) limit}

variable {n i : Nat} {f : φ} {a : α} {as : List α}

lemma largest_eq_some {d : IndexDeque α limit} (h : d.largest = some n) : n = d.next := checkedAdd_eq_some h

lemma get_of_slot (h : d.slot i = some f) : d.get i = some (some f) := by
  unfold slot at h
  cases hget : d.get i with
  | none =>
    rw [hget] at h
    cases h
  | some s =>
    rw [hget] at h
    change s = some f at h
    rw [h]

lemma slot_lt (h : d.slot i = some f) : d.offset ≤ i ∧ i < d.next := by
  have hget := get_of_slot h
  unfold get at hget
  split at hget
  · rename_i hle
    obtain ⟨hlt, -⟩ := List.getElem?_eq_some_iff.mp hget
    unfold next
    omega
  · cases hget

@[simp] lemma next_set (i : Nat) (a : α) (d : IndexDeque α limit) : (d.set i a).next = d.next := by
  simp [next, set]

lemma slot_set_none (hle : d.offset ≤ i) (k : Nat) : (d.set i none).slot k = if k = i then none else d.slot k := by
  unfold slot get set
  change (if d.offset ≤ k then (d.deque.set (i - d.offset) none)[k - d.offset]? else none).join = _
  by_cases hk : k = i
  · subst hk
    rw [if_pos hle, if_pos rfl, List.getElem?_set_self']
    cases d.deque[k - d.offset]? <;> rfl
  · rw [if_neg hk]
    by_cases hok : d.offset ≤ k
    · rw [if_pos hok, if_pos hok, List.getElem?_set_ne (by omega)]
    · rw [if_neg hok, if_neg hok]

lemma pushBack_eq_some {d d' : IndexDeque α limit} (h : d.pushBack a = some d') :
    d' = ⟨d.deque ++ [a], d.offset⟩ ∧ d.next ≤ limit := by
  unfold pushBack at h
  split_ifs at h with hle
  cases h
  exact ⟨rfl, hle.2⟩

lemma pushBack_slot (h : d.pushBack (some f) = some d') :
    d'.next = d.next + 1 ∧ ∀ k, d'.slot k = if k = d.next then some f else d.slot k := by
  obtain ⟨rfl, -⟩ := pushBack_eq_some h
  refine ⟨by simp [next]; omega, fun k => ?_⟩
  unfold slot get next
  change (if d.offset ≤ k then (d.deque ++ [some f])[k - d.offset]? else none).join = _
  by_cases hk : k = d.offset + d.deque.length
  · subst hk
    simp
  · rw [if_neg hk]
    by_cases hok : d.offset ≤ k
    · rw [if_pos hok, if_pos hok]
      by_cases hlt : k - d.offset < d.deque.length
      · rw [List.getElem?_append_left hlt]
      · rw [List.getElem?_eq_none (by simp; omega), List.getElem?_eq_none (by omega)]
    · rw [if_neg hok, if_neg hok]

lemma pushAll_slot {fs : List φ} (h : d.pushAll (fs.map some) = some d') :
    d'.next = d.next + fs.length ∧
      ∀ k, d'.slot k = if d.next ≤ k ∧ k < d.next + fs.length then fs[k - d.next]? else d.slot k := by
  induction fs generalizing d with
  | nil =>
    cases h
    refine ⟨rfl, fun k => ?_⟩
    rw [if_neg]
    simp only [List.length_nil]
    omega
  | cons f fs ih =>
    obtain ⟨d₁, hd₁, h⟩ := of_bind h
    obtain ⟨hnext₁, hslot₁⟩ := pushBack_slot hd₁
    obtain ⟨hnext, hslot⟩ := ih h
    refine ⟨by rw [hnext, hnext₁, List.length_cons]; omega, fun k => ?_⟩
    rw [hslot, hnext₁, List.length_cons]
    rcases lt_trichotomy k d.next with hlt | rfl | hgt
    · rw [if_neg (by omega), if_neg (by omega), hslot₁, if_neg (by omega)]
    · rw [if_neg (by omega), if_pos (by omega), hslot₁, if_pos rfl, Nat.sub_self]
      rfl
    · by_cases hin : k < d.next + (fs.length + 1)
      · rw [if_pos (by omega), if_pos (by omega)]
        have hpred : k - d.next = k - (d.next + 1) + 1 := by omega
        rw [hpred, List.getElem?_cons_succ]
      · rw [if_neg (by omega), if_neg (by omega), hslot₁, if_neg (by omega)]

lemma pushAll_isSome (hlimit : 2 ^ 64 ≤ limit + 1) {d : IndexDeque α limit} (h : d.next + as.length < 2 ^ 64) :
    (d.pushAll as).isSome := by
  induction as generalizing d with
  | nil => rfl
  | cons a as ih =>
    rw [List.length_cons] at h
    have hnext := h
    unfold next at hnext
    have hpush : d.pushBack a = some { d with deque := d.deque ++ [a] } := if_pos ⟨by omega, by omega⟩
    unfold pushAll
    rw [hpush]
    apply ih
    simp only [next, List.length_append, List.length_singleton] at h ⊢
    omega

lemma pushBack_of_le (hlimit : limit < 2 ^ 64) {d : IndexDeque α limit} (h : d.next ≤ limit) (a : α) :
    d.pushBack a = some ⟨d.deque ++ [a], d.offset⟩ := by
  unfold next at h
  exact if_pos ⟨by omega, h⟩

lemma pushAll_of_le (hlimit : limit < 2 ^ 64) {d : IndexDeque α limit} (h : d.next + as.length ≤ limit + 1) :
    d.pushAll as = some ⟨d.deque ++ as, d.offset⟩ := by
  induction as generalizing d with
  | nil => rw [pushAll, List.append_nil]
  | cons a as ih =>
    rw [List.length_cons] at h
    rw [pushAll, pushBack_of_le hlimit (by omega)]
    change pushAll ⟨d.deque ++ [a], d.offset⟩ as = _
    rw [ih, List.append_assoc]
    · rfl
    · simp only [next, List.length_append, List.length_singleton] at h ⊢
      omega

lemma get_of_drop {d : IndexDeque α limit} {l : List α} (h : d.deque = l.drop d.offset) (i : Nat) :
    d.get i = if d.offset ≤ i then l[i]? else none := by
  unfold get
  split_ifs with hle
  · rw [h, List.getElem?_drop, Nat.add_sub_cancel' hle]
  · rfl

lemma get_iff_of_run {d : IndexDeque α limit} {key : α → Nat}
    (hrun : d.deque.map key = List.range' d.offset d.deque.length) : d.get i = some a ↔ a ∈ d.deque ∧ key a = i := by
  have hkey : ∀ k b, d.deque[k]? = some b → key b = d.offset + k := by
    intro k b hb
    have hlt := (List.getElem?_eq_some_iff.mp hb).1
    have hmap : (d.deque.map key)[k]? = some (key b) := by rw [List.getElem?_map, hb, Option.map_some]
    rw [hrun, List.getElem?_range' hlt] at hmap
    exact (Option.some.inj hmap).symm.trans (by rw [Nat.one_mul])
  unfold get
  constructor
  · intro h
    split_ifs at h with hle
    have hk := hkey _ _ h
    exact ⟨List.mem_of_getElem? h, by omega⟩
  · rintro ⟨hmem, rfl⟩
    obtain ⟨k, hk⟩ := List.mem_iff_getElem?.mp hmem
    rw [hkey k a hk, if_pos (Nat.le_add_right _ _), Nat.add_sub_cancel_left]
    exact hk

lemma reclaim_go_slot (l : List (Option φ)) (offset : Nat) :
    (reclaim.go l offset : IndexDeque (Option φ) limit).next = offset + l.length ∧
      ∀ k, (reclaim.go l offset : IndexDeque (Option φ) limit).slot k = (⟨l, offset⟩ : IndexDeque (Option φ) limit).slot k := by
  induction l generalizing offset with
  | nil => exact ⟨rfl, fun _ => rfl⟩
  | cons s l ih =>
    cases s with
    | some f => exact ⟨rfl, fun _ => rfl⟩
    | none =>
      obtain ⟨hnext, hslot⟩ := ih (offset + 1)
      refine ⟨by rw [reclaim.go, hnext, List.length_cons]; omega, fun k => ?_⟩
      rw [reclaim.go, hslot]
      unfold slot get
      change (if offset + 1 ≤ k then l[k - (offset + 1)]? else none).join =
        (if offset ≤ k then (none :: l)[k - offset]? else none).join
      rcases lt_trichotomy k offset with hlt | rfl | hgt
      · rw [if_neg (by omega), if_neg (by omega)]
      · simp
      · have hpred : k - offset = k - (offset + 1) + 1 := by omega
        rw [if_pos (by omega), if_pos (by omega), hpred, List.getElem?_cons_succ]

lemma reclaim_slot (d : IndexDeque (Option φ) limit) :
    d.reclaim.next = d.next ∧ ∀ k, d.reclaim.slot k = d.slot k := reclaim_go_slot d.deque d.offset

lemma reclaim_go_advance (l : List (Option φ)) (offset : Nat) :
    (reclaim.go l offset : IndexDeque (Option φ) limit) =
      ⟨l.drop (l.takeWhile Option.isNone).length, offset + (l.takeWhile Option.isNone).length⟩ := by
  induction l generalizing offset with
  | nil => rfl
  | cons s l ih =>
    cases s with
    | some f => rfl
    | none =>
      rw [reclaim.go, ih, List.takeWhile_cons_of_pos rfl, List.length_cons, List.drop_succ_cons]
      congr 1
      omega

lemma advance_takeWhile (d : IndexDeque (Option φ) limit) :
    d.advance (d.deque.takeWhile Option.isNone).length = some d.reclaim := by
  have hle : (d.deque.takeWhile Option.isNone).length ≤ d.deque.length := (List.takeWhile_prefix _).length_le
  rw [advance, if_pos hle, reclaim, reclaim_go_advance]

lemma offset_le_reclaim (d : IndexDeque (Option φ) limit) : d.offset ≤ d.reclaim.offset := by
  rw [reclaim, reclaim_go_advance]
  exact Nat.le_add_right _ _

lemma reclaim_reduceOption (d : IndexDeque (Option φ) limit) : d.reclaim.deque.reduceOption = d.deque.reduceOption := by
  unfold reclaim
  generalize d.offset = offset
  induction d.deque generalizing offset with
  | nil => rfl
  | cons s l ih =>
    cases s with
    | some f => rfl
    | none =>
      rw [reclaim.go, ih, List.reduceOption_cons_of_none]

lemma takeSlots_of_filled {start : Nat} (h : ∀ i, start ≤ i → i < start + n → (d.slot i).isSome) :
    ∃ fs d', d.takeSlots start n = some (fs, d') ∧ d.readSlots start n = some fs ∧ d'.next = d.next ∧
      (∀ k, d'.slot k = if start ≤ k ∧ k < start + n then none else d.slot k) ∧
      fs.length = n ∧ ∀ k < n, d.slot (start + k) = fs[k]? := by
  induction n generalizing d start with
  | zero => exact ⟨[], d, rfl, rfl, rfl, fun k => by rw [if_neg (by omega)], rfl, fun k hk => absurd hk (Nat.not_lt_zero k)⟩
  | succ n ih =>
    obtain ⟨f, hf⟩ := Option.isSome_iff_exists.mp (h start le_rfl (by omega))
    have hget := get_of_slot hf
    have hle := (slot_lt hf).1
    have hset := slot_set_none (d := d) hle
    have hrest : ∀ i, start + 1 ≤ i → i < start + 1 + n → (d.slot i).isSome := fun i hi hlt => h i (by omega) (by omega)
    have hcleared : ∀ i, start + 1 ≤ i → i < start + 1 + n → ((d.set start none).slot i).isSome := by
      intro i hi hlt
      rw [hset, if_neg (by omega)]
      exact hrest i hi hlt
    obtain ⟨fs, d', htake, -, hnext, hslot, hlen, hfs⟩ := ih hcleared
    obtain ⟨fs', -, -, hread, -, -, hlen', hfs'⟩ := ih hrest
    have hsame : fs' = fs := by
      apply List.ext_getElem?
      intro k
      by_cases hk : k < n
      · rw [← hfs k hk, ← hfs' k hk, hset, if_neg (by omega)]
      · rw [List.getElem?_eq_none (by omega), List.getElem?_eq_none (by omega)]
    refine ⟨f :: fs, d', ?_, ?_, by rw [hnext, next_set], fun k => ?_, by rw [List.length_cons, hlen], fun k hk => ?_⟩
    · simp only [takeSlots, hget, htake, some_bind]
    · simp only [readSlots, hget, hread, hsame, some_bind]
    · rw [hslot, hset]
      by_cases hk : k = start
      · rw [if_neg (by omega), if_pos hk, if_pos (by omega)]
      · by_cases hin : start ≤ k ∧ k < start + (n + 1)
        · rw [if_pos (by omega), if_pos hin]
        · rw [if_neg (by omega), if_neg hk, if_neg hin]
    · cases k with
      | zero => exact hf
      | succ k =>
        have hshift : start + (k + 1) = start + 1 + k := by omega
        rw [hshift, List.getElem?_cons_succ, ← hfs k (by omega), hset, if_neg (by omega)]

end IndexDeque

end Dquic
