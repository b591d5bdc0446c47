import Dquic.Lib.Spans
import Dquic.Packet.Number

/-!
# The journal of received packets

`ReceivedPacketRanges` and `RcvdJournal` of `qrecovery/src/journal/rcvd.rs`. Received packet
numbers are kept as ranges, at most 256 of them.
-/

namespace Dquic

open Lib

inductive InvalidPacketNumber
  | tooOld
  | tooLarge
  | duplicate
  deriving DecidableEq, Repr

/-- `slice::partition_point`, on a slice that has the elements with the property in front. -/
def partitionPoint {α : Type} (p : α → Bool) (l : List α) : Nat := (l.takeWhile p).length

structure ReceivedPacketRanges where
  ranges : List Span
  retiredBefore : Nat
  largestReceived : Option (Nat × Nat)
  deriving DecidableEq, Repr

namespace ReceivedPacketRanges

def maxTrackedAckRanges : Nat := 256

def empty : ReceivedPacketRanges := ⟨[], 0, none⟩

def rangeContaining (p : ReceivedPacketRanges) (pn : Nat) : Option Nat :=
  let index := partitionPoint (fun range => decide (range.stop ≤ pn)) p.ranges
  match p.ranges[index]? with
  | some range => if range.Mem pn then some index else none
  | none => none

def contains (p : ReceivedPacketRanges) (pn : Nat) : Bool :=
  match p.ranges[partitionPoint (fun range => decide (range.stop ≤ pn)) p.ranges]? with
  | some range => decide (range.Mem pn)
  | none => false

/-- The ranges after `pn..end` went in: into the range that ends at it, joined with the next one if they meet, into
the range that starts right after it, or between two ranges. -/
def insertRange (ranges : List Span) (pn insertedEnd : Nat) : List Span :=
  let index := partitionPoint (fun range => decide (range.stop < pn)) ranges
  match ranges[index]? with
  | none => ranges.insertIdx index ⟨pn, insertedEnd⟩
  | some range =>
    if range.stop = pn then
      match ranges[index + 1]? with
      | some next =>
        if next.start ≤ insertedEnd then
          (ranges.set index ⟨range.start, max insertedEnd next.stop⟩).eraseIdx (index + 1)
        else ranges.set index ⟨range.start, insertedEnd⟩
      | none => ranges.set index ⟨range.start, insertedEnd⟩
    else if range.start = insertedEnd then ranges.set index ⟨pn, range.stop⟩
    else ranges.insertIdx index ⟨pn, insertedEnd⟩

def noteLargest (largest : Option (Nat × Nat)) (pn receivedAt : Nat) : Option (Nat × Nat) :=
  match largest with
  | some (old, at') => if old < pn then some (pn, receivedAt) else some (old, at')
  | none => some (pn, receivedAt)

def evict (p : ReceivedPacketRanges) : ReceivedPacketRanges :=
  match p.ranges with
  | evicted :: ranges =>
    if maxTrackedAckRanges < p.ranges.length then
      { p with ranges := ranges, retiredBefore := max p.retiredBefore evicted.stop }
    else p
  | [] => p

def insert (p : ReceivedPacketRanges) (pn receivedAt : Nat) : Option (Bool × ReceivedPacketRanges) :=
  if pn < p.retiredBefore ∨ p.contains pn then some (false, p)
  else do
    let insertedEnd ← checkedAdd pn 1
    some (true, evict
      { p with
        ranges := insertRange p.ranges pn insertedEnd
        largestReceived := noteLargest p.largestReceived pn receivedAt })

/-! ### Ranges as a set of numbers -/

variable {α : Type} {p : ReceivedPacketRanges} {pn : Nat}

lemma partitionPoint_cons_of {p : α → Bool} {a : α} (h : p a = true) (l : List α) :
    partitionPoint p (a :: l) = partitionPoint p l + 1 := by
  simp [partitionPoint, h]

lemma partitionPoint_cons_of_not {p : α → Bool} {a : α} (h : ¬ p a = true) (l : List α) :
    partitionPoint p (a :: l) = 0 := by
  simp [partitionPoint, h]

/-- The range found for a number is the one that has it, and the ranges before it are those below. -/
lemma rangeContaining_eq_some {index : Nat} (h : p.rangeContaining pn = some index) :
    ∃ range, p.ranges[index]? = some range ∧ range.Mem pn := by
  unfold rangeContaining at h
  dsimp only at h
  split at h
  · rename_i range hrange
    split at h
    · rename_i hmem
      cases h
      exact ⟨range, hrange, hmem⟩
    · cases h
  · cases h

lemma contains_eq (p : ReceivedPacketRanges) (pn : Nat) : p.contains pn = (p.rangeContaining pn).isSome := by
  unfold contains rangeContaining
  dsimp only
  split
  · split
    · rename_i hmem
      exact decide_eq_true hmem
    · rename_i hmem
      exact decide_eq_false hmem
  · rfl

/-- Searching for the range of a number finds it, as long as the ranges are in order. -/
lemma find_of_covers {ranges : List Span} (h : Spans.Apart ranges) (hc : Spans.Covers ranges pn) :
    ∃ range, ranges[partitionPoint (fun range => decide (range.stop ≤ pn)) ranges]? = some range ∧ range.Mem pn := by
  induction ranges with
  | nil => exact absurd hc (Spans.not_covers_nil pn)
  | cons s l ih =>
    by_cases hs : s.stop ≤ pn
    · have hl : Spans.Covers l pn := by
        rcases Spans.covers_cons.mp hc with hmem | hl
        · exact absurd hmem.2 (by omega)
        · exact hl
      obtain ⟨range, hrange, hmem⟩ := ih h.tail hl
      rw [partitionPoint_cons_of (by simpa using hs), List.getElem?_cons_succ]
      exact ⟨range, hrange, hmem⟩
    · rw [partitionPoint_cons_of_not (by simpa using hs), List.getElem?_cons_zero]
      rcases Spans.covers_cons.mp hc with hmem | hl
      · exact ⟨s, rfl, hmem⟩
      · have := h.lt_of_covers hl
        omega

theorem contains_iff (h : Spans.Apart p.ranges) (pn : Nat) : p.contains pn = true ↔ Spans.Covers p.ranges pn := by
  constructor
  · intro hc
    rw [contains_eq, Option.isSome_iff_exists] at hc
    obtain ⟨index, hindex⟩ := hc
    obtain ⟨range, hrange, hmem⟩ := rangeContaining_eq_some hindex
    exact ⟨range, List.mem_of_getElem? hrange, hmem⟩
  · intro hc
    obtain ⟨range, hrange, hmem⟩ := find_of_covers h hc
    unfold contains
    rw [hrange]
    exact decide_eq_true hmem

/-- The update in place is the insertion of one number. -/
theorem insertRange_eq (ranges : List Span) (pn : Nat) : insertRange ranges pn (pn + 1) = Spans.add pn ranges := by
  induction ranges with
  | nil => rfl
  | cons s l ih =>
    unfold insertRange
    dsimp only
    by_cases hlt : s.stop < pn
    · rw [partitionPoint_cons_of (by simpa using hlt), List.getElem?_cons_succ, Spans.add_cons_of_lt hlt, ← ih]
      unfold insertRange
      dsimp only
      cases hrange : l[partitionPoint (fun range => decide (range.stop < pn)) l]? with
      | none => rfl
      | some range =>
        dsimp only
        split
        · rw [List.getElem?_cons_succ]
          split
          · split
            · rfl
            · rfl
          · rfl
        · split
          · rfl
          · rfl
    · rw [partitionPoint_cons_of_not (by simpa using hlt), List.getElem?_cons_zero, Spans.add.eq_def]
      dsimp only
      rw [if_neg hlt]
      split
      · cases l with
        | nil => rfl
        | cons t l => rfl
      · split
        · rfl
        · rfl

end ReceivedPacketRanges

structure RcvdJournal where
  packets : ReceivedPacketRanges
  largestAuthenticated : Option Nat
  deriving DecidableEq, Repr

namespace RcvdJournal

def empty : RcvdJournal := ⟨.empty, none⟩

def expectedPn (j : RcvdJournal) : Option Nat :=
  match j.largestAuthenticated with
  | some largest => checkedAdd largest 1
  | none => some 0

def decodePn (j : RcvdJournal) (number : PacketNumber) : Option (Except InvalidPacketNumber Nat) := do
  let expected ← j.expectedPn
  let pn ← number.decode expected
  if varintMax < pn then some (.error .tooLarge)
  else if pn < j.packets.retiredBefore then some (.error .tooOld)
  else if j.packets.contains pn then some (.error .duplicate)
  else some (.ok pn)

def onAuthenticated (j : RcvdJournal) (pn : Nat) : RcvdJournal :=
  { j with
    largestAuthenticated :=
      match j.largestAuthenticated with
      | some largest => some (max largest pn)
      | none => some pn }

def onRcvdPn (j : RcvdJournal) (pn now : Nat) : Option RcvdJournal := do
  let j := j.onAuthenticated pn
  let (_, packets) ← j.packets.insert pn now
  some { j with packets := packets }

@[simp] lemma onAuthenticated_packets (j : RcvdJournal) (pn : Nat) : (j.onAuthenticated pn).packets = j.packets := rfl

lemma onRcvdPn_eq {j : RcvdJournal} {pn now : Nat} {fresh : Bool} {packets : ReceivedPacketRanges}
    (h : j.packets.insert pn now = some (fresh, packets)) :
    j.onRcvdPn pn now = some { j.onAuthenticated pn with packets := packets } := by
  unfold onRcvdPn
  simp only [onAuthenticated_packets, h, some_bind]

end RcvdJournal

end Dquic
