import Dquic.Send.Pick

/-!
# The send buffer

`SendBuf` of `qrecovery/src/send/sndbuf.rs`: the written bytes from the first one that is not
acknowledged, in the pieces they were written in, and the colours of all bytes that the limit of
the peer allows to send.
-/

namespace Dquic

open Lib

structure SendBuf where
  offset : Nat
  data : List Bytes
  maxData : Nat
  state : BufMap
  deriving DecidableEq, Repr

namespace SendBuf

def withCapacity (capacity : Nat) : SendBuf := ⟨0, [], capacity, BufMap.empty⟩

def written (b : SendBuf) : Nat := b.offset + (b.data.map List.length).sum

def write (b : SendBuf) (data : Bytes) : Option SendBuf :=
  if data.isEmpty then some b
  else do
    let state ← b.state.extendTo (min (b.written + data.length) b.maxData)
    some { b with state := state, data := b.data ++ [data] }

def extend (b : SendBuf) (maxData : Nat) : Option SendBuf := do
  debugAssert (b.maxData ≤ maxData)
  let state ← b.state.extendTo (min b.written maxData)
  some { b with maxData := maxData, state := state }

def isEmpty (b : SendBuf) : Bool := b.data.isEmpty

def sent (b : SendBuf) : Nat := b.state.sent

def remainingMut (b : SendBuf) : Nat := b.maxData - b.written

def hasRemainingMut (b : SendBuf) : Bool := decide (b.written < b.maxData)

/-- The buffered bytes of a range, piece by piece, with the offset of the next piece. -/
def pieces (range : Range) : Nat → List Bytes → Option (List Bytes)
  | _, [] => some []
  | offset, d :: rest => do
    let tail ← pieces range (offset + d.length) rest
    if range.start < offset + d.length ∧ offset < range.stop then
      if range.start ≤ offset ∧ offset + d.length ≤ range.stop then some (d :: tail)
      else
        let piece ← slice d (range.start - offset) (min range.stop (offset + d.length) - offset)
        some (piece :: tail)
    else some tail

/-- Pick data to send: its range, whether it was never sent before, and the bytes. -/
def pickUp (b : SendBuf) (predicate : Nat → Option Nat) (flowLimit : Nat) :
    Option (Except Poll (Range × Bool × List Bytes) × SendBuf) := do
  let (picked, state) ← b.state.pick predicate flowLimit b.maxData
  match picked with
  | .error availability => some (.error availability, { b with state := state })
  | .ok (range, isFresh) =>
    let data ← pieces range b.offset b.data
    some (.ok (range, isFresh, data), { b with state := state })

def dropFront : Nat → List Bytes → List Bytes
  | _, [] => []
  | drainLen, d :: rest =>
    if drainLen = 0 then d :: rest
    else if d.length ≤ drainLen then dropFront (drainLen - d.length) rest
    else d.drop drainLen :: rest

def onDataAcked (b : SendBuf) (range : Range) : Option SendBuf := do
  let state ← b.state.ackRcvd range
  let (minUnrecvedPos, state) := state.shift
  if b.offset < minUnrecvedPos then
    some { b with offset := minUnrecvedPos, data := dropFront (minUnrecvedPos - b.offset) b.data, state := state }
  else some { b with state := state }

def mayLossData (b : SendBuf) (range : Range) : Option SendBuf := do
  let state ← b.state.mayLoss range
  some { b with state := state }

def multipathHandshake (b : SendBuf) : SendBuf := { b with state := b.state.markFlightingLost }

def isAllRcvd (b : SendBuf) : Bool := b.data.isEmpty

end SendBuf

/-! ### The buffered bytes -/

lemma SendBuf.dropFront_flatten (n : Nat) (l : List Bytes) :
    (SendBuf.dropFront n l).flatten = l.flatten.drop n := by
  induction l generalizing n with
  | nil => simp [SendBuf.dropFront]
  | cons d l ih =>
    unfold SendBuf.dropFront
    by_cases hn : n = 0
    · simp [hn]
    · rw [if_neg hn]
      by_cases hd : d.length ≤ n
      · rw [if_pos hd, ih, List.flatten_cons, List.drop_append, List.drop_eq_nil_of_le hd, List.nil_append]
      · have hzero : n - d.length = 0 := by omega
        rw [if_neg hd, List.flatten_cons, List.flatten_cons, List.drop_append, hzero, List.drop_zero]

lemma SendBuf.dropFront_ne_nil (n : Nat) (l : List Bytes) (h : ∀ d ∈ l, d ≠ []) :
    ∀ d ∈ SendBuf.dropFront n l, d ≠ [] := by
  induction l generalizing n with
  | nil => simp [SendBuf.dropFront]
  | cons d l ih =>
    unfold SendBuf.dropFront
    by_cases hn : n = 0
    · rwa [if_pos hn]
    · rw [if_neg hn]
      by_cases hd : d.length ≤ n
      · rw [if_pos hd]
        exact ih _ (fun e he => h e (by simp [he]))
      · rw [if_neg hd]
        intro e he
        rcases List.mem_cons.mp he with rfl | he
        · intro hnil
          exact hd (List.drop_eq_nil_iff.mp hnil)
        · exact h e (by simp [he])

/-- The pieces of a range put together are the buffered bytes of the range. -/
theorem SendBuf.pieces_flatten (range : Range) (hr : range.start ≤ range.stop) (offset : Nat) (l : List Bytes) :
    ∃ ps, SendBuf.pieces range offset l = some ps ∧
      ps.flatten = (l.flatten.take (range.stop - offset)).drop (range.start - offset) := by
  induction l generalizing offset with
  | nil => exact ⟨[], rfl, by simp⟩
  | cons d l ih =>
    obtain ⟨tail, htail, hflat⟩ := ih (offset + d.length)
    have hstop : range.stop - (offset + d.length) = range.stop - offset - d.length := by omega
    have hstart : range.start - (offset + d.length) = range.start - offset - d.length := by omega
    rw [hstop, hstart] at hflat
    unfold SendBuf.pieces
    rw [htail]
    simp only [some_bind]
    have hrest : ((l.flatten.take (range.stop - offset - d.length)).drop
        (range.start - offset - (d.take (range.stop - offset)).length)) = tail.flatten := by
      rw [hflat, List.length_take]
      by_cases hk : d.length ≤ range.stop - offset
      · rw [min_eq_right hk]
      · have hzero : range.stop - offset - d.length = 0 := by omega
        simp [hzero]
    rw [List.flatten_cons, List.take_append, List.drop_append, hrest]
    by_cases hover : range.start < offset + d.length ∧ offset < range.stop
    · rw [if_pos hover]
      by_cases hin : range.start ≤ offset ∧ offset + d.length ≤ range.stop
      · have hzero : range.start - offset = 0 := by omega
        rw [if_pos hin]
        exact ⟨_, rfl, by rw [List.take_of_length_le (by omega), hzero, List.drop_zero, List.flatten_cons]⟩
      · have hslice : slice d (range.start - offset) (min range.stop (offset + d.length) - offset) =
            some ((d.take (range.stop - offset)).drop (range.start - offset)) := by
          have htake : d.take (min range.stop (offset + d.length) - offset) = d.take (range.stop - offset) := by
            by_cases hk : range.stop ≤ offset + d.length
            · rw [min_eq_left hk]
            · rw [min_eq_right (by omega), Nat.add_sub_cancel_left, List.take_length,
                List.take_of_length_le (by omega)]
          rw [slice, if_pos (by omega), htake]
        rw [if_neg hin, hslice]
        exact ⟨_, rfl, List.flatten_cons⟩
    · have hnil : (d.take (range.stop - offset)).drop (range.start - offset) = [] := by
        rw [List.drop_eq_nil_iff, List.length_take]
        omega
      rw [if_neg hover, hnil]
      exact ⟨tail, rfl, rfl⟩

end Dquic
