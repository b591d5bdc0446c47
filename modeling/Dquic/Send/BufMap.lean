import Dquic.Basic
import Dquic.Lib.Deque
import Dquic.Lib.Paint

/-!
# The coloured interval map of a send buffer

`BufMap` of `qrecovery/src/send/sndbuf.rs`: a queue of marks, each colouring the bytes from its
offset to the next mark, and the end of the last interval.
-/

namespace Dquic

open Lib

inductive Color
  | pending
  | flighting
  | recved
  | lost
  deriving DecidableEq, Repr

/-- The interval from `offset` to the next state has colour `color`. -/
abbrev State := Mark Color

/-! ### Wrapping indices -/

/-- `index.overflowing_sub(1).0`. -/
def overflowingPred (index : Nat) : Nat := if index = 0 then usizeMax else index - 1

/-- `index.overflowing_add(1).0`. -/
def overflowingSucc (index : Nat) : Nat := if index = usizeMax then 0 else index + 1

/-! ### The packed representation of a state -/

namespace Color

def prefixBits : Color → Nat
  | pending => 0
  | flighting => 1 <<< 62
  | lost => 2 <<< 62
  | recved => 3 <<< 62

end Color

/-- `State::encode`: colour in the two high bits of a `u64`, offset below. -/
def packState (pos : Nat) (color : Color) : Nat := color.prefixBits ||| pos

/-- `State::offset`. -/
def packedOffset (raw : Nat) : Nat := raw &&& (2 ^ 62 - 1)

/-- `State::color`. -/
def packedColor (raw : Nat) : Option Color :=
  match raw >>> 62 with
  | 0 => some .pending
  | 1 => some .flighting
  | 2 => some .lost
  | 3 => some .recved
  | _ => none

/-- `State::decode`. -/
def packedDecode (raw : Nat) : Nat × Option Color := (packedOffset raw, packedColor raw)

/-- `State::set_color`. -/
def packedSetColor (raw : Nat) (color : Color) : Nat := packedOffset raw ||| color.prefixBits

section

variable {pos : Nat} (h : pos < 2 ^ 62) (c : Color)

include h

lemma packState_eq : packState pos c = 2 ^ 62 * (c.prefixBits >>> 62) + pos := by
  have hc : c.prefixBits = 2 ^ 62 * (c.prefixBits >>> 62) := by cases c <;> rfl
  rw [Nat.two_pow_add_eq_or_of_lt h, ← hc, packState]

lemma packState_lt : packState pos c < 2 ^ 64 := by
  have hc : c.prefixBits >>> 62 < 4 := by cases c <;> decide
  rw [packState_eq h]
  omega

lemma packedOffset_packState : packedOffset (packState pos c) = pos := by
  rw [packedOffset, packState_eq h, Nat.and_two_pow_sub_one_eq_mod, Nat.mul_add_mod, Nat.mod_eq_of_lt h]

lemma packedDecode_packState : packedDecode (packState pos c) = (pos, some c) := by
  have hdiv : packState pos c >>> 62 = c.prefixBits >>> 62 := by
    rw [packState_eq h, Nat.shiftRight_eq_div_pow, Nat.mul_add_div (by positivity), Nat.div_eq_of_lt h, Nat.add_zero]
  rw [packedDecode, packedOffset_packState h, packedColor, hdiv]
  cases c <;> rfl

lemma packedSetColor_packState (c' : Color) : packedSetColor (packState pos c) c' = packState pos c' := by
  rw [packedSetColor, packedOffset_packState h, packState, Nat.or_comm]

end

/-! ### The map -/

/-- `BufMap(VecDeque<State>, u64)`: the states and the end of the last one. -/
structure BufMap where
  segs : List State
  size : Nat
  deriving DecidableEq, Repr

namespace BufMap

def empty : BufMap := ⟨[], 0⟩

/-- The words that the deque of the source holds. -/
def words (m : BufMap) : List Nat := m.segs.map fun s => packState s.offset s.color

def extendTo (m : BufMap) (pos : Nat) : Option BufMap := do
  debugAssert (pos < 2 ^ 62)
  debugAssert (m.size ≤ pos)
  if m.size < pos then
    match m.segs.getLast? with
    | some s =>
      if s.color = .pending then some ⟨m.segs, pos⟩
      else some ⟨m.segs ++ [⟨m.size, .pending⟩], pos⟩
    | none => some ⟨m.segs ++ [⟨m.size, .pending⟩], pos⟩
  else some m

def sent (m : BufMap) : Nat :=
  match m.segs.getLast? with
  | some s => if s.color = .pending then s.offset else m.size
  | none => m.size

/-- First index of the run of `color` that ends just before `index`. The predecessor of
index `0` wraps to `usize::MAX`, where no state is. -/
def sameBefore (segs : List State) (color : Color) : Nat → Nat
  | 0 => 0
  | pre + 1 =>
    match segs[pre]? with
    | some s => if s.color = color then sameBefore segs color pre else pre + 1
    | none => pre + 1

/-- Last index of the run of `color` that starts just after `index`. -/
def sameAfter (segs : List State) (color : Color) : Nat → Nat → Nat
  | 0, index => index
  | fuel + 1, index =>
    match segs[overflowingSucc index]? with
    | some s => if s.color = color then sameAfter segs color fuel (overflowingSucc index) else index
    | none => index

/-- `self.same_after(index.overflowing_sub(1).0, color).overflowing_add(1).0`. -/
def skipAfter (segs : List State) (color : Color) (index : Nat) : Nat :=
  overflowingSucc (sameAfter segs color segs.length (overflowingPred index))

def mergeAfter (segs : List State) (index : Nat) (color : Color) : Option (List State) :=
  drainIf segs (index + 1) (sameAfter segs color segs.length index + 1)

/-! ### Picking -/

/-- The scan of `pick` for the first interval that may be sent, with the availability it
records on the intervals it passes. -/
def pickFind (flowLimit window : Nat) : List State → Nat → Poll → Option (Nat × State) × Poll
  | [], _, availability => (none, availability)
  | s :: rest, index, availability =>
    if window ≤ s.offset then pickFind flowLimit window rest (index + 1) .ready
    else
      match s.color with
      | .pending =>
        if flowLimit ≠ 0 then (some (index, s), availability)
        else pickFind flowLimit window rest (index + 1) .ready
      | .lost => (some (index, s), availability)
      | _ => pickFind flowLimit window rest (index + 1) availability

/-- Colour `allowance` bytes of the interval at `index` as in flight, splitting the interval
when it is longer. Returns the range taken. -/
def takeInterval (m : BufMap) (index : Nat) (origin : State) (allowance window : Nat) :
    Option (Range × BufMap) := do
  let segs := m.segs.set index ⟨origin.offset, .flighting⟩
  let stop := min ((segs[index + 1]?.map Mark.offset).getD m.size) window
  let i := sameBefore segs .flighting index
  let limit ← checkedAdd origin.offset allowance
  if limit < stop then
    let segs ← putAt segs (i + 1) (index + 1) ⟨limit, origin.color⟩
    let segs ← drainIf segs (i + 2) (index + 1)
    some (⟨origin.offset, limit⟩, ⟨segs, m.size⟩)
  else
    let segs ← mergeAfter segs index .flighting
    let segs ← drainIf segs (i + 1) (index + 1)
    some (⟨origin.offset, stop⟩, ⟨segs, m.size⟩)

def pick (m : BufMap) (predicate : Nat → Option Nat) (flowLimit window : Nat) :
    Option (Except Poll (Range × Bool) × BufMap) :=
  match pickFind flowLimit window m.segs 0 .pending with
  | (none, availability) => some (.error availability, m)
  | (some (index, origin), _) =>
    match predicate origin.offset with
    | none => some (.error .ready, m)
    | some available => do
      let allowance := if origin.color = .lost then available else min available flowLimit
      let (range, m) ← takeInterval m index origin allowance window
      some (.ok (range, decide (origin.color = .pending)), m)

/-! ### Acknowledgement -/

/-- The scan of `ack_rcvd`: the end of the states to drain, the colour of the last one
passed, and whether it has to go on after the range. -/
def ackLoop (segs : List State) (size : Nat) (stop : Nat) : Nat → Nat → Color → Option (Nat × Color × Bool)
  | 0, _, _ => none
  | fuel + 1, drainEnd, preColor =>
    match segs[drainEnd]? with
    | some s =>
      match compare s.offset stop with
      | .lt => do
        debugAssert (s.color ≠ .pending)
        ackLoop segs size stop fuel (drainEnd + 1) s.color
      | .eq => some (skipAfter segs .recved drainEnd, preColor, false)
      | .gt => some (drainEnd, preColor, decide (preColor ≠ .recved))
    | none => do
      debugAssert (stop ≤ size)
      some (drainEnd, preColor, decide (stop < size) && decide (preColor ≠ .recved))

/-- The end of `ack_rcvd` and `may_loss`: write the marks that start and end the recoloured
range over the states to drain, then drain the rest. -/
def splice (segs : List State) (range : Range) (color preColor : Color) (drainStart drainEnd : Nat)
    (insertAtStart insertAtEnd : Bool) : Option (List State) := do
  let (segs, drainStart) ←
    if insertAtStart then
      (putAt segs drainStart drainEnd ⟨range.start, color⟩).map (fun l => (l, drainStart + 1))
    else some (segs, drainStart)
  let (segs, drainStart) ←
    if insertAtEnd then
      (putAt segs drainStart drainEnd ⟨range.stop, preColor⟩).map (fun l => (l, drainStart + 1))
    else some (segs, drainStart)
  drainIf segs drainStart drainEnd

/-- The part of `ack_rcvd` common to its three starting cases. -/
def ackFrom (m : BufMap) (segs : List State) (range : Range) (drainStart : Nat) (insertAtStart : Bool)
    (drainEnd : Nat) (preColor : Color) : Option BufMap := do
  let (drainEnd, preColor, insertAtEnd) ← ackLoop segs m.size range.stop (segs.length + 1) drainEnd preColor
  let segs ← splice segs range .recved preColor drainStart drainEnd insertAtStart insertAtEnd
  some ⟨segs, m.size⟩

def ackRcvd (m : BufMap) (range : Range) : Option BufMap :=
  match binarySearchBy Mark.offset m.segs range.start with
  | .ok index => do
    let s ← m.segs[index]?
    debugAssert (s.color ≠ .pending)
    let segs := m.segs.set index ⟨s.offset, .recved⟩
    ackFrom m segs range (sameBefore segs .recved index + 1) false (index + 1) s.color
  | .error 0 => ackFrom m m.segs range 0 false 0 .recved
  | .error (index + 1) => do
    let s ← m.segs[index]?
    debugAssert (s.color ≠ .pending)
    ackFrom m m.segs range (index + 1) (decide (s.color ≠ .recved)) (index + 1) s.color

/-- Drop the acknowledged prefix and return the first offset that is not acknowledged. -/
def shift (m : BufMap) : Nat × BufMap :=
  let segs := m.segs.dropWhile (fun s => s.color = .recved)
  ((segs.head?.map Mark.offset).getD m.size, ⟨segs, m.size⟩)

/-! ### Loss -/

/-- The scan of `may_lost_from`, which continues behind an acknowledged interval by
calling `may_lost_from` again. -/
def lostLoop (again : List State → Nat → Option (List State)) (size stop : Nat) :
    Nat → List State → Nat → Color → Option (List State × Nat × Color × Bool)
  | 0, _, _, _ => none
  | fuel + 1, segs, index, preColor =>
    match segs[index]? with
    | some s =>
      match compare s.offset stop with
      | .lt => do
        debugAssert (s.color ≠ .pending)
        if s.color = .recved then
          let segs ← again segs (index + 1)
          some (segs, index, s.color, false)
        else lostLoop again size stop fuel (segs.set index ⟨s.offset, .lost⟩) (index + 1) s.color
      | .eq => some (segs, skipAfter segs .lost index, preColor, false)
      | .gt => some (segs, index, preColor, decide (preColor = .flighting))
    | none => do
      debugAssert (stop ≤ size)
      some (segs, index, preColor, decide (stop < size) && decide (preColor = .flighting))

/-- Colour as lost the unacknowledged intervals from `indexStart` on, up to `stop`. -/
def mayLostFrom (size stop : Nat) : Nat → List State → Nat → Option (List State)
  | 0, _, _ => none
  | fuel + 1, segs, indexStart => do
    let (segs, index, preColor, insertAtEnd) ←
      lostLoop (fun segs i => mayLostFrom size stop fuel segs i) size stop (fuel + 1) segs indexStart .recved
    let (segs, indexStart) ←
      if insertAtEnd then
        (putAt segs (indexStart + 1) index ⟨stop, preColor⟩).map (fun l => (l, indexStart + 1))
      else some (segs, indexStart)
    drainIf segs (indexStart + 1) index

/-- The scan of `may_loss`. Behind an acknowledged interval the rest of the range is left to
`may_lost_from`. -/
def lossLoop (size stop : Nat) (segs : List State) : Nat → Nat → Color → Option (List State × Nat × Color × Bool)
  | 0, _, _ => none
  | fuel + 1, drainEnd, preColor =>
    match segs[drainEnd]? with
    | some s =>
      match compare s.offset stop with
      | .lt => do
        debugAssert (s.color ≠ .pending)
        if s.color = .recved then
          let segs ← mayLostFrom size stop (segs.length + 1) segs (drainEnd + 1)
          some (segs, drainEnd, preColor, false)
        else lossLoop size stop segs fuel (drainEnd + 1) s.color
      | .eq => some (segs, skipAfter segs .lost drainEnd, preColor, false)
      | .gt => some (segs, drainEnd, preColor, decide (preColor = .flighting))
    | none => do
      debugAssert (stop ≤ size)
      some (segs, drainEnd, preColor, decide (stop < size) && decide (preColor = .flighting))

/-- The part of `may_loss` common to its two starting cases. -/
def lossFrom (m : BufMap) (segs : List State) (range : Range) (drainStart : Nat) (insertAtStart : Bool)
    (drainEnd : Nat) (preColor : Color) : Option BufMap := do
  let (segs, drainEnd, preColor, insertAtEnd) ← lossLoop m.size range.stop segs (segs.length + 1) drainEnd preColor
  let segs ← splice segs range .lost preColor drainStart drainEnd insertAtStart insertAtEnd
  some ⟨segs, m.size⟩

/-- Colour a range that may be lost. Acknowledged intervals inside it are left alone. -/
def mayLoss (m : BufMap) (range : Range) : Option BufMap :=
  match binarySearchBy Mark.offset m.segs range.start with
  | .ok index => do
    let s ← m.segs[index]?
    debugAssert (s.color ≠ .pending)
    if s.color = .recved then
      let segs ← mayLostFrom m.size range.stop (m.segs.length + 1) m.segs (index + 1)
      some ⟨segs, m.size⟩
    else if s.color = .flighting then
      let segs := m.segs.set index ⟨s.offset, .lost⟩
      lossFrom m segs range (sameBefore segs .lost index + 1) false (index + 1) s.color
    else lossFrom m m.segs range (index + 1) false (index + 1) s.color
  | .error 0 => do
    let segs ← mayLostFrom m.size range.stop (m.segs.length + 1) m.segs 0
    some ⟨segs, m.size⟩
  | .error (index + 1) => do
    let s ← m.segs[index]?
    debugAssert (s.color ≠ .pending)
    if s.color = .recved then
      let segs ← mayLostFrom m.size range.stop (m.segs.length + 1) m.segs (index + 1)
      some ⟨segs, m.size⟩
    else lossFrom m m.segs range (index + 1) (decide (s.color = .flighting)) (index + 1) s.color

def markFlightingLost (m : BufMap) : BufMap :=
  ⟨m.segs.map (fun s => ⟨s.offset, if s.color = .flighting then .lost else s.color⟩), m.size⟩

end BufMap

end Dquic
