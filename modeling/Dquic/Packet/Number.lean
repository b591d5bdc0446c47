import Dquic.Basic

/-!
# Packet numbers on the wire

`PacketNumber` of `qbase/src/packet/number.rs`: a packet number is cut to its lowest bytes, as
many as the distance to the largest acknowledged one needs.
-/

namespace Dquic

inductive PacketNumber
  | u8 (x : Nat)
  | u16 (x : Nat)
  | u24 (x : Nat)
  | u32 (x : Nat)
  deriving DecidableEq, Repr

namespace PacketNumber

def encode (pn largestAcked : Nat) : Option PacketNumber := do
  let distance ← checkedSub pn largestAcked
  let range := max (distance * 2) (2 ^ 16 - 1)
  if range < 2 ^ 8 then some (.u8 (pn % 2 ^ 8))
  else if range < 2 ^ 16 then some (.u16 (pn % 2 ^ 16))
  else if range < 2 ^ 24 then some (.u24 (pn % 2 ^ 32))
  else if range < 2 ^ 32 then some (.u32 (pn % 2 ^ 32))
  else none

/-- What the integer type of each form can hold. Three bytes are kept in four. -/
def Fits : PacketNumber → Prop
  | u8 x => x < 2 ^ 8
  | u16 x => x < 2 ^ 16
  | u24 x => x < 2 ^ 32
  | u32 x => x < 2 ^ 32

def size : PacketNumber → Nat
  | u8 _ => 1
  | u16 _ => 2
  | u24 _ => 3
  | u32 _ => 4

def truncated : PacketNumber → Nat
  | u8 x => x
  | u16 x => x
  | u24 x => x
  | u32 x => x

def decode (number : PacketNumber) (expected : Nat) : Option Nat := do
  let win := 2 ^ (8 * number.size)
  let hwin := win / 2
  let candidate := (expected - expected % win) ||| number.truncated
  if hwin ≤ expected ∧ candidate ≤ expected - hwin then checkedAdd candidate win
  else
    let upper ← checkedAdd expected hwin
    if upper < candidate ∧ win < candidate then some (candidate - win) else some candidate

lemma Fits.truncated_lt {number : PacketNumber} (h : number.Fits) : number.truncated < 2 ^ 32 := by
  cases number with
  | u8 | u16 => exact lt_trans h (by decide)
  | u24 x => exact h
  | u32 x => exact h

lemma decode_isSome {number : PacketNumber} (h : number.Fits) {expected : Nat} (hexp : expected ≤ 2 ^ 62) :
    ∃ pn, number.decode expected = some pn := by
  have hwin : 2 ^ (8 * number.size) ≤ 2 ^ 32 := by cases number <;> norm_num [size]
  have hcandidate : (expected - expected % 2 ^ (8 * number.size)) ||| number.truncated < 2 ^ 63 := by
    apply Nat.or_lt_two_pow
    · exact lt_of_le_of_lt (Nat.sub_le _ _) (by omega)
    · exact lt_trans h.truncated_lt (by decide)
  unfold decode
  generalize (expected - expected % 2 ^ (8 * number.size)) ||| number.truncated = candidate at hcandidate
  generalize 2 ^ (8 * number.size) = win at hwin
  dsimp only
  split
  · exact ⟨_, checkedAdd_of_lt (by omega)⟩
  · rw [checkedAdd_of_lt (by omega : expected + win / 2 < 2 ^ 64), some_bind]
    split
    · exact ⟨_, rfl⟩
    · exact ⟨_, rfl⟩

end PacketNumber

end Dquic
