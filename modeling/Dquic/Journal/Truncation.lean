import Dquic.Frame.Wire
import Dquic.Journal.Rcvd

/-!
# Packet numbers that are cut and restored

`put_packet_number` and `take_pn_len` of `qbase/src/packet/number.rs`, and what `decode_pn` of the
receiving journal makes of a number that `encode` has cut.
-/

namespace Dquic

open Lib Lib.Nom

namespace PacketNumber

/-- `put_packet_number`. -/
def put (number : PacketNumber) : Bytes := toBE number.size number.truncated

/-- `take_pn_len`, which is never asked for another length. -/
def takePnLen : Nat → Option (Nom NomErrorKind PacketNumber)
  | 1 => some do
    let x ← beUintComplete .eof 1
    pure (.u8 x)
  | 2 => some do
    let x ← beUintComplete .eof 2
    pure (.u16 x)
  | 3 => some do
    let x ← beUintComplete .eof 3
    pure (.u24 x)
  | 4 => some do
    let x ← beUintComplete .eof 4
    pure (.u32 x)
  | _ => none

/-- The numbers that differ by less than this from the one expected can be told apart. -/
def halfWindow (number : PacketNumber) : Nat := 2 ^ (8 * number.size) / 2

lemma two_mul_halfWindow (number : PacketNumber) : 2 * number.halfWindow = 2 ^ (8 * number.size) := by
  cases number <;> norm_num [halfWindow, size]

def received : PacketNumber → PacketNumber
  | u8 x => u8 (x % 256 ^ 1)
  | u16 x => u16 (x % 256 ^ 2)
  | u24 x => u24 (x % 256 ^ 3)
  | u32 x => u32 (x % 256 ^ 4)

@[simp] lemma size_received (number : PacketNumber) : number.received.size = number.size := by
  cases number <;> rfl

lemma truncated_received (number : PacketNumber) :
    number.received.truncated = number.truncated % 2 ^ (8 * number.size) := by
  cases number <;> rfl

lemma put_eq (width x : Nat) : toBE width x = toBE width (x % 256 ^ width) := by
  have hadd := toBE_add width (x / 256 ^ width) (x % 256 ^ width)
  rwa [mul_comm, Nat.div_add_mod] at hadd

lemma parses_beUint_mod (width x : Nat) (rest : Bytes) :
    Parses (beUintComplete NomErrorKind.eof width) (toBE width x) rest (x % 256 ^ width) := by
  rw [put_eq]
  exact parses_beUintComplete NomErrorKind.eof (Nat.mod_lt x (by positivity)) rest

lemma takePnLen_put (number : PacketNumber) :
    ∃ p, takePnLen number.size = some p ∧ ∀ rest, Parses p number.put rest number.received := by
  cases number with
  | u8 x => exact ⟨_, rfl, fun rest => (parses_beUint_mod 1 x rest).map⟩
  | u16 x => exact ⟨_, rfl, fun rest => (parses_beUint_mod 2 x rest).map⟩
  | u24 x => exact ⟨_, rfl, fun rest => (parses_beUint_mod 3 x rest).map⟩
  | u32 x => exact ⟨_, rfl, fun rest => (parses_beUint_mod 4 x rest).map⟩

/-! ### The window -/

/-- Two numbers with one remainder that are less than two windows apart lie in the same window or in neighbouring ones. -/
lemma eq_candidate_or {win pn expected : Nat} (hlow : expected < pn + win) (hhigh : pn < expected + win) :
    pn = expected - expected % win + pn % win ∨ pn = expected - expected % win + pn % win + win ∨
      pn + win = expected - expected % win + pn % win := by
  have hpn := Nat.div_add_mod pn win
  have hexpected := Nat.div_add_mod expected win
  have hwin : 0 < win := by omega
  have htrunc := Nat.mod_lt pn hwin
  have hrest := Nat.mod_lt expected hwin
  generalize pn / win = p at hpn
  generalize expected / win = q at hexpected
  rcases lt_trichotomy p q with hlt | rfl | hgt
  · obtain ⟨d, rfl⟩ := Nat.exists_eq_add_of_lt hlt
    rw [Nat.mul_add, Nat.mul_add] at hexpected
    cases d with
    | zero => omega
    | succ d =>
      rw [Nat.mul_add] at hexpected
      omega
  · omega
  · obtain ⟨d, rfl⟩ := Nat.exists_eq_add_of_lt hgt
    rw [Nat.mul_add, Nat.mul_add] at hpn
    cases d with
    | zero => omega
    | succ d =>
      rw [Nat.mul_add] at hpn
      omega

lemma decode_eq {number : PacketNumber} {pn expected : Nat} (htrunc : number.truncated = pn % 2 ^ (8 * number.size))
    (hlow : expected < pn + number.halfWindow) (hhigh : pn ≤ expected + number.halfWindow) (hexpected : expected < 2 ^ 63) :
    number.decode expected = some pn := by
  have hbits : 2 ^ (8 * number.size) ≤ 2 ^ 32 := by cases number <;> norm_num [size]
  have heven := number.two_mul_halfWindow
  have hor : (expected - expected % 2 ^ (8 * number.size)) ||| number.truncated =
      expected - expected % 2 ^ (8 * number.size) + pn % 2 ^ (8 * number.size) := by
    have hfloor : expected - expected % 2 ^ (8 * number.size) =
        2 ^ (8 * number.size) * (expected / 2 ^ (8 * number.size)) := by
      have hdiv := Nat.div_add_mod expected (2 ^ (8 * number.size))
      omega
    rw [htrunc, hfloor]
    exact (Nat.two_pow_add_eq_or_of_lt (Nat.mod_lt _ (by positivity)) _).symm
  have hcandidate := @eq_candidate_or (2 ^ (8 * number.size)) pn expected (by omega) (by omega)
  have hmod := Nat.mod_le pn (2 ^ (8 * number.size))
  unfold decode
  dsimp only
  rw [hor]
  unfold halfWindow at hlow hhigh heven
  generalize 2 ^ (8 * number.size) = win at *
  generalize hc : expected - expected % win + pn % win = candidate at *
  split_ifs with hbelow
  · rw [checkedAdd_of_lt (by omega)]
    congr 1
    omega
  · rw [checkedAdd_of_lt (by omega), some_bind]
    split_ifs with habove
    · congr 1
      omega
    · congr 1
      omega

/-- A number that is cut keeps its lowest bytes, and more than its distance to the largest acknowledged one needs. -/
lemma encode_spec {pn largestAcked : Nat} (hle : largestAcked ≤ pn) (hnear : pn - largestAcked < 2 ^ 31) :
    ∃ number, encode pn largestAcked = some number ∧ number.truncated % 2 ^ (8 * number.size) = pn % 2 ^ (8 * number.size) ∧
      pn - largestAcked < number.halfWindow := by
  unfold encode
  rw [checkedSub_of_le hle, some_bind]
  dsimp only
  rw [if_neg (by omega)]
  by_cases h16 : max ((pn - largestAcked) * 2) (2 ^ 16 - 1) < 2 ^ 16
  · have hhalf := two_mul_halfWindow (u16 (pn % 2 ^ 16))
    rw [if_pos h16]
    refine ⟨_, rfl, ?_⟩
    simp only [truncated, size] at hhalf ⊢
    omega
  · rw [if_neg h16]
    by_cases h24 : max ((pn - largestAcked) * 2) (2 ^ 16 - 1) < 2 ^ 24
    · have hhalf := two_mul_halfWindow (u24 (pn % 2 ^ 32))
      rw [if_pos h24]
      refine ⟨_, rfl, ?_⟩
      simp only [truncated, size] at hhalf ⊢
      omega
    · have hhalf := two_mul_halfWindow (u32 (pn % 2 ^ 32))
      rw [if_neg h24, if_pos (by omega)]
      refine ⟨_, rfl, ?_⟩
      simp only [truncated, size] at hhalf ⊢
      omega

end PacketNumber

/-! ### The journal of the receiver -/

namespace RcvdJournal

lemma decodePn_eq {j : RcvdJournal} {number : PacketNumber} {expected pn : Nat} (hexpected : j.expectedPn = some expected)
    (hdecode : number.decode expected = some pn) (hpn : pn ≤ varintMax) :
    j.decodePn number = some (if pn < j.packets.retiredBefore then .error .tooOld
      else if j.packets.contains pn then .error .duplicate else .ok pn) := by
  unfold decodePn
  simp only [hexpected, hdecode, some_bind]
  rw [if_neg (not_lt.mpr hpn)]
  split_ifs
  · rfl
  · rfl
  · rfl

/-- A packet number that was cut by its distance to the largest acknowledged one and read from the wire is restored, as
long as the receiver has seen what was acknowledged and is not half a window ahead. -/
theorem decodePn_of_encode (pn largestAcked : Nat) (hpn : pn ≤ varintMax) (hacked : largestAcked ≤ pn)
    (hnear : pn - largestAcked < 2 ^ 31) (j : RcvdJournal)
    (hseen : largestAcked = 0 ∨ ∃ largest, j.largestAuthenticated = some largest ∧ largestAcked ≤ largest)
    (hahead : ∀ number largest, PacketNumber.encode pn largestAcked = some number →
      j.largestAuthenticated = some largest → largest + 1 < pn + number.halfWindow) :
    ∃ number p expected, PacketNumber.encode pn largestAcked = some number ∧
      PacketNumber.takePnLen number.size = some p ∧ (∀ rest, p (number.put ++ rest) = .ok (number.received, rest)) ∧
      j.expectedPn = some expected ∧ number.received.decode expected = some pn ∧
      j.decodePn number.received = some (if pn < j.packets.retiredBefore then .error .tooOld
        else if j.packets.contains pn then .error .duplicate else .ok pn) := by
  obtain ⟨number, hencode, htrunc, hdistance⟩ := PacketNumber.encode_spec hacked hnear
  obtain ⟨p, hp, hparses⟩ := PacketNumber.takePnLen_put number
  have hhalf : number.halfWindow ≤ 2 ^ 31 := by cases number <;> norm_num [PacketNumber.halfWindow, PacketNumber.size]
  have hpos : 0 < number.halfWindow := by omega
  unfold varintMax at hpn
  have hexpected : ∃ expected, j.expectedPn = some expected ∧ largestAcked ≤ expected ∧
      expected < pn + number.halfWindow := by
    unfold expectedPn
    cases hlargest : j.largestAuthenticated with
    | none =>
      refine ⟨0, rfl, ?_, by omega⟩
      rcases hseen with rfl | ⟨largest, hsome, -⟩
      · exact le_rfl
      · rw [hlargest] at hsome
        cases hsome
    | some largest =>
      have hlt := hahead number largest hencode hlargest
      refine ⟨largest + 1, checkedAdd_of_lt (by omega), ?_, hlt⟩
      rcases hseen with rfl | ⟨largest', hsome, hle⟩
      · exact Nat.zero_le _
      · rw [hlargest] at hsome
        cases hsome
        omega
  obtain ⟨expected, hexpected, hle, hlt⟩ := hexpected
  have hdecode : number.received.decode expected = some pn := by
    apply PacketNumber.decode_eq
    · rw [PacketNumber.truncated_received, PacketNumber.size_received, htrunc]
    · unfold PacketNumber.halfWindow at hlt ⊢
      rwa [PacketNumber.size_received]
    · unfold PacketNumber.halfWindow at hdistance ⊢
      rw [PacketNumber.size_received]
      omega
    · omega
  refine ⟨number, p, expected, hencode, hp, hparses, hexpected, hdecode, ?_⟩
  exact decodePn_eq hexpected hdecode (by unfold varintMax; omega)

/-- Three bytes are sent for a packet far ahead, in the next window of the receiver. -/
theorem decodePn_of_encode_next_window : PacketNumber.encode (2 ^ 26) (2 ^ 26 - 2 ^ 16) = some (.u24 (2 ^ 26)) ∧
    ∃ number p expected, PacketNumber.encode (2 ^ 26) (2 ^ 26 - 2 ^ 16) = some number ∧
      PacketNumber.takePnLen number.size = some p ∧ (∀ rest, p (number.put ++ rest) = .ok (number.received, rest)) ∧
      (RcvdJournal.empty.onAuthenticated (2 ^ 26 - 2 ^ 16)).expectedPn = some expected ∧
      number.received.decode expected = some (2 ^ 26) ∧
      (RcvdJournal.empty.onAuthenticated (2 ^ 26 - 2 ^ 16)).decodePn number.received = some (.ok (2 ^ 26)) := by
  refine ⟨by decide, ?_⟩
  exact decodePn_of_encode (2 ^ 26) (2 ^ 26 - 2 ^ 16) (by decide) (by decide) (by decide)
    (RcvdJournal.empty.onAuthenticated (2 ^ 26 - 2 ^ 16)) (Or.inr ⟨_, rfl, le_rfl⟩) (by
      rintro number largest hencode hlargest
      cases hencode
      cases hlargest
      decide)

/-- A receiver that is ahead by one less than half a window takes a packet for one of the next window. -/
theorem decodePn_half_window_ahead : PacketNumber.encode 0 0 = some (.u16 0) ∧ PacketNumber.halfWindow (.u16 0) = 2 ^ 15 ∧
    (RcvdJournal.empty.onAuthenticated (2 ^ 15 - 1)).largestAuthenticated = some (2 ^ 15 - 1) ∧
    (RcvdJournal.empty.onAuthenticated (2 ^ 15 - 1)).decodePn (.u16 0) = some (.ok (2 ^ 16)) := by
  decide

end RcvdJournal

end Dquic
