import Dquic.Journal.AckTruth
import Dquic.Journal.Truncation

/-!
# Packet numbers around the loop

The sender cuts packet numbers by what was acknowledged, and the receiver restores them by what it
has seen. Either is right only if the other one was so far.
-/

namespace Dquic

open Lib

inductive NumberOp (φ : Type)
  | send (op : JournalOp φ)
  | deliver (pn : Nat) (number : PacketNumber) (now : Nat)

/-- Both ends of a packet number space, and all numbers that were given out, with what is sent of them. -/
structure NumberLoop (φ : Type) where
  snd : SentJournal φ
  rcv : RcvdWorld
  wire : List (Nat × PacketNumber)

namespace NumberLoop

variable {φ : Type}

/-- The receiver is not half a window ahead of the packet. -/
def Timely (p : NumberLoop φ) (x : Nat × PacketNumber) : Prop :=
  ∀ largest, p.rcv.journal.largestAuthenticated = some largest → largest + 1 < x.1 + x.2.halfWindow

/-- An ACK frame starts at a number that the receiver recorded, as all of `gen_ack_frame_util` do. -/
def Issued (p : NumberLoop φ) : NumberOp φ → Prop
  | .send (.onAcked ack) => ack.largest.val ∈ p.rcv.recorded
  | .send _ => True
  | .deliver pn number _ => (pn, number) ∈ p.wire ∧ p.Timely (pn, number)

def reserved (p : NumberLoop φ) : JournalOp φ → List (Nat × PacketNumber)
  | .nextPn =>
    match p.snd.reservePn with
    | some (.ok given, _) => [given]
    | _ => []
  | _ => []

def exec (p : NumberLoop φ) : NumberOp φ → Option (NumberLoop φ)
  | .send op => do
    let snd ← p.snd.exec op
    some { p with snd := snd, wire := p.wire ++ p.reserved op }
  | .deliver _ number now => do
    let rcv ← p.rcv.exec (.receive number.received now)
    some { p with rcv := rcv }

end NumberLoop

def numberSystem (φ : Type) : System (NumberLoop φ) (NumberOp φ) where
  init p := p = ⟨.empty, ⟨.empty, []⟩, []⟩
  issued := NumberLoop.Issued
  exec := NumberLoop.exec

/-! ### The sender -/

lemma PacketNumber.near_of_encode {pn acked : Nat} {number : PacketNumber} (h : encode pn acked = some number) :
    acked ≤ pn ∧ pn - acked < 2 ^ 31 := by
  obtain ⟨distance, hdistance, h⟩ := of_bind h
  unfold checkedSub at hdistance
  split_ifs at hdistance with hle
  cases hdistance
  refine ⟨hle, ?_⟩
  by_contra hfar
  rw [if_neg (by omega), if_neg (by omega), if_neg (by omega), if_neg (by omega)] at h
  cases h

namespace SentJournal

variable {φ : Type} {j j' : SentJournal φ}

/-- Only an acknowledgement moves the largest number that was acknowledged. -/
lemma exec_acked {op : JournalOp φ} (he : j.exec op = some j') :
    j'.largestAcked = j.largestAcked ∨ ∃ ack, op = .onAcked ack ∧ j'.largestAcked = max j.largestAcked ack.largest.val := by
  cases op with
  | nextPn =>
    obtain ⟨⟨res, j₁⟩, h, rfl⟩ := Option.map_eq_some_iff.mp he
    unfold reservePn at h
    dsimp only at h
    split at h
    · cases h
      exact .inl rfl
    · obtain ⟨start, -, h⟩ := of_bind h
      obtain ⟨number, -, h⟩ := of_bind h
      cases h
      exact .inl rfl
  | onSealed => exact .inl (onSealed_books he).1.1.2
  | onSent => exact .inl (onSent_books he).1.2
  | cancel =>
    obtain ⟨⟨fs, j₁⟩, h, rfl⟩ := Option.map_eq_some_iff.mp he
    exact .inl (cancel_numbers h).2
  | resend =>
    obtain ⟨⟨fs, j₁⟩, h, rfl⟩ := Option.map_eq_some_iff.mp he
    exact .inl (resend_books h).1.2
  | onTick =>
    obtain ⟨⟨fs, j₁⟩, h, rfl⟩ := Option.map_eq_some_iff.mp he
    exact .inl (tickLoop_books h).1.2
  | onAcked ack =>
    obtain ⟨⟨res, fs, j₁⟩, h, rfl⟩ := Option.map_eq_some_iff.mp he
    unfold onAcked at h
    split at h
    · cases h
      exact .inl rfl
    · split at h
      · cases h
        exact .inl rfl
      · obtain ⟨⟨frames, g, j₂⟩, hall, h⟩ := of_bind h
        cases h
        exact .inr ⟨ack, rfl, (ackAll_books hall).1.2⟩

lemma encode_of_reservePn {given : Nat × PacketNumber} (h : j.reservePn = some (.ok given, j')) :
    given.1 ≤ varintMax ∧ PacketNumber.encode given.1 j.largestAcked = some given.2 := by
  unfold reservePn at h
  dsimp only at h
  split at h
  · cases h
  · obtain ⟨start, -, h⟩ := of_bind h
    obtain ⟨number, hnumber, h⟩ := of_bind h
    cases h
    exact ⟨by omega, hnumber⟩

end SentJournal

/-! ### The receiver -/

namespace RcvdJournal

variable {j : RcvdJournal}

/-- The largest number that was authenticated, 0 before the first one. -/
def seen (j : RcvdJournal) : Nat := j.largestAuthenticated.getD 0

lemma seen_onAuthenticated (j : RcvdJournal) (pn : Nat) : (j.onAuthenticated pn).seen = max j.seen pn := by
  unfold seen onAuthenticated
  cases j.largestAuthenticated with
  | none => exact (Nat.zero_max pn).symm
  | some largest => rfl

end RcvdJournal

/-- A number that can be restored by a receiver that has seen this much, unless it is too far ahead. -/
structure PacketNumber.Cut (seen : Nat) (x : Nat × PacketNumber) : Prop where
  bounded : x.1 ≤ varintMax
  truncated : x.2.truncated % 2 ^ (8 * x.2.size) = x.1 % 2 ^ (8 * x.2.size)
  near : x.1 < seen + x.2.halfWindow

namespace NumberLoop

variable {φ : Type} {p p' : NumberLoop φ} {x : Nat × PacketNumber}

lemma decodePn_of_cut (hx : PacketNumber.Cut p.rcv.journal.seen x) (htimely : p.Timely x) :
    p.rcv.journal.decodePn x.2.received = some (if x.1 < p.rcv.journal.packets.retiredBefore then .error .tooOld
      else if p.rcv.journal.packets.contains x.1 then .error .duplicate else .ok x.1) := by
  have hbounded := hx.bounded
  have hnear := hx.near
  have hhalf : 0 < x.2.halfWindow ∧ x.2.halfWindow ≤ 2 ^ 31 := by
    cases x.2 <;> norm_num [PacketNumber.halfWindow, PacketNumber.size]
  have hwindow : x.2.received.halfWindow = x.2.halfWindow := by
    unfold PacketNumber.halfWindow
    rw [PacketNumber.size_received]
  unfold varintMax at hbounded
  have hexpected : ∃ expected, p.rcv.journal.expectedPn = some expected ∧ p.rcv.journal.seen ≤ expected ∧
      expected < x.1 + x.2.halfWindow := by
    unfold RcvdJournal.expectedPn RcvdJournal.seen
    cases hlargest : p.rcv.journal.largestAuthenticated with
    | none => exact ⟨0, rfl, le_rfl, by omega⟩
    | some largest =>
      have hlt := htimely largest hlargest
      exact ⟨largest + 1, checkedAdd_of_lt (by omega), Nat.le_succ largest, hlt⟩
  obtain ⟨expected, hexpected, hseen, hlt⟩ := hexpected
  apply RcvdJournal.decodePn_eq hexpected _ hx.bounded
  apply PacketNumber.decode_eq
  · rw [PacketNumber.truncated_received, PacketNumber.size_received, hx.truncated]
  · rw [hwindow]
    exact hlt
  · rw [hwindow]
    omega
  · omega

structure Exact (p : NumberLoop φ) : Prop where
  wire : ∀ x ∈ p.wire, PacketNumber.Cut p.rcv.journal.seen x
  acked : p.snd.largestAcked ≤ p.rcv.journal.seen
  recorded : ∀ pn ∈ p.rcv.recorded, pn ≤ p.rcv.journal.seen ∧ ∃ number, (pn, number) ∈ p.wire

lemma Exact.reserved (hp : p.Exact) (op : JournalOp φ) : ∀ x ∈ p.reserved op, PacketNumber.Cut p.rcv.journal.seen x := by
  intro x hx
  unfold NumberLoop.reserved at hx
  split at hx
  · split at hx
    · rename_i given j' hgiven
      rw [List.mem_singleton] at hx
      obtain ⟨hbounded, hencode⟩ := SentJournal.encode_of_reservePn hgiven
      obtain ⟨hle, hnear⟩ := PacketNumber.near_of_encode hencode
      obtain ⟨number, hnumber, htruncated, hdistance⟩ := PacketNumber.encode_spec hle hnear
      cases hencode.symm.trans hnumber
      have hacked := hp.acked
      exact hx ▸ ⟨hbounded, htruncated, by omega⟩
    · cases hx
  · cases hx

lemma Exact.send (hp : p.Exact) {op : JournalOp φ} (hop : p.Issued (.send op)) (he : p.exec (.send op) = some p') :
    p'.Exact := by
  obtain ⟨snd, hsnd, he⟩ := of_bind he
  cases he
  refine ⟨List.forall_mem_append.mpr ⟨hp.wire, hp.reserved op⟩, ?_, fun pn hpn => ?_⟩
  · rcases SentJournal.exec_acked hsnd with hsame | ⟨ack, rfl, hmax⟩
    · exact hsame.trans_le hp.acked
    · exact hmax.trans_le (max_le hp.acked (hp.recorded _ hop).1)
  · obtain ⟨hle, number, hmem⟩ := hp.recorded pn hpn
    exact ⟨hle, number, List.mem_append_left _ hmem⟩

lemma Exact.deliver (hp : p.Exact) {pn now : Nat} {number : PacketNumber} (hop : p.Issued (.deliver pn number now))
    (he : p.exec (.deliver pn number now) = some p') : p'.Exact := by
  obtain ⟨rcv, hrcv, he⟩ := of_bind he
  cases he
  obtain ⟨result, hresult, hrcv⟩ := of_bind hrcv
  -- what is recorded is the number that was cut, and so it was given out
  rw [decodePn_of_cut (hp.wire _ hop.1) hop.2] at hresult
  cases result with
  | error e =>
    cases hrcv
    exact hp
  | ok pn' =>
    have hsame : pn' = pn := by
      split_ifs at hresult <;> cases hresult
      rfl
    obtain ⟨j, hj, hrcv⟩ := of_bind hrcv
    obtain ⟨⟨fresh, packets⟩, -, hj⟩ := of_bind hj
    cases hj
    cases hrcv
    have hseen : RcvdJournal.seen { (p.rcv.journal.onAuthenticated pn').onAuthenticated pn' with packets := packets } =
        max (max p.rcv.journal.seen pn') pn' := by
      rw [← RcvdJournal.seen_onAuthenticated, ← RcvdJournal.seen_onAuthenticated]
      rfl
    refine ⟨fun x hx => ?_, ?_, ?_⟩
    · obtain ⟨hbounded, htruncated, hnear⟩ := hp.wire x hx
      exact ⟨hbounded, htruncated, by rw [hseen]; omega⟩
    · rw [hseen]
      exact hp.acked.trans ((le_max_left _ _).trans (le_max_left _ _))
    · rw [hseen]
      refine List.forall_mem_cons.mpr ⟨⟨by omega, number, hsame ▸ hop.1⟩, fun k hk => ?_⟩
      obtain ⟨hle, hmem⟩ := hp.recorded k hk
      exact ⟨by omega, hmem⟩

lemma exact_of_reach (hr : (numberSystem φ).Reach p) : p.Exact := by
  refine hr.invariant ?_ ?_
  · rintro p rfl
    exact ⟨fun _ hx => absurd hx List.not_mem_nil, le_rfl, fun _ hpn => absurd hpn List.not_mem_nil⟩
  · intro p op p' hp hop he
    cases op with
    | send op => exact hp.send hop he
    | deliver pn number now => exact hp.deliver hop he

end NumberLoop

/-- As long as no packet arrives half a window late, the receiver records only numbers that were given out, and restores
each number on the way, however its packets and the acknowledgements for them are lost, repeated and reordered. -/
theorem numberSystem_restores (φ : Type) (p : NumberLoop φ) (hr : (numberSystem φ).Reach p) :
    (∀ pn ∈ p.rcv.recorded, ∃ number, (pn, number) ∈ p.wire) ∧
    p.snd.largestAcked ≤ p.rcv.journal.seen ∧
    ∀ x ∈ p.wire, p.Timely x →
      p.rcv.journal.decodePn x.2.received = some (if x.1 < p.rcv.journal.packets.retiredBefore then .error .tooOld
        else if p.rcv.journal.packets.contains x.1 then .error .duplicate else .ok x.1) := by
  have hp := NumberLoop.exact_of_reach hr
  exact ⟨fun pn hpn => (hp.recorded pn hpn).2, hp.acked, fun x hx htimely => NumberLoop.decodePn_of_cut (hp.wire x hx) htimely⟩

/-- The first packet is acknowledged before the second one is cut. -/
theorem numberSystem_restores_two : ∃ p, (numberSystem Nat).Reach p ∧ p.rcv.recorded = [0] ∧ p.snd.largestAcked = 0 ∧
    p.wire = [(0, .u16 0), (1, .u16 1)] ∧ p.rcv.journal.decodePn (.u16 1) = some (.ok 1) := by
  have h₀ : (numberSystem Nat).Reach _ := .start rfl
  have h₁ := h₀.step (e := NumberOp.send .nextPn) trivial rfl
  have h₂ := h₁.step (e := NumberOp.deliver 0 (.u16 0) 7) ⟨.head _, fun _ hnone => by cases hnone⟩ rfl
  have h₃ := h₂.step (e := NumberOp.send (.onAcked ⟨⟨0, by decide⟩, ⟨0, by decide⟩, ⟨0, by decide⟩, [], none⟩)) (.head _) rfl
  have h₄ := h₃.step (e := NumberOp.send .nextPn) trivial rfl
  have htimely : ∀ largest, some 0 = some largest → largest + 1 < 1 + PacketNumber.halfWindow (.u16 1) := by
    rintro largest ⟨⟩
    decide
  exact ⟨_, h₄, rfl, rfl, rfl, (numberSystem_restores Nat _ h₄).2.2 (1, .u16 1) (.tail _ (.head _)) htimely⟩

end Dquic
