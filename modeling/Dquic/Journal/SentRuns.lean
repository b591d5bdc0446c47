import Dquic.Journal.Steps
import Dquic.Lib.System

/-!
# Runs of the journal of sent packets

Packet numbers are reserved, sealed with frames, and submitted or cancelled, while losses, timers
and acknowledgements come in any order. Nobody is told two stories about a frame.
-/

namespace Dquic

open Lib

inductive JournalOp (φ : Type)
  | nextPn
  | onSealed (pn : Nat) (generation : Option Nat) (pktlen : Nat) (data : Metadata) (frames : List φ)
  | onSent (pn : Nat) (inFlight : Bool) (retransmitAfter retention sentAt : Nat)
  | cancel (pn : Nat)
  | resend (pns : List Nat)
  | onTick (now : Nat)
  | onAcked (ack : AckFrame)

structure JournalWorld (φ : Type) extends JournalHistory φ where
  journal : SentJournal (φ × Nat)

namespace JournalWorld

variable {φ : Type}

/-- A reserved packet number is sealed once at most, and then submitted or cancelled once at most. Acknowledgements
name no packet that may still be sealed. -/
def Issued (w : JournalWorld φ) : JournalOp φ → Prop
  | .onSealed pn _ _ _ _ => pn < w.journal.nextPn ∧ pn ∉ w.sealedPns ∧ pn ∉ w.finished
  | .onSent pn _ _ _ _ => pn < w.journal.nextPn ∧ pn ∉ w.finished
  | .cancel pn => pn < w.journal.nextPn ∧ pn ∉ w.finished
  | .onAcked ack => ∀ ranges, SentJournal.ackRanges ack = some ranges → ∀ r ∈ ranges, ∀ pn < w.journal.nextPn,
      r.1 ≤ pn → pn ≤ r.2 → pn ∈ w.sealedPns ∨ pn ∈ w.finished
  | _ => True

def exec (w : JournalWorld φ) : JournalOp φ → Option (JournalWorld φ)
  | .nextPn => do
    let (_, journal) ← w.journal.reservePn
    some { w with journal := journal }
  | .onSealed pn generation pktlen data frames => do
    let journal ← w.journal.onSealed pn generation pktlen data (frames.zipIdx w.given.length)
    some ⟨w.give pn frames, journal⟩
  | .onSent pn inFlight retransmitAfter retention sentAt => do
    let journal ← w.journal.onSent pn inFlight retransmitAfter retention sentAt
    some ⟨w.finish pn, journal⟩
  | .cancel pn => do
    let (frames, journal) ← w.journal.cancel pn
    some ⟨(w.tell .cancelled frames).finish pn, journal⟩
  | .resend pns => do
    let (frames, journal) ← w.journal.resend pns
    some ⟨w.tell .lost frames, journal⟩
  | .onTick now => do
    let (frames, journal) ← w.journal.onTick now
    some ⟨w.tell .lost frames, journal⟩
  | .onAcked ack => do
    let (_, frames, journal) ← w.journal.onAcked ack
    some ⟨w.tell .acked frames, journal⟩

end JournalWorld

def journalSystem (φ : Type) : System (JournalWorld φ) (JournalOp φ) where
  init w := w = ⟨⟨[], [], [], []⟩, SentJournal.empty⟩
  issued := JournalWorld.Issued
  exec := JournalWorld.exec

namespace JournalWorld

variable {φ : Type} {w w' : JournalWorld φ}

def Agrees (w : JournalWorld φ) : Prop := w.journal.Agrees w.toJournalHistory

/-- Apart from reserving and sealing, every operation succeeds and keeps the agreement. -/
lemma Agrees.settles (ha : w.Agrees) {op : JournalOp φ} (hop : w.Issued op) :
    op = .nextPn ∨ (∃ pn generation pktlen data frames, op = .onSealed pn generation pktlen data frames) ∨
      ∃ w', w.exec op = some w' ∧ w'.Agrees := by
  cases op with
  | nextPn => exact .inl rfl
  | onSealed pn generation pktlen data frames => exact .inr (.inl ⟨pn, generation, pktlen, data, frames, rfl⟩)
  | onSent pn inFlight retransmitAfter retention sentAt =>
    obtain ⟨j, hj, haj⟩ := SentJournal.Agrees.onSent ha hop.1 hop.2 inFlight retransmitAfter retention sentAt
    exact .inr (.inr ⟨⟨w.finish pn, j⟩, by simp only [exec, hj, some_bind], haj⟩)
  | cancel pn =>
    obtain ⟨fs, j, hj, haj⟩ := SentJournal.Agrees.cancel ha hop.1 hop.2
    exact .inr (.inr ⟨⟨(w.tell .cancelled fs).finish pn, j⟩,
      by simp only [exec, hj, some_bind], haj⟩)
  | resend pns =>
    obtain ⟨fs, j, hj, haj⟩ := SentJournal.Agrees.resend ha pns
    exact .inr (.inr ⟨⟨w.tell .lost fs, j⟩, by simp only [exec, hj, some_bind], haj⟩)
  | onTick now =>
    have hfuel : w.journal.work < 2 * w.journal.nextPn + 1 := Nat.lt_succ_of_le w.journal.work_le
    obtain ⟨fs, j, hj, haj⟩ := SentJournal.Agrees.tickLoop ha now hfuel
    exact .inr (.inr ⟨⟨w.tell .lost fs, j⟩,
      by simp only [exec, SentJournal.onTick, hj, some_bind], haj⟩)
  | onAcked ack =>
    obtain ⟨res, fs, j, hj, haj⟩ := SentJournal.Agrees.onAcked ha hop
    exact .inr (.inr ⟨⟨w.tell .acked fs, j⟩, by simp only [exec, hj, some_bind], haj⟩)

lemma Agrees.step (ha : w.Agrees) {op : JournalOp φ} (hop : w.Issued op) (he : w.exec op = some w') : w'.Agrees := by
  rcases ha.settles hop with rfl | ⟨pn, generation, pktlen, data, frames, rfl⟩ | ⟨v, hv, hav⟩
  · obtain ⟨⟨res, j⟩, hj, he⟩ := of_bind he
    cases he
    exact SentJournal.Agrees.reservePn ha hj
  · obtain ⟨j, hj, he⟩ := of_bind he
    cases he
    exact SentJournal.Agrees.onSealed ha hop.2.2 hj
  · cases hv.symm.trans he
    exact hav

theorem agrees_of_reach (hr : (journalSystem φ).Reach w) : w.Agrees := by
  apply hr.invariant (I := Agrees)
  · rintro w rfl
    exact SentJournal.Agrees.empty
  · intro w op w' ha hop he
    exact ha.step hop he

end JournalWorld

/-- What was told about a frame is consistent and about a frame that was given, the deadlines are those of the records,
the slots of the records are filled and apart, and only reserving a packet number, or sealing more frames than slots can be
numbered, can panic. -/
theorem journalSystem_consistent {φ : Type} (w : JournalWorld φ) (hr : (journalSystem φ).Reach w) :
    (∀ i, Fate.Consistent (w.told i)) ∧ (∀ e ∈ w.log, w.given[e.2.2]? = some e.2.1) ∧
    (∀ t pn, (t, pn) ∈ w.journal.deadlines ↔
      ∃ p, w.journal.packets[pn]? = some p ∧ p.state.deadline = some t) ∧
    (∀ (pn : Nat) (p : SentPacket) (pn' : Nat) (p' : SentPacket), w.journal.packets[pn]? = some p →
      w.journal.packets[pn']? = some p' → pn ≠ pn' → ∀ i, ¬(p.frameRange.Mem i ∧ p'.frameRange.Mem i)) ∧
    (∀ (pn : Nat) (p : SentPacket), w.journal.packets[pn]? = some p → ∀ i, p.frameRange.Mem i →
      ∃ f, w.journal.frames.get i = some (some f)) ∧
    ∀ op, w.Issued op → w.exec op = none → op = .nextPn ∨ ∃ pn generation pktlen data frames,
      op = .onSealed pn generation pktlen data frames ∧ 2 ^ 64 ≤ w.given.length + frames.length := by
  have ha : w.journal.Agrees w.toJournalHistory := JournalWorld.agrees_of_reach hr
  refine ⟨fun i => Fate.consistent_of_mem (ha.histories i), ha.known, ha.due, ?_, ?_, ?_⟩
  · rintro pn p pn' p' hp hp' hne i ⟨hi, hi'⟩
    exact hne (ha.disjoint pn p pn' p' i hp hp' hi hi')
  · intro pn p hp i hi
    obtain ⟨f, hf⟩ := Option.isSome_iff_exists.mp (ha.filled pn p hp i hi)
    exact ⟨f, IndexDeque.get_of_slot hf⟩
  · intro op hop hnone
    rcases JournalWorld.Agrees.settles ha hop with rfl | ⟨pn, generation, pktlen, data, frames, rfl⟩ | ⟨v, hv, -⟩
    · exact .inl rfl
    · refine .inr ⟨pn, generation, pktlen, data, frames, rfl, ?_⟩
      by_contra hroom
      have hsome := ha.onSealed_isSome hop.1 hop.2.1 hop.2.2 generation pktlen data (not_le.mp hroom)
      obtain ⟨j, hj⟩ := Option.isSome_iff_exists.mp hsome
      simp only [JournalWorld.exec, hj, some_bind] at hnone
      cases hnone
    · rw [hv] at hnone
      cases hnone

/-- A packet is lost and acknowledged late, one is acknowledged before it is submitted, and one is cancelled. -/
theorem journalSystem_consistent_run : ∃ w, (journalSystem Nat).Reach w ∧
    w.told 0 = [.lost, .acked] ∧ w.told 1 = [.acked] ∧ w.told 2 = [.cancelled] ∧
    ∀ i, Fate.Consistent (w.told i) := by
  have hlt : 0 < 3 ∧ 1 < 3 ∧ 2 < 3 := by decide
  have hnone : ∀ pn : Nat, pn ∉ ([] : List Nat) := fun _ => List.not_mem_nil
  have hone : 1 ∉ [0] ∧ 2 ∉ [1, 0] ∧ 2 ∉ [0] ∧ 1 ∉ [2, 0] := by decide
  have h₀ : (journalSystem Nat).Reach _ := .start rfl
  have h₁ := h₀.step (e := JournalOp.nextPn) trivial rfl
  have h₂ := h₁.step (e := JournalOp.nextPn) trivial rfl
  have h₃ := h₂.step (e := JournalOp.nextPn) trivial rfl
  have h₄ := h₃.step (e := JournalOp.onSealed 0 (some 0) 10 ⟨.effectivePayload, true, none⟩ [7])
    ⟨hlt.1, hnone 0, hnone 0⟩ rfl
  have h₅ := h₄.step (e := JournalOp.onSealed 1 none 10 ⟨.effectivePayload, true, none⟩ [8])
    ⟨hlt.2.1, hone.1, hnone 1⟩ rfl
  have h₆ := h₅.step (e := JournalOp.onSealed 2 none 10 ⟨.effectivePayload, true, none⟩ [9])
    ⟨hlt.2.2, hone.2.1, hnone 2⟩ rfl
  have h₇ := h₆.step (e := JournalOp.onSent 0 true 5 20 100) ⟨hlt.1, hnone 0⟩ rfl
  have h₈ := h₇.step (e := JournalOp.onTick 110) trivial rfl
  have h₉ := h₈.step (e := JournalOp.cancel 2) ⟨hlt.2.2, hone.2.2.1⟩ rfl
  have hack : ∀ ranges, SentJournal.ackRanges ⟨⟨1, by decide⟩, ⟨0, by decide⟩, ⟨1, by decide⟩, [], none⟩ = some ranges →
      ∀ r ∈ ranges, ∀ pn < 3, r.1 ≤ pn → pn ≤ r.2 → pn ∈ [2, 1, 0] ∨ pn ∈ [2, 0] := by
    intro ranges _ r _ pn hpn _ _
    have hall : ∀ k < 3, k ∈ [2, 1, 0] := by decide
    exact .inl (hall pn hpn)
  have h₁₀ := h₉.step (e := JournalOp.onAcked ⟨⟨1, by decide⟩, ⟨0, by decide⟩, ⟨1, by decide⟩, [], none⟩) hack rfl
  exact ⟨_, h₁₀, rfl, rfl, rfl, (journalSystem_consistent _ h₁₀).1⟩

end Dquic
