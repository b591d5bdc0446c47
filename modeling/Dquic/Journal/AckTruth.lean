import Dquic.Journal.AckExact
import Dquic.Journal.PeerAcks
import Dquic.Journal.RcvdAck

/-!
# Acknowledgements that are true

What the receiver recorded, what its ACK frame says after it was written and read, and what the
sender makes of it. The sender may have got any other acknowledgement before.
-/

namespace Dquic

open Lib

namespace SentJournal

variable {φ : Type} {j j' : SentJournal φ}

variable {fs : List φ} {ack : AckFrame} {res : Except QuicError (Option Nat)}

lemma cancel_skipped {pn : Nat} (h : j.cancel pn = some (fs, j')) {k : Nat} (hk : k ∈ j'.skippedPns) :
    k = pn ∨ k ∈ j.skippedPns := by
  unfold cancel at h
  split at h
  · cases h
    exact Or.inr hk
  · split at h
    · cases h
      exact Or.inr hk
    · obtain ⟨⟨record, j₁⟩, hremove, h⟩ := of_bind h
      rw [(takeFrames_books h).2] at hk
      have hinsert : k ∈ j₁.skippedPns.insert pn := by
        dsimp only at hk
        split at hk
        · split at hk
          · exact Std.TreeSet.mem_of_mem_erase hk
          · exact hk
        · exact hk
      rw [Std.TreeSet.mem_insert, Std.LawfulEqCmp.compare_eq_iff_eq, (removePacket_books hremove).2] at hinsert
      exact hinsert.imp_left Eq.symm

lemma onAcked_skipped (h : j.onAcked ack = some (res, fs, j')) : j'.skippedPns = j.skippedPns := by
  unfold onAcked at h
  split at h
  · cases h
    rfl
  · split at h
    · cases h
      rfl
    · obtain ⟨⟨frames, g, j₁⟩, hall, h⟩ := of_bind h
      cases h
      exact (ackAll_books hall).2

/-- An ACK is accepted if it names neither a number that was not given out nor one that was skipped. -/
lemma onAcked_accepts {ranges : List (Nat × Nat)} (hranges : ackRanges ack = some ranges)
    (hlt : ack.largest.val < j.nextPn) (hskip : ∀ pn, Names ranges pn → pn ∉ j.skippedPns)
    (h : j.onAcked ack = some (res, fs, j')) : ∃ generation, res = .ok generation := by
  have hvalid : ¬ (j.nextPn ≤ ack.largest.val ∨ ∃ r ∈ ranges, ∃ pn ∈ j.skippedPns.toList, r.1 ≤ pn ∧ pn ≤ r.2) := by
    rintro (hbig | ⟨r, hr, pn, hpn, hin⟩)
    · omega
    · exact hskip pn ⟨r, hr, hin⟩ (Std.TreeSet.mem_toList.mp hpn)
  unfold onAcked at h
  rw [hranges] at h
  dsimp only at h
  rw [if_neg hvalid] at h
  obtain ⟨⟨frames, g, j₁⟩, -, h⟩ := of_bind h
  cases h
  exact ⟨g, rfl⟩

end SentJournal

namespace JournalWorld

variable {φ : Type} {w w' : JournalWorld φ} {ops : List (JournalOp φ)} {op : JournalOp φ}

/-- The number was given out in this run and its packet was not cancelled: it was submitted, or is still on its way. -/
def Sent (ops : List (JournalOp φ)) (w : JournalWorld φ) (pn : Nat) : Prop :=
  pn < w.journal.nextPn ∧ JournalOp.cancel pn ∉ ops

/-- The numbers that count as sealed matter only for what may still be sealed. -/
def withSealed (w : JournalWorld φ) (pns : List Nat) : JournalWorld φ := { w with sealedPns := pns }

lemma Agrees.withSealed (h : w.Agrees) (pns : List Nat) (hpns : ∀ pn ∈ w.sealedPns, pn ∈ pns) :
    (w.withSealed pns).Agrees :=
  { due := h.due, next := h.next, labelled := h.labelled, bound := h.bound, filled := h.filled, disjoint := h.disjoint,
    finished_lt := h.finished_lt, stage := h.stage, known := h.known, told := h.told, histories := h.histories
    reserved := fun pn hlt hns => h.reserved pn hlt fun hpn => hns (hpns pn hpn) }

/-- Whatever was acknowledged, the records agree with a history in which more packets are sealed. -/
def Loose (w : JournalWorld φ) : Prop := ∃ pns, (w.withSealed pns).Agrees

lemma exec_withSealed (he : w.exec op = some w') (pns : List Nat) :
    ∃ pns', (w.withSealed pns).exec op = some (w'.withSealed pns') := by
  cases op with
  | onSealed pn generation pktlen data frames =>
    obtain ⟨j, hj, he⟩ := of_bind he
    cases he
    exact ⟨pn :: pns, Option.bind_eq_some_iff.mpr ⟨j, hj, rfl⟩⟩
  | _ =>
    obtain ⟨j, hj, he⟩ := of_bind he
    cases he
    exact ⟨pns, Option.bind_eq_some_iff.mpr ⟨j, hj, rfl⟩⟩

lemma Loose.step (h : w.Loose) (hop : w.Assembles op) (he : w.exec op = some w') : w'.Loose := by
  obtain ⟨pns, hagrees⟩ := h
  by_cases hsealed : ∃ pn generation pktlen data frames, op = .onSealed pn generation pktlen data frames
  · obtain ⟨pn, generation, pktlen, data, frames, rfl⟩ := hsealed
    obtain ⟨j, hj, he⟩ := of_bind he
    cases he
    exact ⟨pn :: pns, SentJournal.Agrees.onSealed hagrees hop.2.2 hj⟩
  · -- once all numbers count as sealed, the peer may acknowledge any of them
    have hall : (w.withSealed (pns ++ List.range w.journal.nextPn)).Agrees :=
      Agrees.withSealed hagrees _ fun pn hpn => List.mem_append_left _ hpn
    have hissued : (w.withSealed (pns ++ List.range w.journal.nextPn)).Issued op := by
      cases op with
      | onSealed pn generation pktlen data frames => exact absurd ⟨pn, generation, pktlen, data, frames, rfl⟩ hsealed
      | onAcked ack =>
        intro ranges _ r _ pn hlt _ _
        exact Or.inl (List.mem_append_right pns (List.mem_range.mpr hlt))
      | _ => exact hop
    obtain ⟨pns', hexec⟩ := exec_withSealed he (pns ++ List.range w.journal.nextPn)
    exact ⟨pns', hall.step hissued hexec⟩

lemma skipped_step (h : ∀ pn ∈ w.journal.skippedPns, .cancel pn ∈ ops) (he : w.exec op = some w') :
    ∀ pn ∈ w'.journal.skippedPns, .cancel pn ∈ op :: ops := by
  intro k hk
  have hsame : w'.journal.skippedPns = w.journal.skippedPns → .cancel k ∈ op :: ops := by
    intro hsame
    exact List.mem_cons_of_mem op (h k (hsame ▸ hk))
  cases op with
  | nextPn =>
    obtain ⟨⟨res, j⟩, hj, he⟩ := of_bind he
    cases he
    obtain ⟨-, rfl⟩ | ⟨number, -, rfl⟩ := SentJournal.reservePn_cases hj
    · exact hsame rfl
    · exact hsame rfl
  | onSealed pn generation pktlen data frames =>
    obtain ⟨j, hj, he⟩ := of_bind he
    cases he
    exact hsame (SentJournal.onSealed_books hj).1.2
  | onSent pn inFlight retransmitAfter retention sentAt =>
    obtain ⟨j, hj, he⟩ := of_bind he
    cases he
    exact hsame (SentJournal.onSent_books hj).2
  | cancel pn =>
    obtain ⟨⟨fs, j⟩, hj, he⟩ := of_bind he
    cases he
    rcases SentJournal.cancel_skipped hj hk with rfl | hold
    · exact List.mem_cons_self
    · exact List.mem_cons_of_mem _ (h k hold)
  | resend pns =>
    obtain ⟨⟨fs, j⟩, hj, he⟩ := of_bind he
    cases he
    exact hsame (SentJournal.resend_books hj).2
  | onTick now =>
    obtain ⟨⟨fs, j⟩, hj, he⟩ := of_bind he
    cases he
    exact hsame (SentJournal.tickLoop_books hj).2
  | onAcked ack =>
    obtain ⟨⟨res, fs, j⟩, hj, he⟩ := of_bind he
    cases he
    exact hsame (SentJournal.onAcked_skipped hj)

end JournalWorld

/-- In every run of a sender, an ACK that names only numbers of packets that were sent is accepted. -/
lemma assemblySystem_accepts {φ : Type} {ops : List (JournalOp φ)} {w : JournalWorld φ}
    (hr : (assemblySystem φ).Run ops w) {ack : AckFrame} {ranges : List (Nat × Nat)}
    (hranges : SentJournal.ackRanges ack = some ranges) (hlargest : SentJournal.Names ranges ack.largest.val)
    (hsent : ∀ pn, SentJournal.Names ranges pn → w.Sent ops pn) :
    ∃ generation fs j, w.journal.onAcked ack = some (.ok generation, fs, j) := by
  have hinv : w.Loose ∧ ∀ pn ∈ w.journal.skippedPns, JournalOp.cancel pn ∈ ops := by
    apply hr.invariant (I := fun ops w => w.Loose ∧ ∀ pn ∈ w.journal.skippedPns, JournalOp.cancel pn ∈ ops)
    · rintro w rfl
      exact ⟨⟨[], SentJournal.Agrees.empty⟩, by simp [SentJournal.empty]⟩
    · rintro ops w op w' ⟨hloose, hskipped⟩ hop he
      exact ⟨hloose.step hop he, JournalWorld.skipped_step hskipped he⟩
  obtain ⟨⟨pns, hagrees⟩, hskipped⟩ := hinv
  have hall := JournalWorld.Agrees.withSealed hagrees (pns ++ List.range w.journal.nextPn)
    fun pn hpn => List.mem_append_left _ hpn
  obtain ⟨res, fs, j, hj, -⟩ := SentJournal.Agrees.onAcked hall
    fun _ _ _ _ pn hlt _ _ => Or.inl (List.mem_append_right pns (List.mem_range.mpr hlt))
  obtain ⟨generation, rfl⟩ := SentJournal.onAcked_accepts hranges (hsent _ hlargest).1
    (fun pn hpn hskip => (hsent pn hpn).2 (hskipped pn hskip)) hj
  exact ⟨generation, fs, j, hj⟩

/-- A frame made for a recorded trigger fits the capacity, is read as it was written, and names recorded numbers up to
the trigger: all of them from the start of some range on, or the trigger alone when it was retired. A sender of these
packets accepts it. -/
theorem genAckFrameUtil_true (replaceInvalid : Bytes → String) {w : RcvdWorld} (hr : rcvdSystem.Reach w) {largest : Nat}
    (hrec : largest ∈ w.recorded) (rcvdTime now capacity : Nat) :
    ∃ result, w.journal.genAckFrameUtil largest rcvdTime now capacity = some result ∧
    ∀ frame, result = .ok frame → ∀ exponent ack, AckPackage.scaled frame exponent = some ack →
    ∃ bytes ranges, putFrame capacity (.ack ack) = some bytes ∧ bytes.length ≤ capacity ∧
      (∀ (a a' : AckPackage) (b b' : PacketBuffer) poll, a.needAck = some (largest, rcvdTime) → a.exponent = exponent →
        (b.forFrame (.ack .none)).remainingMut = capacity → a.pollDump w.journal now b = some (poll, a', b') →
        b'.out = b.out ∨ b'.out = b.out ++ bytes) ∧
      (∀ packetType rest, (FrameType.ack .none).belongsTo packetType = true →
        beFrame replaceInvalid (bytes ++ rest) packetType = some (.ok (bytes.length, .ack ack, .ack .none))) ∧
      SentJournal.ackRanges ack = some ranges ∧
      (∀ pn, SentJournal.Names ranges pn → pn ∈ w.recorded ∧ pn ≤ largest) ∧
      ((largest < w.journal.packets.retiredBefore ∧ ∀ pn, SentJournal.Names ranges pn ↔ pn = largest) ∨
        ∃ s ∈ w.journal.packets.ranges, ∀ pn, SentJournal.Names ranges pn ↔
          pn ∈ w.recorded ∧ s.start ≤ pn ∧ pn ≤ largest) ∧
      ∀ (φ : Type) (ops : List (JournalOp φ)) (v : JournalWorld φ), (assemblySystem φ).Run ops v →
        (∀ pn, SentJournal.Names ranges pn → v.Sent ops pn) →
        ∃ generation fs j, v.journal.onAcked ack = some (.ok generation, fs, j) := by
  have hgood := rcvdSystem_good hr
  have hmax := hgood.recorded largest hrec
  unfold varintMax at hmax
  obtain ⟨start, previous, hstart, hle, hapart, hbelow, hlen, hnames⟩ := hgood.ackStart_names hrec
  obtain ⟨result, hresult, hok⟩ := RcvdJournal.genAckFrameUtil_eq hstart hle (by omega) hapart hbelow
    rcvdTime now capacity
  refine ⟨result, hresult, ?_⟩
  rintro frame rfl exponent ack hscaled
  obtain ⟨hlargest, hecn, hcount, hsize, n, hranges⟩ := hok frame rfl
  obtain ⟨bytes, hput, htype, hsame, hack⟩ := AckPackage.scaled_fits hscaled hecn (by omega) hsize
  rw [← hsame] at hranges
  obtain ⟨ranges, hdef⟩ : ∃ ranges, ranges = (start, largest) ::
    (previous.reverse.take n).map (fun s => (s.start, s.stop - 1)) := ⟨_, rfl⟩
  rw [← hdef] at hranges
  have htrue := hnames n ranges hdef
  have hsub : ∀ pn, SentJournal.Names ranges pn → pn ∈ w.recorded ∧ pn ≤ largest := by
    intro pn hpn
    rcases htrue with ⟨_, hsingle⟩ | ⟨s, _, hiff⟩
    · rw [(hsingle pn).mp hpn]
      exact ⟨hrec, le_rfl⟩
    · obtain ⟨hin, _, hpnle⟩ := (hiff pn).mp hpn
      exact ⟨hin, hpnle⟩
  refine ⟨bytes, ranges, hput, (putFrame_eq_some hput).2, ?_, ?_, hranges, hsub, htrue, ?_⟩
  · rintro a a' b b' poll hneed rfl rfl hpoll
    exact AckPackage.pollDump_out hneed hresult hscaled htype hput hpoll
  · intro packetType rest hbelongs
    have hreads : (Frame.ack ack).Reads replaceInvalid bytes := Frame.reads_ack (putFrame_eq_some hput).1
    have hend : (Frame.ack ack : Frame Bytes).OmitsLength → rest = [] := by
      intro homits
      cases homits
    have hframe : (Frame.ack ack : Frame Bytes).frameType = .ack .none := htype
    rw [Frame.beFrame_of_reads hreads (by rw [hframe]; exact hbelongs) hend, hframe]
  · intro φ ops v hrun hsent
    apply assemblySystem_accepts hrun hranges _ hsent
    rw [hack, hlargest, hdef]
    exact ⟨_, List.mem_cons_self, hle, le_rfl⟩

/-- Packets 3 and 5 were received, their ACK has one gap, and it comes back as both of them to a sender that submitted
them. -/
theorem genAckFrameUtil_true_run : ∃ (w : RcvdWorld) (ops : List (JournalOp Nat)) (v : JournalWorld Nat) (ack : AckFrame),
    rcvdSystem.Reach w ∧ w.recorded = [5, 3] ∧ (assemblySystem Nat).Run ops v ∧
    putFrame 7 (.ack ack) = some [2, 5, 4, 1, 0, 0, 0] ∧ SentJournal.ackRanges ack = some [(5, 5), (3, 3)] ∧
    ∃ generation fs j, v.journal.onAcked ack = some (.ok generation, fs, j) := by
  have h₀ : rcvdSystem.Reach ⟨.empty, []⟩ := .start rfl
  have h₁ : rcvdSystem.Reach ⟨⟨⟨[⟨3, 4⟩], 0, some (3, 10)⟩, some 3⟩, [3]⟩ :=
    h₀.step (e := .receive (.u16 3) 10) (by decide : 3 < 2 ^ 16) rfl
  have h₂ : rcvdSystem.Reach ⟨⟨⟨[⟨3, 4⟩, ⟨5, 6⟩], 0, some (5, 11)⟩, some 5⟩, [5, 3]⟩ :=
    h₁.step (e := .receive (.u16 5) 11) (by decide : 5 < 2 ^ 16) rfl
  have hlt : 3 < 6 ∧ 5 < 6 := by decide
  have hnew : 3 ∉ [5] ∧ ∀ pn : Nat, pn ∉ ([] : List Nat) := ⟨by decide, fun _ => List.not_mem_nil⟩
  have r₀ : (assemblySystem Nat).Run [] _ := .start rfl
  have r₁ := r₀.step (e := JournalOp.nextPn) trivial rfl
  have r₂ := r₁.step (e := JournalOp.nextPn) trivial rfl
  have r₃ := r₂.step (e := JournalOp.nextPn) trivial rfl
  have r₄ := r₃.step (e := JournalOp.nextPn) trivial rfl
  have r₅ := r₄.step (e := JournalOp.nextPn) trivial rfl
  have r₆ := r₅.step (e := JournalOp.nextPn) trivial rfl
  have r₇ := r₆.step (e := JournalOp.onSealed 5 none 10 ⟨.effectivePayload, true, none⟩ [7])
    ⟨hlt.2, hnew.2 5, hnew.2 5⟩ rfl
  have r₈ := r₇.step (e := JournalOp.onSealed 3 none 10 ⟨.effectivePayload, true, none⟩ [8])
    ⟨hlt.1, hnew.1, hnew.2 3⟩ rfl
  have r₉ := r₈.step (e := JournalOp.onSent 5 true 5 20 100) ⟨hlt.2, hnew.2 5⟩ rfl
  have r := r₉.step (e := JournalOp.onSent 3 true 5 20 100) ⟨hlt.1, hnew.1⟩ rfl
  obtain ⟨result, hresult, hall⟩ := genAckFrameUtil_true (fun _ => "") h₂ (by decide : 5 ∈ [5, 3]) 11 15 7
  have hgen : (some (.ok ⟨⟨5, by decide⟩, ⟨4, by decide⟩, ⟨0, by decide⟩, [(⟨0, by decide⟩, ⟨0, by decide⟩)], none⟩) :
      Option (Except Poll AckFrame)) = some result := hresult
  obtain ⟨bytes, ranges, hput, -, -, -, hranges, htrue, -, haccept⟩ := hall _ (Option.some.inj hgen).symm 0 _ rfl
  refine ⟨_, _, _, _, h₂, rfl, r, ?_, ?_, haccept Nat _ _ r ?_⟩
  · decide +kernel
  · rfl
  · intro pn hpn
    have hrec : pn = 5 ∨ pn = 3 := by simpa using (htrue pn hpn).1
    rcases hrec with rfl | rfl
    · exact ⟨hlt.2, by simp⟩
    · exact ⟨hlt.1, by simp⟩

/-! ### Delays -/

lemma RcvdJournal.delay_of_genAckFrameUtil {j : RcvdJournal} {largest rcvdTime now capacity : Nat} {frame : AckFrame}
    (h : j.genAckFrameUtil largest rcvdTime now capacity = some (.ok frame)) :
    frame.delay.val = min (now - rcvdTime) varintMax := by
  unfold genAckFrameUtil at h
  split at h
  · rename_i start previous _ delay _ _ hdelay
    obtain ⟨first, -, h⟩ := of_bind h
    split at h
    · cases h
    · dsimp only at h
      split at h
      · cases h
      · obtain ⟨result, -, h⟩ := of_bind h
        cases result with
        | error e => cases h
        | ok ranges =>
          cases h
          exact VarInt.val_of_fromU64 hdelay
  · cases h

lemma AckPackage.scaled_delay (ack : AckFrame) {exponent : Nat} (hexp : exponent < 64) :
    ∃ sent, scaled ack exponent = some sent ∧ sent.delay.val = ack.delay.val / 2 ^ exponent := by
  have hle : ack.delay.val >>> exponent ≤ ack.delay.val := Nat.shiftRight_le _ _
  have hdelay := VarInt.fromU64_of_lt (hle.trans_lt ack.delay.2)
  unfold scaled
  rw [debugAssert_of hexp, some_bind, hdelay]
  exact ⟨_, rfl, Nat.shiftRight_eq_div_pow _ _⟩

lemma SentJournal.scaledAck_delay (ack : AckFrame) {exponent : Nat} (hexp : exponent < 64) :
    ∃ handed, scaledAck ack exponent = some handed ∧
      handed.delay.val = min (ack.delay.val * 2 ^ exponent % 2 ^ 64) varintMax := by
  obtain ⟨handed, hhanded, -, hdelay⟩ := scaledAck_eq ack exponent
  rw [if_pos hexp, Nat.shiftLeft_eq] at hdelay
  exact ⟨handed, hhanded, hdelay⟩

/-- A delay comes back rounded down to the unit that its exponent gives. What the peer sends is multiplied by this unit
and kept below `2^62`, exactly as long as no bits are shifted out that would have made a difference. -/
theorem ackDelay_scaled {exponent : Nat} (hexp : exponent ≤ 20) :
    (∀ (j : RcvdJournal) (largest rcvdTime now capacity : Nat) (frame : AckFrame), now - rcvdTime ≤ varintMax →
      j.genAckFrameUtil largest rcvdTime now capacity = some (.ok frame) → frame.delay.val = now - rcvdTime) ∧
    (∀ frame : AckFrame, ∃ sent handed, AckPackage.scaled frame exponent = some sent ∧
      SentJournal.scaledAck sent exponent = some handed ∧
      handed.delay.val = frame.delay.val / 2 ^ exponent * 2 ^ exponent) ∧
    (∀ ack : AckFrame, ∃ handed, SentJournal.scaledAck ack exponent = some handed ∧
      (handed.delay.val = min (ack.delay.val * 2 ^ exponent) varintMax ↔
        ack.delay.val * 2 ^ exponent < 2 ^ 64 ∨ varintMax ≤ ack.delay.val * 2 ^ exponent % 2 ^ 64)) ∧
    ∀ ack ack' handed handed' : AckFrame, ack.delay.val ≤ ack'.delay.val → ack'.delay.val * 2 ^ exponent < 2 ^ 64 →
      SentJournal.scaledAck ack exponent = some handed → SentJournal.scaledAck ack' exponent = some handed' →
      handed.delay.val ≤ handed'.delay.val := by
  have hlt : exponent < 64 := by omega
  refine ⟨fun j largest rcvdTime now capacity frame hle hframe => ?_, fun frame => ?_, fun ack => ?_,
    fun ack ack' handed handed' hle hfits hhanded hhanded' => ?_⟩
  · rw [RcvdJournal.delay_of_genAckFrameUtil hframe, min_eq_left hle]
  · obtain ⟨sent, hsent, hdelay⟩ := AckPackage.scaled_delay frame hlt
    obtain ⟨handed, hhanded, hback⟩ := SentJournal.scaledAck_delay sent hlt
    have hround : frame.delay.val / 2 ^ exponent * 2 ^ exponent ≤ frame.delay.val := Nat.div_mul_le_self _ _
    have hmax := frame.delay.2
    refine ⟨sent, handed, hsent, hhanded, ?_⟩
    rw [hback, hdelay, Nat.mod_eq_of_lt (by omega), min_eq_left (by unfold varintMax; omega)]
  · obtain ⟨handed, hhanded, hdelay⟩ := SentJournal.scaledAck_delay ack hlt
    refine ⟨handed, hhanded, ?_⟩
    rw [hdelay]
    generalize ack.delay.val * 2 ^ exponent = delay
    unfold varintMax
    omega
  · obtain ⟨_, heq, hdelay⟩ := SentJournal.scaledAck_delay ack hlt
    obtain ⟨_, heq', hdelay'⟩ := SentJournal.scaledAck_delay ack' hlt
    cases heq.symm.trans hhanded
    cases heq'.symm.trans hhanded'
    have hscaled : ack.delay.val * 2 ^ exponent ≤ ack'.delay.val * 2 ^ exponent := Nat.mul_le_mul_right _ hle
    rw [hdelay, hdelay', Nat.mod_eq_of_lt (hscaled.trans_lt hfits), Nat.mod_eq_of_lt hfits]
    exact min_le_min_right _ hscaled

/-- A delay of 1003 microseconds with the default exponent. -/
theorem ackDelay_scaled_default : ∃ sent handed,
    AckPackage.scaled ⟨⟨0, by decide⟩, ⟨1003, by decide⟩, ⟨0, by decide⟩, [], none⟩ 3 = some sent ∧
    SentJournal.scaledAck sent 3 = some handed ∧ handed.delay.val = 1000 := by
  obtain ⟨sent, handed, hsent, hhanded, hdelay⟩ := (ackDelay_scaled (by decide : 3 ≤ 20)).2.1
    ⟨⟨0, by decide⟩, ⟨1003, by decide⟩, ⟨0, by decide⟩, [], none⟩
  exact ⟨sent, handed, hsent, hhanded, hdelay.trans (by decide)⟩

/-- With the default exponent, the bits of `2^61` are shifted out. The delay becomes zero, while a smaller one becomes
the largest delay there is. -/
theorem ackDelay_shifted_out : ∃ ack ack' handed handed' : AckFrame, ack.delay.val < ack'.delay.val ∧
    SentJournal.scaledAck ack 3 = some handed ∧ SentJournal.scaledAck ack' 3 = some handed' ∧
    handed.delay.val = varintMax ∧ handed'.delay.val = 0 ∧ min (ack'.delay.val * 2 ^ 3) varintMax = varintMax := by
  refine ⟨⟨⟨0, by decide⟩, ⟨2 ^ 61 - 1, by decide⟩, ⟨0, by decide⟩, [], none⟩,
    ⟨⟨0, by decide⟩, ⟨2 ^ 61, by decide⟩, ⟨0, by decide⟩, [], none⟩, _, _, by decide, rfl, rfl, ?_, ?_, ?_⟩
  · decide
  · decide
  · decide

end Dquic
