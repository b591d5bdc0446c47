import Dquic.Lib.Ledger
import Dquic.Send.HandOut

/-!
# Frames and the colours of a buffer

The colours of a send buffer say what was reported about the frames made from it: a byte is
received exactly when some frame with it was acknowledged, and in flight only while some frame
with it was not reported.
-/

namespace Dquic

open Lib

/-- The colours of a buffer say what was reported about the frames. -/
structure Tracked (buf : SendBuf) (written : Bytes) (log : Ledger StreamFrame) : Prop where
  wf : log.Wf
  inv : buf.Inv written
  sent : buf.sent = claimedBy log.issued
  sentIn : ∀ f ∈ log.issued, f.range.SentIn buf.state
  recved : ∀ i < buf.state.size, buf.state.colorAt i = .recved ↔ ∃ f, log.Acked f ∧ f.range.Mem i
  flighting : ∀ i < buf.state.size, buf.state.colorAt i = .flighting → ∃ f, log.Open f ∧ f.range.Mem i

lemma claimedBy_push (log : Ledger StreamFrame) (f : StreamFrame) :
    claimedBy (log.push f).issued = max (claimedBy log.issued) f.range.stop := by
  change claimedBy (log.issued ++ [f]) = _
  induction log.issued with
  | nil => simp [claimedBy]
  | cons g l ih => rw [List.cons_append, claimedBy, ih, claimedBy, max_assoc]

/-- A dump takes from the credit what no frame before it claimed. It leaves no gap behind those frames, and its
data is as long as it says. -/
structure Dump.Paid (dump : Dump) (log : Ledger StreamFrame) (credit : Nat) : Prop where
  start_le : dump.frame.range.start ≤ claimedBy log.issued
  claimed : claimedBy (log.push dump.frame).issued + dump.credit = claimedBy log.issued + credit
  length : dump.data.flatten.length = dump.frame.length

namespace Tracked

variable {buf buf' : SendBuf} {written : Bytes} {log : Ledger StreamFrame}

lemma extended (h : Tracked buf written log) {written' : Bytes} (hinv : buf'.Inv written')
    (hext : BufMap.Extended buf.state buf'.state buf'.state.size)
    (hne : ∀ f ∈ log.issued, f.range.start < f.range.stop) : Tracked buf' written' log where
  wf := h.wf
  inv := hinv
  sent := hext.sent_eq.trans h.sent
  sentIn f hf := (h.sentIn f hf).mono (hne f hf) hext.sent_eq.ge
  recved i hi := by
    by_cases hlt : i < buf.state.size
    · rw [hext.color i hlt]
      exact h.recved i hlt
    · have hpending := hext.fresh i (by omega) hi
      rw [hpending]
      constructor
      · intro hc
        cases hc
      · rintro ⟨f, hf, hmem⟩
        have hstop := (h.sentIn f hf.mem).stop_le
        have hsent := h.inv.wf.sent_le
        have hi := hmem.2
        omega
  flighting i hi hc := by
    by_cases hlt : i < buf.state.size
    · rw [hext.color i hlt] at hc
      exact h.flighting i hlt hc
    · rw [hext.fresh i (by omega) hi] at hc
      cases hc

variable {f : StreamFrame} {p : StreamData} {j : Nat}

lemma handedOut (h : Tracked buf written log) (hout : buf.HandedOut buf' written p) (hf : f.range = p.range) :
    Tracked buf' written (log.push f) where
  wf := h.wf.push f
  inv := hout.inv
  sent := by rw [hout.sent_eq, h.sent, ← hf, claimedBy_push]
  sentIn g hg := by
    cases Ledger.mem_push.mp hg with
    | inl hg => exact (h.sentIn g hg).of_size_eq hout.sent_le hout.size_eq
    | inr hg => exact hg ▸ hf ▸ hout.sentIn
  recved i hi := by
    rw [hout.size_eq] at hi
    rw [hout.color i hi]
    simp only [h.wf.acked_push]
    by_cases hmem : p.range.Mem i
    · rw [if_pos hmem, ← h.recved i hi]
      simp [hout.before i hmem]
    · rw [if_neg hmem]
      exact h.recved i hi
  flighting i hi hc := by
    rw [hout.size_eq] at hi
    rw [hout.color i hi] at hc
    by_cases hmem : p.range.Mem i
    · exact ⟨f, h.wf.open_push, hf ▸ hmem⟩
    · rw [if_neg hmem] at hc
      obtain ⟨g, hg, hgi⟩ := h.flighting i hi hc
      exact ⟨g, hg.push, hgi⟩

lemma paid (h : Tracked buf written log) (hout : buf.HandedOut buf' written p) {dump : Dump} {credit : Nat}
    (hdump : Outgoing.Carries dump p credit) : dump.Paid log credit where
  start_le := by
    have hle := hout.sentIn.le
    have hfresh := hout.fresh
    rw [hdump.range, ← h.sent]
    split at hfresh <;> omega
  claimed := by
    have hle := hout.sentIn.le
    have hfresh := hout.fresh
    have hleft := hdump.left
    rw [claimedBy_push, hdump.range, ← h.sent]
    cases hcase : p.isFresh with
    | true =>
      have hfits := hdump.fits hcase
      rw [hcase, if_pos rfl] at hfresh hleft
      omega
    | false =>
      rw [hcase, if_neg Bool.false_ne_true] at hfresh hleft
      omega
  length := by
    have hstop := hout.sentIn.stop_le
    have hsent := hout.inv.wf.sent_le
    have hsize := hout.inv.size_eq
    have hlen : dump.frame.length = p.range.stop - p.range.start := by
      rw [← hdump.range]
      exact (Nat.add_sub_cancel_left _ _).symm
    rw [hdump.data, hout.bytes, List.length_drop, List.length_take, hlen]
    omega

lemma acked (h : Tracked buf written log) (hj : log.issued[j]? = some f) (hinv : buf'.Inv written)
    (hpaint : BufMap.Repaint buf.state buf'.state f.range (fun _ => .recved)) :
    Tracked buf' written (log.ack j) where
  wf := h.wf.ack hj
  inv := hinv
  sent := hpaint.sent_eq.trans h.sent
  sentIn g hg := (h.sentIn g hg).of_size_eq hpaint.sent_eq.ge hpaint.size_eq
  recved i hi := by
    rw [hpaint.size_eq] at hi
    rw [hpaint.color i hi]
    simp only [Ledger.acked_ack hj, or_and_right, exists_or, exists_eq_left]
    by_cases hmem : f.range.Mem i
    · simp [hmem]
    · rw [if_neg hmem, h.recved i hi]
      simp [hmem]
  flighting i hi hc := by
    rw [hpaint.size_eq] at hi
    rw [hpaint.color i hi] at hc
    by_cases hmem : f.range.Mem i
    · rw [if_pos hmem] at hc
      cases hc
    · rw [if_neg hmem] at hc
      obtain ⟨g, hg, hgi⟩ := h.flighting i hi hc
      exact ⟨g, hg.ack hj (fun hgf => hmem (hgf ▸ hgi)), hgi⟩

lemma lost (h : Tracked buf written log) (hj : log.issued[j]? = some f) (hinv : buf'.Inv written)
    (hpaint : BufMap.Repaint buf.state buf'.state f.range Color.lose) :
    Tracked buf' written (log.lose j) where
  wf := h.wf.lose hj
  inv := hinv
  sent := hpaint.sent_eq.trans h.sent
  sentIn g hg := (h.sentIn g hg).of_size_eq hpaint.sent_eq.ge hpaint.size_eq
  recved i hi := by
    rw [hpaint.size_eq] at hi
    have hacked := h.recved i hi
    rw [hpaint.color i hi]
    by_cases hmem : f.range.Mem i
    · rw [if_pos hmem, Color.lose_eq_recved]
      exact hacked
    · rw [if_neg hmem]
      exact hacked
  flighting i hi hc := by
    rw [hpaint.size_eq] at hi
    rw [hpaint.color i hi] at hc
    by_cases hmem : f.range.Mem i
    · rw [if_pos hmem] at hc
      cases hcolor : buf.state.colorAt i <;> simp [hcolor, Color.lose] at hc
    · rw [if_neg hmem] at hc
      obtain ⟨g, hg, hgi⟩ := h.flighting i hi hc
      exact ⟨g, hg.lose hj (fun hgf => hmem (hgf ▸ hgi)), hgi⟩

lemma color_of_settled (h : Tracked buf written log) (hsettled : log.Settled) {i : Nat} (hi : i < buf.state.size)
    (hc : buf.state.colorAt i ≠ .recved) : buf.state.colorAt i = .lost ∨ buf.state.colorAt i = .pending := by
  cases hcolor : buf.state.colorAt i with
  | recved => exact absurd hcolor hc
  | lost => exact .inl rfl
  | pending => exact .inr rfl
  | flighting =>
    obtain ⟨f, hf, -⟩ := h.flighting i hi hcolor
    exact absurd hf hsettled.not_open

end Tracked

end Dquic
