import Dquic.Congestion.TimerRuns

/-!
# Backoff of probes

The period after which a probe is sent, from `base_pto` of `qcongestion/src/rtt.rs` and `get_pto`
of `qcongestion/src/congestion.rs`, beside the one that their comments give.
-/

namespace Dquic.Congestion

/-- `Rtt`, as far as probes read it, in nanoseconds. -/
structure Rtt where
  smoothedRtt : Nat
  rttvar : Nat
  deriving DecidableEq, Repr

/-- `GRANULARITY`, a millisecond. -/
def granularity : Nat := 1000000

namespace Rtt

/-- `INITIAL_RTT`. -/
def initialRtt : Nat := 33000000

def default : Rtt := ⟨initialRtt, initialRtt / 2⟩

/-- `base_pto`. The product is taken before the sum. -/
def basePto (rtt : Rtt) (ptoCount : Nat) : Nat :=
  rtt.smoothedRtt + max (4 * rtt.rttvar) granularity * (1 <<< ptoCount)

def readings (rtt : Rtt) (maxAckDelay : Nat) (now : Int) : Readings :=
  ⟨now, rtt.basePto, fun ptoCount => maxAckDelay * (1 <<< ptoCount)⟩

end Rtt

namespace CongestionController

def getPto (cc : CongestionController) (rtt : Rtt) (maxAckDelay : Nat) (epoch : Epoch) : Nat :=
  let ptoTime := rtt.basePto cc.ptoCount
  if epoch = .data then ptoTime + maxAckDelay * (1 <<< cc.ptoCount) else ptoTime

end CongestionController

/-- The period of the comments: `(smoothed_rtt + max(4 * rttvar, kGranularity)) * (2 ^ pto_count)`, and for data
`max_ack_delay * (2 ^ pto_count)` more. -/
def documentedPto (rtt : Rtt) (maxAckDelay ptoCount : Nat) (epoch : Epoch) : Nat :=
  2 ^ ptoCount * (rtt.smoothedRtt + max (4 * rtt.rttvar) granularity) +
    if epoch = .data then 2 ^ ptoCount * maxAckDelay else 0

variable {cc : CongestionController} {rtt : Rtt} {maxAckDelay : Nat}

lemma getPto_add (cc : CongestionController) (rtt : Rtt) (maxAckDelay : Nat) (epoch : Epoch) :
    cc.getPto rtt maxAckDelay epoch + 2 ^ cc.ptoCount * rtt.smoothedRtt =
      documentedPto rtt maxAckDelay cc.ptoCount epoch + rtt.smoothedRtt := by
  unfold CongestionController.getPto documentedPto Rtt.basePto
  rw [Nat.one_shiftLeft]
  dsimp only
  split <;> ring

lemma getPto_eq_documented_iff (epoch : Epoch) :
    cc.getPto rtt maxAckDelay epoch = documentedPto rtt maxAckDelay cc.ptoCount epoch ↔
      cc.ptoCount = 0 ∨ rtt.smoothedRtt = 0 := by
  have hadd := getPto_add cc rtt maxAckDelay epoch
  constructor
  · intro heq
    have hscaled : 2 ^ cc.ptoCount * rtt.smoothedRtt = 1 * rtt.smoothedRtt := by omega
    rcases Nat.eq_zero_or_pos rtt.smoothedRtt with hzero | hpos
    · exact .inr hzero
    · have hone := Nat.eq_of_mul_eq_mul_right hpos hscaled
      exact .inl (Nat.pow_eq_one.mp hone |>.resolve_left (by decide))
  · intro h
    have hscaled : 2 ^ cc.ptoCount * rtt.smoothedRtt = rtt.smoothedRtt := by
      rcases h with hzero | hzero
      · rw [hzero, pow_zero, one_mul]
      · rw [hzero, mul_zero]
    omega

lemma getPto_doubles_iff (epoch : Epoch) :
    ({ cc with ptoCount := cc.ptoCount + 1 } : CongestionController).getPto rtt maxAckDelay epoch =
      2 * cc.getPto rtt maxAckDelay epoch ↔ rtt.smoothedRtt = 0 := by
  unfold CongestionController.getPto Rtt.basePto
  dsimp only
  rw [Nat.one_shiftLeft, Nat.one_shiftLeft, pow_succ, ← mul_assoc, ← mul_assoc]
  split <;> omega

/-! ### The probe that is due first -/

/-- Ack-eliciting packets are in flight, and data counts once the handshake is confirmed. -/
def Counts (cc : CongestionController) (done : Bool) (epoch : Epoch) : Prop :=
  AckElicitingIn (cc.packetSpaces epoch).sentPackets ∧ (epoch = .data → done = true)

/-- The least of the times at which a probe is due, in one of the spaces that count. -/
structure Soonest (cc : CongestionController) (done : Bool) (period : Epoch → Nat) (out : Option (Int × Epoch)) : Prop where
  none : out = none → ∀ epoch, ¬Counts cc done epoch
  mem : ∀ t epoch, out = some (t, epoch) → Counts cc done epoch ∧
    ∃ last, (cc.packetSpaces epoch).timeOfLastAckElicitingPacket = some last ∧ t = last + period epoch
  le : ∀ t epoch, out = some (t, epoch) → ∀ epoch' last, Counts cc done epoch' →
    (cc.packetSpaces epoch').timeOfLastAckElicitingPacket = some last → t ≤ last + period epoch'

lemma exists_kept (best : Option (Int × Epoch)) (t : Int × Epoch) :
    ∃ k, (if best.all fun b => t.1 < b.1 then some t else best) = some k ∧ k.1 ≤ t.1 ∧ (∀ b, best = some b → k.1 ≤ b.1) ∧
      (k = t ∨ best = some k) := by
  cases best with
  | none => exact ⟨t, rfl, le_rfl, by simp, .inl rfl⟩
  | some b =>
    rw [Option.all_some]
    by_cases hlt : t.1 < b.1
    · refine ⟨t, if_pos (decide_eq_true hlt), le_rfl, ?_, .inl rfl⟩
      rintro b' ⟨⟩
      exact hlt.le
    · refine ⟨b, if_neg (by simpa using hlt), not_lt.mp hlt, ?_, .inr rfl⟩
      rintro b' ⟨⟩
      exact le_rfl

/-- The loop keeps the least of what it has seen. Data comes last, so that its delay is added to no other period. -/
lemma ptoLoop_soonest (htimed : Timed cc) (done : Bool) (ackDelay duration : Nat) {epochs : List Epoch}
    (hlast : epochs.Pairwise fun epoch _ => epoch ≠ .data) (best : Option (Int × Epoch)) :
    ∃ out, cc.ptoLoop done ackDelay duration epochs best = .ok out ∧
      (∀ b, best = some b → ∃ o, out = some o ∧ o.1 ≤ b.1) ∧
      (∀ epoch ∈ epochs, ∀ last, Counts cc done epoch →
        (cc.packetSpaces epoch).timeOfLastAckElicitingPacket = some last →
        ∃ o, out = some o ∧ o.1 ≤ last + ((if epoch = .data then duration + ackDelay else duration : Nat) : Int)) ∧
      ∀ o, out = some o → best = some o ∨ o.2 ∈ epochs ∧ Counts cc done o.2 ∧ ∃ last,
        (cc.packetSpaces o.2).timeOfLastAckElicitingPacket = some last ∧
        o.1 = last + ((if o.2 = .data then duration + ackDelay else duration : Nat) : Int) := by
  induction epochs generalizing duration best with
  | nil => exact ⟨best, rfl, fun b hb => ⟨b, hb, le_rfl⟩, by simp, fun o ho => .inl ho⟩
  | cons e epochs ih =>
    obtain ⟨hfirst, hrest⟩ := List.pairwise_cons.mp hlast
    unfold CongestionController.ptoLoop
    cases hno : (cc.packetSpaces e).noAckElicitingInFlight with
    | true =>
      rw [if_pos rfl]
      obtain ⟨out, hout, hbest, hle, hmem⟩ := ih duration hrest best
      refine ⟨out, hout, hbest, ?_, ?_⟩
      · rintro epoch (_ | ⟨_, hin⟩) last hcounts
        · exact absurd hcounts.1 (not_ackElicitingIn.mpr hno)
        · exact hle epoch hin last hcounts
      · exact fun o ho => (hmem o ho).imp_right fun h => ⟨List.mem_cons_of_mem e h.1, h.2⟩
    | false =>
      rw [if_neg Bool.false_ne_true]
      by_cases hdata : e = .data ∧ done = false
      · rw [if_pos hdata]
        refine ⟨best, rfl, fun b hb => ⟨b, hb, le_rfl⟩, ?_, fun o ho => .inl ho⟩
        rintro epoch (_ | ⟨_, hin⟩) last hcounts
        · have hdone := hcounts.2 hdata.1
          rw [hdata.2] at hdone
          cases hdone
        · exact absurd hdata.1 (hfirst epoch hin)
      · rw [if_neg hdata]
        obtain ⟨last, htime⟩ := Option.isSome_iff_exists.mp (htimed e hno)
        have hcounts : Counts cc done e := by
          refine ⟨noAckElicitingInFlight_eq_false.mp hno, fun he => ?_⟩
          by_contra hdone
          exact hdata ⟨he, Bool.eq_false_iff.mpr hdone⟩
        simp only [htime]
        set period : Nat := if e = .data then duration + ackDelay else duration with hperiod
        -- what is kept after this space is at most both times
        obtain ⟨k, hk, hkle, hkbest, hkfrom⟩ := exists_kept best (last + (period : Int), e)
        obtain ⟨out, hout, hbest, hle, hmem⟩ := ih period hrest _
        obtain ⟨o, ho, hok⟩ := hbest k hk
        -- no space after data
        have hsame : ∀ epoch ∈ epochs, period = duration := by
          intro epoch hin
          rw [hperiod, if_neg (hfirst epoch hin)]
        refine ⟨out, hout, ?_, ?_, ?_⟩
        · exact fun b hb => ⟨o, ho, hok.trans (hkbest b hb)⟩
        · rintro epoch (_ | ⟨_, hin⟩) last' hcounts' htime'
          · cases htime.symm.trans htime'
            exact ⟨o, ho, hok.trans hkle⟩
          · have hle' := hle epoch hin last' hcounts' htime'
            rwa [hsame epoch hin] at hle'
        · intro o' ho'
          rcases hmem o' ho' with hold | ⟨hin, hcounts', last', htime', ht⟩
          · rcases hkfrom with rfl | hbest'
            · cases hk.symm.trans hold
              exact .inr ⟨List.mem_cons_self, hcounts, last, htime, rfl⟩
            · exact .inl (hbest'.trans (hk.symm.trans hold))
          · rw [hsame o'.2 hin] at ht
            exact .inr ⟨List.mem_cons_of_mem e hin, hcounts', last', htime', ht⟩

lemma getPtoTimeAndEpoch_soonest (htimed : Timed cc) (hsome : cc.noAckElicitingInFlight = false) (facts : HandshakeFacts)
    (now : Int) :
    ∃ out, cc.getPtoTimeAndEpoch facts (rtt.readings maxAckDelay now) = .ok out ∧
      Soonest cc facts.isHandshakeDone (cc.getPto rtt maxAckDelay) out := by
  have hlast : Epoch.all.Pairwise fun epoch _ => epoch ≠ .data := by decide
  obtain ⟨out, hout, -, hle, hmem⟩ := ptoLoop_soonest htimed facts.isHandshakeDone (maxAckDelay * (1 <<< cc.ptoCount))
    (rtt.basePto cc.ptoCount) hlast none
  refine ⟨out, ?_, ?_, ?_, ?_⟩
  · unfold CongestionController.getPtoTimeAndEpoch
    rw [hsome, if_neg Bool.false_ne_true]
    exact hout
  · rintro rfl epoch hcounts
    have hin := noAckElicitingInFlight_eq_false.mpr hcounts.1
    obtain ⟨last, htime⟩ := Option.isSome_iff_exists.mp (htimed epoch hin)
    obtain ⟨o, ho, -⟩ := hle epoch (Epoch.mem_all epoch) last hcounts htime
    cases ho
  · intro t epoch ho
    rcases hmem _ ho with hnone | ⟨-, hfound⟩
    · cases hnone
    · exact hfound
  · intro t epoch ho epoch' last hcounts htime
    obtain ⟨o, ho', hle'⟩ := hle epoch' (Epoch.mem_all epoch') last hcounts htime
    cases ho.symm.trans ho'
    exact hle'

section

variable {role : Role} {mtu : Nat} {w : TimerWorld}

/-- In every state of a controller, whatever the estimator says: the period is the documented one exactly before the first
probe or with a smoothed round-trip time of zero, and it doubles with the next probe exactly with a smoothed round-trip time
of zero. The time that is returned is the least of the last times at which an ack-eliciting packet was sent plus that
period, and starts now if none is in flight. -/
theorem getPto_documented_iff {initialDelay : Nat} (hr : (timerSystem role mtu initialDelay).Reach w) (rtt : Rtt)
    (maxAckDelay : Nat) (now : Int) :
    ((∀ epoch, w.controller.cc.getPto rtt maxAckDelay epoch =
      documentedPto rtt maxAckDelay w.controller.cc.ptoCount epoch) ↔
        w.controller.cc.ptoCount = 0 ∨ rtt.smoothedRtt = 0) ∧
    ((∀ epoch, ({ w.controller.cc with ptoCount := w.controller.cc.ptoCount + 1 } : CongestionController).getPto
      rtt maxAckDelay epoch = 2 * w.controller.cc.getPto rtt maxAckDelay epoch) ↔ rtt.smoothedRtt = 0) ∧
    (w.controller.cc.noAckElicitingInFlight = true →
      w.controller.cc.getPtoTimeAndEpoch w.facts (rtt.readings maxAckDelay now) =
        .ok (some (now + w.controller.cc.getPto rtt maxAckDelay .initial,
          if w.facts.gotHandshakeKey then .handshake else .initial))) ∧
    (w.controller.cc.noAckElicitingInFlight = false →
      ∃ out, w.controller.cc.getPtoTimeAndEpoch w.facts (rtt.readings maxAckDelay now) = .ok out ∧
        Soonest w.controller.cc w.facts.isHandshakeDone (w.controller.cc.getPto rtt maxAckDelay) out) := by
  refine ⟨?_, ?_, ?_, ?_⟩
  · constructor
    · exact fun h => (getPto_eq_documented_iff .initial).mp (h .initial)
    · exact fun h epoch => (getPto_eq_documented_iff epoch).mpr h
  · constructor
    · exact fun h => (getPto_doubles_iff .initial).mp (h .initial)
    · exact fun h epoch => (getPto_doubles_iff epoch).mpr h
  · intro hnone
    unfold CongestionController.getPtoTimeAndEpoch
    rw [if_pos hnone]
    rfl
  · exact fun hsome => getPtoTimeAndEpoch_soonest (kept_of_reach hr).timed hsome w.facts now

end

/-- A first packet with the estimator as it starts: the period is the documented one, and the probe is due after it. -/
theorem getPto_documented_iff_first : ∃ w, (timerSystem .client 1200 25).Reach w ∧ w.controller.cc.ptoCount = 0 ∧
    (∀ epoch, w.controller.cc.getPto .default 25 epoch = documentedPto .default 25 0 epoch) ∧
    ∃ out, w.controller.cc.getPtoTimeAndEpoch w.facts (Rtt.default.readings 25 1) = .ok out ∧
      Soonest w.controller.cc false (w.controller.cc.getPto .default 25) out := by
  have h₀ : (timerSystem .client 1200 25).Reach (_ : TimerWorld) := .start ⟨_, rfl, rfl⟩
  have h₁ := h₀.step (e := TimerOp.onPacketSent (Rtt.default.readings 25 0) 0 0 .initial true true 1200) (fun _ => rfl) rfl
  obtain ⟨hperiod, -, -, hsoonest⟩ := getPto_documented_iff h₁ .default 25 1
  exact ⟨_, h₁, rfl, hperiod.mpr (.inl rfl), hsoonest rfl⟩

/-- After one timeout of a first packet, the next probe is due 165 ms after the packet was sent. Twice the first period
is 198 ms. -/
theorem getPto_after_timeout : ∃ w, (timerSystem .client 1200 25).Reach w ∧ w.controller.cc.ptoCount = 1 ∧
    w.controller.cc.getPtoTimeAndEpoch w.facts (Rtt.default.readings 25 99000000) = .ok (some (165000000, .initial)) ∧
    w.controller.cc.getPto .default 25 .initial = 165000000 ∧ documentedPto .default 25 1 .initial = 198000000 := by
  have h₀ : (timerSystem .client 1200 25).Reach (_ : TimerWorld) := .start ⟨_, rfl, rfl⟩
  have h₁ := h₀.step (e := TimerOp.onPacketSent (Rtt.default.readings 25 0) 0 0 .initial true true 1200) (fun _ => rfl) rfl
  have h₂ := h₁.step (e := TimerOp.tick ⟨Rtt.default.readings 25 99000000, Rtt.default.readings 25 99000000,
    Rtt.default.readings 25 99000000, Rtt.default.readings 25 99000000, Rtt.default.readings 25 99000000, 99000000,
    ⟨99000000, 99000000, 99000000⟩, 37125000, true⟩) trivial rfl
  exact ⟨_, h₂, rfl, rfl, rfl, rfl⟩

end Dquic.Congestion
