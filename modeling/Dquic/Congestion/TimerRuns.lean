import Dquic.Congestion.Timer

/-!
# The timer is never lost

Whatever is in flight in a space and elicits an acknowledgement, its space knows when the last
such packet was sent.
-/

namespace Dquic.Congestion

open Lib

/-! ### The earliest loss -/

/-- One step of `get_loss_time_and_epoch`. -/
def earlier (cc : CongestionController) (best : Option (Int × Epoch)) (epoch : Epoch) : Option (Int × Epoch) :=
  match best, (cc.packetSpaces epoch).lossTime with
  | none, t => t.map fun t => (t, epoch)
  | some b, some t => if t < b.1 then some (t, epoch) else some b
  | some b, none => some b

/-- The outcome is the best so far or a loss time of a space, and none of them is earlier. -/
structure Earliest (cc : CongestionController) (epochs : List Epoch) (best out : Option (Int × Epoch)) : Prop where
  none : out = none → best = none ∧ ∀ epoch ∈ epochs, (cc.packetSpaces epoch).lossTime = none
  mem : ∀ t epoch, out = some (t, epoch) → best = some (t, epoch) ∨ (cc.packetSpaces epoch).lossTime = some t
  le_best : ∀ t epoch b, out = some (t, epoch) → best = some b → t ≤ b.1
  le : ∀ t epoch, out = some (t, epoch) → ∀ epoch' ∈ epochs, ∀ t', (cc.packetSpaces epoch').lossTime = some t' → t ≤ t'

lemma earliest_foldl (cc : CongestionController) (epochs : List Epoch) (best : Option (Int × Epoch)) :
    Earliest cc epochs best (epochs.foldl (earlier cc) best) := by
  induction epochs generalizing best with
  | nil =>
    refine ⟨fun h => ⟨h, by simp⟩, fun t epoch h => Or.inl h, ?_, by simp⟩
    intro t epoch b h hb
    cases h.symm.trans hb
    exact le_rfl
  | cons e epochs ih =>
    rw [List.foldl_cons]
    have htail := ih (earlier cc best e)
    cases ht : (cc.packetSpaces e).lossTime with
    | none =>
      have hsame : earlier cc best e = best := by
        cases best <;> simp [earlier, ht]
      rw [hsame] at htail ⊢
      refine ⟨?_, htail.mem, htail.le_best, ?_⟩
      · intro h
        refine ⟨(htail.none h).1, ?_⟩
        rintro epoch (_ | ⟨_, hmem⟩)
        · exact ht
        · exact (htail.none h).2 epoch hmem
      · rintro t epoch h epoch' (_ | ⟨_, hmem⟩) t' ht'
        · cases ht.symm.trans ht'
        · exact htail.le t epoch h epoch' hmem t' ht'
    | some te =>
      -- the step takes the loss time of the space, or keeps something that is not later
      have hstep : ∃ b, earlier cc best e = some b ∧ b.1 ≤ te ∧ (best = some b ∨ b = (te, e)) ∧
          ∀ b', best = some b' → b.1 ≤ b'.1 := by
        cases hbest : best with
        | none => exact ⟨(te, e), by simp [earlier, ht], le_rfl, Or.inr rfl, by simp⟩
        | some b =>
          by_cases hlt : te < b.1
          · refine ⟨(te, e), by simp [earlier, ht, hlt], le_rfl, Or.inr rfl, ?_⟩
            rintro b' ⟨⟩
            exact hlt.le
          · refine ⟨b, by simp [earlier, ht, hlt], not_lt.mp hlt, Or.inl rfl, ?_⟩
            rintro b' ⟨⟩
            exact le_rfl
      obtain ⟨b, hb, hle, hfrom, hbest⟩ := hstep
      refine ⟨?_, ?_, ?_, ?_⟩
      · intro h
        cases hb.symm.trans (htail.none h).1
      · intro t epoch h
        rcases htail.mem t epoch h with hsame | hloss
        · rcases hfrom with hfrom | rfl
          · exact Or.inl (hfrom.trans (hb.symm.trans hsame))
          · cases hb.symm.trans hsame
            exact Or.inr ht
        · exact Or.inr hloss
      · intro t epoch b' h hb'
        exact (htail.le_best t epoch b h hb).trans (hbest b' hb')
      · rintro t epoch h epoch' (_ | ⟨_, hmem⟩) t' ht'
        · cases ht.symm.trans ht'
          exact (htail.le_best t epoch b h hb).trans hle
        · exact htail.le t epoch h epoch' hmem t' ht'

lemma earliest_getLossTimeAndEpoch (cc : CongestionController) :
    Earliest cc Epoch.all none cc.getLossTimeAndEpoch := earliest_foldl cc Epoch.all none

variable {cc : CongestionController} {s : PacketSpace} {l l' : List SentPacket}

lemma lossTime_of_none (h : cc.getLossTimeAndEpoch = none) (epoch : Epoch) : (cc.packetSpaces epoch).lossTime = none :=
  ((earliest_getLossTimeAndEpoch cc).none h).2 epoch (Epoch.mem_all epoch)

lemma exists_getLossTimeAndEpoch {t : Int} {epoch : Epoch} (h : (cc.packetSpaces epoch).lossTime = some t)
    (hle : ∀ epoch' t', (cc.packetSpaces epoch').lossTime = some t' → t ≤ t') :
    ∃ epoch', cc.getLossTimeAndEpoch = some (t, epoch') := by
  have hspec := earliest_getLossTimeAndEpoch cc
  cases hfound : cc.getLossTimeAndEpoch with
  | none => cases (lossTime_of_none hfound epoch).symm.trans h
  | some found =>
    obtain ⟨t₀, epoch₀⟩ := found
    have hle₀ := hspec.le t₀ epoch₀ hfound epoch (Epoch.mem_all epoch) t h
    rcases hspec.mem t₀ epoch₀ hfound with hnone | hloss
    · cases hnone
    · exact ⟨epoch₀, by rw [le_antisymm hle₀ (hle epoch₀ t₀ hloss)]⟩

/-! ### What is in flight -/

def AckElicitingIn (l : List SentPacket) : Prop := ∃ p ∈ l, p.ackEliciting = true ∧ p.state = .inflight

lemma noAckElicitingInFlight_eq_false : s.noAckElicitingInFlight = false ↔ AckElicitingIn s.sentPackets := by
  unfold PacketSpace.noAckElicitingInFlight AckElicitingIn
  rw [List.all_eq_false]
  simp

lemma AckElicitingIn.of_sublist (h : AckElicitingIn l') (hsub : l'.Sublist l) : AckElicitingIn l := by
  obtain ⟨p, hp, hboth⟩ := h
  exact ⟨p, hsub.subset hp, hboth⟩

lemma AckElicitingIn.of_marked {P : State → Prop} {st : State} {changed : List SentPacket} (h : AckElicitingIn l')
    (hmarked : Marked P st l l' changed) (hst : st ≠ .inflight) : AckElicitingIn l := by
  obtain ⟨p', hp', heliciting, hstate⟩ := h
  rcases hmarked.mem_cases p' hp' with hp | ⟨p, -, rfl⟩
  · exact ⟨p', hp, heliciting, hstate⟩
  · exact absurd hstate hst

def PacketSpace.Quiets (s s' : PacketSpace) : Prop :=
  s'.noAckElicitingInFlight = false →
    s.noAckElicitingInFlight = false ∧ s'.timeOfLastAckElicitingPacket = s.timeOfLastAckElicitingPacket

namespace PacketSpace

variable {s s' : PacketSpace}

lemma Quiets.refl (s : PacketSpace) : s.Quiets s := fun h => ⟨h, rfl⟩

lemma Quiets.trans {s'' : PacketSpace} (h : s.Quiets s') (h' : s'.Quiets s'') : s.Quiets s'' := by
  intro hne
  obtain ⟨hne', htime'⟩ := h' hne
  obtain ⟨hne'', htime⟩ := h hne'
  exact ⟨hne'', htime'.trans htime⟩

lemma quiets_of_sent (htime : s'.timeOfLastAckElicitingPacket = s.timeOfLastAckElicitingPacket)
    (hsent : AckElicitingIn s'.sentPackets → AckElicitingIn s.sentPackets) : s.Quiets s' := by
  intro hne
  exact ⟨noAckElicitingInFlight_eq_false.mpr (hsent (noAckElicitingInFlight_eq_false.mp hne)), htime⟩

variable {reno reno' : NewReno}

lemma quiets_onAckRcvd {ranges : List (Nat × Nat)} {scan : AckScan} (h : s.onAckRcvd ranges reno = some (scan, s')) :
    s.Quiets s' := by
  simp only [onAckRcvd, Option.bind_eq_bind, Option.bind_eq_some_iff] at h
  obtain ⟨⟨sent, scan'⟩, hloop, h⟩ := h
  cases h
  obtain ⟨changed, hmarked, -⟩ := ackLoop_marked 0 hloop
  refine quiets_of_sent (by rfl) fun hin => ?_
  exact (hin.of_sublist (List.dropWhile_sublist _)).of_marked hmarked (by decide)

lemma quiets_detectLostPackets {now event : Int} {lossDelay threshold : Nat} {lost : List Nat}
    (h : s.detectLostPackets now event lossDelay threshold reno = some (lost, reno', s')) : s.Quiets s' := by
  unfold detectLostPackets at h
  split at h
  · cases h
    exact Quiets.refl s
  · next largestAcked hlargest =>
    obtain ⟨changed, done, lost', lossTime, hloop, -, hmarked⟩ :=
      lossLoop_marked largestAcked (largestAckedIndex s.sentPackets) now lossDelay threshold 0 s.sentPackets
    rw [hloop] at h
    dsimp only at h
    have hquiets : s.Quiets { s with sentPackets := done, lossTime := lossTime } :=
      quiets_of_sent rfl fun hin => hin.of_marked hmarked (by decide)
    split at h
    · cases h
      exact hquiets
    · obtain ⟨reno', -, h⟩ := of_bind h
      cases h
      exact hquiets

lemma quiets_discard {numbers : List Nat} (h : s.discard reno = some (numbers, reno', s')) : s.Quiets s' := by
  obtain ⟨reno', -, h⟩ := of_bind h
  cases h
  intro hne
  cases hne

end PacketSpace

/-- A space with something in flight knows when the last ack-eliciting packet was sent. -/
def Timed (cc : CongestionController) : Prop :=
  ∀ epoch, (cc.packetSpaces epoch).noAckElicitingInFlight = false →
    (cc.packetSpaces epoch).timeOfLastAckElicitingPacket.isSome

namespace CongestionController

variable {cc cc' : CongestionController}

def Quiets (cc cc' : CongestionController) : Prop := ∀ epoch, (cc.packetSpaces epoch).Quiets (cc'.packetSpaces epoch)

lemma Quiets.refl (cc : CongestionController) : cc.Quiets cc := fun _ => .refl _

lemma Quiets.trans {cc'' : CongestionController} (h : cc.Quiets cc') (h' : cc'.Quiets cc'') : cc.Quiets cc'' :=
  fun epoch => (h epoch).trans (h' epoch)

variable {epoch : Epoch} {clock : Clock} {lossDelay : Nat} {tracker : Bool} {reports : Reports}

lemma quiets_of_space {space : PacketSpace} (h : (cc.packetSpaces epoch).Quiets space)
    (hspaces : cc'.packetSpaces = Function.update cc.packetSpaces epoch space) : cc.Quiets cc' := by
  intro epoch'
  rw [hspaces]
  by_cases he : epoch' = epoch
  · subst he
    rw [Function.update_self]
    exact h
  · rw [Function.update_of_ne he]
    exact .refl _

lemma quiets_detectLost {lost resent : List Nat}
    (h : cc.detectLost clock lossDelay epoch tracker = some (lost, resent, cc')) : cc.Quiets cc' := by
  simp only [detectLost, Option.bind_eq_bind, Option.bind_eq_some_iff] at h
  obtain ⟨⟨lost', reno, space⟩, hspace, h⟩ := h
  cases h
  exact quiets_of_space (PacketSpace.quiets_detectLostPackets hspace) rfl

lemma quiets_onAckRcvd {ack : AckFrame} {peerValidated : Bool}
    (h : cc.onAckRcvd clock epoch ack lossDelay tracker peerValidated = some (reports, cc')) : cc.Quiets cc' := by
  unfold onAckRcvd at h
  split at h
  · cases h
    exact .refl cc
  · have hupdate : (cc.packetSpaces epoch).Quiets ((cc.packetSpaces epoch).updateLargestAckedPacket ack.largest.val) :=
      PacketSpace.quiets_of_sent rfl id
    dsimp only at h
    split at h
    · cases h
      exact quiets_of_space hupdate rfl
    · simp only [Option.bind_eq_bind, Option.bind_eq_some_iff] at h
      obtain ⟨ranges, -, ⟨scan, space⟩, hack, h⟩ := h
      have hquiets := hupdate.trans (PacketSpace.quiets_onAckRcvd hack)
      dsimp only at h
      split at h
      · cases h
        exact quiets_of_space hquiets rfl
      · simp only [Option.bind_eq_some_iff] at h
        obtain ⟨reno, -, ⟨lost, resent, cc₁⟩, hlost, h⟩ := h
        cases h
        have hfirst : cc.Quiets { cc.setSpace epoch space with algorithm := reno } := quiets_of_space hquiets rfl
        have hsecond := hfirst.trans (quiets_detectLost hlost)
        exact hsecond

lemma quiets_onLossDetectionTimeout {ptoEpoch : Option Epoch}
    (h : cc.onLossDetectionTimeout clock lossDelay tracker ptoEpoch = some (reports, cc')) : cc.Quiets cc' := by
  unfold onLossDetectionTimeout at h
  split at h
  · simp only [Option.bind_eq_bind, Option.bind_eq_some_iff] at h
    obtain ⟨⟨lost, resent, cc₁⟩, hlost, h⟩ := h
    cases h
    exact quiets_detectLost hlost
  · cases h
    exact .refl cc

lemma quiets_discardEpoch (h : cc.discardEpoch epoch = some cc') : cc.Quiets cc' := by
  simp only [discardEpoch, Option.bind_eq_bind, Option.bind_eq_some_iff] at h
  obtain ⟨-, -, h⟩ := h
  split at h
  · cases h
    exact .refl cc
  · simp only [Option.bind_eq_some_iff] at h
    obtain ⟨⟨numbers, reno, space⟩, hspace, h⟩ := h
    cases h
    exact quiets_of_space (PacketSpace.quiets_discard hspace) rfl

end CongestionController

lemma Timed.quiets {cc' : CongestionController} (h : Timed cc) (hquiets : cc.Quiets cc') : Timed cc' := by
  intro epoch hne
  obtain ⟨hne', htime⟩ := hquiets epoch hne
  rw [htime]
  exact h epoch hne'

lemma Timed.onPacketSent (h : Timed cc) (now : Int) (pn : Nat) (epoch : Epoch) {ackEliciting inFlight : Bool}
    (hflight : ackEliciting → inFlight) (sentBytes : Nat) :
    Timed (cc.onPacketSent now pn epoch ackEliciting inFlight sentBytes) := by
  unfold CongestionController.onPacketSent
  split
  · exact h
  · intro epoch' hne
    by_cases he : epoch' = epoch
    · subst he
      simp only [CongestionController.setSpace, Function.update_self, PacketSpace.onSent] at hne ⊢
      cases heliciting : ackEliciting with
      | true => simp [hflight heliciting]
      | false =>
        rw [Bool.and_false, if_neg Bool.false_ne_true]
        apply h epoch'
        rw [noAckElicitingInFlight_eq_false] at hne ⊢
        obtain ⟨p, hp, hp'⟩ := hne
        refine ⟨p, ?_, hp'⟩
        rw [heliciting] at hp
        dsimp only at hp
        split at hp
        · rcases List.mem_append.mp hp with hp | hp
          · exact hp
          · rw [List.mem_singleton.mp hp] at hp'
            cases hp'.1
        · exact hp
    · simp only [CongestionController.setSpace, Function.update_of_ne he] at hne ⊢
      exact h epoch' hne

/-! ### Setting the timer -/

lemma meets_orPanic {α : Type} {o : Option α} {Q : α → Prop} (h : ∀ a, o = some a → Q a) :
    Meets (· ≠ TimerPanic.other) (orPanic o) Q := by
  cases o with
  | none => exact fun hne => hne rfl
  | some a => exact h a rfl

/-- A probe is missing only if nothing is in flight but data before the handshake is confirmed. -/
lemma ptoLoop_meets (h : Timed cc) (done : Bool) (ackDelay duration : Nat) {epochs : List Epoch}
    (hlast : epochs.Pairwise fun epoch _ => epoch ≠ .data) (ptoTime : Option (Int × Epoch)) :
    Meets (· ≠ TimerPanic.other) (cc.ptoLoop done ackDelay duration epochs ptoTime) fun out => out = none →
      ptoTime = none ∧ ∀ epoch ∈ epochs,
        (cc.packetSpaces epoch).noAckElicitingInFlight = true ∨ epoch = .data ∧ done = false := by
  induction epochs generalizing duration ptoTime with
  | nil => exact fun hnone => ⟨hnone, by simp⟩
  | cons e epochs ih =>
    obtain ⟨hfirst, hlast⟩ := List.pairwise_cons.mp hlast
    unfold CongestionController.ptoLoop
    cases hno : (cc.packetSpaces e).noAckElicitingInFlight with
    | true =>
      rw [if_pos rfl]
      refine (ih duration hlast ptoTime).mono fun out hout hnone => ?_
      obtain ⟨hnone', hrest⟩ := hout hnone
      refine ⟨hnone', ?_⟩
      rintro epoch (_ | ⟨_, hmem⟩)
      · exact Or.inl hno
      · exact hrest epoch hmem
    | false =>
      rw [if_neg Bool.false_ne_true]
      by_cases hdata : e = .data ∧ done = false
      · rw [if_pos hdata]
        intro hnone
        refine ⟨hnone, ?_⟩
        rintro epoch (_ | ⟨_, hmem⟩)
        · exact Or.inr hdata
        · exact absurd hdata.1 (hfirst epoch hmem)
      · rw [if_neg hdata]
        obtain ⟨last, htime⟩ := Option.isSome_iff_exists.mp (h e hno)
        -- a time that was found is never given up
        have hfound : ∀ t : Int, (if ptoTime.all fun best => t < best.1 then some (t, e) else ptoTime) ≠ none := by
          intro t
          cases ptoTime with
          | none => simp
          | some best => split <;> simp
        simp only [htime]
        exact (ih _ hlast _).mono fun out hout hnone => absurd (hout hnone).1 (hfound _)

/-- Where the timer may be missing: no packet is due to be lost, and the path is blocked, or nothing is in flight and the
peer is validated, or only data is in flight before the handshake is confirmed. -/
structure Silent (facts : HandshakeFacts) (c : TimedController) : Prop where
  lossTime : ∀ epoch, (c.cc.packetSpaces epoch).lossTime = none
  why : c.amplificationBlocked = true ∨
    ((∀ epoch, ¬ AckElicitingIn (c.cc.packetSpaces epoch).sentPackets) ∧ facts.peerValidated = true) ∨
    ((∀ epoch, AckElicitingIn (c.cc.packetSpaces epoch).sentPackets ↔ epoch = .data) ∧ facts.isHandshakeDone = false)

def AtLossTime (c : TimedController) : Prop :=
  ∀ t epoch, c.cc.getLossTimeAndEpoch = some (t, epoch) → c.lossDetectionTimer = some t

def Idle (facts : HandshakeFacts) (c : TimedController) : Prop :=
  facts.peerValidated = true ∧ c.cc.noAckElicitingInFlight = true ∧ c.cc.getLossTimeAndEpoch = none

structure Armed (facts : HandshakeFacts) (c : TimedController) : Prop where
  silent : c.lossDetectionTimer = none → Silent facts c
  idle : Idle facts c → c.lossDetectionTimer = none

lemma not_ackElicitingIn : ¬ AckElicitingIn s.sentPackets ↔ s.noAckElicitingInFlight = true := by
  rw [← noAckElicitingInFlight_eq_false, Bool.not_eq_false]

lemma noAckElicitingInFlight_iff :
    cc.noAckElicitingInFlight = true ↔ ∀ epoch, (cc.packetSpaces epoch).noAckElicitingInFlight = true := by
  unfold CongestionController.noAckElicitingInFlight
  rw [List.all_eq_true]
  exact ⟨fun h epoch => h epoch (Epoch.mem_all epoch), fun h epoch _ => h epoch⟩

lemma only_data {done : Bool} (hsome : cc.noAckElicitingInFlight = false)
    (hall : ∀ epoch, (cc.packetSpaces epoch).noAckElicitingInFlight = true ∨ epoch = .data ∧ done = false) :
    (∀ epoch, AckElicitingIn (cc.packetSpaces epoch).sentPackets ↔ epoch = .data) ∧ done = false := by
  have hin : ∀ epoch, AckElicitingIn (cc.packetSpaces epoch).sentPackets → epoch = .data ∧ done = false :=
    fun epoch hin => (hall epoch).resolve_left fun hno => not_ackElicitingIn.mpr hno hin
  have hexists : ∃ epoch, AckElicitingIn (cc.packetSpaces epoch).sentPackets := by
    by_contra hnone
    have hno := noAckElicitingInFlight_iff.mpr fun epoch => not_ackElicitingIn.mp fun hin => hnone ⟨epoch, hin⟩
    rw [hsome] at hno
    cases hno
  obtain ⟨epoch, hflight⟩ := hexists
  obtain ⟨rfl, hdone⟩ := hin epoch hflight
  refine ⟨fun epoch => ⟨fun h => (hin epoch h).1, ?_⟩, hdone⟩
  rintro rfl
  exact hflight

/-- A state between calls: packets in flight have their times, and a timer that was just set has the earliest loss time. -/
structure Kept (c : TimedController) : Prop where
  timed : Timed c.cc
  justSet : c.justSet = true → AtLossTime c

namespace TimedController

variable {c : TimedController}

lemma setLossDetectionTimer_meets (h : Timed c.cc) (facts : HandshakeFacts) (r : Readings) :
    Meets (· ≠ TimerPanic.other) (c.setLossDetectionTimer facts r) fun c' => Kept c' ∧ Armed facts c' := by
  have harm : ∀ timer, AtLossTime (c.arm timer) → Kept (c.arm timer) := fun timer hat => ⟨h, fun _ => hat⟩
  unfold setLossDetectionTimer
  cases hloss : c.cc.getLossTimeAndEpoch with
  | some found =>
    obtain ⟨t, epoch⟩ := found
    refine ⟨harm _ ?_, ?_, ?_⟩
    · intro t' epoch' hfound
      cases hloss.symm.trans hfound
      rfl
    · intro hnone
      cases hnone
    · intro hidle
      cases hloss.symm.trans hidle.2.2
  | none =>
    have hat : ∀ timer, AtLossTime (c.arm timer) := fun timer t epoch hfound => by cases hloss.symm.trans hfound
    dsimp only
    cases hblocked : c.amplificationBlocked with
    | true =>
      exact ⟨harm none (hat none), fun _ => ⟨lossTime_of_none hloss, Or.inl hblocked⟩, fun _ => rfl⟩
    | false =>
      rw [if_neg Bool.false_ne_true]
      cases hwaits : c.cc.noAckElicitingInFlight && facts.peerValidated with
      | true =>
        obtain ⟨hno, hpeer⟩ := Bool.and_eq_true_iff.mp hwaits
        refine ⟨harm none (hat none), fun _ => ⟨lossTime_of_none hloss, Or.inr (Or.inl ⟨?_, hpeer⟩)⟩, fun _ => rfl⟩
        exact fun epoch => not_ackElicitingIn.mpr (noAckElicitingInFlight_iff.mp hno epoch)
      | false =>
        rw [if_neg Bool.false_ne_true]
        -- with something left to wait for, the timer is that of the probe
        have hidle : ∀ timer, Idle facts (c.arm timer) → timer = none := by
          intro timer hidle
          have hno : c.cc.noAckElicitingInFlight = true := hidle.2.1
          rw [hno, hidle.1] at hwaits
          cases hwaits
        unfold CongestionController.getPtoTimeAndEpoch
        cases hno : c.cc.noAckElicitingInFlight with
        | true =>
          refine ⟨harm _ (hat _), fun hnone => ?_, hidle _⟩
          exact absurd hnone.symm (Option.some_ne_none _).symm
        | false =>
          rw [if_neg Bool.false_ne_true]
          have hloop := ptoLoop_meets h facts.isHandshakeDone (r.ackDelay c.cc.ptoCount) (r.basePto c.cc.ptoCount)
            (show Epoch.all.Pairwise fun epoch _ => epoch ≠ .data by decide) none
          refine hloop.bind fun pto hpto => ⟨harm _ (hat _), fun hnone => ?_, hidle _⟩
          obtain ⟨-, hall⟩ := hpto (Option.map_eq_none_iff.mp hnone)
          exact ⟨lossTime_of_none hloss, Or.inr (Or.inr (only_data hno fun epoch => hall epoch (Epoch.mem_all epoch)))⟩

lemma kept_of_not_justSet (h : Timed c.cc) (hset : c.justSet = false) : Kept c :=
  ⟨h, fun hset' => by rw [hset] at hset'; cases hset'⟩

lemma onPacketSent_meets (h : Timed c.cc) (hset : c.justSet = false) (facts : HandshakeFacts) (r : Readings)
    (now : Int) (pn : Nat) (epoch : Epoch) {ackEliciting inFlight : Bool} (hflight : ackEliciting → inFlight)
    (sentBytes : Nat) :
    Meets (· ≠ TimerPanic.other) (c.onPacketSent facts r now pn epoch ackEliciting inFlight sentBytes) Kept := by
  unfold onPacketSent
  have htimed := h.onPacketSent now pn epoch hflight sentBytes
  split
  · exact kept_of_not_justSet h hset
  · dsimp only
    split
    · exact (setLossDetectionTimer_meets htimed facts r).mono fun _ hout => hout.1
    · exact kept_of_not_justSet htimed hset

lemma onAckRcvd_meets (h : Timed c.cc) (hset : c.justSet = false) (facts : HandshakeFacts) (r : Readings)
    (clock : Clock) (epoch : Epoch) (ack : AckFrame) (lossDelay : Nat) (tracker : Bool) :
    Meets (· ≠ TimerPanic.other) (c.onAckRcvd facts r clock epoch ack lossDelay tracker) fun out => Kept out.2 := by
  unfold onAckRcvd
  refine (meets_orPanic fun out hout => CongestionController.quiets_onAckRcvd hout).bind fun out hquiets => ?_
  have htimed : Timed (c.withCc out.2).cc := h.quiets hquiets
  dsimp only
  split
  · exact kept_of_not_justSet htimed hset
  · exact (setLossDetectionTimer_meets htimed _ r).bind fun _ hout => hout.1

lemma setAmplificationBlocked_meets (h : Timed c.cc) (hset : c.justSet = false) (facts : HandshakeFacts)
    (r : Readings) (blocked : Bool) :
    Meets (· ≠ TimerPanic.other) (c.setAmplificationBlocked facts r blocked) Kept := by
  unfold setAmplificationBlocked
  split
  · exact kept_of_not_justSet h hset
  · refine (setLossDetectionTimer_meets ?_ facts r).mono fun _ hout => hout.1
    exact h

lemma discardEpoch_meets (h : Kept c) (facts : HandshakeFacts) (r : Readings) (epoch : Epoch) :
    Meets (· ≠ TimerPanic.other) (c.discardEpoch facts r epoch) Kept := by
  unfold discardEpoch
  refine (meets_orPanic fun out hout => CongestionController.quiets_discardEpoch hout).bind fun cc hquiets => ?_
  split
  · exact h
  · refine (setLossDetectionTimer_meets ?_ facts r).mono fun _ hout => hout.1
    exact h.timed.quiets hquiets

lemma retire_meets (h : Kept c) (facts : HandshakeFacts) (r : Readings) (epoch : Epoch) (done : Bool) :
    Meets (· ≠ TimerPanic.other) (c.retire facts r epoch done) Kept := by
  unfold retire
  split
  · exact discardEpoch_meets h facts r epoch
  · exact h

/-- The assertion cannot fail: with a validated peer and nothing in flight, a packet is due to be lost. -/
lemma onLossDetectionTimeout_meets (h : Timed c.cc) {facts : HandshakeFacts} (hidle : ¬ Idle facts c)
    (t : TickReadings) :
    Meets (· ≠ TimerPanic.other) (c.onLossDetectionTimeout facts t facts.peerValidated) fun c' =>
      Kept c' ∧ Armed facts c' := by
  have hends : ∀ epoch, Meets (· ≠ TimerPanic.other) (c.expire facts t epoch) fun c' => Kept c' ∧ Armed facts c' := by
    intro epoch
    refine (meets_orPanic fun out hout => CongestionController.quiets_onLossDetectionTimeout hout).bind fun out hquiets => ?_
    exact setLossDetectionTimer_meets (h.quiets hquiets) facts t.timeout
  unfold onLossDetectionTimeout
  cases hloss : c.cc.getLossTimeAndEpoch with
  | some found => exact hends none
  | none =>
    have hprobe : Meets (· ≠ TimerPanic.other) (c.probeEpoch facts t.probe facts.peerValidated) fun _ => True := by
      unfold probeEpoch
      cases hno : c.cc.noAckElicitingInFlight with
      | true =>
        cases hpeer : facts.peerValidated with
        | true => exact absurd ⟨hpeer, hno, hloss⟩ hidle
        | false => exact trivial
      | false =>
        rw [if_neg Bool.false_ne_true]
        unfold CongestionController.getPtoTimeAndEpoch
        rw [hno, if_neg Bool.false_ne_true]
        have hloop := ptoLoop_meets h facts.isHandshakeDone (t.probe.ackDelay c.cc.ptoCount)
          (t.probe.basePto c.cc.ptoCount) (show Epoch.all.Pairwise fun epoch _ => epoch ≠ .data by decide) none
        exact hloop.bind fun _ _ => trivial
    exact hprobe.bind fun epoch _ => hends epoch

lemma rearm_meets (h : Kept c) (facts : HandshakeFacts) (r : Readings) :
    Meets (· ≠ TimerPanic.other) (c.rearm facts r facts.peerValidated) fun c' => Kept c' ∧ Armed facts c' := by
  unfold rearm
  cases hrearms : c.rearms facts.peerValidated with
  | true => exact setLossDetectionTimer_meets h.timed facts r
  | false =>
    rw [if_neg Bool.false_ne_true]
    unfold rearms at hrearms
    rw [Bool.or_eq_false_iff, Bool.or_eq_false_iff] at hrearms
    refine ⟨h, fun hnone => ?_, fun hidle => ?_⟩
    · rw [hnone] at hrearms
      cases hrearms.1.1
    · rw [hidle.1, hidle.2.1, hidle.2.2] at hrearms
      cases hrearms.2

lemma tick_meets (h : Kept c) (facts : HandshakeFacts) (t : TickReadings) :
    Meets (· ≠ TimerPanic.other) (c.tick facts t) fun out => Kept out.2 ∧ Armed facts out.2 := by
  have hretire : Meets (· ≠ TimerPanic.other) (c.retireHandshakeSpaces facts t) Kept :=
    (retire_meets h facts t.initial .initial facts.isInitialDone).bind fun c hc =>
      retire_meets hc facts t.handshake .handshake facts.isHandshakeDone
  unfold tick
  refine hretire.bind fun c hc => (rearm_meets hc facts t.rearm).bind fun c hc => ?_
  cases hexpired : c.lossDetectionTimer.any fun timer => decide (timer ≤ t.now) with
  | true =>
    rw [if_pos rfl]
    have hidle : ¬ Idle facts c := by
      intro hidle
      rw [hc.2.idle hidle] at hexpired
      cases hexpired
    exact (onLossDetectionTimeout_meets hc.1.timed hidle t).bind fun _ hout => hout
  | false => exact hc

end TimedController

/-! ### Runs -/

lemma TimerWorld.step_meets {w : TimerWorld} (h : Kept w.controller) {op : TimerOp} (hop : w.Issued op) :
    Meets (· ≠ TimerPanic.other) (w.step op) fun w' => Kept w'.controller := by
  have htimed : Timed { w.controller with justSet := false }.cc := h.timed
  cases op with
  | onPacketSent r now pn epoch ackEliciting inFlight sentBytes =>
    exact (TimedController.onPacketSent_meets htimed rfl w.facts r now pn epoch hop sentBytes).bind fun _ hc => hc
  | onAckRcvd r clock epoch ack lossDelay tracker =>
    exact (TimedController.onAckRcvd_meets htimed rfl w.facts r clock epoch ack lossDelay tracker).bind fun _ hc => hc
  | setAmplificationBlocked r blocked =>
    exact (TimedController.setAmplificationBlocked_meets htimed rfl w.facts r blocked).bind fun _ hc => hc
  | discardEpoch r epoch =>
    have hkept := TimedController.kept_of_not_justSet htimed rfl
    exact (TimedController.discardEpoch_meets hkept w.facts r epoch).bind fun _ hc => hc
  | tick t =>
    have hkept := TimedController.kept_of_not_justSet htimed rfl
    exact (TimedController.tick_meets hkept w.facts t).bind fun _ hc => hc.1
  | switch facts => exact h

section

variable {role : Role} {mtu maxAckDelay : Nat} {w : TimerWorld}

lemma kept_of_reach (h : (timerSystem role mtu maxAckDelay).Reach w) : Kept w.controller := by
  apply h.invariant
  · rintro w ⟨cc, hinit, rfl⟩
    refine TimedController.kept_of_not_justSet ?_ rfl
    intro epoch hne
    obtain ⟨reno, -, hcc⟩ := of_bind hinit
    cases hcc
    cases epoch <;> cases hne
  · intro w op w' hw hop hexec
    have hstep : w.step op = .ok w' := by
      cases hs : w.step op with
      | ok w'' =>
        rw [show (timerSystem role mtu maxAckDelay).exec w op = (w.step op).toOption from rfl, hs] at hexec
        cases hexec
        rfl
      | error p =>
        rw [show (timerSystem role mtu maxAckDelay).exec w op = (w.step op).toOption from rfl, hs] at hexec
        cases hexec
    exact (TimerWorld.step_meets hw hop).of_ok hstep

/-- In every run: a timer that was just set is the earliest loss time, if there is one; no call fails to find the time of
the last ack-eliciting packet or takes a validated peer for one that is not; and after a tick the timer is missing only
where it may be. -/
theorem timer_armed (h : (timerSystem role mtu maxAckDelay).Reach w) :
    (w.controller.justSet = true → ∀ epoch t, (w.controller.cc.packetSpaces epoch).lossTime = some t →
      (∀ epoch' t', (w.controller.cc.packetSpaces epoch').lossTime = some t' → t ≤ t') →
      w.controller.lossDetectionTimer = some t) ∧
    (∀ op, w.Issued op → w.step op ≠ .error .lastAckEliciting ∧ w.step op ≠ .error .peerValidated) ∧
    ∀ t w', w.step (.tick t) = .ok w' → w'.controller.lossDetectionTimer = none → Silent w'.facts w'.controller := by
  have hkept := kept_of_reach h
  refine ⟨?_, ?_, ?_⟩
  · intro hset epoch t ht hle
    obtain ⟨epoch', hfound⟩ := exists_getLossTimeAndEpoch ht hle
    exact hkept.justSet hset t epoch' hfound
  · intro op hop
    have hmeets := TimerWorld.step_meets hkept hop
    exact ⟨fun herr => hmeets.not_bad herr (by decide), fun herr => hmeets.not_bad herr (by decide)⟩
  · intro t w' hstep hnone
    have hstart : Kept { w.controller with justSet := false } := TimedController.kept_of_not_justSet hkept.timed rfl
    have htick : Meets (· ≠ TimerPanic.other) (w.step (.tick t)) fun w' => Armed w'.facts w'.controller := by
      refine (TimedController.tick_meets hstart w.facts t).bind fun out hc => ?_
      exact hc.2
    exact (htick.of_ok hstep).silent hnone

end

/-- Of two packets the second is acknowledged: the timer is then set to the time at which the first one is lost. -/
theorem timer_armed_loss :
    ∃ w, (timerSystem .client 1200 25).Reach w ∧ (w.controller.cc.packetSpaces .initial).lossTime = some 9 ∧
      w.controller.lossDetectionTimer = some 9 := by
  let r : Readings := ⟨1, fun _ => 30, fun _ => 0⟩
  have h₀ : (timerSystem .client 1200 25).Reach (_ : TimerWorld) := .start ⟨_, rfl, rfl⟩
  have h₁ := h₀.step (e := TimerOp.onPacketSent r 0 0 .initial true true 1200) (fun _ => rfl) rfl
  have h₂ := h₁.step (e := TimerOp.onPacketSent r 1 1 .initial true true 1200) (fun _ => rfl) rfl
  have h₃ := h₂.step
    (e := TimerOp.onAckRcvd r ⟨2, 2, 2⟩ .initial ⟨⟨1, by decide⟩, ⟨0, by decide⟩, ⟨0, by decide⟩, [], none⟩ 9 true)
    trivial rfl
  refine ⟨_, h₃, rfl, (timer_armed h₃).1 rfl .initial 9 rfl ?_⟩
  intro epoch t ht
  cases epoch with
  | initial =>
    cases ht
    exact le_rfl
  | handshake => cases ht
  | data => cases ht

end Dquic.Congestion
