import Dquic.Journal.Fates

/-!
# What the operations of the journal do

Every operation keeps the journal in agreement with what was told, and none of them runs into an
empty slot, a missing record or a loop without end.
-/

namespace Dquic

namespace SentJournal

variable {φ : Type}

namespace Agrees

variable {j : SentJournal (φ × Nat)} {h : JournalHistory φ} {pn : Nat} {p : SentPacket}

lemma known_tell (ha : j.Agrees h) {fs : List (φ × Nat)} (hfs : ∀ f ∈ fs, h.given[f.2]? = some f.1) (fate : Fate) :
    ∀ e ∈ (h.tell fate fs).log, h.given[e.2.2]? = some e.2.1 := by
  intro e he
  cases List.mem_append.mp he with
  | inl he => exact ha.known e he
  | inr he =>
    obtain ⟨f, hf, rfl⟩ := List.mem_map.mp he
    exact hfs f hf

lemma finish_of_none (ha : j.Agrees h) (hlt : pn < j.nextPn) (hnone : j.packets[pn]? = none) :
    j.Agrees (h.finish pn) :=
  { ha with
    finished_lt := fun k hk => (List.mem_cons.mp hk).elim (fun h => h ▸ hlt) (ha.finished_lt k)
    stage := fun k q hq => by
      have hk : k ≠ pn := by
        rintro rfl
        rw [hnone] at hq
        cases hq
      have hstage := ha.stage k q hq
      simpa [Stage, JournalHistory.finish, hk] using hstage
    reserved := fun k hlt hns hnf => ha.reserved k hlt hns (fun hf => hnf (List.mem_cons_of_mem pn hf)) }

lemma gone (ha : j.Agrees h) (hp : j.packets[pn]? = some p) {j' : SentJournal (φ × Nat)} {freed : Range}
    (ht : Touched j j' pn none freed) (hfreed : ∀ i, freed.Mem i → p.frameRange.Mem i) {h' : JournalHistory φ}
    (hh : h' = h.finish pn ∨ h' = h ∧ pn ∈ h.finished) : j'.Agrees h' := by
  have hsame : h'.given = h.given ∧ h'.sealedPns = h.sealedPns ∧ h'.log = h.log ∧ pn ∈ h'.finished ∧
      ∀ k, k ≠ pn → (k ∈ h'.finished ↔ k ∈ h.finished) := by
    rcases hh with rfl | ⟨rfl, hin⟩
    · exact ⟨rfl, rfl, rfl, List.mem_cons_self, fun k hk => by simp [JournalHistory.finish, hk]⟩
    · exact ⟨rfl, rfl, rfl, hin, fun _ _ => Iff.rfl⟩
  obtain ⟨hgiven, hsealed, hlog, hfin, hothers⟩ := hsame
  have htold : ∀ i, h'.told i = h.told i := fun i => by rw [JournalHistory.told, hlog]; rfl
  apply ha.touched hp ht hfreed hgiven hsealed hothers (.inr hfin)
  · rw [hlog]
    exact ha.known
  · intro i
    rw [htold]
    split
    · exact ha.histories i
    · rfl
  · exact nofun

lemma told_framesOf (ha : j.Agrees h) (hp : j.packets[pn]? = some p) {fate : Fate}
    (hin : p.state.told ++ [fate] ∈ Fate.histories) (i : Nat) :
    if p.frameRange.Mem i then (h.tell fate (j.framesOf p)).told i ∈ Fate.histories
      else (h.tell fate (j.framesOf p)).told i = h.told i := by
  rw [(ha.framesOf hp).2]
  by_cases hi : p.frameRange.Mem i
  · rw [if_pos hi, if_pos hi, ha.told pn p hp i hi]
    exact hin
  · rw [if_neg hi, if_neg hi, List.append_nil]

lemma resendPacket (ha : j.Agrees h) (pn : Nat) :
    ∃ fs j', j.resendPacket pn = some (fs, j') ∧ j'.Agrees (h.tell .lost fs) ∧
      ∀ p a b, j.packets[pn]? = some p → p.state = .flighting a b → j'.work < j.work := by
  obtain ⟨p, a, b, j', hp, hstate, heq, ht⟩ | ⟨heq, hno⟩ := resendPacket_eq ha.kept pn
  · obtain ⟨hfs, htell⟩ := ha.framesOf hp
    have hfin : pn ∈ h.finished := ha.finished hp (by rw [hstate]; exact nofun)
    refine ⟨_, j', heq, ?_, ?_⟩
    · refine ha.touched hp ht (fun i hi => absurd hi (not_mem_noRange i)) rfl rfl (fun _ _ => Iff.rfl) (.inr hfin)
        (ha.known_tell hfs .lost) (ha.told_framesOf hp (by rw [hstate]; exact (by decide : [Fate.lost] ∈ Fate.histories))) ?_
      rintro q ⟨⟩
      refine ⟨.inl ⟨hfin, nofun⟩, fun i hi => ⟨hi, not_mem_noRange i, ?_⟩⟩
      rw [htell, if_pos hi, ha.told pn p hp i hi, hstate]
      rfl
    · intro _ _ _ _ _
      apply ht.work_lt (ha.bound pn p hp)
      rw [hp]
      simp [rank, hstate]
  · exact ⟨[], j, heq, by rwa [JournalHistory.tell_nil], fun p a b hp hstate => absurd hstate (hno p a b hp)⟩

lemma resend (ha : j.Agrees h) (pns : List Nat) :
    ∃ fs j', j.resend pns = some (fs, j') ∧ j'.Agrees (h.tell .lost fs) := by
  induction pns generalizing j h with
  | nil => exact ⟨[], j, rfl, by rwa [JournalHistory.tell_nil]⟩
  | cons pn pns ih =>
    obtain ⟨fs, j₁, hfs, ha₁, -⟩ := ha.resendPacket pn
    obtain ⟨gs, j₂, hgs, ha₂⟩ := ih ha₁
    refine ⟨fs ++ gs, j₂, ?_, by rwa [JournalHistory.tell_append]⟩
    simp only [SentJournal.resend, hfs, hgs, some_bind]

lemma tickLoop (ha : j.Agrees h) (now : Nat) {fuel : Nat} (hfuel : j.work < fuel) :
    ∃ fs j', SentJournal.tickLoop fuel j now = some (fs, j') ∧ j'.Agrees (h.tell .lost fs) := by
  induction fuel generalizing j h with
  | zero => exact absurd hfuel (Nat.not_lt_zero _)
  | succ fuel ih =>
    have hstop : ∃ fs j', some (([] : List (φ × Nat)), j) = some (fs, j') ∧ j'.Agrees (h.tell .lost fs) :=
      ⟨[], j, rfl, by rwa [JournalHistory.tell_nil]⟩
    unfold SentJournal.tickLoop
    cases hfirst : j.deadlines.toList.head? with
    | none => exact hstop
    | some first =>
      obtain ⟨deadline, pn⟩ := first
      by_cases hnow : now < deadline
      · simp only [if_pos hnow]
        exact hstop
      · simp only [if_neg hnow]
        have hmem := Std.TreeSet.mem_toList.mp (List.mem_of_head? hfirst)
        obtain ⟨p, hp, hdeadline⟩ := (ha.due deadline pn).mp hmem
        simp only [hp, some_bind]
        cases hstate : p.state with
        | flighting a b =>
          obtain ⟨fs, j₁, hfs, ha₁, hwork⟩ := ha.resendPacket pn
          have hless := hwork p a b hp hstate
          obtain ⟨gs, j₂, hgs, ha₂⟩ := ih ha₁ (by omega)
          refine ⟨fs ++ gs, j₂, ?_, by rwa [JournalHistory.tell_append]⟩
          simp only [hfs, hgs, some_bind]
        | retransmitted b =>
          obtain ⟨j₁, hretire, ht⟩ := retire_eq ha.kept hp
          have hfin : pn ∈ h.finished := ha.finished hp (by rw [hstate]; exact nofun)
          have hless : j₁.work < j.work := by
            apply ht.work_lt (ha.bound pn p hp)
            rw [hp]
            simp [rank, hstate]
          obtain ⟨gs, j₂, hgs, ha₂⟩ := ih (ha.gone hp ht (fun _ hi => hi) (.inr ⟨rfl, hfin⟩)) (by omega)
          refine ⟨gs, j₂, ?_, ha₂⟩
          simp only [hretire, hgs, some_bind]
        | pending | failed | acked | retired => rw [hstate] at hdeadline; cases hdeadline

lemma onSent (ha : j.Agrees h) (hlt : pn < j.nextPn) (hnot : pn ∉ h.finished) (inFlight : Bool)
    (retransmitAfter retention sentAt : Nat) :
    ∃ j', j.onSent pn inFlight retransmitAfter retention sentAt = some j' ∧ j'.Agrees (h.finish pn) := by
  unfold SentJournal.onSent
  cases hp : j.packets[pn]? with
  | none => exact ⟨j, rfl, ha.finish_of_none hlt hp⟩
  | some p =>
    cases ha.unfinished hp hnot with
    | inl hstate =>
      have hnone : p.state.deadline = none := by rw [hstate]; rfl
      simp only [hstate]
      cases inFlight with
      | true =>
        refine ⟨_, rfl, ha.touched hp (ha.due.fly hp hnone _ _) (fun i hi => absurd hi (not_mem_noRange i)) rfl rfl ?_
          (.inr List.mem_cons_self) ha.known ?_ ?_⟩
        · exact fun k hk => by simp [JournalHistory.finish, hk]
        · intro i
          split
          · exact ha.histories i
          · rfl
        · intro q hq
          cases hq
          refine ⟨.inl ⟨List.mem_cons_self, nofun⟩, fun i hi => ⟨hi, not_mem_noRange i, ?_⟩⟩
          exact (ha.told pn p hp i hi).trans (by rw [hstate]; rfl)
      | false =>
        obtain ⟨j', hretire, ht⟩ := retire_eq ha.kept hp
        exact ⟨j', hretire, ha.gone hp ht (fun _ hi => hi) (.inl rfl)⟩
    | inr hstate =>
      have hnone : p.state.deadline = none := by rw [hstate]; rfl
      simp only [hstate]
      exact ⟨_, rfl, ha.gone hp (ha.due.erase hp hnone) (fun i hi => absurd hi (not_mem_noRange i)) (.inl rfl)⟩

lemma cancel (ha : j.Agrees h) (hlt : pn < j.nextPn) (hnot : pn ∉ h.finished) :
    ∃ fs j', j.cancel pn = some (fs, j') ∧ j'.Agrees ((h.tell .cancelled fs).finish pn) := by
  cases hp : j.packets[pn]? with
  | none => exact ⟨[], j, by simp only [SentJournal.cancel, hp], by rw [JournalHistory.tell_nil]; exact ha.finish_of_none hlt hp⟩
  | some p =>
    cases ha.unfinished hp hnot with
    | inr hstate =>
      obtain ⟨j', heq, ht⟩ := (cancel_eq ha.kept hp).1 hstate
      refine ⟨[], j', heq, ?_⟩
      rw [JournalHistory.tell_nil]
      exact ha.gone hp ht (fun i hi => absurd hi (not_mem_noRange i)) (.inl rfl)
    | inl hstate =>
      obtain ⟨j', heq, ht⟩ := (cancel_eq ha.kept hp).2 (by rw [hstate]; exact nofun)
      refine ⟨_, j', heq, ha.touched hp ht (fun _ hi => hi) rfl rfl ?_ (.inr List.mem_cons_self)
        (ha.known_tell (ha.framesOf hp).1 .cancelled) (ha.told_framesOf hp (by rw [hstate]; decide)) nofun⟩
      exact fun k hk => by simp [JournalHistory.finish, JournalHistory.tell, hk]

lemma ackPacket (ha : j.Agrees h) (hp : j.packets[pn]? = some p) (hdone : pn ∈ h.sealedPns ∨ pn ∈ h.finished) :
    ∃ fs g j', j.ackPacket pn = some (fs, g, j') ∧ j'.Agrees (h.tell .acked fs) ∧ j'.nextPn = j.nextPn := by
  obtain ⟨g, j', new, heq, ht, hnew⟩ := ackPacket_eq ha.kept hp
  have hin : p.state.told ++ [.acked] ∈ Fate.histories := by
    -- a late acknowledgement follows a loss
    cases p.state with
    | retransmitted b => exact (by decide : [Fate.lost, .acked] ∈ Fate.histories)
    | _ => exact (by decide : [Fate.acked] ∈ Fate.histories)
  refine ⟨_, g, j', heq, ha.touched hp ht (fun _ hi => hi) rfl rfl (fun _ _ => Iff.rfl) hdone
    (ha.known_tell (ha.framesOf hp).1 .acked) (ha.told_framesOf hp hin) ?_, ht.nextPn⟩
  rcases hnew with ⟨hpending, rfl⟩ | ⟨-, rfl⟩
  · rintro q ⟨⟩
    refine ⟨.inr ⟨fun hfin => ?_, .inr rfl⟩, fun i hi => absurd hi (not_mem_noRange i)⟩
    rcases ha.stage pn p hp with ⟨-, hdeadline⟩ | ⟨hnot, -⟩
    · apply hdeadline
      rcases hpending with h | h <;> rw [h] <;> rfl
    · exact hnot hfin
  · exact nofun

end Agrees

variable {start : Nat} {ranges : List (Nat × Nat)}

lemma firstIn_eq_some {j : SentJournal φ} {stop pn : Nat} (h : j.firstIn start stop = some pn) :
    (∃ p, j.packets[pn]? = some p) ∧ start ≤ pn ∧ pn ≤ stop := by
  have hmem := List.mem_of_find?_eq_some h
  have hrange := List.find?_some h
  rw [Std.TreeMap.mem_keys] at hmem
  refine ⟨?_, by simpa using hrange⟩
  exact ⟨j.packets[pn], Std.TreeMap.getElem?_eq_some_getElem hmem⟩

namespace Agrees

variable {j : SentJournal (φ × Nat)} {h : JournalHistory φ}

lemma congr {j' : SentJournal (φ × Nat)} (ha : j.Agrees h) (hsame : Same j j')
    (hnext : j'.frames.next = j.frames.next) : j'.Agrees h :=
  { ha.kept.same hsame with
    next := hnext.trans ha.next
    labelled := fun i f hf => ha.labelled i f ((hsame.slots i).symm.trans hf)
    finished_lt := hsame.nextPn ▸ ha.finished_lt
    stage := hsame.packets ▸ ha.stage
    reserved := by
      rw [hsame.packets, hsame.nextPn]
      exact ha.reserved
    known := ha.known
    told := hsame.packets ▸ ha.told
    histories := ha.histories }

/-- The loop over a range whose packets were sealed. It ends, since it never looks back. -/
lemma ackLoop (ha : j.Agrees h) {stop : Nat}
    (hdone : ∀ pn < j.nextPn, start ≤ pn → pn ≤ stop → pn ∈ h.sealedPns ∨ pn ∈ h.finished) (g : Option Nat) {fuel : Nat}
    (hfuel : stop + 1 - start < fuel) :
    ∃ fs g' j', SentJournal.ackLoop fuel j start stop g = some (fs, g', j') ∧ j'.Agrees (h.tell .acked fs) ∧
      j'.nextPn = j.nextPn := by
  induction fuel generalizing j h start g with
  | zero => exact absurd hfuel (Nat.not_lt_zero _)
  | succ fuel ih =>
    have hstop : ∃ fs g' j', some (([] : List (φ × Nat)), g, j) = some (fs, g', j') ∧
        j'.Agrees (h.tell .acked fs) ∧ j'.nextPn = j.nextPn :=
      ⟨[], g, j, rfl, by rwa [JournalHistory.tell_nil], rfl⟩
    unfold SentJournal.ackLoop
    by_cases hle : start ≤ stop
    · rw [if_pos hle]
      cases hfirst : j.firstIn start stop with
      | none => exact hstop
      | some pn =>
        obtain ⟨⟨p, hp⟩, hge, hpn⟩ := firstIn_eq_some hfirst
        have hlt := ha.bound pn p hp
        obtain ⟨fs, gen, j₁, hack, ha₁, hnext₁⟩ := ha.ackPacket hp (hdone pn hlt hge hpn)
        have hrest : ∀ k < j₁.nextPn, pn + 1 ≤ k → k ≤ stop → k ∈ h.sealedPns ∨ k ∈ h.finished :=
          fun k hk hgek hlek => hdone k (hnext₁ ▸ hk) (by omega) hlek
        obtain ⟨gs, g', j₂, hloop, ha₂, hnext₂⟩ := ih ha₁ hrest (maxGeneration g gen) (by omega)
        refine ⟨fs ++ gs, g', j₂, ?_, by rwa [JournalHistory.tell_append], hnext₂.trans hnext₁⟩
        simp only [hack, hloop, some_bind]
    · rw [if_neg hle]
      exact hstop

lemma ackAll (ha : j.Agrees h) (hranges : ∀ r ∈ ranges, r.1 ≤ r.2)
    (hdone : ∀ r ∈ ranges, ∀ pn < j.nextPn, r.1 ≤ pn → pn ≤ r.2 → pn ∈ h.sealedPns ∨ pn ∈ h.finished) (g : Option Nat) :
    ∃ fs g' j', j.ackAll g ranges = some (fs, g', j') ∧ j'.Agrees (h.tell .acked fs) := by
  induction ranges generalizing j h g with
  | nil => exact ⟨[], g, j, rfl, by rwa [JournalHistory.tell_nil]⟩
  | cons r ranges ih =>
    have hle := hranges r List.mem_cons_self
    have hfuel : r.2 + 1 - r.1 < r.2 + 2 - r.1 := by omega
    obtain ⟨fs, g₁, j₁, hloop, ha₁, hnext⟩ := ha.ackLoop (hdone r List.mem_cons_self) g hfuel
    obtain ⟨gs, g₂, j₂, hall, ha₂⟩ := ih ha₁ (fun r' hr' => hranges r' (List.mem_cons_of_mem r hr'))
      (fun r' hr' pn hlt => hdone r' (List.mem_cons_of_mem r hr') pn (hnext ▸ hlt)) g₁
    refine ⟨fs ++ gs, g₂, j₂, ?_, by rwa [JournalHistory.tell_append]⟩
    simp only [SentJournal.ackAll, hloop, hall, some_bind]

end Agrees

lemma ackRangesBelow_cons {x : VarInt × VarInt} {l : List (VarInt × VarInt)}
    (h : ackRangesBelow start (x :: l) = some ranges) : x.1.val + 2 + x.2.val ≤ start ∧
      ∃ rest, ackRangesBelow (start - x.1.val - 2 - x.2.val) l = some rest ∧
        ranges = (start - x.1.val - 2 - x.2.val, start - x.1.val - 2) :: rest := by
  obtain ⟨a, ha, h⟩ := of_bind h
  obtain ⟨b, hb, h⟩ := of_bind h
  obtain ⟨c, hc, h⟩ := of_bind h
  obtain ⟨rest, hrest, h⟩ := of_bind h
  cases h
  obtain ⟨hga, rfl⟩ := checkedSub_eq_some ha
  obtain ⟨hgb, rfl⟩ := checkedSub_eq_some hb
  obtain ⟨hgc, rfl⟩ := checkedSub_eq_some hc
  exact ⟨by omega, rest, hrest, rfl⟩

lemma ackRangesBelow_le {l : List (VarInt × VarInt)} (h : ackRangesBelow start l = some ranges) :
    ∀ r ∈ ranges, r.1 ≤ r.2 := by
  induction l generalizing start ranges with
  | nil =>
    cases h
    exact nofun
  | cons x l ih =>
    obtain ⟨-, rest, hrest, rfl⟩ := ackRangesBelow_cons h
    exact List.forall_mem_cons.mpr ⟨Nat.sub_le _ _, ih hrest⟩

lemma ackRanges_le {ack : AckFrame} (h : ackRanges ack = some ranges) : ∀ r ∈ ranges, r.1 ≤ r.2 := by
  obtain ⟨start, hstart, h⟩ := of_bind h
  obtain ⟨rest, hrest, h⟩ := of_bind h
  cases h
  obtain ⟨-, rfl⟩ := checkedSub_eq_some hstart
  exact List.forall_mem_cons.mpr ⟨Nat.sub_le _ _, ackRangesBelow_le hrest⟩

namespace Agrees

variable {j : SentJournal (φ × Nat)} {h : JournalHistory φ}

lemma onAcked (ha : j.Agrees h) {ack : AckFrame}
    (hdone : ∀ ranges, ackRanges ack = some ranges → ∀ r ∈ ranges, ∀ pn < j.nextPn, r.1 ≤ pn → pn ≤ r.2 →
      pn ∈ h.sealedPns ∨ pn ∈ h.finished) :
    ∃ res fs j', j.onAcked ack = some (res, fs, j') ∧ j'.Agrees (h.tell .acked fs) := by
  have hrefused : ∀ e : QuicError, ∃ res fs j', some ((.error e : Except QuicError (Option Nat)),
      ([] : List (φ × Nat)), j) = some (res, fs, j') ∧ j'.Agrees (h.tell .acked fs) :=
    fun e => ⟨_, [], j, rfl, by rwa [JournalHistory.tell_nil]⟩
  unfold SentJournal.onAcked
  cases hranges : ackRanges ack with
  | none => exact hrefused _
  | some ranges =>
    have hle := ackRanges_le hranges
    simp only
    split
    · exact hrefused _
    · have ha₀ : Agrees { j with largestAcked := max j.largestAcked ack.largest.val } h :=
        ha.congr ⟨rfl, rfl, fun _ => rfl, rfl⟩ rfl
      have hle' : ∀ r ∈ ranges.reverse, r.1 ≤ r.2 := fun r hr => hle r (List.mem_reverse.mp hr)
      obtain ⟨fs, g, j', hall, ha'⟩ := ha₀.ackAll hle'
        (fun r hr => hdone ranges hranges r (List.mem_reverse.mp hr)) none
      simp only [hall, some_bind]
      obtain ⟨hnext, hslots⟩ := j'.frames.reclaim_slot
      exact ⟨_, fs, _, rfl, ha'.congr ⟨rfl, rfl, hslots, rfl⟩ hnext⟩

variable {j' : SentJournal (φ × Nat)} {frames : List φ} {pn : Nat}

lemma reservePn (ha : j.Agrees h) {res : Except QuicError (Nat × PacketNumber)} (he : j.reservePn = some (res, j')) :
    j'.Agrees h := by
  have hkept := reservePn_kept ha.kept he
  obtain ⟨-, rfl⟩ | ⟨number, -, rfl⟩ := reservePn_cases he
  · exact ha
  · have hcases := fun (k : Nat) (r : SentPacket) => packets_insert_cases (t := j.packets) (n := j.nextPn) (k := k) (r := r)
        (q := ⟨0, .nonAckEliciting, false, none, none, ⟨j.frames.next, j.frames.next⟩, .pending⟩)
    exact
      { hkept with
        next := ha.next
        labelled := ha.labelled
        finished_lt := fun k hk => Nat.lt_succ_of_lt (ha.finished_lt k hk)
        stage := fun k r hr => by
          rcases hcases k r hr with ⟨rfl, rfl⟩ | ⟨-, hr⟩
          · exact .inr ⟨fun hfin => absurd (ha.finished_lt _ hfin) (lt_irrefl _), .inl rfl⟩
          · exact ha.stage k r hr
        reserved := fun k hlt hns hnf => by
          change k < j.nextPn + 1 at hlt
          rw [getElem?_packets_insert]
          by_cases hk : k = j.nextPn
          · exact ⟨_, if_pos hk, rfl, le_rfl⟩
          · rw [if_neg hk]
            exact ha.reserved k (by omega) hns hnf
        known := ha.known
        told := fun k r hr i hi => by
          rcases hcases k r hr with ⟨-, rfl⟩ | ⟨-, hr⟩
          · exact absurd hi.2 (not_lt.mpr hi.1)
          · exact ha.told k r hr i hi
        histories := ha.histories }

lemma onSealed (ha : j.Agrees h) (hnf : pn ∉ h.finished) {generation : Option Nat} {pktlen : Nat} {data : Metadata}
    (he : j.onSealed pn generation pktlen data (frames.zipIdx h.given.length) = some j') :
    j'.Agrees (h.give pn frames) := by
  have hkept := onSealed_kept ha.kept he
  obtain ⟨p, slots, -, -, -, hnext, hslot, rfl⟩ := onSealed_eq he
  rw [List.length_zipIdx] at hnext hslot
  have hlen := ha.next
  set q : SentPacket := ⟨pktlen, data.content, data.inFlight, data.ack, generation, ⟨j.frames.next, slots.next⟩, .pending⟩
  have hcases := fun (k : Nat) (r : SentPacket) => packets_insert_cases (t := j.packets) (n := pn) (k := k) (r := r) (q := q)
  exact
    { hkept with
      next := by
        change slots.next = (h.given ++ frames).length
        rw [hnext, hlen, List.length_append]
      labelled := fun i f hf => by
        change slots.slot i = some f at hf
        change f.2 = i ∧ (h.given ++ frames)[i]? = some f.1
        rw [hslot] at hf
        split at hf
        · rename_i hi
          rw [List.getElem?_zipIdx] at hf
          obtain ⟨g, hg, rfl⟩ := Option.map_eq_some_iff.mp hf
          refine ⟨by dsimp only; omega, ?_⟩
          rw [List.getElem?_append_right (by omega), ← hlen]
          exact hg
        · obtain ⟨hlabel, hgiven⟩ := ha.labelled i f hf
          obtain ⟨hlt, -⟩ := List.getElem?_eq_some_iff.mp hgiven
          exact ⟨hlabel, by rw [List.getElem?_append_left hlt, hgiven]⟩
      finished_lt := ha.finished_lt
      stage := fun k r hr => by
        rcases hcases k r hr with ⟨rfl, rfl⟩ | ⟨-, hr⟩
        · exact .inr ⟨hnf, .inl rfl⟩
        · exact ha.stage k r hr
      reserved := fun k hlt hks hkf => by
        have hk : k ≠ pn := fun hk => hks (hk ▸ List.mem_cons_self)
        rw [getElem?_packets_insert, if_neg hk]
        exact ha.reserved k hlt (fun hs => hks (List.mem_cons_of_mem pn hs)) hkf
      known := fun e he => by
        have hknown := ha.known e he
        obtain ⟨hlt, -⟩ := List.getElem?_eq_some_iff.mp hknown
        change (h.given ++ frames)[e.2.2]? = _
        rw [List.getElem?_append_left hlt, hknown]
      told := fun k r hr i hi => by
        rcases hcases k r hr with ⟨-, rfl⟩ | ⟨-, hr⟩
        · exact ha.told_of_le (hlen ▸ hi.1)
        · exact ha.told k r hr i hi
      histories := ha.histories }

lemma onSealed_isSome (ha : j.Agrees h) (hlt : pn < j.nextPn) (hns : pn ∉ h.sealedPns) (hnf : pn ∉ h.finished)
    (generation : Option Nat) (pktlen : Nat) (data : Metadata) (hroom : h.given.length + frames.length < 2 ^ 64) :
    (j.onSealed pn generation pktlen data (frames.zipIdx h.given.length)).isSome := by
  obtain ⟨p, hp, hpending, hempty⟩ := ha.reserved pn hlt hns hnf
  have hlen := ha.next
  have hstart : j.frames.largest = some j.frames.next := checkedAdd_of_lt (by change j.frames.next < 2 ^ 64; omega)
  have hlength : ((frames.zipIdx h.given.length).map some).length = frames.length := by
    rw [List.length_map, List.length_zipIdx]
  obtain ⟨slots, hslots⟩ := Option.isSome_iff_exists.mp
    (IndexDeque.pushAll_isSome (by decide) (by rw [hlength]; omega :
      j.frames.next + ((frames.zipIdx h.given.length).map some).length < 2 ^ 64))
  obtain ⟨hnext, -⟩ := IndexDeque.pushAll_slot hslots
  rw [List.length_zipIdx] at hnext
  have hstop : slots.largest = some slots.next := checkedAdd_of_lt (by change slots.next < 2 ^ 64; omega)
  unfold SentJournal.onSealed
  rw [hp]
  change ((debugAssert (p.state = .pending ∧ p.frameRange.stop ≤ p.frameRange.start)).bind _).isSome
  rw [debugAssert_of ⟨hpending, hempty⟩]
  change (j.frames.largest.bind _).isSome
  rw [hstart]
  change ((j.frames.pushAll ((frames.zipIdx h.given.length).map some)).bind _).isSome
  rw [hslots]
  change (slots.largest.bind _).isSome
  rw [hstop]
  rfl

lemma empty : (SentJournal.empty : SentJournal (φ × Nat)).Agrees ⟨[], [], [], []⟩ where
  due t k := by
    change (t, k) ∈ (∅ : Std.TreeSet (Nat × Nat) compareDeadline) ↔ ∃ p, (∅ : Std.TreeMap Nat SentPacket)[k]? = some p ∧ _
    simp
  next := rfl
  labelled i f hf := absurd (IndexDeque.slot_lt hf).2 (Nat.not_lt_zero i)
  bound k p hp := by cases hp
  filled k p hp := by cases hp
  disjoint k p k' p' i hp := by cases hp
  finished_lt := nofun
  stage k p hp := by cases hp
  reserved k hk := absurd hk (Nat.not_lt_zero k)
  known := nofun
  told k p hp := by cases hp
  histories i := (by decide : [] ∈ Fate.histories)

end Agrees

end SentJournal

end Dquic
