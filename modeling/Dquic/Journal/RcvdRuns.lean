import Dquic.Journal.Rcvd
import Dquic.Lib.System

/-!
# Received packets over whole runs

A receiver that decodes the number of each packet and records it once the packet is authenticated.
-/

namespace Dquic

open Lib

/-- The ranges hold what was recorded, except what is below the floor. -/
structure ReceivedPacketRanges.Tracks (p : ReceivedPacketRanges) (recorded : List Nat) : Prop where
  apart : Spans.Apart p.ranges
  bounded : p.ranges.length ≤ maxTrackedAckRanges
  floor : ∀ s ∈ p.ranges, p.retiredBefore ≤ s.start
  kept : ∀ pn ∈ recorded, Spans.Covers p.ranges pn ∨ pn < p.retiredBefore
  recorded : ∀ pn, Spans.Covers p.ranges pn → pn ∈ recorded

namespace ReceivedPacketRanges

variable {p : ReceivedPacketRanges} {recorded : List Nat} {pn : Nat}

lemma Tracks.empty : Tracks .empty [] where
  apart := Spans.apart_nil
  bounded := by decide
  floor := by simp [ReceivedPacketRanges.empty]
  kept := by simp
  recorded pn h := absurd h (Spans.not_covers_nil pn)

lemma Tracks.evict {p : ReceivedPacketRanges} (apart : Spans.Apart p.ranges)
    (hlen : p.ranges.length ≤ maxTrackedAckRanges + 1) (floor : ∀ s ∈ p.ranges, p.retiredBefore ≤ s.start)
    (kept : ∀ pn ∈ recorded, Spans.Covers p.ranges pn ∨ pn < p.retiredBefore)
    (hrecorded : ∀ pn, Spans.Covers p.ranges pn → pn ∈ recorded) : Tracks p.evict recorded := by
  unfold ReceivedPacketRanges.evict
  split
  · rename_i evicted ranges hranges
    rw [hranges] at apart floor kept hrecorded hlen
    have hs := Spans.apart_cons.mp apart
    split
    · refine ⟨apart.tail, ?_, ?_, ?_, ?_⟩
      · rw [List.length_cons] at hlen
        exact Nat.le_of_succ_le_succ hlen
      · intro s hs'
        have := floor s (List.mem_cons_of_mem evicted hs')
        have := hs.2.1 s hs'
        simp only
        omega
      · intro pn hpn
        -- what the evicted range had is below its end
        rcases kept pn hpn with hc | hlt
        · rcases Spans.covers_cons.mp hc with hmem | hl
          · exact Or.inr (lt_max_of_lt_right hmem.2)
          · exact Or.inl hl
        · exact Or.inr (lt_max_of_lt_left hlt)
      · intro pn hc
        exact hrecorded pn (Spans.covers_cons.mpr (Or.inr hc))
    · rename_i hle
      exact ⟨by rw [hranges]; exact apart, not_lt.mp hle, by rw [hranges]; exact floor, by rw [hranges]; exact kept,
        by rw [hranges]; exact hrecorded⟩
  · rename_i hranges
    refine ⟨apart, ?_, floor, kept, hrecorded⟩
    rw [hranges]
    exact Nat.zero_le _

lemma Tracks.insert (h : p.Tracks recorded) (hfloor : p.retiredBefore ≤ pn) (hnew : ¬ Spans.Covers p.ranges pn)
    (hmax : pn ≤ varintMax) (now : Nat) : ∃ p', p.insert pn now = some (true, p') ∧ p'.Tracks (pn :: recorded) := by
  have hcontains : ¬ (pn < p.retiredBefore ∨ p.contains pn = true) := by
    rintro (hlt | hc)
    · omega
    · exact hnew ((contains_iff h.apart pn).mp hc)
  have hend : checkedAdd pn 1 = some (pn + 1) := checkedAdd_of_lt (by unfold varintMax at hmax; omega)
  unfold ReceivedPacketRanges.insert
  rw [if_neg hcontains, hend, some_bind, insertRange_eq]
  refine ⟨_, rfl, ?_⟩
  apply Tracks.evict
  · exact h.apart.add hnew
  · exact le_trans (Spans.length_add_le pn p.ranges) (Nat.succ_le_succ h.bounded)
  · exact Spans.le_start_add hfloor h.floor
  · intro pn' hpn'
    rcases List.mem_cons.mp hpn' with rfl | hold
    · exact Or.inl ((Spans.covers_add h.apart hnew).mpr (Or.inl rfl))
    · rcases h.kept pn' hold with hc | hlt
      · exact Or.inl ((Spans.covers_add h.apart hnew).mpr (Or.inr hc))
      · exact Or.inr hlt
  · intro pn' hc
    rcases (Spans.covers_add h.apart hnew).mp hc with rfl | hold
    · exact List.mem_cons_self
    · exact List.mem_cons_of_mem pn (h.recorded pn' hold)

end ReceivedPacketRanges

/-! ### The receiver -/

/-- The journal, with all the numbers that were ever recorded in it. -/
structure RcvdWorld where
  journal : RcvdJournal
  recorded : List Nat
  deriving DecidableEq, Repr

/-- A packet comes in, at some time. One that is authenticated may fail before it is recorded. -/
inductive RcvdOp
  | receive (number : PacketNumber) (now : Nat)
  | authenticate (number : PacketNumber)

namespace RcvdWorld

def Issued (_ : RcvdWorld) : RcvdOp → Prop
  | .receive number _ => number.Fits
  | .authenticate number => number.Fits

def exec (w : RcvdWorld) : RcvdOp → Option RcvdWorld
  | .receive number now => do
    match ← w.journal.decodePn number with
    | .ok pn =>
      let j ← (w.journal.onAuthenticated pn).onRcvdPn pn now
      some ⟨j, pn :: w.recorded⟩
    | .error _ => some w
  | .authenticate number => do
    match ← w.journal.decodePn number with
    | .ok pn => some { w with journal := w.journal.onAuthenticated pn }
    | .error _ => some w

/-- The journal tracks what was recorded, and all numbers are those of packets. -/
structure Good (w : RcvdWorld) : Prop where
  tracks : w.journal.packets.Tracks w.recorded
  authenticated : ∀ pn, w.journal.largestAuthenticated = some pn → pn ≤ varintMax
  recorded : ∀ pn ∈ w.recorded, pn ≤ varintMax

end RcvdWorld

def rcvdSystem : System RcvdWorld RcvdOp where
  init w := w = ⟨.empty, []⟩
  issued := RcvdWorld.Issued
  exec := RcvdWorld.exec

namespace RcvdWorld

variable {w : RcvdWorld} {number : PacketNumber} {pn : Nat}

lemma Good.start : Good ⟨.empty, []⟩ where
  tracks := .empty
  authenticated pn h := by cases h
  recorded := by simp

lemma Good.decodePn (h : w.Good) (hfits : number.Fits) : ∃ result, w.journal.decodePn number = some result ∧
    ∀ pn, result = .ok pn →
      pn ≤ varintMax ∧ w.journal.packets.retiredBefore ≤ pn ∧ ¬ Spans.Covers w.journal.packets.ranges pn := by
  have hexpected : ∃ expected, expected ≤ 2 ^ 62 ∧ w.journal.expectedPn = some expected := by
    unfold RcvdJournal.expectedPn
    cases hl : w.journal.largestAuthenticated with
    | none => exact ⟨0, Nat.zero_le _, rfl⟩
    | some largest =>
      have hle := h.authenticated largest hl
      unfold varintMax at hle
      exact ⟨largest + 1, by omega, checkedAdd_of_lt (by omega)⟩
  obtain ⟨expected, hle, hexpected⟩ := hexpected
  obtain ⟨pn, hpn⟩ := PacketNumber.decode_isSome hfits hle
  unfold RcvdJournal.decodePn
  simp only [hexpected, hpn, some_bind]
  by_cases hmax : varintMax < pn
  · rw [if_pos hmax]
    exact ⟨_, rfl, fun pn h => by cases h⟩
  · by_cases hold : pn < w.journal.packets.retiredBefore
    · rw [if_neg hmax, if_pos hold]
      exact ⟨_, rfl, fun pn h => by cases h⟩
    · by_cases hc : w.journal.packets.contains pn = true
      · rw [if_neg hmax, if_neg hold, if_pos hc]
        exact ⟨_, rfl, fun pn h => by cases h⟩
      · rw [if_neg hmax, if_neg hold, if_neg hc]
        refine ⟨_, rfl, ?_⟩
        intro pn' hpn'
        cases hpn'
        exact ⟨not_lt.mp hmax, not_lt.mp hold, fun hcov => hc ((ReceivedPacketRanges.contains_iff h.tracks.apart pn).mpr hcov)⟩

lemma onAuthenticated_le {j : RcvdJournal} (h : ∀ pn, j.largestAuthenticated = some pn → pn ≤ varintMax)
    (hpn : pn ≤ varintMax) : ∀ pn', (j.onAuthenticated pn).largestAuthenticated = some pn' → pn' ≤ varintMax := by
  intro pn' hpn'
  unfold RcvdJournal.onAuthenticated at hpn'
  dsimp only at hpn'
  split at hpn'
  · rename_i largest hl
    cases hpn'
    exact max_le (h largest hl) hpn
  · cases hpn'
    exact hpn

lemma Good.exec (h : w.Good) {op : RcvdOp} (hop : w.Issued op) : ∃ w', w.exec op = some w' ∧ w'.Good := by
  cases op with
  | receive number now =>
    obtain ⟨result, hresult, hnew⟩ := h.decodePn hop
    unfold RcvdWorld.exec
    dsimp only
    rw [hresult, some_bind]
    cases result with
    | error e => exact ⟨w, rfl, h⟩
    | ok pn =>
      obtain ⟨hmax, hfloor, hcov⟩ := hnew pn rfl
      obtain ⟨p', hinsert, htracks⟩ := h.tracks.insert hfloor hcov hmax now
      dsimp only
      rw [RcvdJournal.onRcvdPn_eq (j := w.journal.onAuthenticated pn) hinsert, some_bind]
      refine ⟨_, rfl, htracks, ?_, ?_⟩
      · exact onAuthenticated_le (onAuthenticated_le h.authenticated hmax) hmax
      · intro pn' hpn'
        rcases List.mem_cons.mp hpn' with rfl | hold
        · exact hmax
        · exact h.recorded pn' hold
  | authenticate number =>
    obtain ⟨result, hresult, hnew⟩ := h.decodePn hop
    unfold RcvdWorld.exec
    dsimp only
    rw [hresult, some_bind]
    cases result with
    | error e => exact ⟨w, rfl, h⟩
    | ok pn => exact ⟨_, rfl, h.tracks, onAuthenticated_le h.authenticated (hnew pn rfl).1, h.recorded⟩

end RcvdWorld

lemma rcvdSystem_good {w : RcvdWorld} (hr : rcvdSystem.Reach w) : w.Good := by
  apply hr.invariant (I := RcvdWorld.Good)
  · rintro w rfl
    exact .start
  · intro w op w' hgood hop hexec
    obtain ⟨w'', hexec', hgood'⟩ := hgood.exec hop
    cases hexec.symm.trans hexec'
    exact hgood'

/-- Whatever was received and evicted, no number that was recorded is accepted again, and the ranges and the floor
account for all of them. -/
theorem rcvdSystem_replay {w : RcvdWorld} (hr : rcvdSystem.Reach w) :
    (∀ number : PacketNumber, number.Fits → ∃ result, w.journal.decodePn number = some result ∧
      ∀ pn, result = .ok pn → pn ∉ w.recorded) ∧
    (∀ op, w.Issued op → ∃ w', w.exec op = some w') ∧
    (∀ s ∈ w.journal.packets.ranges, s.start < s.stop) ∧
    w.journal.packets.ranges.Pairwise (fun s t => s.stop < t.start) ∧
    w.journal.packets.ranges.length ≤ 256 ∧
    (∀ s ∈ w.journal.packets.ranges, w.journal.packets.retiredBefore ≤ s.start) ∧
    ∀ pn ∈ w.recorded, (∃ s ∈ w.journal.packets.ranges, s.Mem pn) ∨ pn < w.journal.packets.retiredBefore := by
  have h := rcvdSystem_good hr
  refine ⟨?_, ?_, h.tracks.apart.nonempty, h.tracks.apart.separated, h.tracks.bounded, h.tracks.floor, h.tracks.kept⟩
  · intro number hfits
    obtain ⟨result, hresult, hnew⟩ := h.decodePn hfits
    refine ⟨result, hresult, ?_⟩
    intro pn hpn hrec
    obtain ⟨_, hfloor, hcov⟩ := hnew pn hpn
    rcases h.tracks.kept pn hrec with hc | hlt
    · exact hcov hc
    · omega
  · intro op hop
    obtain ⟨w', hexec, _⟩ := h.exec hop
    exact ⟨w', hexec⟩

/-- Three packets out of order end up in one range, and the second is a duplicate when it comes again. -/
theorem rcvdSystem_replay_run : ∃ w, rcvdSystem.Reach w ∧ w.recorded = [4, 5, 3] ∧
    w.journal.packets.ranges = [⟨3, 6⟩] ∧ w.journal.decodePn (.u16 5) = some (.error .duplicate) ∧
    ∀ number : PacketNumber, number.Fits → ∃ result, w.journal.decodePn number = some result ∧
      ∀ pn, result = .ok pn → pn ∉ w.recorded := by
  have h₀ : rcvdSystem.Reach ⟨.empty, []⟩ := .start rfl
  have h₁ : rcvdSystem.Reach ⟨⟨⟨[⟨3, 4⟩], 0, some (3, 10)⟩, some 3⟩, [3]⟩ :=
    h₀.step (e := .receive (.u16 3) 10) (by decide : 3 < 2 ^ 16) rfl
  have h₂ : rcvdSystem.Reach ⟨⟨⟨[⟨3, 4⟩, ⟨5, 6⟩], 0, some (5, 11)⟩, some 5⟩, [5, 3]⟩ :=
    h₁.step (e := .receive (.u16 5) 11) (by decide : 5 < 2 ^ 16) rfl
  have h₃ : rcvdSystem.Reach ⟨⟨⟨[⟨3, 6⟩], 0, some (5, 11)⟩, some 5⟩, [4, 5, 3]⟩ :=
    h₂.step (e := .receive (.u16 4) 12) (by decide : 4 < 2 ^ 16) rfl
  exact ⟨_, h₃, rfl, rfl, rfl, (rcvdSystem_replay h₃).1⟩

end Dquic
