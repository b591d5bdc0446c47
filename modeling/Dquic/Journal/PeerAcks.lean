import Dquic.Journal.SentRuns

/-!
# Acknowledgements that the peer chooses

Packets of several paths are assembled while acknowledgements arrive, and the journal is not
locked between reserving and sealing a packet number.
-/

namespace Dquic

open Lib

namespace SentJournal

variable {φ : Type} {j j' j₁ j₂ : SentJournal φ}

/-- The two numbers that the length of a packet number depends on are the same. -/
def SameNumbers (j j' : SentJournal φ) : Prop := j'.nextPn = j.nextPn ∧ j'.largestAcked = j.largestAcked

lemma SameNumbers.refl (j : SentJournal φ) : j.SameNumbers j := ⟨rfl, rfl⟩

lemma SameNumbers.trans (h₁ : j.SameNumbers j₁) (h₂ : j₁.SameNumbers j₂) : j.SameNumbers j₂ :=
  ⟨h₂.1.trans h₁.1, h₂.2.trans h₁.2⟩

def SameBooks (j j' : SentJournal φ) : Prop := j.SameNumbers j' ∧ j'.skippedPns = j.skippedPns

lemma SameBooks.refl (j : SentJournal φ) : j.SameBooks j := ⟨.refl j, rfl⟩

lemma SameBooks.trans (h₁ : j.SameBooks j₁) (h₂ : j₁.SameBooks j₂) : j.SameBooks j₂ :=
  ⟨h₁.1.trans h₂.1, h₂.2.trans h₁.2⟩

lemma SameNumbers.acked_le (h : j.SameNumbers j') (hle : j.largestAcked ≤ j.nextPn) : j'.largestAcked ≤ j'.nextPn := by
  rw [h.1, h.2]
  exact hle

variable {pn fuel : Nat} {fs : List φ} {g g' : Option Nat}

lemma removePacket_books {state : SentPacketState} {p : SentPacket} (h : j.removePacket pn state = some (p, j')) :
    j.SameBooks j' := by
  obtain ⟨record, -, h⟩ := of_bind h
  cases h
  exact ⟨⟨rfl, rfl⟩, rfl⟩

lemma takeFrames_books {range : Range} (h : j.takeFrames range = some (fs, j')) : j.SameBooks j' := by
  obtain ⟨⟨frames, slots⟩, -, h⟩ := of_bind h
  cases h
  exact ⟨⟨rfl, rfl⟩, rfl⟩

lemma retire_books (h : j.retire pn = some j') : j.SameBooks j' := by
  obtain ⟨⟨record, j₁⟩, hremove, h⟩ := of_bind h
  obtain ⟨⟨frames, j₂⟩, htake, h⟩ := of_bind h
  cases h
  exact (removePacket_books hremove).trans (takeFrames_books htake)

lemma onSent_books {retransmitAfter retention sentAt : Nat} {inFlight : Bool}
    (h : j.onSent pn inFlight retransmitAfter retention sentAt = some j') : j.SameBooks j' := by
  unfold onSent at h
  split at h
  · cases h
    exact .refl _
  · split at h
    · cases h
      exact ⟨⟨rfl, rfl⟩, rfl⟩
    · split at h
      · cases h
        exact ⟨⟨rfl, rfl⟩, rfl⟩
      · exact retire_books h
    · cases h
      exact .refl _

lemma resendPacket_books (h : j.resendPacket pn = some (fs, j')) : j.SameBooks j' := by
  unfold resendPacket at h
  split at h
  · cases h
    exact .refl _
  · split at h
    · obtain ⟨frames, -, h⟩ := of_bind h
      cases h
      exact ⟨⟨rfl, rfl⟩, rfl⟩
    · cases h
      exact .refl _

lemma resend_books {pns : List Nat} (h : j.resend pns = some (fs, j')) : j.SameBooks j' := by
  induction pns generalizing j fs with
  | nil =>
    cases h
    exact .refl _
  | cons pn pns ih =>
    obtain ⟨⟨frames, j₁⟩, hfirst, h⟩ := of_bind h
    obtain ⟨⟨rest, j₂⟩, hrest, h⟩ := of_bind h
    cases h
    exact (resendPacket_books hfirst).trans (ih hrest)

lemma tickLoop_books {now : Nat} (h : tickLoop fuel j now = some (fs, j')) : j.SameBooks j' := by
  induction fuel generalizing j fs with
  | zero => cases h
  | succ fuel ih =>
    unfold tickLoop at h
    split at h
    · cases h
      exact .refl _
    · split at h
      · cases h
        exact .refl _
      · obtain ⟨record, -, h⟩ := of_bind h
        split at h
        · obtain ⟨⟨frames, j₁⟩, hfirst, h⟩ := of_bind h
          obtain ⟨⟨rest, j₂⟩, hrest, h⟩ := of_bind h
          cases h
          exact (resendPacket_books hfirst).trans (ih hrest)
        · obtain ⟨j₁, hfirst, h⟩ := of_bind h
          exact (retire_books hfirst).trans (ih h)
        · cases h

lemma cancel_numbers (h : j.cancel pn = some (fs, j')) : j.SameNumbers j' := by
  unfold cancel at h
  split at h
  · cases h
    exact .refl _
  · split at h
    · cases h
      exact ⟨rfl, rfl⟩
    · obtain ⟨⟨record, j₁⟩, hremove, h⟩ := of_bind h
      obtain ⟨⟨hnext, hacked⟩, _⟩ := takeFrames_books h
      exact (removePacket_books hremove).1.trans ⟨hnext, hacked⟩

lemma ackPacket_books (h : j.ackPacket pn = some (fs, g, j')) : j.SameBooks j' := by
  obtain ⟨packet, -, h⟩ := of_bind h
  obtain ⟨⟨record, j₁⟩, hremove, h⟩ := of_bind h
  obtain ⟨⟨frames, slots⟩, -, h⟩ := of_bind h
  cases h
  obtain ⟨⟨hnext, hacked⟩, hskipped⟩ := removePacket_books hremove
  exact ⟨⟨hnext, hacked⟩, hskipped⟩

lemma ackLoop_books {start stop : Nat} (h : ackLoop fuel j start stop g = some (fs, g', j')) : j.SameBooks j' := by
  induction fuel generalizing j start g fs with
  | zero => cases h
  | succ fuel ih =>
    unfold ackLoop at h
    split at h
    · split at h
      · cases h
        exact .refl _
      · obtain ⟨⟨frames, g₁, j₁⟩, hfirst, h⟩ := of_bind h
        obtain ⟨⟨rest, g₂, j₂⟩, hrest, h⟩ := of_bind h
        cases h
        exact (ackPacket_books hfirst).trans (ih hrest)
    · cases h
      exact .refl _

lemma ackAll_books {ranges : List (Nat × Nat)} (h : j.ackAll g ranges = some (fs, g', j')) : j.SameBooks j' := by
  induction ranges generalizing j g fs with
  | nil =>
    cases h
    exact .refl _
  | cons r ranges ih =>
    obtain ⟨⟨frames, g₁, j₁⟩, hfirst, h⟩ := of_bind h
    obtain ⟨⟨rest, g₂, j₂⟩, hrest, h⟩ := of_bind h
    cases h
    exact (ackLoop_books hfirst).trans (ih hrest)

lemma onAcked_numbers {ack : AckFrame} {res : Except QuicError (Option Nat)} (h : j.onAcked ack = some (res, fs, j'))
    (hle : j.largestAcked ≤ j.nextPn) : j'.largestAcked ≤ j'.nextPn := by
  unfold onAcked at h
  split at h
  · cases h
    exact hle
  · split at h
    case isTrue =>
      cases h
      exact hle
    case isFalse hvalid =>
      obtain ⟨⟨frames, g, j₁⟩, hall, h⟩ := of_bind h
      cases h
      obtain ⟨⟨hnext, hacked⟩, _⟩ := ackAll_books hall
      change j₁.largestAcked ≤ j₁.nextPn
      rw [hnext, hacked]
      exact max_le hle (le_of_lt (not_le.mp fun hbig => hvalid (.inl hbig)))

lemma onSealed_books {generation : Option Nat} {pktlen : Nat} {data : Metadata} {frames : List φ}
    (h : j.onSealed pn generation pktlen data frames = some j') : j.SameBooks j' ∧ j'.frames.next < 2 ^ 64 := by
  obtain ⟨p, -, h⟩ := of_bind h
  obtain ⟨-, -, h⟩ := of_bind h
  obtain ⟨start, -, h⟩ := of_bind h
  obtain ⟨slots, -, h⟩ := of_bind h
  obtain ⟨stop, hstop, h⟩ := of_bind h
  cases h
  refine ⟨⟨⟨rfl, rfl⟩, rfl⟩, ?_⟩
  unfold IndexDeque.largest checkedAdd at hstop
  split at hstop
  case isTrue hlt => exact hlt
  case isFalse => cases hstop

/-- A packet number can be reserved while it is near enough to the largest acknowledged one. -/
lemma reservePn_isSome (hle : j.largestAcked ≤ j.nextPn) (hroom : j.frames.next < 2 ^ 64)
    (hnear : j.nextPn ≤ varintMax → j.nextPn < j.largestAcked + 2 ^ 31) : ∃ res j', j.reservePn = some (res, j') := by
  unfold reservePn
  by_cases hmax : varintMax < j.nextPn
  · simp only [if_pos hmax]
    exact ⟨_, _, rfl⟩
  · have hlargest : j.frames.largest = some j.frames.next := checkedAdd_of_lt hroom
    have hlt := hnear (not_lt.mp hmax)
    have hencode : ∃ number, PacketNumber.encode j.nextPn j.largestAcked = some number := by
      unfold PacketNumber.encode
      rw [checkedSub_of_le hle]
      simp only [some_bind]
      split
      · exact ⟨_, rfl⟩
      split
      · exact ⟨_, rfl⟩
      split
      · exact ⟨_, rfl⟩
      rw [if_pos (by omega)]
      exact ⟨_, rfl⟩
    obtain ⟨number, hnumber⟩ := hencode
    simp only [if_neg hmax, hlargest, hnumber, some_bind]
    exact ⟨_, _, rfl⟩

end SentJournal

namespace JournalWorld

variable {φ : Type} {w w' : JournalWorld φ}

/-- A reserved packet number is sealed once at most, and then submitted or cancelled once at most. The peer may
acknowledge what it likes. -/
def Assembles (w : JournalWorld φ) : JournalOp φ → Prop
  | .onSealed pn _ _ _ _ => pn < w.journal.nextPn ∧ pn ∉ w.sealedPns ∧ pn ∉ w.finished
  | .onSent pn _ _ _ _ => pn < w.journal.nextPn ∧ pn ∉ w.finished
  | .cancel pn => pn < w.journal.nextPn ∧ pn ∉ w.finished
  | _ => True

/-- Acknowledgements name no packet that may still be sealed, packet numbers are near the largest acknowledged one, and
frames can be numbered. -/
def Tame (w : JournalWorld φ) : JournalOp φ → Prop
  | .nextPn => w.journal.nextPn ≤ varintMax → w.journal.nextPn < w.journal.largestAcked + 2 ^ 31
  | .onSealed _ _ _ _ frames => w.given.length + frames.length < 2 ^ 64
  | .onAcked ack => ∀ ranges, SentJournal.ackRanges ack = some ranges → ∀ r ∈ ranges, ∀ pn < w.journal.nextPn,
      r.1 ≤ pn → pn ≤ r.2 → pn ∈ w.sealedPns ∨ pn ∈ w.finished
  | _ => True

variable {op : JournalOp φ}

lemma Assembles.issued (h : w.Assembles op) (htame : w.Tame op) : w.Issued op := by
  cases op with
  | onAcked ack => exact htame
  | _ => exact h

/-- The records agree with what was told, and the next packet number can be encoded. -/
structure Sound (w : JournalWorld φ) : Prop where
  agrees : w.Agrees
  acked_le : w.journal.largestAcked ≤ w.journal.nextPn
  given_lt : w.given.length < 2 ^ 64

lemma Sound.step (hw : w.Sound) (hop : w.Assembles op) (htame : w.Tame op) (he : w.exec op = some w') : w'.Sound := by
  have hagrees := hw.agrees.step (hop.issued htame) he
  cases op with
  | nextPn =>
    obtain ⟨⟨res, j⟩, hj, he⟩ := of_bind he
    cases he
    obtain ⟨-, rfl⟩ | ⟨number, -, rfl⟩ := SentJournal.reservePn_cases hj
    · exact ⟨hagrees, hw.acked_le, hw.given_lt⟩
    · exact ⟨hagrees, Nat.le_succ_of_le hw.acked_le, hw.given_lt⟩
  | onSealed pn generation pktlen data frames =>
    obtain ⟨j, hj, he⟩ := of_bind he
    cases he
    obtain ⟨⟨hnumbers, _⟩, hnext⟩ := SentJournal.onSealed_books hj
    refine ⟨hagrees, hnumbers.acked_le hw.acked_le, ?_⟩
    rw [← SentJournal.Agrees.next hagrees]
    exact hnext
  | onSent pn inFlight retransmitAfter retention sentAt =>
    obtain ⟨j, hj, he⟩ := of_bind he
    cases he
    exact ⟨hagrees, (SentJournal.onSent_books hj).1.acked_le hw.acked_le, hw.given_lt⟩
  | cancel pn =>
    obtain ⟨⟨fs, j⟩, hj, he⟩ := of_bind he
    cases he
    exact ⟨hagrees, (SentJournal.cancel_numbers hj).acked_le hw.acked_le, hw.given_lt⟩
  | resend pns =>
    obtain ⟨⟨fs, j⟩, hj, he⟩ := of_bind he
    cases he
    exact ⟨hagrees, (SentJournal.resend_books hj).1.acked_le hw.acked_le, hw.given_lt⟩
  | onTick now =>
    obtain ⟨⟨fs, j⟩, hj, he⟩ := of_bind he
    cases he
    exact ⟨hagrees, (SentJournal.tickLoop_books hj).1.acked_le hw.acked_le, hw.given_lt⟩
  | onAcked ack =>
    obtain ⟨⟨res, fs, j⟩, hj, he⟩ := of_bind he
    cases he
    exact ⟨hagrees, SentJournal.onAcked_numbers hj hw.acked_le, hw.given_lt⟩

lemma Sound.exec (hw : w.Sound) (hop : w.Assembles op) (htame : w.Tame op) : ∃ w', w.exec op = some w' := by
  rcases hw.agrees.settles (hop.issued htame) with rfl | ⟨pn, generation, pktlen, data, frames, rfl⟩ | ⟨v, hv, -⟩
  · have hroom : w.journal.frames.next < 2 ^ 64 := hw.agrees.next ▸ hw.given_lt
    obtain ⟨res, j, hj⟩ := SentJournal.reservePn_isSome hw.acked_le hroom htame
    simp only [JournalWorld.exec, hj, some_bind]
    exact ⟨_, rfl⟩
  · have hsome := hw.agrees.onSealed_isSome hop.1 hop.2.1 hop.2.2 generation pktlen data htame
    obtain ⟨j, hj⟩ := Option.isSome_iff_exists.mp hsome
    simp only [JournalWorld.exec, hj, some_bind]
    exact ⟨_, rfl⟩
  · exact ⟨v, hv⟩

end JournalWorld

def assemblySystem (φ : Type) : System (JournalWorld φ) (JournalOp φ) where
  init w := w = ⟨⟨[], [], [], []⟩, SentJournal.empty⟩
  issued := JournalWorld.Assembles
  exec := JournalWorld.exec

/-- As long as acknowledgements name no packet number that is reserved and not sealed, such a number keeps its empty
record, and every call returns. -/
theorem assemblySystem_returns {φ : Type} {w : JournalWorld φ}
    (hr : ((assemblySystem φ).restrict JournalWorld.Tame).Reach w) :
    (∀ pn < w.journal.nextPn, pn ∉ w.sealedPns → pn ∉ w.finished → ∃ p : SentPacket, w.journal.packets[pn]? = some p ∧
      p.state = .pending ∧ p.frameRange.stop ≤ p.frameRange.start) ∧
    ∀ op, w.Assembles op → w.Tame op → ∃ w', w.exec op = some w' := by
  have hsound : w.Sound := by
    apply hr.invariant (I := JournalWorld.Sound)
    · rintro w rfl
      exact ⟨SentJournal.Agrees.empty, le_rfl, Nat.two_pow_pos 64⟩
    · rintro w op w' hw ⟨hop, htame⟩ he
      exact hw.step hop htame he
  exact ⟨hsound.agrees.reserved, fun op => hsound.exec⟩

/-- One path has sealed its packet and sent it, another one has only reserved its number, when the first packet is
acknowledged. -/
theorem assemblySystem_returns_run : ∃ w, ((assemblySystem Nat).restrict JournalWorld.Tame).Reach w ∧
    w.told 0 = [.acked] ∧ ∃ w', w.exec (.onSealed 1 none 10 ⟨.effectivePayload, true, none⟩ [8]) = some w' := by
  have hlt : 0 < 2 ∧ 1 < 2 := by decide
  have hnear : 0 < 0 + 2 ^ 31 ∧ 1 < 0 + 2 ^ 31 ∧ 0 + 1 < 2 ^ 64 ∧ 1 + 1 < 2 ^ 64 := by decide
  have hnone : ∀ pn : Nat, pn ∉ ([] : List Nat) := fun _ => List.not_mem_nil
  have h₀ : ((assemblySystem Nat).restrict JournalWorld.Tame).Reach _ := .start rfl
  have h₁ := h₀.step (e := JournalOp.nextPn) ⟨trivial, fun _ => hnear.1⟩ rfl
  have h₂ := h₁.step (e := JournalOp.nextPn) ⟨trivial, fun _ => hnear.2.1⟩ rfl
  have h₃ := h₂.step (e := JournalOp.onSealed 0 none 10 ⟨.effectivePayload, true, none⟩ [7])
    ⟨⟨hlt.1, hnone 0, hnone 0⟩, hnear.2.2.1⟩ rfl
  have h₄ := h₃.step (e := JournalOp.onSent 0 true 5 20 100) ⟨⟨hlt.1, hnone 0⟩, trivial⟩ rfl
  have hack : ∀ ranges, SentJournal.ackRanges ⟨⟨0, by decide⟩, ⟨0, by decide⟩, ⟨0, by decide⟩, [], none⟩ = some ranges →
      ∀ r ∈ ranges, ∀ pn < 2, r.1 ≤ pn → pn ≤ r.2 → pn ∈ [0] ∨ pn ∈ [0] := by
    intro ranges hranges r hr pn _ _ hpn
    cases hranges
    cases List.mem_singleton.mp hr
    exact .inl (List.mem_singleton.mpr (Nat.le_zero.mp hpn))
  have h₅ := h₄.step (e := JournalOp.onAcked ⟨⟨0, by decide⟩, ⟨0, by decide⟩, ⟨0, by decide⟩, [], none⟩) ⟨trivial, hack⟩ rfl
  have hone : 1 ∉ [0] := by decide
  exact ⟨_, h₅, rfl, (assemblySystem_returns h₅).2 _ ⟨hlt.2, hone, hone⟩ hnear.2.2.2⟩

lemma assemblySystem_reserves {φ : Type} (n : Nat) (hn : n ≤ 2 ^ 31) : ∃ w : JournalWorld φ, (assemblySystem φ).Reach w ∧
    w.journal.nextPn = n ∧ w.journal.largestAcked = 0 ∧ w.journal.frames = .empty := by
  induction n with
  | zero => exact ⟨_, .start rfl, rfl, rfl, rfl⟩
  | succ n ih =>
    obtain ⟨w, hr, hnext, hacked, hframes⟩ := ih (by omega)
    have hle : w.journal.largestAcked ≤ w.journal.nextPn := hacked ▸ Nat.zero_le _
    have hroom : w.journal.frames.next < 2 ^ 64 := by
      rw [hframes]
      exact Nat.two_pow_pos 64
    obtain ⟨res, j, hj⟩ := SentJournal.reservePn_isSome hle hroom (fun _ => by omega)
    have hexec : w.exec .nextPn = some { w with journal := j } := by
      simp only [JournalWorld.exec, hj, some_bind]
    refine ⟨_, hr.step (e := JournalOp.nextPn) trivial hexec, ?_⟩
    unfold SentJournal.reservePn at hj
    dsimp only at hj
    rw [if_neg (by unfold varintMax; omega)] at hj
    obtain ⟨start, -, hj⟩ := of_bind hj
    obtain ⟨number, -, hj⟩ := of_bind hj
    cases hj
    exact ⟨congrArg Nat.succ hnext, hacked, hframes⟩

/-- The peer guesses a packet number that is reserved and not sealed, or never acknowledges anything. -/
theorem assemblySystem_panics :
    (∃ w, (assemblySystem Nat).Reach w ∧ w.Assembles (.onSealed 0 none 10 ⟨.effectivePayload, true, none⟩ [7]) ∧
      w.exec (.onSealed 0 none 10 ⟨.effectivePayload, true, none⟩ [7]) = none) ∧
    ∃ w, (assemblySystem Nat).Reach w ∧ w.exec .nextPn = none := by
  constructor
  · have h₀ : (assemblySystem Nat).Reach _ := .start rfl
    have h₁ := h₀.step (e := JournalOp.nextPn) trivial rfl
    have h₂ := h₁.step (e := JournalOp.onAcked ⟨⟨0, by decide⟩, ⟨0, by decide⟩, ⟨0, by decide⟩, [], none⟩) trivial rfl
    exact ⟨_, h₂, ⟨by decide, List.not_mem_nil, List.not_mem_nil⟩, rfl⟩
  · obtain ⟨w, hr, hnext, hacked, hframes⟩ := assemblySystem_reserves (φ := Nat) (2 ^ 31) le_rfl
    refine ⟨w, hr, ?_⟩
    have hencode : PacketNumber.encode (2 ^ 31) 0 = none := by decide
    simp only [JournalWorld.exec, SentJournal.reservePn, hnext, hacked, hencode]
    rw [if_neg (by decide)]
    cases w.journal.frames.largest <;> rfl

end Dquic
