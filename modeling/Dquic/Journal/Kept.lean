import Dquic.Journal.Records
import Dquic.Lib.System

/-!
# Journals in any state

Whatever is called with whatever arguments, the slots of the records stay filled and apart, and
the deadlines are those of the records.
-/

namespace Dquic

open Lib

namespace SentJournal

variable {φ : Type}

/-- `frames`: what the slots of a record hold. -/
def framesOf (j : SentJournal φ) (p : SentPacket) : List φ :=
  (j.frames.readSlots p.frameRange.start (p.frameRange.stop - p.frameRange.start)).getD []

structure Kept (j : SentJournal φ) : Prop where
  due : j.Due
  bound : ∀ (pn : Nat) (p : SentPacket), j.packets[pn]? = some p → pn < j.nextPn
  filled : ∀ (pn : Nat) (p : SentPacket), j.packets[pn]? = some p → ∀ i, p.frameRange.Mem i → (j.frames.slot i).isSome
  disjoint : ∀ (pn : Nat) (p : SentPacket) (pn' : Nat) (p' : SentPacket) i, j.packets[pn]? = some p →
    j.packets[pn']? = some p' → p.frameRange.Mem i → p'.frameRange.Mem i → pn = pn'

/-- All that is said about records, slots and deadlines is the same. -/
structure Same (j j' : SentJournal φ) : Prop where
  packets : j'.packets = j.packets
  deadlines : j'.deadlines = j.deadlines
  slots : ∀ i, j'.frames.slot i = j.frames.slot i
  nextPn : j'.nextPn = j.nextPn

/-- All that a call can do to a record, with the frames that it reports. -/
inductive Step : SentJournal φ → List φ → SentJournal φ → Prop
  | idle {j j' : SentJournal φ} : Same j j' → Step j [] j'
  | submit {j j' : SentJournal φ} {pn retransAt expireAfter : Nat} {p : SentPacket} : j.packets[pn]? = some p →
      p.state = .pending → Touched j j' pn (some { p with state := .flighting retransAt expireAfter }) noRange →
      Step j [] j'
  | lose {j j' : SentJournal φ} {pn retransAt expireAfter : Nat} {p : SentPacket} : j.packets[pn]? = some p →
      p.state = .flighting retransAt expireAfter →
      Touched j j' pn (some { p with state := .retransmitted expireAfter }) noRange → Step j (j.framesOf p) j'
  | drop {j j' : SentJournal φ} {pn : Nat} {p : SentPacket} : j.packets[pn]? = some p →
      (p.state = .pending ∨ ∃ expireAfter, p.state = .retransmitted expireAfter) →
      Touched j j' pn none p.frameRange → Step j [] j'
  | forget {j j' : SentJournal φ} {pn : Nat} {p : SentPacket} : j.packets[pn]? = some p → p.state = .acked →
      Touched j j' pn none noRange → Step j [] j'
  | remove {j j' : SentJournal φ} {pn : Nat} {p : SentPacket} : j.packets[pn]? = some p →
      Touched j j' pn none p.frameRange → Step j (j.framesOf p) j'
  | ackEarly {j j' : SentJournal φ} {pn : Nat} {p : SentPacket} : j.packets[pn]? = some p →
      (p.state = .pending ∨ p.state = .acked) →
      Touched j j' pn (some { p with state := .acked, frameRange := ⟨0, 0⟩, generation := none }) p.frameRange →
      Step j (j.framesOf p) j'

namespace Kept

variable {j j' : SentJournal φ} {pn : Nat} {p : SentPacket}

lemma empty : (SentJournal.empty : SentJournal φ).Kept where
  due t pn := by simp [SentJournal.empty]
  bound pn p hp := by simp [SentJournal.empty] at hp
  filled pn p hp := by simp [SentJournal.empty] at hp
  disjoint pn p pn' p' i hp := by simp [SentJournal.empty] at hp

lemma takeSlots (hk : j.Kept) (hp : j.packets[pn]? = some p) :
    ∃ slots, j.frames.takeSlots p.frameRange.start (p.frameRange.stop - p.frameRange.start) = some (j.framesOf p, slots) ∧
      j.frames.readSlots p.frameRange.start (p.frameRange.stop - p.frameRange.start) = some (j.framesOf p) ∧
      slots.next = j.frames.next ∧ (∀ k, slots.slot k = if p.frameRange.Mem k then none else j.frames.slot k) ∧
      (j.framesOf p).length = p.frameRange.stop - p.frameRange.start ∧
      ∀ k < p.frameRange.stop - p.frameRange.start, j.frames.slot (p.frameRange.start + k) = (j.framesOf p)[k]? := by
  have hmem : ∀ i, (p.frameRange.start ≤ i ∧ i < p.frameRange.start + (p.frameRange.stop - p.frameRange.start)) ↔
      p.frameRange.Mem i := by
    intro i
    unfold Range.Mem
    omega
  obtain ⟨fs, slots, htake, hread, hnext, hslots, hlen, hfs⟩ :=
    IndexDeque.takeSlots_of_filled (fun i hle hlt => hk.filled pn p hp i ((hmem i).mp ⟨hle, hlt⟩))
  have hframes : j.framesOf p = fs := by
    unfold framesOf
    rw [hread]
    rfl
  rw [hframes]
  refine ⟨slots, htake, hread, hnext, ?_, hlen, hfs⟩
  intro k
  rw [hslots]
  simp only [hmem]

lemma framesOf_congr (hk : j.Kept) (hk' : j'.Kept) {pn' : Nat} (hp : j.packets[pn]? = some p)
    (hp' : j'.packets[pn']? = some p) (hslots : ∀ i, p.frameRange.Mem i → j'.frames.slot i = j.frames.slot i) :
    j'.framesOf p = j.framesOf p := by
  obtain ⟨-, -, -, -, -, hlen, hfs⟩ := hk.takeSlots hp
  obtain ⟨-, -, -, -, -, hlen', hfs'⟩ := hk'.takeSlots hp'
  apply List.ext_getElem?
  intro k
  by_cases hlt : k < p.frameRange.stop - p.frameRange.start
  · rw [← hfs k hlt, ← hfs' k hlt, hslots]
    unfold Range.Mem
    omega
  · rw [List.getElem?_eq_none (by omega), List.getElem?_eq_none (by omega)]

variable {freed : Range} {q : SentPacket}

lemma touched (hk : j.Kept) (hp : j.packets[pn]? = some p) {new : Option SentPacket} (ht : Touched j j' pn new freed)
    (hfreed : ∀ i, freed.Mem i → p.frameRange.Mem i)
    (hnew : ∀ q, new = some q → ∀ i, q.frameRange.Mem i → p.frameRange.Mem i ∧ ¬freed.Mem i) : j'.Kept := by
  -- another record has none of the slots of this one
  have hother : ∀ (k : Nat) (q : SentPacket), k ≠ pn → j'.packets[k]? = some q →
      j.packets[k]? = some q ∧ ∀ i, q.frameRange.Mem i → ¬p.frameRange.Mem i := by
    intro k q hkpn hq
    rw [ht.packets, if_neg hkpn] at hq
    exact ⟨hq, fun i hi hpi => hkpn (hk.disjoint k q pn p i hq hp hi hpi)⟩
  have hself : ∀ q, j'.packets[pn]? = some q → new = some q := by
    intro q hq
    rwa [ht.packets, if_pos rfl] at hq
  constructor
  · exact ht.due
  · intro k q hq
    rw [ht.nextPn]
    by_cases hkpn : k = pn
    · exact hkpn ▸ hk.bound pn p hp
    · exact hk.bound k q (hother k q hkpn hq).1
  · intro k q hq i hi
    rw [ht.slots]
    by_cases hkpn : k = pn
    · subst hkpn
      obtain ⟨hpi, hnot⟩ := hnew q (hself q hq) i hi
      rw [if_neg hnot]
      exact hk.filled k p hp i hpi
    · obtain ⟨hold, hdisj⟩ := hother k q hkpn hq
      rw [if_neg (fun hf => hdisj i hi (hfreed i hf))]
      exact hk.filled k q hold i hi
  · intro k q k' q' i hq hq' hi hi'
    by_cases hkpn : k = pn
    · by_cases hkpn' : k' = pn
      · exact hkpn.trans hkpn'.symm
      · subst hkpn
        exact absurd (hnew q (hself q hq) i hi).1 ((hother k' q' hkpn' hq').2 i hi')
    · by_cases hkpn' : k' = pn
      · subst hkpn'
        exact absurd (hnew q' (hself q' hq') i hi').1 ((hother k q hkpn hq).2 i hi)
      · exact hk.disjoint k q k' q' i (hother k q hkpn hq).1 (hother k' q' hkpn' hq').1 hi hi'

lemma restated (hk : j.Kept) (hp : j.packets[pn]? = some p) (hq : q.frameRange = p.frameRange)
    (ht : Touched j j' pn (some q) noRange) : j'.Kept := by
  apply hk.touched hp ht (fun i hi => absurd hi (not_mem_noRange i))
  rintro q' ⟨⟩ i hi
  exact ⟨hq ▸ hi, not_mem_noRange i⟩

lemma gone (hk : j.Kept) (hp : j.packets[pn]? = some p) (ht : Touched j j' pn none freed)
    (hfreed : ∀ i, freed.Mem i → p.frameRange.Mem i) : j'.Kept := by
  apply hk.touched hp ht hfreed
  intro q hq
  cases hq

lemma put (hk : j.Kept) (hold : ∀ p, j.packets[pn]? = some p → p.state.deadline = none) (hnew : q.state.deadline = none)
    (hpackets : j'.packets = j.packets.insert pn q) (hdeadlines : j'.deadlines = j.deadlines)
    (hnext : j.nextPn ≤ j'.nextPn) (hlt : pn < j'.nextPn)
    (hslots : ∀ i f, j.frames.slot i = some f → j'.frames.slot i = some f)
    (hfresh : ∀ i, q.frameRange.Mem i → j.frames.slot i = none ∧ (j'.frames.slot i).isSome) : j'.Kept := by
  have hcases : ∀ (k : Nat) (r : SentPacket), j'.packets[k]? = some r →
      k = pn ∧ r = q ∨ k ≠ pn ∧ j.packets[k]? = some r := by
    intro k r hr
    rw [hpackets] at hr
    exact packets_insert_cases hr
  -- the slots of the other records are filled, and the new ones were not
  have hapart : ∀ (k : Nat) (r : SentPacket), j.packets[k]? = some r → ∀ i, r.frameRange.Mem i → ¬q.frameRange.Mem i := by
    intro k r hr i hi hq
    have hfilled := hk.filled k r hr i hi
    rw [(hfresh i hq).1] at hfilled
    cases hfilled
  constructor
  · intro t k
    rw [hdeadlines, hk.due, hpackets, getElem?_packets_insert]
    by_cases hkpn : k = pn
    · subst hkpn
      rw [if_pos rfl]
      constructor
      · rintro ⟨r, hr, hdue⟩
        rw [hold r hr] at hdue
        cases hdue
      · rintro ⟨r, ⟨⟩, hdue⟩
        rw [hnew] at hdue
        cases hdue
    · rw [if_neg hkpn]
  · intro k r hr
    rcases hcases k r hr with ⟨rfl, -⟩ | ⟨-, hr⟩
    · exact hlt
    · exact (hk.bound k r hr).trans_le hnext
  · intro k r hr i hi
    rcases hcases k r hr with ⟨-, rfl⟩ | ⟨-, hr⟩
    · exact (hfresh i hi).2
    · obtain ⟨f, hf⟩ := Option.isSome_iff_exists.mp (hk.filled k r hr i hi)
      rw [hslots i f hf]
      rfl
  · intro k r k' r' i hr hr' hi hi'
    rcases hcases k r hr with ⟨hkpn, rfl⟩ | ⟨-, hr⟩
    · rcases hcases k' r' hr' with ⟨hkpn', -⟩ | ⟨-, hr'⟩
      · exact hkpn.trans hkpn'.symm
      · exact absurd hi (hapart k' r' hr' i hi')
    · rcases hcases k' r' hr' with ⟨-, rfl⟩ | ⟨-, hr'⟩
      · exact absurd hi' (hapart k r hr i hi)
      · exact hk.disjoint k r k' r' i hr hr' hi hi'

lemma same (hk : j.Kept) (h : Same j j') : j'.Kept where
  due t pn := by
    rw [h.deadlines, h.packets]
    exact hk.due t pn
  bound := by
    rw [h.packets, h.nextPn]
    exact hk.bound
  filled := by
    simp only [h.packets, h.slots]
    exact hk.filled
  disjoint := by
    rw [h.packets]
    exact hk.disjoint

end Kept

variable {fs : List φ} {j j' : SentJournal φ}

lemma Step.kept (h : Step j fs j') (hk : j.Kept) : j'.Kept := by
  cases h with
  | idle hsame => exact hk.same hsame
  | submit hp _ ht | lose hp _ ht => exact hk.restated hp (by rfl) ht
  | forget hp _ ht => exact hk.gone hp ht fun i hi => absurd hi (not_mem_noRange i)
  | drop hp _ ht | remove hp ht => exact hk.gone hp ht fun _ hi => hi
  | ackEarly hp _ ht =>
    apply hk.touched hp ht fun _ hi => hi
    rintro q ⟨⟩ i hi
    exact absurd hi (not_mem_noRange i)

lemma kept_of_logged (h : Logged Step j fs j') (hk : j.Kept) : j'.Kept := by
  induction h with
  | nil => exact hk
  | cons hstep _ ih => exact ih (hstep.kept hk)

/-! ### What the calls do -/

section Calls

variable {j j' : SentJournal φ} {pn : Nat} {p : SentPacket}

variable {res : Except QuicError (Nat × PacketNumber)} {data : Metadata} {frames : List φ} {generation : Option Nat}
  {pktlen : Nat}

lemma reservePn_cases (h : j.reservePn = some (res, j')) :
    ((∃ e, res = .error e) ∧ j' = j) ∨ ∃ number, res = .ok (j.nextPn, number) ∧
      j' = { j with
        nextPn := j.nextPn + 1
        packets := j.packets.insert j.nextPn
          ⟨0, .nonAckEliciting, false, none, none, ⟨j.frames.next, j.frames.next⟩, .pending⟩ } := by
  unfold reservePn at h
  dsimp only at h
  split at h
  · cases h
    exact .inl ⟨⟨_, rfl⟩, rfl⟩
  · obtain ⟨start, hstart, h⟩ := of_bind h
    obtain ⟨number, -, h⟩ := of_bind h
    cases h
    obtain rfl := IndexDeque.largest_eq_some hstart
    exact .inr ⟨number, rfl, rfl⟩

lemma reservePn_kept (hk : j.Kept) (h : j.reservePn = some (res, j')) : j'.Kept := by
  rcases reservePn_cases h with ⟨-, rfl⟩ | ⟨number, -, rfl⟩
  · exact hk
  · refine hk.put ?_ (by rfl) rfl rfl (Nat.le_succ _) (Nat.lt_succ_self _) (fun _ _ hf => hf) ?_
    · intro p hp
      exact absurd (hk.bound j.nextPn p hp) (lt_irrefl _)
    · intro i hi
      exact absurd hi.2 (not_lt.mpr hi.1)

lemma onSealed_eq (h : j.onSealed pn generation pktlen data frames = some j') :
    ∃ p slots, j.packets[pn]? = some p ∧ p.state = .pending ∧ (∀ i, ¬p.frameRange.Mem i) ∧
      slots.next = j.frames.next + frames.length ∧
      (∀ k, slots.slot k =
        if j.frames.next ≤ k ∧ k < j.frames.next + frames.length then frames[k - j.frames.next]? else j.frames.slot k) ∧
      j' = { j with
        frames := slots
        packets := j.packets.insert pn
          ⟨pktlen, data.content, data.inFlight, data.ack, generation, ⟨j.frames.next, slots.next⟩, .pending⟩ } := by
  obtain ⟨p, hp, h⟩ := of_bind h
  obtain ⟨_, hguard, h⟩ := of_bind h
  obtain ⟨start, hstart, h⟩ := of_bind h
  obtain ⟨slots, hslots, h⟩ := of_bind h
  obtain ⟨stop, hstop, h⟩ := of_bind h
  cases h
  obtain rfl := IndexDeque.largest_eq_some hstart
  obtain rfl := IndexDeque.largest_eq_some hstop
  obtain ⟨hstate, hempty⟩ := of_debugAssert hguard
  obtain ⟨hnext, hslot⟩ := IndexDeque.pushAll_slot hslots
  refine ⟨p, slots, hp, hstate, ?_, hnext, hslot, rfl⟩
  intro i hi
  exact absurd (hi.1.trans_lt hi.2) (not_lt.mpr hempty)

lemma onSealed_kept (hk : j.Kept) (h : j.onSealed pn generation pktlen data frames = some j') : j'.Kept := by
  obtain ⟨p, slots, hp, hstate, -, hnext, hslot, rfl⟩ := onSealed_eq h
  have hend : ∀ i f, j.frames.slot i = some f → i < j.frames.next := fun i f hf => (IndexDeque.slot_lt hf).2
  refine hk.put ?_ (by rfl) rfl rfl le_rfl (hk.bound pn p hp) ?_ ?_
  · intro q hq
    cases hp.symm.trans hq
    rw [hstate]
    rfl
  · intro i f hf
    have hlt := hend i f hf
    exact (hslot i).trans ((if_neg (by omega)).trans hf)
  · rintro i ⟨hge, hlt⟩
    change j.frames.next ≤ i at hge
    change i < slots.next at hlt
    rw [hnext] at hlt
    constructor
    · cases hslot : j.frames.slot i with
      | none => rfl
      | some f => exact absurd (hend i f hslot) (not_lt.mpr hge)
    · change (slots.slot i).isSome
      rw [hslot, if_pos ⟨hge, hlt⟩, List.getElem?_eq_getElem (by omega)]
      rfl

lemma retire_eq (hk : j.Kept) (hp : j.packets[pn]? = some p) :
    ∃ j', j.retire pn = some j' ∧ Touched j j' pn none p.frameRange := by
  obtain ⟨j₁, hremove, hframes, -, ht⟩ := removePacket_eq hk.due hp .retired
  obtain ⟨slots, htake, -, hnext, hslots, -⟩ := hk.takeSlots hp
  obtain ⟨hnext', hslots'⟩ := slots.reclaim_slot
  refine ⟨{ j₁ with frames := slots.reclaim }, ?_, ?_⟩
  · unfold retire takeFrames
    rw [hremove]
    change (j₁.frames.takeSlots p.frameRange.start (p.frameRange.stop - p.frameRange.start) >>= _) >>= _ = _
    rw [hframes, htake]
    rfl
  · exact ht.freed rfl rfl rfl (hnext'.trans hnext) (fun k => (hslots' k).trans (hslots k))

lemma onSent_logged (hk : j.Kept) {inFlight : Bool} {retransmitAfter retention sentAt : Nat}
    (h : j.onSent pn inFlight retransmitAfter retention sentAt = some j') : Logged Step j [] j' := by
  unfold onSent at h
  cases hp : j.packets[pn]? with
  | none =>
    rw [hp] at h
    cases h
    exact .nil _
  | some p =>
    rw [hp] at h
    cases hstate : p.state with
    | acked =>
      simp only [hstate] at h
      cases h
      exact .single (.forget hp hstate (hk.due.erase hp (by rw [hstate]; rfl)))
    | pending =>
      simp only [hstate] at h
      cases inFlight with
      | true =>
        cases h
        exact .single (.submit hp hstate (hk.due.fly hp (by rw [hstate]; rfl) _ _))
      | false =>
        obtain ⟨j₁, hretire, ht⟩ := retire_eq hk hp
        cases hretire.symm.trans h
        exact .single (.drop hp (.inl hstate) ht)
    | flighting | retransmitted | failed | retired =>
      simp only [hstate] at h
      cases h
      exact .nil _

lemma resendPacket_eq (hk : j.Kept) (pn : Nat) :
    (∃ p a b j', j.packets[pn]? = some p ∧ p.state = .flighting a b ∧ j.resendPacket pn = some (j.framesOf p, j') ∧
      Touched j j' pn (some { p with state := .retransmitted b }) noRange) ∨
    (j.resendPacket pn = some ([], j) ∧ ∀ p a b, j.packets[pn]? = some p → p.state ≠ .flighting a b) := by
  unfold resendPacket
  cases hp : j.packets[pn]? with
  | none => exact .inr ⟨rfl, nofun⟩
  | some p =>
    cases hstate : p.state with
    | flighting a b =>
      obtain ⟨-, -, hread, -⟩ := hk.takeSlots hp
      exact .inl ⟨p, a, b, _, rfl, hstate, by simp only [hstate, hread, some_bind], hk.due.expire hp hstate⟩
    | _ =>
      refine .inr ⟨by simp only [hstate], ?_⟩
      rintro q a b ⟨⟩
      simp [hstate]

lemma resendPacket_logged (hk : j.Kept) (h : j.resendPacket pn = some (fs, j')) : Logged Step j fs j' := by
  obtain ⟨p, a, b, j₁, hp, hstate, heq, ht⟩ | ⟨heq, -⟩ := resendPacket_eq hk pn
  · cases heq.symm.trans h
    exact .single (.lose hp hstate ht)
  · cases heq.symm.trans h
    exact .nil _

lemma resend_logged (hk : j.Kept) {pns : List Nat} (h : j.resend pns = some (fs, j')) : Logged Step j fs j' := by
  induction pns generalizing j fs with
  | nil =>
    cases h
    exact .nil _
  | cons pn pns ih =>
    obtain ⟨⟨gs, j₁⟩, hfirst, h⟩ := of_bind h
    obtain ⟨⟨rest, j₂⟩, hrest, h⟩ := of_bind h
    cases h
    have hlog := resendPacket_logged hk hfirst
    exact hlog.trans (ih (kept_of_logged hlog hk) hrest)

lemma tickLoop_logged (hk : j.Kept) {fuel now : Nat} (h : tickLoop fuel j now = some (fs, j')) :
    Logged Step j fs j' := by
  induction fuel generalizing j fs with
  | zero => cases h
  | succ fuel ih =>
    unfold tickLoop at h
    split at h
    · cases h
      exact .nil _
    · split at h
      · cases h
        exact .nil _
      · obtain ⟨p, hp, h⟩ := of_bind h
        split at h
        · obtain ⟨⟨gs, j₁⟩, hfirst, h⟩ := of_bind h
          obtain ⟨⟨rest, j₂⟩, hrest, h⟩ := of_bind h
          cases h
          have hlog := resendPacket_logged hk hfirst
          exact hlog.trans (ih (kept_of_logged hlog hk) hrest)
        · rename_i expireAfter hstate
          obtain ⟨j₁, hfirst, h⟩ := of_bind h
          obtain ⟨j₂, hretire, ht⟩ := retire_eq hk hp
          cases hretire.symm.trans hfirst
          have hlog : Logged Step j [] j₁ := .single (.drop hp (.inr ⟨expireAfter, hstate⟩) ht)
          exact hlog.trans (ih (kept_of_logged hlog hk) h)
        · cases h

lemma cancel_eq (hk : j.Kept) (hp : j.packets[pn]? = some p) :
    (p.state = .acked → ∃ j', j.cancel pn = some ([], j') ∧ Touched j j' pn none noRange) ∧
    (p.state ≠ .acked → ∃ j', j.cancel pn = some (j.framesOf p, j') ∧ Touched j j' pn none p.frameRange) := by
  unfold cancel
  simp only [hp]
  constructor
  · intro hstate
    rw [if_pos hstate]
    exact ⟨_, rfl, hk.due.erase hp (by rw [hstate]; rfl)⟩
  · intro hstate
    obtain ⟨j₁, hremove, hframes, -, ht⟩ := removePacket_eq hk.due hp .failed
    obtain ⟨slots, htake, -, hnext, hslots, -⟩ := hk.takeSlots hp
    obtain ⟨hnext', hslots'⟩ := slots.reclaim_slot
    simp only [if_neg hstate, hremove, takeFrames, hframes, htake, some_bind]
    exact ⟨_, rfl, ht.freed rfl rfl rfl (hnext'.trans hnext) (fun k => (hslots' k).trans (hslots k))⟩

lemma cancel_logged (hk : j.Kept) (h : j.cancel pn = some (fs, j')) : Logged Step j fs j' := by
  cases hp : j.packets[pn]? with
  | none =>
    unfold cancel at h
    rw [hp] at h
    cases h
    exact .nil _
  | some p =>
    by_cases hstate : p.state = .acked
    · obtain ⟨j₁, heq, ht⟩ := (cancel_eq hk hp).1 hstate
      cases heq.symm.trans h
      exact .single (.forget hp hstate ht)
    · obtain ⟨j₁, heq, ht⟩ := (cancel_eq hk hp).2 hstate
      cases heq.symm.trans h
      exact .single (.remove hp ht)

/-- One acknowledged packet: its frames are reported, and no other record is touched. -/
lemma ackPacket_eq (hk : j.Kept) (hp : j.packets[pn]? = some p) :
    ∃ g j' new, j.ackPacket pn = some (j.framesOf p, g, j') ∧ Touched j j' pn new p.frameRange ∧
      ((p.state = .pending ∨ p.state = .acked) ∧
        new = some { p with state := .acked, frameRange := ⟨0, 0⟩, generation := none } ∨
      ¬(p.state = .pending ∨ p.state = .acked) ∧ new = none) := by
  obtain ⟨j₁, hremove, hframes, -, ht⟩ := removePacket_eq hk.due hp .acked
  obtain ⟨slots, htake, -, hnext, hslots, -⟩ := hk.takeSlots hp
  have hfreed : Touched j { j₁ with frames := slots } pn none p.frameRange := ht.freed rfl rfl rfl hnext hslots
  unfold ackPacket
  simp only [hp, hremove, hframes, htake, some_bind]
  by_cases hpending : p.state = .pending ∨ p.state = .acked
  · simp only [if_pos hpending]
    exact ⟨_, _, _, rfl, hfreed.replace rfl rfl, .inl ⟨hpending, rfl⟩⟩
  · simp only [if_neg hpending]
    exact ⟨_, _, _, rfl, hfreed, .inr ⟨hpending, rfl⟩⟩

lemma ackPacket_step (hk : j.Kept) (hp : j.packets[pn]? = some p) :
    ∃ g j', j.ackPacket pn = some (j.framesOf p, g, j') ∧ Step j (j.framesOf p) j' ∧ j'.nextPn = j.nextPn ∧
      (∀ k, k ≠ pn → j'.packets[k]? = j.packets[k]?) ∧
      ∀ i, ¬p.frameRange.Mem i → j'.frames.slot i = j.frames.slot i := by
  obtain ⟨g, j', new, heq, ht, hnew⟩ := ackPacket_eq hk hp
  refine ⟨g, j', heq, ?_, ht.nextPn, fun k hkpn => by rw [ht.packets, if_neg hkpn],
    fun i hi => by rw [ht.slots, if_neg hi]⟩
  rcases hnew with ⟨hpending, rfl⟩ | ⟨-, rfl⟩
  · exact .ackEarly hp hpending ht
  · exact .remove hp ht

end Calls

end SentJournal

end Dquic
