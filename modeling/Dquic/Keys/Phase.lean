import Dquic.Lib.Labels
import Dquic.Lib.System
import Dquic.Keys.Ring

/-!
# Which generation opens a packet

The ring of a receiver and the packets that its peer sends. The peer updates its keys along its
packet numbers and moves past a generation only after one of its packets was authenticated.
-/

namespace Dquic

open Lib

/-- The packets sent, those authenticated, and the keys selected for packets, each with its generation. -/
structure KeyWorld where
  ring : PacketKeyRing
  sent : List (Nat × Nat)
  opened : List (Nat × Nat)
  selected : List (Nat × Nat)

inductive KeyOp
  | send (pn generation : Nat)
  | opening (now pn : Nat) (phase : Bool)
  | onOpened (now pn generation pto : Nat)
  | update
  | allowUpdate
  | onAck (generation : Nat)
  | prepareSealing (limit : Nat) (sealedCount : Nat → Nat)

namespace KeyWorld

/-- Packets open under the keys they were sealed with, if those were selected. -/
def Issued (w : KeyWorld) : KeyOp → Prop
  | .send pn g => (∀ q b, (q, b) ∈ w.sent → q ≤ pn → b ≤ g) ∧ (∀ q b, (q, b) ∈ w.sent → pn ≤ q → g ≤ b) ∧
      ∀ b, g = b + 2 → ∃ q, (q, b + 1) ∈ w.opened
  | .onOpened _ pn g _ => (pn, g) ∈ w.sent ∧ (pn, g) ∈ w.selected
  | _ => True

def select (w : KeyWorld) (pn : Nat) : Except QuicError (Option Nat) → KeyWorld
  | .ok (some g) => { w with selected := (pn, g) :: w.selected }
  | _ => w

def exec (w : KeyWorld) : KeyOp → Option KeyWorld
  | .send pn g => some { w with sent := (pn, g) :: w.sent }
  | .opening now pn phase => do
    let (result, ring) ← w.ring.opening now pn phase
    some ({ w with ring := ring }.select pn result)
  | .onOpened now pn g pto => do
    let ring ← w.ring.onOpened now pn g pto
    some { w with ring := ring, opened := (pn, g) :: w.opened }
  | .update => do
    let (_, ring) ← w.ring.update
    some { w with ring := ring }
  | .allowUpdate => some { w with ring := w.ring.allowUpdate }
  | .onAck g => do
    let ring ← w.ring.onAck g
    some { w with ring := ring }
  | .prepareSealing limit sealedCount => do
    let (_, ring) ← w.ring.prepareSealing limit sealedCount
    some { w with ring := ring }

end KeyWorld

def keySystem : System KeyWorld KeyOp where
  init w := w = ⟨.initial, [], [], []⟩
  issued := KeyWorld.Issued
  exec := KeyWorld.exec

/-! ### The invariant -/

/-- The bounds of a generation are those of its packets that were authenticated. -/
structure PacketKeyState.Tracks (opened : List (Nat × Nat)) (s : PacketKeyState) : Prop where
  covers : ∀ p, (p, s.generation) ∈ opened → ∃ b, s.received = some b ∧ b.start ≤ p
  start : ∀ b, s.received = some b → (b.start, s.generation) ∈ opened
  last : ∀ b, s.received = some b → (b.last, s.generation) ∈ opened

variable {pn : Nat} {s : PacketKeyState}

namespace PacketKeyState.Tracks

variable {opened : List (Nat × Nat)} {s t : PacketKeyState}

lemma congr (h : t.Tracks opened) (hgen : t.generation = s.generation) (hrecv : t.received = s.received) :
    s.Tracks opened := by
  constructor
  · rw [← hgen, ← hrecv]
    exact h.covers
  · rw [← hgen, ← hrecv]
    exact h.start
  · rw [← hgen, ← hrecv]
    exact h.last

lemma cons_of_ne (h : s.Tracks opened) {g : Nat} (hne : s.generation ≠ g) : s.Tracks ((pn, g) :: opened) where
  covers p hp := by
    rcases List.mem_cons.mp hp with heq | hp
    · exact absurd (congrArg Prod.snd heq) hne
    · exact h.covers p hp
  start b hb := List.mem_cons_of_mem _ (h.start b hb)
  last b hb := List.mem_cons_of_mem _ (h.last b hb)

lemma observe (h : s.Tracks opened) (pn : Nat) : (s.observe pn).Tracks ((pn, s.generation) :: opened) := by
  have hmem : ∀ {a}, (a, s.generation) ∈ opened → (a, s.generation) ∈ (pn, s.generation) :: opened :=
    fun ha => List.mem_cons_of_mem _ ha
  cases hrecv : s.received with
  | none =>
    have hobs : (s.observe pn).received = some ⟨pn, pn⟩ := by rw [PacketKeyState.observe, hrecv]
    refine ⟨fun p hp => ⟨_, hobs, ?_⟩, fun b hb => ?_, fun b hb => ?_⟩
    · rcases List.mem_cons.mp hp with heq | hp
      · exact (congrArg Prod.fst heq).ge
      · obtain ⟨b, hb, -⟩ := h.covers p hp
        rw [hrecv] at hb
        cases hb
    · cases hobs.symm.trans hb
      exact List.mem_cons_self
    · cases hobs.symm.trans hb
      exact List.mem_cons_self
  | some c =>
    have hobs : (s.observe pn).received = some ⟨min c.start pn, max c.last pn⟩ := by rw [PacketKeyState.observe, hrecv]
    refine ⟨fun p hp => ⟨_, hobs, ?_⟩, fun b hb => ?_, fun b hb => ?_⟩
    · rcases List.mem_cons.mp hp with heq | hp
      · exact (min_le_right _ _).trans (congrArg Prod.fst heq).ge
      · obtain ⟨b, hb, hle⟩ := h.covers p hp
        cases hrecv.symm.trans hb
        exact (min_le_left _ _).trans hle
    · cases hobs.symm.trans hb
      rcases min_choice c.start pn with hmin | hmin
      · rw [hmin]
        exact hmem (h.start c hrecv)
      · rw [hmin]
        exact List.mem_cons_self
    · cases hobs.symm.trans hb
      rcases max_choice c.last pn with hmax | hmax
      · rw [hmax]
        exact hmem (h.last c hrecv)
      · rw [hmax]
        exact List.mem_cons_self

end PacketKeyState.Tracks

namespace KeyWorld

structure Good (w : KeyWorld) : Prop where
  consecutive : w.ring.Consecutive
  graded : Graded (fun p g => (p, g) ∈ w.sent) (fun p g => (p, g) ∈ w.opened)
  tracks : ∀ s ∈ w.ring.keys, s.Tracks w.opened
  selected : ∀ p g, (p, g) ∈ w.selected → g < w.ring.upcoming ∨ w.ring.next = some g
  opened_lt : ∀ p g, (p, g) ∈ w.opened → g < w.ring.upcoming

lemma Good.initial : Good ⟨.initial, [], [], []⟩ where
  consecutive := PacketKeyRing.initial_consecutive
  graded := ⟨by simp, by simp, by simp⟩
  tracks s hs := by
    rw [PacketKeyRing.initial, List.mem_singleton] at hs
    rw [hs]
    exact ⟨by simp, by simp, by simp⟩
  selected := by simp
  opened_lt := by simp

variable {w : KeyWorld}

variable {ring : PacketKeyRing} {g : Nat}

lemma Good.advance (h : w.Good) (hadv : w.ring.Advances ring) : Good { w with ring := ring } where
  consecutive := hadv.consecutive
  graded := h.graded
  tracks s hs := by
    rcases hadv.kept s hs with ⟨t, ht, hgen, hrecv⟩ | ⟨hle, hnone⟩
    · exact (h.tracks t ht).congr hgen hrecv
    · -- nothing was opened under a generation that is new
      refine ⟨fun p hp => ?_, fun b hb => ?_, fun b hb => ?_⟩
      · have hlt := h.opened_lt p _ hp
        omega
      · rw [hnone] at hb
        cases hb
      · rw [hnone] at hb
        cases hb
  selected p g hg := by
    rcases h.selected p g hg with hlt | hnext
    · exact Or.inl (hlt.trans_le hadv.upcoming_le)
    · exact hadv.next g hnext
  opened_lt p g hg := (h.opened_lt p g hg).trans_le hadv.upcoming_le

lemma Good.send (h : w.Good) (hissued : w.Issued (.send pn g)) : Good { w with sent := (pn, g) :: w.sent } := by
  obtain ⟨hle, hge, hgradual⟩ := hissued
  refine ⟨h.consecutive, ?_, h.tracks, h.selected, h.opened_lt⟩
  simpa only [List.mem_cons, Prod.mk.injEq] using h.graded.carry hle hge hgradual

lemma Good.select (h : w.Good) {result : Except QuicError (Option Nat)}
    (hfound : ∀ g, result = .ok (some g) → g < w.ring.upcoming ∨ w.ring.next = some g) : (w.select pn result).Good := by
  unfold KeyWorld.select
  split
  · rename_i g
    refine ⟨h.consecutive, h.graded, h.tracks, fun p b hb => ?_, h.opened_lt⟩
    rcases List.mem_cons.mp hb with heq | hb
    · cases heq
      exact hfound g rfl
    · exact h.selected p b hb
  · exact h

lemma Good.onOpened (h : w.Good) {now pto : Nat} (hissued : w.Issued (.onOpened now pn g pto))
    (hopen : w.ring.onOpened now pn g pto = some ring) :
    Good { w with ring := ring, opened := (pn, g) :: w.opened } := by
  obtain ⟨hsent, hselected⟩ := hissued
  obtain ⟨r₁, hadv, hcand, hcons, hup, hnext, hstates⟩ := PacketKeyRing.onOpened_spec h.consecutive hopen
  have h₁ := h.advance hadv
  have hg : g < r₁.upcoming := by
    rcases h.selected pn g hselected with hlt | hcand'
    · exact hlt.trans_le hadv.upcoming_le
    · exact hcand hcand'
  refine ⟨hcons, ?_, fun s hs => ?_, fun p b hb => ?_, fun p b hb => ?_⟩
  · simpa only [List.mem_cons, Prod.mk.injEq] using h.graded.observe hsent
  · obtain ⟨t, ht, hgen, hrecv⟩ := hstates s hs
    have htracks := h₁.tracks t ht
    split_ifs at hrecv with htg
    · rw [← htg]
      exact (htracks.observe pn).congr hgen.symm hrecv.symm
    · exact (htracks.cons_of_ne htg).congr hgen.symm hrecv.symm
  · have hsel := h₁.selected p b hb
    rwa [← hup, ← hnext] at hsel
  · change b < ring.upcoming
    rw [hup]
    rcases List.mem_cons.mp hb with heq | hb
    · cases heq
      exact hg
    · exact h₁.opened_lt p b hb

lemma Good.step (h : w.Good) {op : KeyOp} {w' : KeyWorld} (hissued : w.Issued op) (hexec : w.exec op = some w') :
    w'.Good := by
  cases op with
  | send pn g =>
    cases hexec
    exact h.send hissued
  | opening now pn phase =>
    simp only [exec, Option.bind_eq_bind, Option.bind_eq_some_iff] at hexec
    obtain ⟨⟨result, ring⟩, hopen, hexec⟩ := hexec
    cases hexec
    obtain ⟨hadv, hfound⟩ := PacketKeyRing.opening_advances h.consecutive hopen
    exact (h.advance hadv).select hfound
  | onOpened now pn g pto =>
    simp only [exec, Option.bind_eq_bind, Option.bind_eq_some_iff] at hexec
    obtain ⟨ring, hopen, hexec⟩ := hexec
    cases hexec
    exact h.onOpened hissued hopen
  | update =>
    simp only [exec, Option.bind_eq_bind, Option.bind_eq_some_iff] at hexec
    obtain ⟨⟨result, ring⟩, hupdate, hexec⟩ := hexec
    cases hexec
    exact h.advance (PacketKeyRing.update_advances h.consecutive hupdate)
  | allowUpdate =>
    cases hexec
    exact h.advance (PacketKeyRing.Advances.of_keys h.consecutive (Or.inl rfl))
  | onAck g =>
    simp only [exec, Option.bind_eq_bind, Option.bind_eq_some_iff] at hexec
    obtain ⟨ring, hack, hexec⟩ := hexec
    cases hexec
    exact h.advance (PacketKeyRing.onAck_advances h.consecutive hack)
  | prepareSealing limit sealedCount =>
    simp only [exec, Option.bind_eq_bind, Option.bind_eq_some_iff] at hexec
    obtain ⟨⟨result, ring⟩, hprep, hexec⟩ := hexec
    cases hexec
    exact h.advance (PacketKeyRing.prepareSealing_advances h.consecutive hprep)

end KeyWorld

theorem keyWorld_good {w : KeyWorld} (hr : keySystem.Reach w) : w.Good := by
  apply hr.invariant (I := KeyWorld.Good)
  · rintro s rfl
    exact KeyWorld.Good.initial
  · intro s op s' h hissued hexec
    exact h.step hissued hexec

/-! ### Selection -/

lemma PacketKeyState.startsBy_iff : s.startsBy pn ↔ ∃ b, s.received = some b ∧ b.start ≤ pn := by
  simp [startsBy, Option.any_eq_true]

lemma PacketKeyState.reaches_iff : s.reaches pn ↔ ∃ b, s.received = some b ∧ pn ≤ b.last := by
  simp [reaches, Option.any_eq_true]

namespace PacketKeyRing

/-- The generation was in the ring, and its keys are evicted or expired. -/
def Lost (r : PacketKeyRing) (now g : Nat) : Prop :=
  g < r.upcoming ∧ ∀ s ∈ r.keys, s.generation = g → s.expired now

def Finds (r : PacketKeyRing) (now g : Nat) (found : Option Nat) : Prop :=
  found = some g ∨ (found = none ∧ r.Lost now g)

variable {r : PacketKeyRing}

variable {g : Nat}

lemma Finds.of_expireFront {now : Nat} {found : Option Nat} (h : r.Consecutive)
    (hfind : Finds { r with keys := expireFront now r.keys } now g found) : r.Finds now g found := by
  rcases hfind with hfound | ⟨hnone, hlt, hexpired⟩
  · exact Or.inl hfound
  · rw [(expireFront_advances h now).2] at hlt
    refine Or.inr ⟨hnone, hlt, fun s hs hgen => ?_⟩
    rcases mem_expireFront_or_expired now hs with hkept | hgone
    · exact hexpired s hkept hgen
    · exact hgone

lemma select_generation (h : r.Consecutive) (now : Nat) (hge : r.oldest ≤ g) (hle : g ≤ r.upcoming) (hlt : g < 2 ^ 64) :
    ∃ found r', r.select now (g - r.oldest) = some (.ok found, r') ∧ r.Finds now g found := by
  unfold select
  split_ifs with hindex
  · -- behind the last keys stands the candidate
    have hup : g = r.upcoming := by
      unfold upcoming
      omega
    obtain ⟨result, r', hnext, -, -, -, -, hok⟩ := nextKeys_spec h
    rw [hnext, hok (by omega), ← hup]
    exact ⟨some g, r', rfl, Or.inl rfl⟩
  · have hlt' : g < r.upcoming := by
      unfold upcoming at hle ⊢
      omega
    obtain ⟨s, hs, hgen⟩ := h.exists_state hge hlt'
    rw [hs]
    refine ⟨_, r, rfl, ?_⟩
    split_ifs with hexpired
    · refine Or.inr ⟨rfl, hlt', fun t ht htg => ?_⟩
      obtain ⟨i, hi⟩ := List.mem_iff_getElem?.mp ht
      have hidx : g - r.oldest = i := by
        have := h.generation_eq hi
        omega
      rw [hidx, hi] at hs
      cases hs
      exact hexpired
    · rw [hgen]
      exact Or.inl rfl

end PacketKeyRing

namespace KeyWorld

variable {w : KeyWorld}

/-- A packet number that was opened under a generation of the ring is at or after the start of that generation. -/
lemma Good.exists_started (h : w.Good) {q c : Nat} (hopened : (q, c) ∈ w.opened) (hge : w.ring.oldest ≤ c) :
    ∃ s, w.ring.keys[c - w.ring.oldest]? = some s ∧ ∃ b, s.received = some b ∧ b.start ≤ q := by
  obtain ⟨s, hs, hgen⟩ := h.consecutive.exists_state hge (h.opened_lt q c hopened)
  refine ⟨s, hs, (h.tracks s (List.mem_of_getElem? hs)).covers q ?_⟩
  rw [hgen]
  exact hopened

variable {g index : Nat}

/-- The latest generation that starts at or before a packet is the packet's or the one before it. -/
lemma Good.generation_cases (h : w.Good) {i : Nat} (hsent : (pn, g) ∈ w.sent)
    (hpos : rposition (fun s => s.startsBy pn) w.ring.keys = some i) :
    g = w.ring.oldest + i ∨ g = w.ring.oldest + i + 1 := by
  obtain ⟨s, hs, hstart, hafter⟩ := rposition_eq_some hpos
  obtain ⟨b, hb, hle⟩ := PacketKeyState.startsBy_iff.mp hstart
  have hgen := h.consecutive.generation_eq hs
  have hopened := (h.tracks s (List.mem_of_getElem? hs)).start b hb
  rw [hgen] at hopened
  refine h.graded.label_cases hsent hopened hle fun q hq c hc => ?_
  by_contra hlt
  obtain ⟨t, ht, b', hb', hle'⟩ := h.exists_started hc (by omega)
  have hnot := hafter _ t (by omega) ht
  rw [PacketKeyState.startsBy_iff.mpr ⟨b', hb', hle'.trans hq⟩] at hnot
  cases hnot

/-- If no generation starts at or before a packet, it is at most of the first one in the ring, or of the first two ever. -/
lemma Good.generation_le (h : w.Good) (hsent : (pn, g) ∈ w.sent)
    (hpos : rposition (fun s => s.startsBy pn) w.ring.keys = none) : g ≤ max w.ring.oldest 1 := by
  refine h.graded.label_le hsent fun q hq c hc => ?_
  by_contra hge
  obtain ⟨s, hs, b, hb, hle⟩ := h.exists_started hc (by omega)
  have hnot := rposition_eq_none hpos s (List.mem_of_getElem? hs)
  rw [PacketKeyState.startsBy_iff.mpr ⟨b, hb, hle.trans hq⟩] at hnot
  cases hnot

/-- The packet is of the generation at the selected position or of the next one, unless it is older than the ring. -/
lemma Good.generation_selected (h : w.Good) (hsent : (pn, g) ∈ w.sent)
    (hindex : (rposition (fun s => s.startsBy pn) w.ring.keys).getD 0 = index) :
    g < w.ring.oldest ∨ g = w.ring.oldest + index ∨ g = w.ring.oldest + index + 1 := by
  cases hpos : rposition (fun s => s.startsBy pn) w.ring.keys with
  | none =>
    have hle := h.generation_le hsent hpos
    rw [hpos, Option.getD_none] at hindex
    omega
  | some i =>
    have hcases := h.generation_cases hsent hpos
    rw [hpos, Option.getD_some] at hindex
    omega

lemma Good.index_of_lt (h : w.Good) (hsent : (pn, g) ∈ w.sent) (hlt : g < w.ring.oldest) :
    (rposition (fun s => s.startsBy pn) w.ring.keys).getD 0 = 0 := by
  cases hpos : rposition (fun s => s.startsBy pn) w.ring.keys with
  | none => rfl
  | some i =>
    have hcases := h.generation_cases hsent hpos
    omega

lemma Good.exists_selected (h : w.Good) (pn : Nat) :
    ∃ s, w.ring.keys[(rposition (fun s => s.startsBy pn) w.ring.keys).getD 0]? = some s := by
  cases hpos : rposition (fun s => s.startsBy pn) w.ring.keys with
  | none => exact ⟨_, List.getElem?_eq_getElem h.consecutive.pos⟩
  | some i =>
    obtain ⟨s, hs, -⟩ := rposition_eq_some hpos
    exact ⟨s, hs⟩

lemma Good.telling (h : w.Good) (hsent : (pn, g) ∈ w.sent)
    (htell : ∀ s, w.ring.keys.head? = some s →
      s.generation ≤ g ∨ (s.received ≠ none ∧ keyPhase s.generation ≠ keyPhase g))
    (hs : w.ring.keys[(rposition (fun s => s.startsBy pn) w.ring.keys).getD 0]? = some s) :
    w.ring.oldest ≤ g ∨ (s.received ≠ none ∧ keyPhase g ≠ keyPhase s.generation) := by
  rcases Nat.lt_or_ge g w.ring.oldest with hlt | hge
  · rw [h.index_of_lt hsent hlt] at hs
    have hgen := h.consecutive.generation_eq hs
    rw [← List.head?_eq_getElem?] at hs
    obtain ⟨hseen, hphase⟩ := (htell s hs).resolve_left (by omega)
    exact Or.inr ⟨hseen, hphase.symm⟩
  · exact Or.inl hge

lemma Good.finds (h : w.Good) (now : Nat) (hsent : (pn, g) ∈ w.sent) (hlt : g < 2 ^ 64)
    (hindex : (rposition (fun s => s.startsBy pn) w.ring.keys).getD 0 = index) (hs : w.ring.keys[index]? = some s)
    (htell : w.ring.oldest ≤ g ∨ (s.received ≠ none ∧ keyPhase g ≠ keyPhase s.generation)) :
    ∃ found r', (if keyPhase g = keyPhase s.generation then w.ring.select now index
      else if s.reaches pn then some (.ok none, w.ring) else w.ring.select now (index + 1)) = some (.ok found, r') ∧
      w.ring.Finds now g found := by
  have hgen := h.consecutive.generation_eq hs
  have htracks := h.tracks s (List.mem_of_getElem? hs)
  have hilt : index < w.ring.keys.length := (List.getElem?_eq_some_iff.mp hs).1
  have hup : w.ring.upcoming = w.ring.oldest + w.ring.keys.length := rfl
  rcases h.generation_selected hsent hindex with hold | hsame | hafter
  · -- its keys are gone, and the front has seen a later packet in the other phase
    obtain ⟨hseen, hphase⟩ := htell.resolve_left (by omega)
    obtain ⟨b, hb⟩ := Option.ne_none_iff_exists'.mp hseen
    have hindex₀ : index = 0 := hindex.symm.trans (h.index_of_lt hsent hold)
    have hlast : (b.last, s.generation) ∈ w.sent := h.graded.carried_of_observed _ _ (htracks.last b hb)
    have hpn : pn < b.last := h.graded.lt_of_lt hsent hlast (by omega)
    rw [if_neg hphase, if_pos (PacketKeyState.reaches_iff.mpr ⟨b, hb, hpn.le⟩)]
    refine ⟨none, w.ring, rfl, Or.inr ⟨rfl, by omega, fun t ht htg => ?_⟩⟩
    have hbounds := h.consecutive.mem_bounds ht
    omega
  · have hsel := PacketKeyRing.select_generation h.consecutive now (g := g) (by omega) (by omega) hlt
    rw [if_pos (by rw [hgen, hsame])]
    rwa [show g - w.ring.oldest = index by omega] at hsel
  · have hphase : keyPhase g ≠ keyPhase s.generation := by
      rw [hgen, hafter]
      exact keyPhase_succ_ne _
    have hreach : ¬ s.reaches pn := by
      rw [PacketKeyState.reaches_iff]
      rintro ⟨b, hb, hle⟩
      have hlast : (b.last, s.generation) ∈ w.sent := h.graded.carried_of_observed _ _ (htracks.last b hb)
      have := h.graded.mono _ _ _ _ hsent hlast hle
      omega
    have hsel := PacketKeyRing.select_generation h.consecutive now (g := g) (by omega) (by omega) hlt
    rw [if_neg hphase, if_neg hreach]
    rwa [show g - w.ring.oldest = index + 1 by omega] at hsel

end KeyWorld

/-- The oldest keys that have not expired are of the packet's generation or an earlier one, or a packet was
authenticated with them and their phase is not the packet's. -/
def PacketKeyRing.Telling (r : PacketKeyRing) (now g : Nat) : Prop :=
  ∀ s, (expireFront now r.keys).head? = some s →
    s.generation ≤ g ∨ (s.received ≠ none ∧ keyPhase s.generation ≠ keyPhase g)

/-- A packet is opened with the keys of its generation, or with none if they are evicted or expired. -/
theorem opening_selects_generation (w : KeyWorld) (hr : keySystem.Reach w) :
    w.ring.Consecutive ∧ ∀ now pn g, (pn, g) ∈ w.sent → g < 2 ^ 64 → w.ring.Telling now g →
      ∃ found ring, w.ring.opening now pn (keyPhase g) = some (.ok found, ring) ∧ w.ring.Finds now g found := by
  have hgood := keyWorld_good hr
  refine ⟨hgood.consecutive, fun now pn g hsent hlt htell => ?_⟩
  have h₀ := hgood.advance (PacketKeyRing.expireFront_advances hgood.consecutive now).1
  obtain ⟨s, hs⟩ := h₀.exists_selected pn
  obtain ⟨found, ring, hselect, hfinds⟩ := h₀.finds now hsent hlt rfl hs (h₀.telling hsent htell hs)
  refine ⟨found, ring, ?_, hfinds.of_expireFront hgood.consecutive⟩
  unfold PacketKeyRing.opening
  rw [Option.bind_eq_bind, Option.bind_eq_some_iff]
  exact ⟨s, hs, hselect⟩

/-! ### Runs of a peer that updates its keys -/

namespace KeyWorld

def Sendable (w : KeyWorld) (pn g : Nat) : Prop :=
  (∀ x ∈ w.sent, (x.1 ≤ pn → x.2 ≤ g) ∧ (pn ≤ x.1 → g ≤ x.2)) ∧ (g ≤ 1 ∨ ∃ x ∈ w.opened, x.2 + 1 = g)

instance (w : KeyWorld) (pn g : Nat) : Decidable (w.Sendable pn g) := inferInstanceAs (Decidable (_ ∧ _))

variable {g : Nat} {w w' : KeyWorld}

lemma Sendable.issued (h : w.Sendable pn g) : w.Issued (.send pn g) := by
  obtain ⟨hsent, hopened⟩ := h
  refine ⟨fun q b hq => (hsent _ hq).1, fun q b hq => (hsent _ hq).2, fun b hb => ?_⟩
  rcases hopened with hle | ⟨x, hx, hg⟩
  · omega
  · have hsnd : x.2 = b + 1 := by omega
    exact ⟨x.1, by rw [← hsnd]; exact hx⟩

/-- A packet is sent, selected for and opened, all at time zero. -/
def deliver (w : KeyWorld) (pn g : Nat) : Option KeyWorld := do
  let _ ← debugAssert (w.Sendable pn g)
  let w ← w.exec (.send pn g)
  let w ← w.exec (.opening 0 pn (keyPhase g))
  let _ ← debugAssert ((pn, g) ∈ w.sent ∧ (pn, g) ∈ w.selected)
  w.exec (.onOpened 0 pn g 1)

lemma reach_deliver (hr : keySystem.Reach w) (h : w.deliver pn g = some w') : keySystem.Reach w' := by
  simp only [deliver, Option.bind_eq_bind, Option.bind_eq_some_iff] at h
  obtain ⟨_, hsendable, w₁, hsend, w₂, hopening, _, hselected, hopened⟩ := h
  have hr₁ : keySystem.Reach w₁ := hr.step (e := .send pn g) (of_debugAssert hsendable).issued hsend
  have hr₂ : keySystem.Reach w₂ := hr₁.step (e := .opening 0 pn (keyPhase g)) trivial hopening
  have hissued : (pn, g) ∈ w₂.sent ∧ (pn, g) ∈ w₂.selected := of_debugAssert hselected
  exact hr₂.step (e := .onOpened 0 pn g 1) hissued hopened

/-- The packets of these numbers are delivered in order, each under the generation of its number. -/
def deliverAll (w : KeyWorld) : List Nat → Option KeyWorld
  | [] => some w
  | n :: rest => do (← w.deliver n n).deliverAll rest

lemma reach_deliverAll {l : List Nat} (hr : keySystem.Reach w) (h : w.deliverAll l = some w') : keySystem.Reach w' := by
  induction l generalizing w with
  | nil =>
    cases h
    exact hr
  | cons n rest ih =>
    simp only [deliverAll, Option.bind_eq_bind, Option.bind_eq_some_iff] at h
    obtain ⟨w₁, hdeliver, hrest⟩ := h
    exact ih (reach_deliver hr hdeliver) hrest

def waiting : KeyWorld := ⟨.initial, [(0, 0)], [], []⟩

lemma reach_waiting : keySystem.Reach waiting := by
  have hr : keySystem.Reach ⟨.initial, [], [], []⟩ := .start rfl
  exact hr.step (e := .send 0 0) (Sendable.issued (by decide)) rfl

end KeyWorld

/-- After one update the delayed packet is still opened with the first keys. -/
theorem opening_selects_generation_one_update : ∃ w, keySystem.Reach w ∧ (0, 0) ∈ w.sent ∧ (1, 1) ∈ w.opened ∧
    ∃ found ring, w.ring.opening 0 0 (keyPhase 0) = some (.ok found, ring) ∧ w.ring.Finds 0 0 found := by
  have hr := KeyWorld.reach_deliverAll (l := [1]) KeyWorld.reach_waiting rfl
  refine ⟨_, hr, by decide, by decide, ?_⟩
  refine (opening_selects_generation _ hr).2 0 0 0 (by decide) (by decide) fun s hs => Or.inl ?_
  cases hs
  decide

/-- After four updates of the peer its first packet, of the phase of the third keys, is taken for one of theirs. -/
theorem opening_selects_other_generation : ∃ w, keySystem.Reach w ∧ (0, 0) ∈ w.sent ∧
    ∃ ring, w.ring.opening 0 0 (keyPhase 0) = some (.ok (some 2), ring) := by
  have hr := KeyWorld.reach_deliverAll (l := [1, 2, 3, 4]) KeyWorld.reach_waiting rfl
  exact ⟨_, hr, by decide, _, rfl⟩

end Dquic
