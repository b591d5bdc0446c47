import Dquic.Journal.SentRuns

/-!
# What an acknowledgement does

The ranges of an ACK frame are computed twice, once with checks and once with plain subtractions.
A frame that is refused leaves the journal as it was.
-/

namespace Dquic

open Lib

/-! ### Ranges of a frame -/

namespace AckFrame

/-- The ranges behind `start` with both ends, as numbers that may be negative. -/
def spansBelow : Int → List (VarInt × VarInt) → List (Int × Int)
  | _, [] => []
  | start, (gap, range) :: rest =>
    let stop := start - gap.val - 2
    (stop - range.val, stop) :: spansBelow (stop - range.val) rest

def spans (ack : AckFrame) : List (Int × Int) :=
  let start : Int := ack.largest.val - ack.firstRange.val
  (start, (ack.largest.val : Int)) :: spansBelow start ack.ranges

/-- One step of the `scan` of `iter_ranges`. -/
def scanRange (largest : Nat) (gap range : VarInt) : Option (Nat × Nat) := do
  let right ← checkedSub largest gap.val
  let right ← checkedSub right 2
  let left ← checkedSub right range.val
  some (left, right)

def scanRanges : Nat → List (VarInt × VarInt) → Option (List (Nat × Nat))
  | _, [] => some []
  | largest, (gap, range) :: rest => do
    let span ← scanRange largest gap range
    let ranges ← scanRanges span.1 rest
    some (span :: ranges)

/-- `iter_ranges`: all that the iterator yields. `none` when a subtraction underflows. -/
def iterRanges (ack : AckFrame) : Option (List (Nat × Nat)) := do
  let right := ack.largest.val
  let left ← checkedSub right ack.firstRange.val
  let ranges ← scanRanges left ack.ranges
  some ((left, right) :: ranges)

def span (r : Nat × Nat) : Int × Int := (r.1, r.2)

lemma scanRanges_eq (start : Nat) (l : List (VarInt × VarInt)) : scanRanges start l = SentJournal.ackRangesBelow start l := by
  induction l generalizing start with
  | nil => rfl
  | cons x l ih =>
    obtain ⟨gap, range⟩ := x
    simp only [scanRanges, scanRange, SentJournal.ackRangesBelow, ih, Option.bind_eq_bind, Option.bind_assoc,
      Option.bind_some]

lemma iterRanges_eq (ack : AckFrame) : ack.iterRanges = SentJournal.ackRanges ack := by
  unfold iterRanges SentJournal.ackRanges
  simp only [scanRanges_eq]

variable {l : List (VarInt × VarInt)} {ranges : List (Nat × Nat)} {ack : AckFrame}

lemma ackRangesBelow_spans {start : Nat} (h : SentJournal.ackRangesBelow start l = some ranges) :
    ranges.map span = spansBelow start l := by
  induction l generalizing start ranges with
  | nil =>
    cases h
    rfl
  | cons x l ih =>
    obtain ⟨hle, rest, hrest, rfl⟩ := SentJournal.ackRangesBelow_cons h
    have hcast : ((start - x.1.val - 2 : Nat) : Int) = start - x.1.val - 2 := by omega
    have hcast' : ((start - x.1.val - 2 - x.2.val : Nat) : Int) = start - x.1.val - 2 - x.2.val := by omega
    rw [List.map_cons, ih hrest, span, spansBelow, hcast, hcast']

lemma ackRangesBelow_isSome (start : Nat) (h : ∀ s ∈ spansBelow start l, 0 ≤ s.1) :
    ∃ ranges, SentJournal.ackRangesBelow start l = some ranges := by
  induction l generalizing start with
  | nil => exact ⟨[], rfl⟩
  | cons x l ih =>
    have hfirst := h _ List.mem_cons_self
    dsimp only at hfirst
    have hcast : ((start - x.1.val - 2 - x.2.val : Nat) : Int) = start - x.1.val - 2 - x.2.val := by omega
    obtain ⟨rest, hrest⟩ := ih (start - x.1.val - 2 - x.2.val)
      (fun s hs => h s (List.mem_cons_of_mem _ (by rwa [hcast] at hs)))
    refine ⟨(start - x.1.val - 2 - x.2.val, start - x.1.val - 2) :: rest, ?_⟩
    have hgap : x.1.val ≤ start := by omega
    have htwo : 2 ≤ start - x.1.val := by omega
    have hrange : x.2.val ≤ start - x.1.val - 2 := by omega
    simp only [SentJournal.ackRangesBelow, checkedSub_of_le hgap, checkedSub_of_le htwo, checkedSub_of_le hrange, hrest,
      some_bind]

lemma ackRanges_spans (h : SentJournal.ackRanges ack = some ranges) : ranges.map span = ack.spans := by
  obtain ⟨start, hstart, h⟩ := of_bind h
  obtain ⟨rest, hrest, h⟩ := of_bind h
  cases h
  obtain ⟨hge, rfl⟩ := checkedSub_eq_some hstart
  have hcast : ((ack.largest.val - ack.firstRange.val : Nat) : Int) = ack.largest.val - ack.firstRange.val := by omega
  rw [List.map_cons, ackRangesBelow_spans hrest, span, spans, hcast]

lemma ackRanges_isSome_iff (ack : AckFrame) :
    (∃ ranges, SentJournal.ackRanges ack = some ranges) ↔ ∀ s ∈ ack.spans, 0 ≤ s.1 := by
  constructor
  · rintro ⟨ranges, hranges⟩ s hs
    rw [← ackRanges_spans hranges] at hs
    obtain ⟨r, -, rfl⟩ := List.mem_map.mp hs
    exact Int.natCast_nonneg r.1
  · intro h
    have hfirst := h _ List.mem_cons_self
    dsimp only at hfirst
    have hcast : ((ack.largest.val - ack.firstRange.val : Nat) : Int) = ack.largest.val - ack.firstRange.val := by omega
    obtain ⟨rest, hrest⟩ := ackRangesBelow_isSome (ack.largest.val - ack.firstRange.val)
      (fun s hs => h s (List.mem_cons_of_mem _ (by rwa [hcast] at hs)))
    refine ⟨(ack.largest.val - ack.firstRange.val, ack.largest.val) :: rest, ?_⟩
    have hrange : ack.firstRange.val ≤ ack.largest.val := by omega
    simp only [SentJournal.ackRanges, checkedSub_of_le hrange, hrest, some_bind]

lemma mem_spans (h : SentJournal.ackRanges ack = some ranges) (pn : Nat) :
    (∃ s ∈ ack.spans, s.1 ≤ pn ∧ (pn : Int) ≤ s.2) ↔ ∃ r ∈ ranges, r.1 ≤ pn ∧ pn ≤ r.2 := by
  rw [← ackRanges_spans h]
  simp only [List.mem_map, exists_exists_and_eq_and, span, Int.ofNat_le]

end AckFrame

namespace SentJournal

variable {φ : Type}

variable {ranges : List (Nat × Nat)} {start pn k stop : Nat} {p : SentPacket}

lemma ackRangesBelow_apart {l : List (VarInt × VarInt)} (h : ackRangesBelow start l = some ranges) :
    (∀ r ∈ ranges, r.2 < start) ∧ ranges.Pairwise (fun r r' => r'.2 < r.1) := by
  induction l generalizing start ranges with
  | nil =>
    cases h
    exact ⟨List.forall_mem_nil _, .nil⟩
  | cons x l ih =>
    obtain ⟨hle, rest, hrest, rfl⟩ := ackRangesBelow_cons h
    obtain ⟨hlt, hapart⟩ := ih hrest
    refine ⟨List.forall_mem_cons.mpr ⟨by dsimp only; omega, fun r hr => ?_⟩, .cons hlt hapart⟩
    have hless := hlt r hr
    omega

lemma ackRanges_apart {ack : AckFrame} (h : ackRanges ack = some ranges) :
    ranges.reverse.Pairwise (fun r r' => r.2 < r'.1) := by
  obtain ⟨start, -, h⟩ := of_bind h
  obtain ⟨rest, hrest, h⟩ := of_bind h
  cases h
  obtain ⟨hlt, hapart⟩ := ackRangesBelow_apart hrest
  exact List.pairwise_reverse.mpr (.cons hlt hapart)

/-! ### Records of a range -/

variable {j j' j₁ : SentJournal φ}

/-- The frames of a packet number, none without a record. -/
def held (j : SentJournal φ) (pn : Nat) : List φ := (j.packets[pn]?.map j.framesOf).getD []

lemma held_eq (hp : j.packets[pn]? = some p) : j.held pn = j.framesOf p := by
  unfold held
  rw [hp]
  rfl

lemma Kept.held_congr (hk : j.Kept) (hk' : j'.Kept) (hpackets : j'.packets[k]? = j.packets[k]?)
    (hslots : ∀ p, j.packets[k]? = some p → ∀ i, p.frameRange.Mem i → j'.frames.slot i = j.frames.slot i) :
    j'.held k = j.held k := by
  cases hp : j.packets[k]? with
  | none =>
    unfold held
    rw [hpackets, hp]
    rfl
  | some p =>
    rw [held_eq hp, held_eq (hpackets.trans hp)]
    exact hk.framesOf_congr hk' hp (hpackets.trans hp) (hslots p hp)

lemma firstIn_least (h : j.firstIn start stop = some pn) (hge : start ≤ k) (hlt : k < pn) : j.packets[k]? = none := by
  obtain ⟨hin, before, after, hkeys, hbefore⟩ := List.find?_eq_some_iff_append.mp h
  have hstop : pn ≤ stop := (of_decide_eq_true hin).2
  have hsorted := hkeys ▸ j.packets.ordered_keys
  by_contra hsome
  have hmem : k ∈ j.packets.keys := by
    rw [Std.TreeMap.mem_keys, ← Std.TreeMap.isSome_getElem?_iff_mem]
    exact Option.isSome_iff_ne_none.mpr hsome
  rw [hkeys, List.mem_append, List.mem_cons] at hmem
  rcases hmem with hmem | rfl | hmem
  · have hout := hbefore k hmem
    simp at hout
    omega
  · exact lt_irrefl _ hlt
  · have hgt := List.rel_of_pairwise_cons (List.pairwise_append.mp hsorted).2.1 hmem
    rw [Nat.compare_eq_lt] at hgt
    omega

lemma firstIn_none (h : j.firstIn start stop = none) (hge : start ≤ k) (hle : k ≤ stop) : j.packets[k]? = none := by
  by_contra hsome
  have hmem : k ∈ j.packets.keys := by
    rw [Std.TreeMap.mem_keys, ← Std.TreeMap.isSome_getElem?_iff_mem]
    exact Option.isSome_iff_ne_none.mpr hsome
  have hout := List.find?_eq_none.mp h k hmem
  exact hout (decide_eq_true ⟨hge, hle⟩)

/-- The frames of the recorded numbers of a set are reported in ascending order, and other records stay. -/
structure Reports (j : SentJournal φ) (within : Nat → Prop) (frames : List φ) (j' : SentJournal φ) : Prop where
  logged : Logged Step j frames j'
  ascending : ∃ pns : List Nat, pns.Pairwise (· < ·) ∧ (∀ pn, pn ∈ pns ↔ within pn ∧ (j.packets[pn]?).isSome) ∧
    frames = pns.flatMap j.held
  others : ∀ k, ¬within k → j'.packets[k]? = j.packets[k]? ∧ j'.held k = j.held k
  numbers : j'.nextPn = j.nextPn

namespace Reports

variable {A B : Nat → Prop} {fs gs : List φ}

lemma nil (j : SentJournal φ) : j.Reports (fun _ => False) [] j where
  logged := .nil j
  ascending := ⟨[], .nil, by simp, rfl⟩
  others _ _ := ⟨rfl, rfl⟩
  numbers := rfl

lemma widen (h : j.Reports A fs j') (hsub : ∀ k, A k → B k) (hrecord : ∀ k, B k → (j.packets[k]?).isSome → A k) :
    j.Reports B fs j' where
  logged := h.logged
  ascending := by
    obtain ⟨pns, hsorted, hmem, hfs⟩ := h.ascending
    refine ⟨pns, hsorted, ?_, hfs⟩
    intro pn
    rw [hmem]
    exact ⟨fun hpn => ⟨hsub pn hpn.1, hpn.2⟩, fun hpn => ⟨hrecord pn hpn.1 hpn.2, hpn.2⟩⟩
  others k hk := h.others k fun ha => hk (hsub k ha)
  numbers := h.numbers

lemma append (h : j.Reports A fs j₁) (h' : j₁.Reports B gs j') (hlt : ∀ a b, A a → B b → a < b) :
    j.Reports (fun k => A k ∨ B k) (fs ++ gs) j' where
  logged := h.logged.trans h'.logged
  ascending := by
    obtain ⟨pns, hsorted, hmem, hfs⟩ := h.ascending
    obtain ⟨pns', hsorted', hmem', hgs⟩ := h'.ascending
    -- what is reported later was not touched before
    have hlater : ∀ k, B k → j₁.packets[k]? = j.packets[k]? ∧ j₁.held k = j.held k :=
      fun k hk => h.others k fun ha => lt_irrefl k (hlt k k ha hk)
    refine ⟨pns ++ pns', ?_, ?_, ?_⟩
    · rw [List.pairwise_append]
      exact ⟨hsorted, hsorted', fun a ha b hb => hlt a b ((hmem a).mp ha).1 ((hmem' b).mp hb).1⟩
    · intro pn
      rw [List.mem_append, hmem, hmem', or_and_right]
      apply or_congr_right
      apply and_congr_right
      intro hpn
      rw [(hlater pn hpn).1]
    · have hheld : pns'.flatMap j₁.held = pns'.flatMap j.held := by
        apply List.flatMap_congr
        intro pn hpn
        exact (hlater pn ((hmem' pn).mp hpn).1).2
      rw [hfs, hgs, hheld, List.flatMap_append]
  others k hk := by
    obtain ⟨hpackets, hheld⟩ := h.others k fun ha => hk (.inl ha)
    obtain ⟨hpackets', hheld'⟩ := h'.others k fun hb => hk (.inr hb)
    exact ⟨hpackets'.trans hpackets, hheld'.trans hheld⟩
  numbers := h'.numbers.trans h.numbers

end Reports

lemma ackPacket_reports (hk : j.Kept) (hp : j.packets[pn]? = some p) :
    ∃ g j', j.ackPacket pn = some (j.framesOf p, g, j') ∧ j.Reports (· = pn) (j.framesOf p) j' := by
  obtain ⟨g, j', hack, hstep, hnext, hothers, hslots⟩ := ackPacket_step hk hp
  refine ⟨g, j', hack, .single hstep, ⟨[pn], List.pairwise_singleton _ _, ?_, ?_⟩, ?_, hnext⟩
  · intro k
    rw [List.mem_singleton]
    constructor
    · rintro rfl
      exact ⟨rfl, by rw [hp]; rfl⟩
    · exact fun h => h.1
  · rw [List.flatMap_singleton, held_eq hp]
  · intro k hkpn
    refine ⟨hothers k hkpn, hk.held_congr (hstep.kept hk) (hothers k hkpn) fun q hq i hi => ?_⟩
    exact hslots i fun hpi => hkpn (hk.disjoint k q pn p i hq hp hi hpi)

lemma ackLoop_reports (hk : j.Kept) (start stop : Nat) (g : Option Nat) {fuel : Nat} (hfuel : stop + 1 - start < fuel) :
    ∃ fs g' j', ackLoop fuel j start stop g = some (fs, g', j') ∧ j.Reports (fun k => start ≤ k ∧ k ≤ stop) fs j' := by
  induction fuel generalizing j start g with
  | zero => exact absurd hfuel (Nat.not_lt_zero _)
  | succ fuel ih =>
    unfold ackLoop
    by_cases hle : start ≤ stop
    · rw [if_pos hle]
      cases hfirst : j.firstIn start stop with
      | none =>
        refine ⟨[], g, j, rfl, (Reports.nil j).widen (fun _ h => h.elim) ?_⟩
        intro k hin hsome
        rw [firstIn_none hfirst hin.1 hin.2] at hsome
        cases hsome
      | some pn =>
        obtain ⟨⟨p, hp⟩, hge, hpn⟩ := firstIn_eq_some hfirst
        obtain ⟨gen, j₁, hack, hone⟩ := ackPacket_reports hk hp
        obtain ⟨gs, g', j₂, hloop, hrest⟩ := ih (kept_of_logged hone.logged hk) (pn + 1)
          (maxGeneration g gen) (by omega)
        refine ⟨j.framesOf p ++ gs, g', j₂, ?_, (hone.append hrest (by omega)).widen ?_ ?_⟩
        · simp only [hack, hloop, some_bind]
        · omega
        · intro k hin hsome
          by_cases hlt : k < pn
          · rw [firstIn_least hfirst hin.1 hlt] at hsome
            cases hsome
          · omega
    · rw [if_neg hle]
      exact ⟨[], g, j, rfl, (Reports.nil j).widen (fun _ h => h.elim) (fun k hin _ => by omega)⟩

lemma ackAll_reports (hk : j.Kept) (hapart : ranges.Pairwise (fun r r' => r.2 < r'.1))
    (hranges : ∀ r ∈ ranges, r.1 ≤ r.2) (g : Option Nat) :
    ∃ fs g' j', j.ackAll g ranges = some (fs, g', j') ∧
      j.Reports (fun k => ∃ r ∈ ranges, r.1 ≤ k ∧ k ≤ r.2) fs j' := by
  induction ranges generalizing j g with
  | nil => exact ⟨[], g, j, rfl, (Reports.nil j).widen (fun _ h => h.elim) (by simp)⟩
  | cons r ranges ih =>
    have hle := hranges r List.mem_cons_self
    have hlater : ∀ r' ∈ ranges, r.2 < r'.1 := fun r' hr' => List.rel_of_pairwise_cons hapart hr'
    obtain ⟨fs, g₁, j₁, hloop, hfirst⟩ := ackLoop_reports hk r.1 r.2 g
      (by omega : r.2 + 1 - r.1 < r.2 + 2 - r.1)
    obtain ⟨gs, g₂, j₂, hall, hrest⟩ := ih (kept_of_logged hfirst.logged hk) (List.Pairwise.of_cons hapart)
      (fun r' hr' => hranges r' (List.mem_cons_of_mem r hr')) g₁
    have hboth := hfirst.append hrest (by
      rintro a b ha ⟨r', hr', hb⟩
      have hgap := hlater r' hr'
      omega)
    refine ⟨fs ++ gs, g₂, j₂, ?_, hboth.widen ?_ ?_⟩
    · simp only [ackAll, hloop, hall, some_bind]
    · rintro k (hin | ⟨r', hr', hin⟩)
      · exact ⟨r, List.mem_cons_self, hin⟩
      · exact ⟨r', List.mem_cons_of_mem r hr', hin⟩
    · rintro k ⟨r', hr', hin⟩ -
      cases List.mem_cons.mp hr' with
      | inl heq => exact .inl (heq ▸ hin)
      | inr hr' => exact .inr ⟨r', hr', hin⟩

lemma onAcked_cases (hk : j.Kept) (ack : AckFrame) :
    (∃ e, j.onAcked ack = some (.error e, [], j) ∧ ∀ ranges, ackRanges ack = some ranges →
      j.nextPn ≤ ack.largest.val ∨ ∃ r ∈ ranges, ∃ pn ∈ j.skippedPns, r.1 ≤ pn ∧ pn ≤ r.2) ∨
    ∃ ranges g fs j', ackRanges ack = some ranges ∧ ack.largest.val < j.nextPn ∧
      (∀ r ∈ ranges, ∀ pn ∈ j.skippedPns, ¬(r.1 ≤ pn ∧ pn ≤ r.2)) ∧ j.onAcked ack = some (.ok g, fs, j') ∧
      j.Reports (fun k => ∃ r ∈ ranges, r.1 ≤ k ∧ k ≤ r.2) fs j' := by
  unfold onAcked
  cases hranges : ackRanges ack with
  | none =>
    refine .inl ⟨_, rfl, ?_⟩
    intro ranges h
    cases h
  | some ranges =>
    dsimp only
    split
    · rename_i hrefused
      refine .inl ⟨_, rfl, ?_⟩
      rintro ranges' ⟨⟩
      simpa only [Std.TreeSet.mem_toList] using hrefused
    · rename_i hvalid
      have hsame : Same j { j with largestAcked := max j.largestAcked ack.largest.val } := ⟨rfl, rfl, fun _ => rfl, rfl⟩
      have hstart : j.Reports (fun _ => False) [] { j with largestAcked := max j.largestAcked ack.largest.val } :=
        { Reports.nil j with
          logged := .single (.idle hsame)
          others := fun _ _ => ⟨rfl, rfl⟩
          numbers := rfl }
      obtain ⟨fs, g, j₁, hall, hreports⟩ := ackAll_reports (hk.same hsame) (ackRanges_apart hranges)
        (fun r hr => ackRanges_le hranges r (List.mem_reverse.mp hr)) none
      obtain ⟨hnext, hslots⟩ := j₁.frames.reclaim_slot
      have hsame₁ : Same j₁ { j₁ with frames := j₁.frames.reclaim } := ⟨rfl, rfl, hslots, rfl⟩
      have hk₁ := kept_of_logged hreports.logged (hk.same hsame)
      have hfinish : j₁.Reports (fun _ => False) [] { j₁ with frames := j₁.frames.reclaim } :=
        { Reports.nil j₁ with
          logged := .single (.idle hsame₁)
          others := fun k _ => ⟨rfl, hk₁.held_congr (hk₁.same hsame₁) rfl fun _ _ i _ => hslots i⟩
          numbers := rfl }
      have hboth := (hstart.append hreports (fun _ _ h _ => h.elim)).append hfinish (fun _ _ _ h => h.elim)
      rw [List.nil_append, List.append_nil] at hboth
      refine .inr ⟨ranges, g, fs, _, rfl, ?_, ?_, ?_, hboth.widen ?_ ?_⟩
      · exact not_le.mp fun h => hvalid (.inl h)
      · exact fun r hr pn hpn hin => hvalid (.inr ⟨r, hr, pn, Std.TreeSet.mem_toList.mpr hpn, hin⟩)
      · simp only [hall, some_bind]
      · rintro k ((h | ⟨r, hr, hin⟩) | h)
        · exact h.elim
        · exact ⟨r, List.mem_reverse.mp hr, hin⟩
        · exact h.elim
      · rintro k ⟨r, hr, hin⟩ -
        exact .inl (.inr ⟨r, List.mem_reverse.mpr hr, hin⟩)

/-! ### Journals that calls lead to -/

/-- One call of the journal. What it returns and reports is not kept. -/
def exec (j : SentJournal φ) : JournalOp φ → Option (SentJournal φ)
  | .nextPn => (j.reservePn).map Prod.snd
  | .onSealed pn generation pktlen data frames => j.onSealed pn generation pktlen data frames
  | .onSent pn inFlight retransmitAfter retention sentAt => j.onSent pn inFlight retransmitAfter retention sentAt
  | .cancel pn => (j.cancel pn).map Prod.snd
  | .resend pns => (j.resend pns).map Prod.snd
  | .onTick now => (j.onTick now).map Prod.snd
  | .onAcked ack => (j.onAcked ack).map fun r => r.2.2

lemma Kept.step (hk : j.Kept) {op : JournalOp φ} (he : j.exec op = some j') : j'.Kept := by
  cases op with
  | nextPn =>
    obtain ⟨⟨res, j₁⟩, hj, rfl⟩ := Option.map_eq_some_iff.mp he
    exact reservePn_kept hk hj
  | onSealed pn generation pktlen data frames => exact onSealed_kept hk he
  | onSent pn inFlight retransmitAfter retention sentAt => exact kept_of_logged (onSent_logged hk he) hk
  | cancel pn =>
    obtain ⟨⟨fs, j₁⟩, hj, rfl⟩ := Option.map_eq_some_iff.mp he
    exact kept_of_logged (cancel_logged hk hj) hk
  | resend pns =>
    obtain ⟨⟨fs, j₁⟩, hj, rfl⟩ := Option.map_eq_some_iff.mp he
    exact kept_of_logged (resend_logged hk hj) hk
  | onTick now =>
    obtain ⟨⟨fs, j₁⟩, hj, rfl⟩ := Option.map_eq_some_iff.mp he
    exact kept_of_logged (tickLoop_logged hk hj) hk
  | onAcked ack =>
    rcases onAcked_cases hk ack with ⟨e, hj, -⟩ | ⟨ranges, g, fs, j₁, -, -, -, hj, hreports⟩
    · simp only [exec, hj, Option.map_some] at he
      cases he
      exact hk
    · simp only [exec, hj, Option.map_some] at he
      cases he
      exact kept_of_logged hreports.logged hk

end SentJournal

def sentSystem (φ : Type) : System (SentJournal φ) (JournalOp φ) where
  init j := j = SentJournal.empty
  issued _ _ := True
  exec := SentJournal.exec

namespace SentJournal

variable {φ : Type}

theorem kept_of_reach {j : SentJournal φ} (hr : (sentSystem φ).Reach j) : j.Kept := by
  apply hr.invariant (I := Kept)
  · rintro j rfl
    exact Kept.empty
  · intro j op j' hk _ he
    exact hk.step he

/-- `acknowledge` hands the frame on to congestion control, with the delay in microseconds. -/
def scaledAck (ack : AckFrame) (exponent : Nat) : Option AckFrame := do
  let delay := if exponent < 64 then ack.delay.val <<< exponent % 2 ^ 64 else varintMax
  let largest ← VarInt.fromU64 ack.largest.val
  let delay ← VarInt.fromU64 (min delay varintMax)
  let firstRange ← VarInt.fromU64 ack.firstRange.val
  some ⟨largest, delay, firstRange, ack.ranges, ack.ecn⟩

lemma scaledAck_eq (ack : AckFrame) (exponent : Nat) : ∃ handed, scaledAck ack exponent = some handed ∧
    ackRanges handed = ackRanges ack ∧
    handed.delay.val = min (if exponent < 64 then ack.delay.val <<< exponent % 2 ^ 64 else varintMax) varintMax := by
  have hlargest : VarInt.fromU64 ack.largest.val = some ack.largest := dif_pos ack.largest.2
  have hfirst : VarInt.fromU64 ack.firstRange.val = some ack.firstRange := dif_pos ack.firstRange.2
  have hmax : varintMax < 2 ^ 62 := by decide
  have hdelay : ∀ n, VarInt.fromU64 (min n varintMax) = some ⟨min n varintMax, (min_le_right _ _).trans_lt hmax⟩ :=
    fun n => dif_pos _
  unfold scaledAck
  simp only [hlargest, hdelay, hfirst, some_bind]
  exact ⟨_, rfl, rfl, rfl⟩

/-- An ACK frame is accepted exactly if no range reaches below zero, the largest packet number was given out, and no range
has a number that is remembered as skipped. A refused frame leaves no trace. An accepted one reports the frames of the
records in its ranges and nothing else, in ascending order, and congestion control iterates over the same ranges. -/
theorem onAcked_exact {j : SentJournal φ} (hr : (sentSystem φ).Reach j) (ack : AckFrame) :
    ∃ result frames j', j.onAcked ack = some (result, frames, j') ∧
      ((∃ generation, result = .ok generation) ↔ (∀ s ∈ ack.spans, 0 ≤ s.1) ∧ ack.largest.val < j.nextPn ∧
        ∀ pn ∈ j.skippedPns, ¬∃ s ∈ ack.spans, s.1 ≤ pn ∧ (pn : Int) ≤ s.2) ∧
      ((∃ e, result = .error e) → frames = [] ∧ j' = j) ∧
      ((∃ generation, result = .ok generation) → ∃ pns : List Nat, pns.Pairwise (· < ·) ∧
        (∀ pn, pn ∈ pns ↔ (∃ p, j.packets[pn]? = some p) ∧ ∃ s ∈ ack.spans, s.1 ≤ pn ∧ (pn : Int) ≤ s.2) ∧
        frames = pns.flatMap j.held ∧
        ∀ exponent, ∃ handed ranges, scaledAck ack exponent = some handed ∧ handed.iterRanges = some ranges ∧
          ack.iterRanges = some ranges ∧ ranges.map AckFrame.span = ack.spans) := by
  have hk := kept_of_reach hr
  rcases onAcked_cases hk ack with ⟨e, hj, hwhy⟩ | ⟨ranges, g, fs, j', hranges, hlt, hskip, hj, hreports⟩
  · refine ⟨.error e, [], j, hj, ?_, fun _ => ⟨rfl, rfl⟩, ?_⟩
    · constructor
      · rintro ⟨generation, hok⟩
        cases hok
      · rintro ⟨hnonneg, hlt, hskip⟩
        obtain ⟨ranges, hranges⟩ := (AckFrame.ackRanges_isSome_iff ack).mpr hnonneg
        rcases hwhy ranges hranges with hbig | ⟨r, hr, pn, hpn, hin⟩
        · omega
        · exact absurd ((AckFrame.mem_spans hranges pn).mpr ⟨r, hr, hin⟩) (hskip pn hpn)
    · rintro ⟨generation, hok⟩
      cases hok
  · refine ⟨.ok g, fs, j', hj, ?_, ?_, ?_⟩
    · constructor
      · intro _
        refine ⟨(AckFrame.ackRanges_isSome_iff ack).mp ⟨ranges, hranges⟩, hlt, ?_⟩
        intro pn hpn hin
        obtain ⟨r, hr, hin⟩ := (AckFrame.mem_spans hranges pn).mp hin
        exact hskip r hr pn hpn hin
      · exact fun _ => ⟨g, rfl⟩
    · rintro ⟨e, herror⟩
      cases herror
    · intro _
      obtain ⟨pns, hsorted, hmem, hfs⟩ := hreports.ascending
      refine ⟨pns, hsorted, ?_, hfs, ?_⟩
      · intro pn
        rw [hmem, AckFrame.mem_spans hranges, Option.isSome_iff_exists]
        exact and_comm
      · intro exponent
        obtain ⟨handed, hhanded, hsame, -⟩ := scaledAck_eq ack exponent
        refine ⟨handed, ranges, hhanded, ?_, ?_, AckFrame.ackRanges_spans hranges⟩
        · rw [AckFrame.iterRanges_eq, hsame, hranges]
        · rw [AckFrame.iterRanges_eq, hranges]

/-- Two ranges with one packet each, and a packet between them. -/
theorem onAcked_exact_two_ranges : ∃ (j : SentJournal Nat) (ack : AckFrame), (sentSystem Nat).Reach j ∧
    ack.spans = [(2, 2), (0, 0)] ∧ ∃ generation frames j', j.onAcked ack = some (.ok generation, frames, j') ∧
      ∃ pns : List Nat, pns.Pairwise (· < ·) ∧
        (∀ pn, pn ∈ pns ↔ (∃ p, j.packets[pn]? = some p) ∧ ∃ s ∈ ack.spans, s.1 ≤ pn ∧ (pn : Int) ≤ s.2) ∧
        frames = pns.flatMap j.held := by
  have h₀ : (sentSystem Nat).Reach _ := .start rfl
  have h₁ := h₀.step (e := JournalOp.nextPn) trivial rfl
  have h₂ := h₁.step (e := JournalOp.nextPn) trivial rfl
  have h₃ := h₂.step (e := JournalOp.nextPn) trivial rfl
  have h₄ := h₃.step (e := JournalOp.onSealed 0 none 10 ⟨.effectivePayload, true, none⟩ [7]) trivial rfl
  have h₅ := h₄.step (e := JournalOp.onSealed 1 none 10 ⟨.effectivePayload, true, none⟩ [8]) trivial rfl
  have h₆ := h₅.step (e := JournalOp.onSealed 2 none 10 ⟨.effectivePayload, true, none⟩ [9]) trivial rfl
  have h₇ := h₆.step (e := JournalOp.onSent 0 true 5 20 100) trivial rfl
  have h₈ := h₇.step (e := JournalOp.onSent 2 true 5 20 100) trivial rfl
  obtain ⟨result, frames, j', hj, haccepted, -, hok⟩ := onAcked_exact h₈
    ⟨⟨2, by decide⟩, ⟨0, by decide⟩, ⟨0, by decide⟩, [(⟨0, by decide⟩, ⟨0, by decide⟩)], none⟩
  obtain ⟨generation, rfl⟩ := haccepted.mpr
    ⟨by decide, Nat.lt_succ_self 2, fun pn hpn => absurd hpn Std.TreeSet.not_mem_emptyc⟩
  obtain ⟨pns, hsorted, hmem, hframes, -⟩ := hok ⟨generation, rfl⟩
  exact ⟨_, _, h₈, rfl, generation, frames, j', hj, pns, hsorted, hmem, hframes⟩

end SentJournal

end Dquic
