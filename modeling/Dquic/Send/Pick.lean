import Dquic.Send.Loss

/-!
# Picking data to send

`BufMap::pick` takes the first lost or pending interval that the window allows, colours as much of
it in flight as the predicate and, for fresh data, the flow limit permit, and leaves every other
byte alone.
-/

namespace Dquic

open Lib

namespace BufMap

/-- The intervals `pick` looks for. -/
def Pickable (flowLimit window : Nat) (s : State) : Prop :=
  s.offset < window ∧ (s.color = .lost ∨ s.color = .pending ∧ flowLimit ≠ 0)

/-- `m'` is `m` after picking `range` out of bytes of colour `origin`. -/
structure Picked (m m' : BufMap) (range : Range) (origin : Color) : Prop where
  wf : m'.Wf
  size_eq : m'.size = m.size
  sent_eq : m'.sent = if origin = .pending then range.stop else m.sent
  sentIn : range.SentIn m'
  start_mem : ∃ s ∈ m.segs, s.offset = range.start
  place : origin = .pending ∧ range.start = m.sent ∨ origin = .lost ∧ range.stop ≤ m.sent
  color : ∀ b < m.size, m'.colorAt b = if range.Mem b then .flighting else m.colorAt b
  before : ∀ b, range.Mem b → m.colorAt b = origin
  offsets : ∀ s ∈ m'.segs, (∃ t ∈ m.segs, t.offset = s.offset) ∨ s.offset < m.size

variable {a a' : Poll} {flowLimit i window allowance limit : Nat} {l A B : List State} {s : State} {m : BufMap}

lemma pickFind_none (h : pickFind flowLimit window l i a = (none, a')) : ∀ s ∈ l, ¬Pickable flowLimit window s := by
  induction l generalizing i a with
  | nil => simp
  | cons s l ih =>
    unfold pickFind at h
    unfold Pickable at ih ⊢
    intro t ht
    rcases List.mem_cons.mp ht with rfl | ht
    · grind
    · grind

lemma pickFind_some {j : Nat} (h : pickFind flowLimit window l i a = (some (j, s), a')) :
    ∃ A B, l = A ++ s :: B ∧ j = i + A.length ∧ Pickable flowLimit window s ∧
      ∀ t ∈ A, ¬Pickable flowLimit window t := by
  induction l generalizing i a with
  | nil => simp [pickFind] at h
  | cons t l ih =>
    have hnext : ¬Pickable flowLimit window t → ∀ a, pickFind flowLimit window l (i + 1) a = (some (j, s), a') →
        ∃ A B, t :: l = A ++ s :: B ∧ j = i + A.length ∧ Pickable flowLimit window s ∧
          ∀ t ∈ A, ¬Pickable flowLimit window t := by
      intro ht a h
      obtain ⟨A, B, rfl, rfl, hs, hA⟩ := ih h
      exact ⟨t :: A, B, rfl, by simp; omega, hs, List.forall_mem_cons.mpr ⟨ht, hA⟩⟩
    have hhere : Pickable flowLimit window t → (some (i, t), a) = (some (j, s), a') →
        ∃ A B, t :: l = A ++ s :: B ∧ j = i + A.length ∧ Pickable flowLimit window s ∧
          ∀ t ∈ A, ¬Pickable flowLimit window t := by
      intro ht h
      simp only [Prod.mk.injEq, Option.some.injEq] at h
      obtain ⟨⟨rfl, rfl⟩, -⟩ := h
      exact ⟨[], l, rfl, rfl, ht, List.forall_mem_nil _⟩
    unfold pickFind at h
    by_cases hw : window ≤ t.offset
    · rw [if_pos hw] at h
      exact hnext (fun ht => absurd ht.1 (not_lt.mpr hw)) _ h
    · rw [if_neg hw] at h
      cases hc : t.color with
      | pending =>
        simp only [hc] at h
        by_cases hf : flowLimit ≠ 0
        · rw [if_pos hf] at h
          exact hhere ⟨by omega, .inr ⟨hc, hf⟩⟩ h
        · rw [if_neg hf] at h
          refine hnext (fun ht => ?_) _ h
          rcases ht.2 with hlost | ⟨-, hflow⟩
          · cases hc.symm.trans hlost
          · exact hf hflow
      | lost =>
        simp only [hc] at h
        exact hhere ⟨by omega, .inl hc⟩ h
      | flighting | recved =>
        simp only [hc] at h
        exact hnext (fun ht => by simp [Pickable, hc] at ht) _ h

lemma Wf.split_sent (hm : m.Wf) (hsegs : m.segs = A ++ s :: B) :
    (∀ a ∈ A, a.color ≠ .pending) ∧ (s.color = .pending → B = []) := by
  have hinc := hm.increasing
  rw [hsegs] at hinc
  have hsA : ∀ a ∈ A, a.offset < s.offset := fun a ha => (List.pairwise_append.mp hinc).2.2 a ha s (by simp)
  constructor
  · intro a ha hp
    have hle := hm.offset_le_sent (t := s) (by simp [hsegs, ha]) hp (by simp [hsegs])
    have hlt := hsA a ha
    have heq := (hm.pending a (by simp [hsegs, ha]) hp).1
    omega
  · intro hp
    cases B with
    | nil => rfl
    | cons t B =>
      have hle := hm.offset_le_sent (s := s) (t := t) (by simp [hsegs]) hp (by simp [hsegs])
      have hlt := (List.pairwise_cons.mp (List.pairwise_append.mp hinc).2.1).1 t (by simp)
      have heq := (hm.pending s (by simp [hsegs]) hp).1
      omega

/-- The end of the interval that starts with the state before `B`. -/
def intervalEnd (B : List State) (size : Nat) : Nat := (B.head?.map Mark.offset).getD size

/-- What `pick` leaves of the states: `K`, a mark for the unpicked rest, and the states behind. -/
lemma takeInterval_eq (hm : m.Wf) {origin : State} (hsegs : m.segs = A ++ origin :: B) (hwindow : m.size ≤ window)
    (hlimit : checkedAdd origin.offset allowance = some limit) :
    ∃ K Z₁ Z₂, ScanStart origin.offset .flighting A K ∧ B = Z₁ ++ Z₂ ∧ (∀ z ∈ Z₁, z.color = .flighting) ∧
      (limit < intervalEnd B m.size → Z₁ = []) ∧
      takeInterval m A.length origin allowance window =
        some (⟨origin.offset, min limit (intervalEnd B m.size)⟩,
          ⟨K ++ (if limit < intervalEnd B m.size then [⟨limit, origin.color⟩] else []) ++ Z₂, m.size⟩) := by
  have hinc := hm.increasing
  rw [hsegs] at hinc
  have hA : ∀ a ∈ A, a.offset < origin.offset := fun a ha =>
    (List.pairwise_append.mp hinc).2.2 a ha origin (by simp)
  have hset : m.segs.set A.length ⟨origin.offset, .flighting⟩ = A ++ ⟨origin.offset, .flighting⟩ :: B := by
    rw [hsegs]
    simp
  obtain ⟨K, D, hsplit, hlenK, hbefore, hH⟩ := ScanStart.recolor B
    (by decide : Color.flighting ≠ .pending) (List.pairwise_append.mp hinc).1 hA (hm.split_sent hsegs).1
  have hnext : (((A ++ ⟨origin.offset, .flighting⟩ :: B)[A.length + 1]?.map Mark.offset).getD m.size) =
      intervalEnd B m.size := by
    rw [List.append_cons, List.getElem?_append_right (by simp), intervalEnd, List.head?_eq_getElem?]
    simp
  have hend : min (intervalEnd B m.size) window = intervalEnd B m.size := by
    refine min_eq_left (le_trans ?_ hwindow)
    unfold intervalEnd
    cases B with
    | nil => exact le_rfl
    | cons z B => exact hm.bounded z (by simp [hsegs])
  have hlen : (K ++ D ++ B).length < usizeMax := by
    have := hm.length_lt
    rw [hsegs] at this
    rw [← hsplit]
    simpa using this
  rw [hsplit] at hset hnext hbefore
  have hbefore₂ : sameBefore (K ++ D ++ B) .flighting A.length + 2 = K.length + 1 := by omega
  unfold takeInterval
  simp only [hset, hnext, hend, hlimit, some_bind, hbefore, hbefore₂]
  by_cases hlt : limit < intervalEnd B m.size
  · refine ⟨K, [], B, hH, rfl, by simp, fun _ => rfl, ?_⟩
    have hgap : Gap (K ++ D ++ B) K.length (A.length + 1) K D B := ⟨rfl, rfl, by rw [← hlenK]; simp⟩
    obtain ⟨l, hl, hg⟩ := hgap.put ⟨limit, origin.color⟩
    rw [if_pos hlt, if_pos hlt, hl, min_eq_left hlt.le, some_bind, hg.close]
    rfl
  · obtain ⟨Z₁, Z₂, hZ, hmerge, hrun⟩ := mergeAfter_split .flighting (K ++ D) B A.length hlenK.symm hlen
    refine ⟨K, Z₁, Z₂, hH, hZ, hrun, fun h => absurd h hlt, ?_⟩
    have hgap : Gap (K ++ D ++ Z₂) K.length (A.length + 1) K D Z₂ := ⟨rfl, rfl, by rw [← hlenK]; simp⟩
    rw [if_neg hlt, if_neg hlt, hmerge, min_eq_right (by omega), some_bind, hgap.close, List.append_nil]
    rfl

lemma intervalEnd_of_cons (z : State) (B : List State) (size : Nat) : intervalEnd (z :: B) size = z.offset := rfl

lemma Wf.intervalEnd_bounds (hm : m.Wf) (hsegs : m.segs = A ++ s :: B) :
    s.offset ≤ intervalEnd B m.size ∧ intervalEnd B m.size ≤ m.size ∧
      (s.offset < m.size → s.offset < intervalEnd B m.size) ∧ (∀ z ∈ B, intervalEnd B m.size ≤ z.offset) ∧
      (s.color ≠ .pending → intervalEnd B m.size ≤ m.sent) := by
  have hinc := hm.increasing
  rw [hsegs] at hinc
  have hs := hm.bounded s (by simp [hsegs])
  obtain ⟨hsB, hincB⟩ := List.pairwise_cons.mp (List.pairwise_append.mp hinc).2.1
  cases B with
  | nil =>
    refine ⟨hs, le_rfl, id, by simp, fun hc => ?_⟩
    obtain ⟨segs, size⟩ := m
    rw [show segs = A ++ [s] from hsegs, sent_concat, if_neg hc]
    exact le_rfl
  | cons z B =>
    rw [intervalEnd_of_cons]
    have hz := hsB z (by simp)
    refine ⟨hz.le, hm.bounded z (by simp [hsegs]), fun _ => hz, fun y hy => ?_, fun _ => ?_⟩
    · rcases List.mem_cons.mp hy with rfl | hy
      · exact le_rfl
      · exact ((List.pairwise_cons.mp hincB).1 y hy).le
    · by_cases hp : ∃ t ∈ m.segs, t.color = .pending
      · obtain ⟨t, ht, hp⟩ := hp
        exact hm.offset_le_sent ht hp (by simp [hsegs])
      · rw [sent_of_not_pending (fun t ht hc => hp ⟨t, ht, hc⟩)]
        exact hm.bounded z (by simp [hsegs])

/-- The unpicked rest of an interval, if there is one, and the states behind it. -/
lemma scanEnd_interval (pre : Color) {Z₁ Z₂ : List State} {c : Color} {size : Nat} (hle : intervalEnd (Z₁ ++ Z₂) size ≤ size)
    (hbehind : ∀ z ∈ Z₁ ++ Z₂, intervalEnd (Z₁ ++ Z₂) size ≤ z.offset) (hrun : ∀ z ∈ Z₁, z.color = c)
    (hlead : limit < intervalEnd (Z₁ ++ Z₂) size → Z₁ = []) :
    ScanEnd size (min limit (intervalEnd (Z₁ ++ Z₂) size)) c pre Z₁ Z₂ (decide (limit < intervalEnd (Z₁ ++ Z₂) size)) := by
  refine ⟨fun z hz => (min_le_right _ _).trans (hbehind z hz), hrun, fun h => ?_, fun h => .inr ?_⟩
  · have hlt := of_decide_eq_true h
    refine ⟨hlead hlt, by omega, fun z hz => ?_⟩
    have := hbehind z (by simp [hz])
    omega
  · rw [min_eq_right (not_lt.mp (of_decide_eq_false h))]
    cases hZ : Z₁ ++ Z₂ with
    | nil => exact .inl le_rfl
    | cons z l => exact .inr ⟨z, l, rfl, rfl⟩

lemma Wf.takeInterval_lost (hm : m.Wf) (hsegs : m.segs = A ++ s :: B) (hwindow : m.size ≤ window) (hpos : 0 < allowance)
    (hlimit : checkedAdd s.offset allowance = some limit) (hc : s.color = .lost) :
    ∃ stop m', stop ≤ limit ∧ takeInterval m A.length s allowance window = some (⟨s.offset, stop⟩, m') ∧
      Picked m m' ⟨s.offset, stop⟩ .lost := by
  obtain ⟨K, Z₁, Z₂, hH, rfl, hrun, hlead, htake⟩ := takeInterval_eq hm hsegs hwindow hlimit
  obtain ⟨hse, hesize, hslt, hbehind, hesent⟩ := hm.intervalEnd_bounds hsegs
  have hesent := hesent (by rw [hc]; decide)
  have hlim := checkedAdd_eq_some hlimit
  have hinc := hm.increasing
  rw [hsegs] at hinc
  have hA : ∀ a ∈ A, a.offset < s.offset := fun a ha => (List.pairwise_append.mp hinc).2.2 a ha s (by simp)
  have hsZ : ∀ z ∈ Z₁ ++ Z₂, s.offset < z.offset := fun z hz =>
    (List.pairwise_cons.mp (List.pairwise_append.mp hinc).2.1).1 z hz
  have hsize := hm.bounded s (by simp [hsegs])
  have hlast : lastColor .recved (A ++ [s]) = s.color := by rw [lastColor_append]; rfl
  have hend := scanEnd_interval (lastColor .recved (A ++ [s])) hesize hbehind hrun hlead
  set e := intervalEnd (Z₁ ++ Z₂) m.size with he
  have hr : Range.SentIn ⟨s.offset, min limit e⟩ m := by
    refine ⟨?_, ?_, ?_⟩
    · change s.offset ≤ min limit e
      omega
    · change min limit e ≤ m.sent
      omega
    · change s.offset < min limit e ∨ min limit e = m.size
      omega
  have hpaint := hm.repaint hr (X := [s]) (by decide) (by rw [hsegs]; simp) hA
    (fun x hx => by
      rw [List.mem_singleton.mp hx]
      change s.offset ≤ s.offset ∧ (s.offset < min limit e ∨ s.offset = m.size ∧ min limit e = m.size)
      omega) hsZ hH hend
  have hmark : (if limit < e then [⟨limit, s.color⟩] else [] : List State) =
      if decide (limit < e) then [⟨min limit e, lastColor .recved (A ++ [s])⟩] else [] := by
    by_cases hlt : limit < e
    · simp [hlt, hlast, min_eq_left hlt.le]
    · simp [hlt]
  refine ⟨min limit e, _, min_le_left _ _, htake, ?_⟩
  rw [hmark]
  refine ⟨hpaint.wf, rfl, ?_, ⟨hr.le, ?_, hr.nonempty⟩, ⟨s, by simp [hsegs], rfl⟩,
    .inr ⟨rfl, hr.stop_le⟩, hpaint.color, ?_, ?_⟩
  · exact hpaint.sent_eq.trans (by simp)
  · rw [hpaint.sent_eq]
    exact hr.stop_le
  · intro b hb
    have hlow : paintAt s.color (Z₁ ++ Z₂) b = s.color := paintAt_of_lt (fun z hz => by
      have := hbehind z hz
      have := hb.2
      change b < min limit e at this
      omega)
    unfold colorAt
    rw [hsegs, paintAt_append, paintAt_cons, if_pos hb.1, hlow, hc]
  · intro t ht
    rcases hpaint.offsets t ht with h | h | ⟨h, hlt⟩
    · exact .inl h
    · exact .inl ⟨s, by simp [hsegs], h.symm⟩
    · exact .inr (h ▸ hlt)

/-- The mark of the pending bytes from `stop` on, unless `stop` is the end of the map. -/
def pendingFrom (stop size : Nat) : List State := if stop < size then [⟨stop, .pending⟩] else []

section

variable {start stop size : Nat} {K : List State}

lemma mem_pendingFrom : s ∈ pendingFrom stop size ↔ s = ⟨stop, .pending⟩ ∧ stop < size := by
  unfold pendingFrom
  split_ifs with hlt
  · rw [List.mem_singleton, and_iff_left hlt]
  · simp [hlt]

lemma paintAt_pendingFrom (d : Color) {b : Nat} (hb : b < size) :
    paintAt d (pendingFrom stop size) b = if stop ≤ b then .pending else d := by
  unfold pendingFrom
  split_ifs with hlt hle hle
  · rw [paintAt_cons, if_pos hle, paintAt_nil]
  · rw [paintAt_cons, if_neg hle, paintAt_nil]
  · omega
  · rfl

lemma ScanStart.sent_pendingFrom (h : ScanStart start .flighting A K) (hle : stop ≤ size) :
    BufMap.sent ⟨K ++ pendingFrom stop size, size⟩ = stop := by
  unfold pendingFrom
  split_ifs with hlt
  · rw [sent_concat, if_pos rfl]
  · rw [List.append_nil, sent_of_not_pending h.sent]
    exact le_antisymm (not_lt.mp hlt) hle

lemma ScanStart.wf_pendingFrom (h : ScanStart start .flighting A K) (hlt : start < stop) (hle : stop ≤ size)
    (hsize : size < 2 ^ 62) : Wf ⟨K ++ pendingFrom stop size, size⟩ := by
  refine ⟨List.pairwise_append.mpr ⟨h.increasing, ?_, fun s hs t ht => ?_⟩, ?_, hsize, fun s hs hp => ?_⟩
  · unfold pendingFrom
    split_ifs
    · exact List.pairwise_singleton _ _
    · exact List.Pairwise.nil
  · rw [(mem_pendingFrom.mp ht).1]
    exact lt_of_le_of_lt (h.below s hs) hlt
  · refine List.forall_mem_append.mpr ⟨fun s hs => (h.below s hs).trans (hlt.le.trans hle), fun s hs => ?_⟩
    rw [(mem_pendingFrom.mp hs).1]
    exact hle
  · rw [h.sent_pendingFrom hle]
    rcases List.mem_append.mp hs with hs | hs
    · exact absurd hp (h.sent s hs)
    · obtain ⟨rfl, hlt⟩ := mem_pendingFrom.mp hs
      exact ⟨rfl, hlt⟩

end

lemma Wf.takeInterval_pending (hm : m.Wf) (hsegs : m.segs = A ++ s :: B) (hwindow : m.size ≤ window)
    (hpos : 0 < allowance) (hlimit : checkedAdd s.offset allowance = some limit) (hc : s.color = .pending) :
    ∃ stop m', stop ≤ limit ∧ takeInterval m A.length s allowance window = some (⟨s.offset, stop⟩, m') ∧
      Picked m m' ⟨s.offset, stop⟩ .pending := by
  obtain ⟨K, Z₁, Z₂, hH, hB, -, -, htake⟩ := takeInterval_eq hm hsegs hwindow hlimit
  obtain rfl := (hm.split_sent hsegs).2 hc
  obtain ⟨rfl, rfl⟩ : Z₁ = [] ∧ Z₂ = [] := by simpa using hB.symm
  obtain ⟨hsent, hslt⟩ := hm.pending s (by simp [hsegs]) hc
  have hlim := checkedAdd_eq_some hlimit
  have hend : intervalEnd [] m.size = m.size := rfl
  have hmark : (if limit < m.size then [⟨limit, s.color⟩] else [] : List State) = pendingFrom (min limit m.size) m.size := by
    unfold pendingFrom
    by_cases hlt : limit < m.size
    · rw [min_eq_left hlt.le, hc]
    · rw [min_eq_right (not_lt.mp hlt), if_neg hlt, if_neg (lt_irrefl _)]
  rw [hend, List.append_nil, hmark] at htake
  set stop := min limit m.size with hstop
  have hle : s.offset < stop := by omega
  have hsize : stop ≤ m.size := min_le_right _ _
  have hsent' := hH.sent_pendingFrom hsize
  refine ⟨stop, _, min_le_left _ _, htake, hH.wf_pendingFrom hle hsize hm.size_lt, rfl, by rw [hsent', if_pos rfl],
    ⟨hle.le, hsent'.ge, .inl hle⟩, ⟨s, by simp [hsegs], rfl⟩, .inl ⟨rfl, hsent⟩, fun b hb => ?_, fun b hb => ?_, ?_⟩
  · have hmem : Range.Mem ⟨s.offset, stop⟩ b ↔ s.offset ≤ b ∧ b < stop := Iff.rfl
    unfold colorAt
    rw [hsegs, paintAt_append, paintAt_append, paintAt_pendingFrom _ hb, paintAt_cons, paintAt_nil, hc]
    by_cases hbs : s.offset ≤ b
    · rw [hH.inside b hbs, if_pos hbs]
      by_cases hbstop : stop ≤ b
      · rw [if_pos hbstop, if_neg (by rw [hmem]; omega)]
      · rw [if_neg hbstop, if_pos (by rw [hmem]; omega)]
    · rw [hH.before b (by omega), if_neg (by omega), if_neg hbs, if_neg (by rw [hmem]; omega)]
  · unfold colorAt
    rw [hsegs, paintAt_append, paintAt_cons, if_pos hb.1, paintAt_nil, hc]
  · refine List.forall_mem_append.mpr ⟨fun t ht => .inr ((hH.below t ht).trans_lt hslt), fun t ht => ?_⟩
    obtain ⟨rfl, hlt⟩ := mem_pendingFrom.mp ht
    exact .inr hlt

/-- The outcomes of `pick`: nothing to send or a predicate that refuses, a range picked, or an
overflow of the first offset with the predicate's answer. -/
theorem Wf.pick_cases (hm : m.Wf) {predicate : Nat → Option Nat} (hpos : ∀ o n, predicate o = some n → 0 < n)
    (hwindow : m.size ≤ window) :
    (∃ p, m.pick predicate flowLimit window = some (.error p, m) ∧
      ((∀ s ∈ m.segs, ¬Pickable flowLimit window s) ∨ ∃ s ∈ m.segs, predicate s.offset = none)) ∨
    (m.pick predicate flowLimit window = none ∧
      ∃ s ∈ m.segs, ∃ n, predicate s.offset = some n ∧ 2 ^ 64 ≤ s.offset + n) ∨
    ∃ range fresh m', m.pick predicate flowLimit window = some (.ok (range, fresh), m') ∧
      Picked m m' range (if fresh then .pending else .lost) ∧ (fresh = true → range.stop ≤ range.start + flowLimit) ∧
      ∃ n, predicate range.start = some n ∧ range.stop ≤ range.start + n := by
  unfold pick
  cases hfind : pickFind flowLimit window m.segs 0 .pending with
  | mk found availability =>
    cases found with
    | none => exact .inl ⟨_, rfl, .inl (pickFind_none hfind)⟩
    | some p =>
      obtain ⟨index, s⟩ := p
      obtain ⟨A, B, hsegs, hidx, hs, -⟩ := pickFind_some hfind
      rw [Nat.zero_add] at hidx
      subst hidx
      have hmem : s ∈ m.segs := by simp [hsegs]
      cases hpred : predicate s.offset with
      | none => exact .inl ⟨.ready, by simp [hpred], .inr ⟨s, hmem, hpred⟩⟩
      | some available =>
        have havail := hpos _ _ hpred
        simp only [hpred]
        by_cases hover : 2 ^ 64 ≤ s.offset + (if s.color = .lost then available else min available flowLimit)
        · refine .inr (.inl ⟨?_, s, hmem, available, hpred, ?_⟩)
          · have hadd : checkedAdd s.offset (if s.color = .lost then available else min available flowLimit) =
                none := if_neg (by omega)
            simp [takeInterval, hadd]
          · have : (if s.color = .lost then available else min available flowLimit) ≤ available := by
              split
              · exact le_rfl
              · exact min_le_left _ _
            omega
        · have hadd : checkedAdd s.offset (if s.color = .lost then available else min available flowLimit) =
              some (s.offset + (if s.color = .lost then available else min available flowLimit)) :=
            if_pos (by omega)
          refine .inr (.inr ?_)
          rcases hs.2 with hc | ⟨hc, hflow⟩
          · obtain ⟨stop, m', hle, htake, hpicked⟩ := hm.takeInterval_lost hsegs hwindow (by rw [if_pos hc]; omega)
              hadd hc
            rw [if_pos hc] at hle
            refine ⟨⟨s.offset, stop⟩, false, m', ?_, hpicked, by simp, available, hpred, hle⟩
            simp only [htake, some_bind]
            simp [hc]
          · obtain ⟨stop, m', hle, htake, hpicked⟩ := hm.takeInterval_pending hsegs hwindow
              (by rw [if_neg (by rw [hc]; decide)]; omega) hadd hc
            rw [if_neg (by rw [hc]; decide)] at hle
            refine ⟨⟨s.offset, stop⟩, true, m', ?_, hpicked, fun _ => ?_, available, hpred, ?_⟩
            · simp only [htake, some_bind]
              simp [hc]
            · exact hle.trans (Nat.add_le_add_left (min_le_right _ _) _)
            · exact hle.trans (Nat.add_le_add_left (min_le_left _ _) _)

end BufMap

end Dquic
