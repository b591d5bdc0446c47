import Dquic.Send.BufMap

/-!
# Scanning a coloured interval map

The invariant of `BufMap` and what its index scans return: each scan splits the queue into the
states it keeps, the states it drains and the states it never reaches.
-/

namespace Dquic

open Lib

namespace BufMap

/-- The colour of a byte. What lies before the first state has been acknowledged. -/
def colorAt (m : BufMap) (b : Nat) : Color := paintAt .recved m.segs b

/-- States have increasing offsets up to the end of the map, and only the last one is pending. -/
structure Wf (m : BufMap) : Prop where
  increasing : Increasing m.segs
  bounded : ∀ s ∈ m.segs, s.offset ≤ m.size
  size_lt : m.size < 2 ^ 62
  pending : ∀ s ∈ m.segs, s.color = .pending → s.offset = m.sent ∧ s.offset < m.size

lemma sent_concat (K : List State) (s : State) (n : Nat) :
    sent ⟨K ++ [s], n⟩ = if s.color = .pending then s.offset else n := by
  simp [sent]

variable {m : BufMap} {N : List State} {s : State}

lemma colorAt_sent (h : m.sent < m.size) : m.colorAt m.sent = .pending := by
  obtain ⟨segs, size⟩ := m
  rcases List.eq_nil_or_concat segs with rfl | ⟨K, s, rfl⟩
  · exact absurd h (lt_irrefl size)
  · rw [List.concat_eq_append] at h ⊢
    rw [sent_concat] at h ⊢
    by_cases hs : s.color = .pending
    · rw [if_pos hs, colorAt, paintAt_append, paintAt_cons, if_pos le_rfl, paintAt_nil, hs]
    · rw [if_neg hs] at h
      exact absurd h (lt_irrefl size)

lemma Wf.sent_le (hm : m.Wf) : m.sent ≤ m.size := by
  obtain ⟨segs, size⟩ := m
  rcases List.eq_nil_or_concat segs with rfl | ⟨K, s, rfl⟩
  · simp [sent]
  · rw [List.concat_eq_append, sent_concat]
    split
    · exact hm.bounded s (by simp)
    · exact le_rfl

lemma Wf.length_lt (hm : m.Wf) : m.segs.length < usizeMax := by
  have hlen := hm.increasing.length_le hm.bounded
  have hsize := hm.size_lt
  unfold usizeMax
  omega

lemma sent_of_not_pending (h : ∀ s ∈ m.segs, s.color ≠ .pending) : m.sent = m.size := by
  obtain ⟨segs, size⟩ := m
  rcases List.eq_nil_or_concat segs with rfl | ⟨K, s, rfl⟩
  · simp [sent]
  · rw [List.concat_eq_append, sent_concat, if_neg (h s (by simp))]

lemma sent_of_pending {n : Nat} (hinc : Increasing N) (hs : s ∈ N) (hp : s.color = .pending)
    (hmax : ∀ t ∈ N, t.offset ≤ s.offset) : sent ⟨N, n⟩ = s.offset := by
  rcases List.eq_nil_or_concat N with rfl | ⟨K, t, rfl⟩
  · simp at hs
  · rw [List.concat_eq_append] at hinc hs hmax ⊢
    have hst : s = t := by
      rcases List.mem_append.mp hs with h | h
      · have hlt := (List.pairwise_append.mp hinc).2.2 s h t (by simp)
        have hle := hmax t (by simp)
        omega
      · simpa using h
    rw [sent_concat, if_pos (hst ▸ hp), hst]

lemma Wf.offset_le_sent (hm : m.Wf) {t : State} (hs : s ∈ m.segs) (hp : s.color = .pending) (ht : t ∈ m.segs) :
    t.offset ≤ m.sent := by
  obtain ⟨segs, size⟩ := m
  have hsent := (hm.pending s hs hp).1
  rcases List.eq_nil_or_concat segs with rfl | ⟨K, u, rfl⟩
  · simp at hs
  · rw [List.concat_eq_append] at hm hs ht hsent ⊢
    have hmax : t.offset ≤ u.offset := by
      rcases List.mem_append.mp ht with h | h
      · exact ((List.pairwise_append.mp hm.increasing).2.2 t h u (by simp)).le
      · simp only [List.mem_singleton] at h
        exact h ▸ le_rfl
    by_cases hu : u.color = .pending
    · rw [sent_concat, if_pos hu]
      exact hmax
    · rw [sent_concat, if_neg hu]
      exact hm.bounded t ht

/-- Replacing the states of a well-formed map by states at old offsets or at the two ends of a
sent range, with the same pending state, keeps it well formed. -/
theorem Wf.rebuild (hm : m.Wf) {a e : Nat} (hinc : Increasing N)
    (hoff : ∀ s ∈ N, (∃ t ∈ m.segs, t.offset = s.offset) ∨ s.offset = a ∨ s.offset = e ∧ e < m.size) (hae : a ≤ e)
    (he : e ≤ m.sent) (hpend : ∀ s, s.color = .pending → (s ∈ N ↔ s ∈ m.segs)) :
    Wf ⟨N, m.size⟩ ∧ sent ⟨N, m.size⟩ = m.sent := by
  have hsize := hm.sent_le
  have hsent : sent ⟨N, m.size⟩ = m.sent := by
    by_cases h : ∃ s ∈ m.segs, s.color = .pending
    · obtain ⟨s, hs, hp⟩ := h
      have hso := (hm.pending s hs hp).1
      have hmax : ∀ t ∈ N, t.offset ≤ s.offset := by
        intro t ht
        rcases hoff t ht with ⟨u, hu, hut⟩ | h | ⟨h, -⟩
        · have := hm.offset_le_sent hs hp hu
          omega
        · omega
        · omega
      rw [sent_of_pending hinc ((hpend s hp).mpr hs) hp hmax, hso]
    · rw [sent_of_not_pending (m := m) (fun s hs hp => h ⟨s, hs, hp⟩)]
      exact sent_of_not_pending (fun s hs hp => h ⟨s, (hpend s hp).mp hs, hp⟩)
  refine ⟨⟨hinc, fun s hs => ?_, hm.size_lt, fun s hs hp => ?_⟩, hsent⟩
  · change s.offset ≤ m.size
    rcases hoff s hs with ⟨t, ht, hts⟩ | h | ⟨h, h'⟩
    · have := hm.bounded t ht
      omega
    · omega
    · omega
  · rw [hsent]
    exact hm.pending s ((hpend s hp).mp hs) hp

/-! ### Index scans -/

lemma sameBefore_split (c : Color) (A T : List State) :
    ∃ A₁ A₂, A = A₁ ++ A₂ ∧ sameBefore (A ++ T) c A.length = A₁.length ∧ ∀ a ∈ A₂, a.color = c := by
  induction A using List.reverseRecOn generalizing T with
  | nil => exact ⟨[], [], rfl, rfl, by simp⟩
  | append_singleton A y ih =>
    have hget : (A ++ [y] ++ T)[A.length]? = some y := by simp
    by_cases hy : y.color = c
    · obtain ⟨A₁, A₂, hA, hlen, hcol⟩ := ih (y :: T)
      refine ⟨A₁, A₂ ++ [y], by rw [hA, List.append_assoc], ?_, ?_⟩
      · rw [List.length_append, List.length_singleton, sameBefore, hget]
        simp only [hy, if_true]
        rw [List.append_assoc, List.singleton_append, hlen]
      · intro a ha
        rcases List.mem_append.mp ha with ha | ha
        · exact hcol a ha
        · rw [List.mem_singleton] at ha
          exact ha ▸ hy
    · refine ⟨A ++ [y], [], by simp, ?_, by simp⟩
      rw [List.length_append, List.length_singleton, sameBefore, hget]
      simp only [hy, if_false]

lemma sameAfter_split (c : Color) (K Z : List State) (fuel index : Nat)
    (hidx : overflowingSucc index = K.length) (hfuel : Z.length ≤ fuel)
    (hlen : (K ++ Z).length < usizeMax) :
    ∃ Z₁ Z₂, Z = Z₁ ++ Z₂ ∧
      overflowingSucc (sameAfter (K ++ Z) c fuel index) = K.length + Z₁.length ∧
      ∀ z ∈ Z₁, z.color = c := by
  induction Z generalizing K fuel index with
  | nil =>
    refine ⟨[], [], rfl, ?_, by simp⟩
    cases fuel with
    | zero => simpa [sameAfter] using hidx
    | succ fuel =>
      have hget : (K ++ [])[K.length]? = none := by simp
      rw [sameAfter, hidx, hget]
      simpa using hidx
  | cons z Z ih =>
    obtain ⟨fuel, rfl⟩ : ∃ f, fuel = f + 1 := ⟨fuel - 1, by simp at hfuel; omega⟩
    have hget : (K ++ z :: Z)[K.length]? = some z := by simp
    rw [sameAfter, hidx, hget]
    by_cases hz : z.color = c
    · have hne : K.length ≠ usizeMax := by simp at hlen; omega
      have hsucc : overflowingSucc K.length = (K ++ [z]).length := by
        rw [overflowingSucc, if_neg hne, List.length_append, List.length_singleton]
      have hK : K ++ z :: Z = K ++ [z] ++ Z := by simp
      obtain ⟨Z₁, Z₂, hZ, hres, hcol⟩ := ih (K ++ [z]) fuel K.length hsucc (by simpa using hfuel)
        (by rwa [← hK])
      refine ⟨z :: Z₁, Z₂, by rw [hZ, List.cons_append], ?_, ?_⟩
      · simp only [hz, if_true, hK]
        rw [hres]
        simp only [List.length_append, List.length_cons, List.length_nil]
        omega
      · intro x hx
        rcases List.mem_cons.mp hx with rfl | hx
        · exact hz
        · exact hcol x hx
    · refine ⟨[], z :: Z, rfl, ?_, by simp⟩
      simp only [hz, if_false]
      simpa using hidx

/-- `skipAfter` passes a run of one colour. -/
theorem skipAfter_split (c : Color) (K Z : List State) (hlen : (K ++ Z).length < usizeMax) :
    ∃ Z₁ Z₂, Z = Z₁ ++ Z₂ ∧ skipAfter (K ++ Z) c K.length = K.length + Z₁.length ∧
      ∀ z ∈ Z₁, z.color = c := by
  refine sameAfter_split c K Z _ _ ?_ (by simp) hlen
  by_cases hK : K.length = 0
  · rw [overflowingPred, if_pos hK, overflowingSucc, if_pos rfl, hK]
  · have hne : K.length - 1 ≠ usizeMax := by simp at hlen; omega
    rw [overflowingPred, if_neg hK, overflowingSucc, if_neg hne]
    omega

/-- `mergeAfter` drains a run of one colour behind an index. -/
theorem mergeAfter_split (c : Color) (K Z : List State) (index : Nat) (hidx : index + 1 = K.length)
    (hlen : (K ++ Z).length < usizeMax) :
    ∃ Z₁ Z₂, Z = Z₁ ++ Z₂ ∧ mergeAfter (K ++ Z) index c = some (K ++ Z₂) ∧ ∀ z ∈ Z₁, z.color = c := by
  have hne : index ≠ usizeMax := by simp at hlen; omega
  have hsucc : overflowingSucc index = K.length := by rw [overflowingSucc, if_neg hne, hidx]
  obtain ⟨Z₁, Z₂, hZ, hres, hcol⟩ := sameAfter_split c K Z (K ++ Z).length index hsucc (by simp) hlen
  refine ⟨Z₁, Z₂, hZ, ?_, hcol⟩
  have hlast : sameAfter (K ++ Z) c (K ++ Z).length index + 1 = K.length + Z₁.length := by
    unfold overflowingSucc at hres
    split at hres
    · omega
    · exact hres
  rw [mergeAfter, hlast, hidx]
  have hgap : Gap (K ++ Z) K.length (K.length + Z₁.length) K Z₁ Z₂ :=
    ⟨by rw [hZ, List.append_assoc], rfl, by omega⟩
  exact hgap.close

/-- The end of `ack_rcvd` and `may_loss` replaces the states to drain by its marks. -/
theorem splice_gap {segs K D Z : List State} {lo hi : Nat} (h : Gap segs lo hi K D Z) (range : Range)
    (color preColor : Color) (atStart atEnd : Bool) :
    splice segs range color preColor lo hi atStart atEnd =
      some (K ++ (if atStart then [⟨range.start, color⟩] else []) ++
        (if atEnd then [⟨range.stop, preColor⟩] else []) ++ Z) := by
  unfold splice
  cases atStart <;> cases atEnd
  · simpa using h.close
  · obtain ⟨l, hl, hg⟩ := h.put ⟨range.stop, preColor⟩
    simpa [hl] using hg.close
  · obtain ⟨l, hl, hg⟩ := h.put ⟨range.start, color⟩
    simpa [hl] using hg.close
  · obtain ⟨l, hl, hg⟩ := h.put ⟨range.start, color⟩
    obtain ⟨l', hl', hg'⟩ := hg.put ⟨range.stop, preColor⟩
    simpa [hl, hl'] using hg'.close

end BufMap

end Dquic
