import Dquic.Lib.System
import Dquic.Recv.RecvBuf

/-!
# Reassembly

`RecvBuf` as a partial function from offsets to bytes: receiving a fragment fills in the offsets
not known yet, and reading takes the continuous data at the front.
-/

namespace Dquic

open Lib

namespace RecvBuf

/-- Stored fragments are non-empty, in order, disjoint and not read yet. -/
structure Wf (buf : RecvBuf) : Prop where
  apart : Apart buf.segments
  unread : ∀ s ∈ buf.segments, buf.nread ≤ s.offset
  largest : ∀ s ∈ buf.segments, s.stop ≤ buf.largestOffset
  nread_le : buf.nread ≤ buf.largestOffset
  largest_lt : buf.largestOffset < 2 ^ 64

lemma wf_empty : empty.Wf :=
  ⟨Apart.nil, by simp [empty], by simp [empty], le_rfl, by simp [empty]⟩

/-- `buf'` is `buf` with the offsets of the fragment `c` filled in. -/
structure Absorbs (buf buf' : RecvBuf) (c : Segment) : Prop where
  wf : buf'.Wf
  nread_eq : buf'.nread = buf.nread
  known : ∀ i, lookup buf'.segments i = (lookup buf.segments i).or (c.get i)
  largest_eq : buf'.largestOffset = if c.data = [] then buf.largestOffset else max buf.largestOffset c.stop

variable {buf buf₁ buf' : RecvBuf}

lemma Absorbs.refl (h : buf.Wf) (start : Nat) : Absorbs buf buf ⟨start, []⟩ :=
  ⟨h, rfl, fun i => by rw [Chunk.get_nil, Option.or_none], by simp⟩

variable {data out : Bytes} {k start offset n : Nat} {B l : List Segment} {seg : Segment}

/-- What a stored fragment covers is not filled in again. -/
lemma Absorbs.cover (h : buf.Wf) (hseg : seg ∈ buf.segments) (hoffset : seg.offset ≤ start) (hk : k ≤ seg.stop - start)
    (hlen : k ≤ data.length) (habs : Absorbs buf buf' ⟨start + k, data.drop k⟩) : Absorbs buf buf' ⟨start, data⟩ := by
  refine ⟨habs.wf, habs.nread_eq, fun i => ?_, ?_⟩
  · rw [habs.known i, Chunk.get_split start k data i, Chunk.get_take]
    by_cases hi : i < start + k
    · by_cases hs : start ≤ i
      · have hsome := lookup_isSome_of_mem hseg (hoffset.trans hs) (by omega)
        rw [Option.or_eq_left_of_isSome hsome, Option.or_eq_left_of_isSome hsome]
      · have hnone : (⟨start, data⟩ : Segment).get i = none :=
          (Chunk.get_eq_none_iff _ i).mpr (.inl (by change i < start; omega))
        rw [if_pos hi, hnone, Option.none_or]
    · rw [if_neg hi, Option.none_or]
  · have hlargest := h.largest seg hseg
    rw [habs.largest_eq]
    simp only [Chunk.stop, ← List.length_eq_zero_iff, List.length_drop] at hk hlargest ⊢
    split_ifs <;> omega

lemma Absorbs.trans (h₁ : Absorbs buf buf₁ ⟨start, data.take k⟩) (h₂ : Absorbs buf₁ buf' ⟨start + k, data.drop k⟩)
    (hpos : 0 < k) (hk : k ≤ data.length) : Absorbs buf buf' ⟨start, data⟩ := by
  refine ⟨h₂.wf, h₂.nread_eq.trans h₁.nread_eq, fun i => ?_, ?_⟩
  · rw [h₂.known i, h₁.known i, Option.or_assoc, ← Chunk.get_split]
  · rw [h₂.largest_eq, h₁.largest_eq]
    simp only [Chunk.stop, ← List.length_eq_zero_iff, List.length_drop, List.length_take]
    split_ifs <;> omega

/-- The previous fragment covers all, or what lies behind it is left. -/
lemma trimPrev_eq (seg : Segment) (hlt : start + data.length < 2 ^ 64) : trimPrev (some seg) start data =
    some (if start + data.length ≤ seg.stop then none
      else some (start + (seg.stop - start), data.drop (seg.stop - start))) := by
  simp only [trimPrev, checkedAdd_of_lt hlt, some_bind]
  split_ifs with hcov htrim
  · rfl
  · rw [Nat.add_sub_cancel' htrim.le]
  · rw [Nat.sub_eq_zero_of_le (not_lt.mp htrim), List.drop_zero, Nat.add_zero]

lemma splitNext_spec (hapart : Apart B) (hB : ∀ b ∈ B, start < b.offset) (hdata : data ≠ [])
    (hlt : start + data.length < 2 ^ 64) :
    ∃ k, 0 < k ∧ k ≤ data.length ∧ splitNext B.head? start data = some (data.take k, data.drop k) ∧
      ∀ b ∈ B, start + k ≤ b.offset := by
  have hpos := List.length_pos_iff.mpr hdata
  have hall : (data, []) = (data.take data.length, data.drop data.length) := by simp
  cases B with
  | nil => exact ⟨data.length, hpos, le_rfl, congrArg some hall, by simp⟩
  | cons next B =>
    have hnext := hB next (by simp)
    have hlow : ∀ b ∈ next :: B, next.offset ≤ b.offset := by
      intro b hb
      rcases List.mem_cons.mp hb with rfl | hb
      · exact le_rfl
      · exact ((List.pairwise_cons.mp hapart.increasing).1 b hb).le
    simp only [List.head?_cons, splitNext, checkedAdd_of_lt hlt, some_bind]
    by_cases hover : next.offset < start + data.length
    · rw [if_pos hover]
      refine ⟨next.offset - start, by omega, by omega, rfl, fun b hb => ?_⟩
      have := hlow b hb
      omega
    · rw [if_neg hover]
      refine ⟨data.length, hpos, le_rfl, congrArg some hall, fun b hb => ?_⟩
      have := hlow b hb
      omega

lemma store_absorbs (h : buf.Wf) {A : List Segment} {uncovered : Bytes} (hsegs : buf.segments = A ++ B)
    (hstart : buf.nread ≤ start) (hne : uncovered ≠ []) (hA : ∀ a ∈ A, a.stop ≤ start)
    (hB : ∀ b ∈ B, start + uncovered.length ≤ b.offset) (hlt : start + uncovered.length < 2 ^ 64) :
    ∃ buf₁, store buf A.length start uncovered = some buf₁ ∧ Absorbs buf buf₁ ⟨start, uncovered⟩ := by
  unfold store
  rw [checkedAdd_of_lt hlt, hsegs]
  simp only [some_bind, insertAt_append]
  refine ⟨_, rfl, ⟨?_, ?_, ?_, ?_, max_lt h.largest_lt hlt⟩, rfl, fun i => ?_, (if_neg hne).symm⟩
  · exact Apart.insert (hsegs ▸ h.apart) hne hA hB
  · intro s hs
    change buf.nread ≤ s.offset
    rcases List.mem_append.mp hs with hs | hs
    · exact h.unread s (by simp [hsegs, hs])
    · rcases List.mem_cons.mp hs with rfl | hs
      · exact hstart
      · exact h.unread s (by simp [hsegs, hs])
  · intro s hs
    change s.stop ≤ max buf.largestOffset (start + uncovered.length)
    rcases List.mem_append.mp hs with hs | hs
    · exact le_max_of_le_left (h.largest s (by simp [hsegs, hs]))
    · rcases List.mem_cons.mp hs with rfl | hs
      · exact le_max_right _ _
      · exact le_max_of_le_left (h.largest s (by simp [hsegs, hs]))
  · exact le_max_of_le_left h.nread_le
  · rw [hsegs]
    exact lookup_insert hB i

/-- What lies before the next fragment is stored. -/
lemma splitNext_store (h : buf.Wf) {A : List Segment} (hsegs : buf.segments = A ++ B) (hstart : buf.nread ≤ start)
    (hdata : data ≠ []) (hlt : start + data.length < 2 ^ 64) (hA : ∀ a ∈ A, a.stop ≤ start)
    (hB : ∀ b ∈ B, start < b.offset) :
    ∃ k buf₁, 0 < k ∧ k ≤ data.length ∧ (data.take k).length = k ∧
      splitNext B.head? start data = some (data.take k, data.drop k) ∧
      store buf A.length start (data.take k) = some buf₁ ∧ Absorbs buf buf₁ ⟨start, data.take k⟩ := by
  obtain ⟨k, hk, hkle, hsplit, hBk⟩ := splitNext_spec (Apart.right (hsegs ▸ h.apart)) hB hdata hlt
  have htake : (data.take k).length = k := by rw [List.length_take, min_eq_left hkle]
  have hne : data.take k ≠ [] := by
    rw [← List.length_pos_iff, htake]
    exact hk
  obtain ⟨buf₁, hstored, habs⟩ := store_absorbs h hsegs hstart hne hA (by rwa [htake]) (by rw [htake]; omega)
  exact ⟨k, buf₁, hk, hkle, htake, hsplit, hstored, habs⟩

/-- The loop goes on behind the first bytes of a fragment. -/
def GoesOn (fuel : Nat) (buf : RecvBuf) (start : Nat) (data : Bytes) : Prop :=
  ∀ (k : Nat) (buf₁ : RecvBuf), 0 < k → buf₁.Wf → buf₁.nread = buf.nread →
    ∃ buf', recvLoop fuel buf₁ (start + k) (data.drop k) = some buf' ∧ Absorbs buf₁ buf' ⟨start + k, data.drop k⟩

variable {fuel : Nat} {A : List Segment}

/-- What lies before the next fragment is stored, and the loop goes on. -/
lemma GoesOn.store (hrest : GoesOn fuel buf start data) (h : buf.Wf) (hsegs : buf.segments = A ++ B) {k : Nat}
    (hstart : buf.nread ≤ start + k) (hdata : data.drop k ≠ []) (hlt : start + k + (data.drop k).length < 2 ^ 64)
    (hA : ∀ a ∈ A, a.stop ≤ start + k) (hB : ∀ b ∈ B, start + k < b.offset) :
    ∃ buf', (splitNext B.head? (start + k) (data.drop k) >>= fun p => store buf A.length (start + k) p.1 >>=
        fun buf₁ => recvLoop fuel buf₁ (start + k + p.1.length) p.2) = some buf' ∧
      Absorbs buf buf' ⟨start + k, data.drop k⟩ := by
  obtain ⟨l, buf₁, hl, hlle, htake, hsplit, hstored, habs₁⟩ := splitNext_store h hsegs hstart hdata hlt hA hB
  obtain ⟨buf', hloop, habs₂⟩ := hrest (k + l) buf₁ (by omega) habs₁.wf habs₁.nread_eq
  rw [← Nat.add_assoc, ← List.drop_drop] at hloop habs₂
  refine ⟨buf', ?_, habs₁.trans habs₂ hl hlle⟩
  simp only [hsplit, some_bind, htake]
  exact Option.bind_eq_some_iff.mpr ⟨buf₁, hstored, hloop⟩

/-- The previous fragment ends inside the new one or before it. -/
lemma GoesOn.afterPrev (hrest : GoesOn fuel buf start data) (h : buf.Wf) {prev : Segment}
    (hsegs : buf.segments = A ++ [prev] ++ B) (hstart : buf.nread ≤ start) (hdata : data ≠ [])
    (hlt : start + data.length < 2 ^ 64) (hA : ∀ a ∈ A ++ [prev], a.offset < start) (hB : ∀ b ∈ B, start < b.offset)
    (hcov : ¬start + data.length ≤ prev.stop) :
    ∃ buf', (if B.head?.map Chunk.offset = some (start + (prev.stop - start)) then
        recvLoop fuel buf (start + (prev.stop - start)) (data.drop (prev.stop - start))
      else splitNext B.head? (start + (prev.stop - start)) (data.drop (prev.stop - start)) >>= fun p =>
        RecvBuf.store buf (A.length + 1) (start + (prev.stop - start)) p.1 >>=
          fun buf₁ => recvLoop fuel buf₁ (start + (prev.stop - start) + p.1.length) p.2) = some buf' ∧
      Absorbs buf buf' ⟨start + (prev.stop - start), data.drop (prev.stop - start)⟩ := by
  have hord := List.pairwise_append.mp (hsegs ▸ h.apart.ordered)
  set k := prev.stop - start with hk
  have hlen : (data.drop k).length = data.length - k := List.length_drop
  have hbehind : ∀ b ∈ B, start + k ≤ b.offset := by
    intro b hb
    have h₁ := hord.2.2 prev (by simp) b hb
    have h₂ := hB b hb
    omega
  by_cases hat : B.head?.map Chunk.offset = some (start + k)
  · -- the next fragment starts there, and so the previous one covers a part
    rw [if_pos hat]
    obtain ⟨next, hhead, hoff⟩ := Option.map_eq_some_iff.mp hat
    have hlater := hB next (List.mem_of_head? hhead)
    exact hrest k buf (by omega) h rfl
  · rw [if_neg hat]
    have hincB := (List.pairwise_append.mp (hsegs ▸ h.apart.increasing)).2.1
    have hBlt : ∀ b ∈ B, start + k < b.offset := by
      cases B with
      | nil => simp
      | cons next B =>
        have hnexto : next.offset ≠ start + k := by simpa using hat
        have hle := hbehind next (by simp)
        refine List.forall_mem_cons.mpr ⟨by omega, fun b hb => ?_⟩
        have := (List.pairwise_cons.mp hincB).1 b hb
        omega
    have hAk : ∀ a ∈ A ++ [prev], a.stop ≤ start + k := by
      refine List.forall_mem_append.mpr ⟨fun a ha => ?_, List.forall_mem_singleton.mpr (by omega)⟩
      have h₁ := (List.pairwise_append.mp hord.1).2.2 a ha prev (by simp)
      have h₂ := hA prev (by simp)
      omega
    have hne : data.drop k ≠ [] := by
      rw [← List.length_pos_iff] at hdata ⊢
      omega
    have hstored := hrest.store h hsegs (by omega) hne (by omega) hAk hBlt
    rwa [List.length_append, List.length_singleton] at hstored

/-- The loop of `recv` terminates and fills in the offsets of the fragment. -/
theorem recvLoop_absorbs (fuel : Nat) (buf : RecvBuf) (start : Nat) (data : Bytes) (h : buf.Wf)
    (hstart : buf.nread ≤ start) (hfuel : data.length < fuel)
    (hlt : data ≠ [] → start + data.length < 2 ^ 64) :
    ∃ buf', recvLoop fuel buf start data = some buf' ∧ Absorbs buf buf' ⟨start, data⟩ := by
  induction fuel generalizing buf start data with
  | zero => simp at hfuel
  | succ fuel ih =>
    by_cases hdata : data = []
    · subst hdata
      exact ⟨buf, by simp [recvLoop], Absorbs.refl h start⟩
    have hempty : data.isEmpty = false := by simpa using hdata
    have hpos := List.length_pos_iff.mpr hdata
    replace hlt := hlt hdata
    have hrest : GoesOn fuel buf start data := by
      intro k buf₁ hk hwf hnread
      apply ih buf₁ (start + k) (data.drop k) hwf
      · omega
      · rw [List.length_drop]
        omega
      · intro hne
        have hlen := List.length_pos_iff.mpr hne
        rw [List.length_drop] at hlen ⊢
        omega
    unfold recvLoop
    rw [hempty]
    simp only [Bool.false_eq_true, if_false]
    cases hsearch : binarySearchBy Chunk.offset buf.segments start with
    | ok i =>
      obtain ⟨A, x, B, hsegs, rfl, hx, -, -⟩ := binarySearchBy_ok _ h.apart.increasing hsearch
      have hget : buf.segments[A.length]? = some x := by simp [hsegs]
      have hmem : x ∈ buf.segments := by simp [hsegs]
      have hxpos := List.length_pos_iff.mpr (h.apart.nonempty x hmem)
      set k := min data.length x.data.length with hk
      obtain ⟨buf', hloop, habs⟩ := hrest k buf (by omega) h rfl
      refine ⟨buf', ?_, habs.cover h hmem hx.le ?_ (min_le_left _ _)⟩
      · simp only [hget, some_bind, ← hk, hloop]
      · unfold Chunk.stop
        omega
    | error i =>
      obtain ⟨A, B, hsegs, rfl, hA, hB⟩ := binarySearchBy_error _ h.apart.increasing hsearch
      rcases List.eq_nil_or_concat A with rfl | ⟨A', prev, rfl⟩
      · have hstored := hrest.store h hsegs (k := 0) hstart hdata hlt (by simp) hB
        rw [List.nil_append] at hsegs
        simp only [List.length_nil, hsegs]
        exact hstored
      · rw [List.concat_eq_append] at *
        have hmem : prev ∈ buf.segments := by simp [hsegs]
        have hprevlt := hA prev (by simp)
        have hprev : buf.segments[A'.length]? = some prev := by simp [hsegs]
        have hnext : buf.segments[A'.length + 1]? = B.head? := by
          rw [hsegs, List.getElem?_append_right (by simp), List.head?_eq_getElem?]
          simp
        simp only [List.length_append, List.length_singleton, hprev, trimPrev_eq prev hlt, some_bind, hnext]
        by_cases hcov : start + data.length ≤ prev.stop
        · rw [if_pos hcov]
          refine ⟨buf, rfl, Absorbs.cover (k := data.length) h hmem hprevlt.le (by omega) le_rfl ?_⟩
          rw [List.drop_length]
          exact Absorbs.refl h _
        · rw [if_neg hcov]
          obtain ⟨buf', hloop, habs⟩ := hrest.afterPrev h hsegs hstart hdata hlt hA hB hcov
          exact ⟨buf', hloop, habs.cover h hmem hprevlt.le le_rfl (by omega)⟩

/-- Receiving a fragment fills in its offsets that are not read yet. -/
theorem Wf.recv_absorbs (h : buf.Wf) (hlt : data ≠ [] → offset + data.length < 2 ^ 64) :
    ∃ buf', buf.recv offset data = some (buf'.largestOffset - buf.largestOffset, buf') ∧ buf'.Wf ∧
      buf'.nread = buf.nread ∧
      (∀ i, lookup buf'.segments i =
        (lookup buf.segments i).or (if buf.nread ≤ i then (⟨offset, data⟩ : Segment).get i else none)) ∧
      buf'.largestOffset = if data = [] then buf.largestOffset else max buf.largestOffset (offset + data.length) := by
  set start := max offset buf.nread with hstart
  set k := min data.length (start - offset) with hk
  have hlen : (data.drop k).length = data.length - k := List.length_drop
  have hdata : data.drop k ≠ [] → data ≠ [] ∧ offset + k = start := by
    intro hne
    rw [Ne, List.drop_eq_nil_iff] at hne
    refine ⟨fun hnil => by simp [hnil] at hne, ?_⟩
    omega
  obtain ⟨buf', hloop, habs⟩ := recvLoop_absorbs ((data.drop k).length + 1) buf start (data.drop k) h
    (le_max_right _ _) (Nat.lt_succ_self _) (fun hne => by
      obtain ⟨hne', hsum⟩ := hdata hne
      have := hlt hne'
      omega)
  refine ⟨buf', ?_, habs.wf, habs.nread_eq, fun i => ?_, ?_⟩
  · simp only [recv, ← hstart, ← hk, hloop, some_bind]
  · rw [habs.known i]
    congr 1
    by_cases hshort : data.length < start - offset
    · -- everything was read before
      have hnil : data.drop k = [] := List.drop_eq_nil_iff.mpr (by omega)
      rw [hnil, Chunk.get_nil]
      by_cases hi : buf.nread ≤ i
      · rw [if_pos hi]
        refine ((Chunk.get_eq_none_iff _ i).mpr (.inr ?_)).symm
        change offset + data.length ≤ i
        omega
      · rw [if_neg hi]
    · have hsum : start = offset + k := by omega
      rw [hsum, Chunk.get_drop]
      by_cases hi : buf.nread ≤ i
      · rw [if_pos hi]
        by_cases hoff : offset ≤ i
        · rw [if_pos (by omega)]
        · rw [if_neg (by omega)]
          exact ((Chunk.get_eq_none_iff _ i).mpr (.inl (by change i < offset; omega))).symm
      · rw [if_neg hi, if_neg (by omega)]
  · rw [habs.largest_eq]
    change (if data.drop k = [] then _ else max _ (start + (data.drop k).length)) = _
    by_cases hne : data.drop k = []
    · rw [if_pos hne]
      by_cases hd : data = []
      · rw [if_pos hd]
      · have hread := h.nread_le
        have hle : data.length ≤ k := List.drop_eq_nil_iff.mp hne
        have hpos := List.length_pos_iff.mpr hd
        rw [if_neg hd, max_eq_left (by omega)]
    · obtain ⟨hd, hsum⟩ := hdata hne
      rw [if_neg hne, if_neg hd, hlen]
      congr 1
      omega

/-- A fragment that ends beyond the last `u64` makes the loop panic. -/
theorem recvLoop_overflow (fuel : Nat) (buf : RecvBuf) (start : Nat) (data : Bytes) (h : buf.Wf)
    (hdata : data ≠ []) (hover : 2 ^ 64 ≤ start + data.length) : recvLoop fuel buf start data = none := by
  induction fuel generalizing start data with
  | zero => rfl
  | succ fuel ih =>
    have hempty : data.isEmpty = false := by simpa using hdata
    have hadd : checkedAdd start data.length = none := if_neg (by omega)
    unfold recvLoop
    rw [hempty]
    simp only [Bool.false_eq_true, if_false]
    cases hsearch : binarySearchBy Chunk.offset buf.segments start with
    | ok i =>
      obtain ⟨A, x, B, hsegs, rfl, hx, -, -⟩ := binarySearchBy_ok _ h.apart.increasing hsearch
      have hget : buf.segments[A.length]? = some x := by simp [hsegs]
      have hstop := h.largest x (by simp [hsegs])
      have hlt := h.largest_lt
      have hmin : min data.length x.data.length = x.data.length := by
        unfold Chunk.stop at hstop
        omega
      have hlen : (data.drop x.data.length).length = data.length - x.data.length := List.length_drop
      unfold Chunk.stop at hstop
      simp only [hget, some_bind, hmin]
      refine ih (start + x.data.length) (data.drop x.data.length) ?_ (by omega)
      rw [Ne, List.drop_eq_nil_iff]
      omega
    | error i =>
      obtain ⟨A, B, hsegs, hi, -, -⟩ := binarySearchBy_error _ h.apart.increasing hsearch
      cases i with
      | zero =>
        cases hhead : buf.segments.head? with
        | none => simp [splitNext, store, hadd]
        | some next => simp [splitNext, hadd]
      | succ i =>
        have hget : ∃ prev, buf.segments[i]? = some prev := by
          refine ⟨_, List.getElem?_eq_getElem ?_⟩
          rw [hsegs, List.length_append]
          omega
        obtain ⟨prev, hprev⟩ := hget
        simp [hprev, trimPrev, hadd]

lemma Wf.recv_overflow (h : buf.Wf) (hdata : data ≠ []) (hover : 2 ^ 64 ≤ offset + data.length) :
    buf.recv offset data = none := by
  have hread := h.nread_le
  have hlt := h.largest_lt
  have hpos := List.length_pos_iff.mpr hdata
  set k := min data.length (max offset buf.nread - offset) with hk
  have hlen : (data.drop k).length = data.length - k := List.length_drop
  have hloop := recvLoop_overflow ((data.drop k).length + 1) buf (max offset buf.nread) (data.drop k) h
    (by rw [Ne, List.drop_eq_nil_iff]; omega) (by omega)
  simp only [recv, ← hk, hloop, Option.bind_eq_bind, Option.bind_none]

/-! ### Reading -/

/-- What taking the bytes `out` off the front of `l`, read up to `n`, leaves in `l'`. -/
structure Takes (n : Nat) (l : List Segment) (out : Bytes) (l' : List Segment) : Prop where
  apart : Apart l'
  unread : ∀ s ∈ l', n + out.length ≤ s.offset
  stops : ∀ s' ∈ l', ∃ s ∈ l, s'.stop = s.stop
  known : ∀ j < out.length, lookup l (n + j) = out[j]?
  rest : ∀ i, n + out.length ≤ i → lookup l' i = lookup l i

lemma Takes.nothing (hl : Apart l) (hn : ∀ s ∈ l, n ≤ s.offset) : Takes n l [] l :=
  ⟨hl, hn, fun s hs => ⟨s, hs, rfl⟩, by simp, fun _ _ => rfl⟩

lemma Takes.pop {l' : List Segment} (h : Takes (seg.offset + seg.data.length) l out l') :
    Takes seg.offset (seg :: l) (seg.data ++ out) l' := by
  have hlen : seg.offset + (seg.data ++ out).length = seg.offset + seg.data.length + out.length := by
    rw [List.length_append]
    omega
  refine ⟨h.apart, fun s hs => hlen ▸ h.unread s hs, fun s hs => ?_, fun j hj => ?_, fun i hi => ?_⟩
  · obtain ⟨t, ht, hst⟩ := h.stops s hs
    exact ⟨t, by simp [ht], hst⟩
  · rw [List.length_append] at hj
    rw [lookup_cons, List.getElem?_append]
    by_cases hj' : j < seg.data.length
    · have hget : seg.get (seg.offset + j) = some seg.data[j] := by
        rw [Chunk.get, if_pos (by omega), Nat.add_sub_cancel_left, List.getElem?_eq_getElem hj']
      rw [if_pos hj', hget, Option.some_or, List.getElem?_eq_getElem hj']
    · have hget : seg.get (seg.offset + j) = none := by
        rw [Chunk.get_eq_none_iff, Chunk.stop]
        omega
      have hidx : seg.offset + seg.data.length + (j - seg.data.length) = seg.offset + j := by omega
      rw [if_neg hj', hget, Option.none_or, ← h.known (j - seg.data.length) (by omega), hidx]
  · rw [hlen] at hi
    have hget : seg.get i = none := by
      rw [Chunk.get_eq_none_iff, Chunk.stop]
      omega
    rw [lookup_cons, hget, Option.none_or, h.rest i hi]

lemma Takes.part {room : Nat} (hl : Apart (seg :: l)) (hroom : room < seg.data.length) :
    Takes seg.offset (seg :: l) (seg.data.take room) (⟨seg.offset + room, seg.data.drop room⟩ :: l) := by
  have hlen : (seg.data.take room).length = room := by rw [List.length_take, min_eq_left hroom.le]
  have hstop : (⟨seg.offset + room, seg.data.drop room⟩ : Segment).stop = seg.stop := by
    unfold Chunk.stop
    rw [List.length_drop]
    change seg.offset + room + (seg.data.length - room) = seg.offset + seg.data.length
    omega
  have hord := List.pairwise_cons.mp hl.ordered
  refine ⟨⟨List.pairwise_cons.mpr ⟨fun s hs => hstop ▸ hord.1 s hs, hord.2⟩, fun s hs => ?_⟩, fun s hs => ?_,
    fun s hs => ?_, fun j hj => ?_, fun i hi => ?_⟩
  · rcases List.mem_cons.mp hs with rfl | hs
    · rw [Ne, List.drop_eq_nil_iff]
      omega
    · exact hl.nonempty s (by simp [hs])
  · rw [hlen]
    rcases List.mem_cons.mp hs with rfl | hs
    · exact le_rfl
    · have := hord.1 s hs
      unfold Chunk.stop at this
      omega
  · rcases List.mem_cons.mp hs with rfl | hs
    · exact ⟨seg, by simp, hstop⟩
    · exact ⟨s, by simp [hs], rfl⟩
  · rw [hlen] at hj
    have hjd : j < seg.data.length := by omega
    have hget : seg.get (seg.offset + j) = some seg.data[j] := by
      rw [Chunk.get, if_pos (by omega), Nat.add_sub_cancel_left, List.getElem?_eq_getElem hjd]
    rw [lookup_cons, hget, Option.some_or, List.getElem?_take, if_pos hj, List.getElem?_eq_getElem hjd]
  · rw [hlen] at hi
    rw [lookup_cons, lookup_cons, Chunk.get_drop, if_pos hi]

lemma continuousEnd_le {m : Nat} (hn : n ≤ m) (hl : ∀ s ∈ l, s.stop ≤ m) : continuousEnd n l ≤ m := by
  induction l generalizing n with
  | nil => exact hn
  | cons seg l ih =>
    unfold continuousEnd
    split
    · rename_i hoff
      have hseg := hl seg (by simp)
      unfold Chunk.stop at hseg
      exact ih (by omega) (fun s hs => hl s (by simp [hs]))
    · exact hn

lemma le_continuousEnd (n : Nat) (l : List Segment) : n ≤ continuousEnd n l := by
  induction l generalizing n with
  | nil => exact le_rfl
  | cons seg l ih =>
    unfold continuousEnd
    split
    · exact (Nat.le_add_right _ _).trans (ih _)
    · exact le_rfl

/-- `try_read` takes as much of the continuous data as fits. -/
theorem readLoop_takes (n room : Nat) (l : List Segment) (hl : Apart l) (hn : ∀ s ∈ l, n ≤ s.offset) :
    (readLoop n room l).2.1 = n + (readLoop n room l).1.length ∧
    (readLoop n room l).1.length = min room (continuousEnd n l - n) ∧
    Takes n l (readLoop n room l).1 (readLoop n room l).2.2 := by
  induction l generalizing n room with
  | nil => exact ⟨rfl, by simp [readLoop, continuousEnd], Takes.nothing hl hn⟩
  | cons seg l ih =>
    unfold readLoop continuousEnd
    by_cases hstop : seg.offset ≠ n ∨ room = 0
    · rw [if_pos hstop]
      refine ⟨rfl, ?_, Takes.nothing hl hn⟩
      rcases hstop with hne | rfl
      · rw [if_neg hne, Nat.sub_self, Nat.min_zero]
        rfl
      · rw [Nat.zero_min]
        rfl
    · push Not at hstop
      obtain ⟨rfl, hroom⟩ := hstop
      rw [if_neg (by simp [hroom]), if_pos rfl]
      have hord := List.pairwise_cons.mp hl.ordered
      have hle := le_continuousEnd (seg.offset + seg.data.length) l
      by_cases hfull : room < seg.data.length
      · have hlen : (seg.data.take room).length = room := by rw [List.length_take, min_eq_left hfull.le]
        rw [if_pos hfull]
        refine ⟨by rw [hlen], ?_, Takes.part hl hfull⟩
        rw [hlen]
        omega
      · rw [if_neg hfull]
        obtain ⟨hnread, hlen, htakes⟩ := ih (seg.offset + seg.data.length) (room - seg.data.length)
          ⟨hord.2, fun s hs => hl.nonempty s (by simp [hs])⟩ hord.1
        refine ⟨?_, ?_, htakes.pop⟩
        · change (readLoop _ _ l).2.1 = _
          rw [hnread, List.length_append]
          omega
        · rw [List.length_append, hlen]
          omega

/-- The continuous data ends at the first offset that is not known. -/
theorem lookup_continuousEnd (n : Nat) (l : List Segment) (hl : Apart l) (hn : ∀ s ∈ l, n ≤ s.offset) :
    (∀ i, n ≤ i → i < continuousEnd n l → (lookup l i).isSome) ∧ lookup l (continuousEnd n l) = none := by
  induction l generalizing n with
  | nil => exact ⟨fun i h₁ h₂ => absurd h₂ (by simpa [continuousEnd] using h₁), rfl⟩
  | cons seg l ih =>
    have hord := List.pairwise_cons.mp hl.ordered
    have hle := le_continuousEnd (seg.offset + seg.data.length) l
    obtain ⟨hsome, hnone⟩ := ih (seg.offset + seg.data.length) ⟨hord.2, fun s hs => hl.nonempty s (by simp [hs])⟩
      hord.1
    unfold continuousEnd
    by_cases heq : seg.offset = n
    · subst heq
      rw [if_pos rfl]
      refine ⟨fun i h₁ h₂ => ?_, ?_⟩
      · by_cases hi : i < seg.stop
        · exact lookup_isSome_of_mem (by simp) h₁ hi
        · unfold Chunk.stop at hi
          rw [lookup_cons, Option.isSome_or, hsome i (by omega) h₂, Bool.or_true]
      · have hget : seg.get (continuousEnd (seg.offset + seg.data.length) l) = none := by
          rw [Chunk.get_eq_none_iff, Chunk.stop]
          omega
        rw [lookup_cons, hget, hnone]
        rfl
    · rw [if_neg heq]
      refine ⟨fun i h₁ h₂ => by omega, lookup_eq_none fun s hs => (s.get_eq_none_iff n).mpr (.inl ?_)⟩
      have hseg := hn seg (by simp)
      rcases List.mem_cons.mp hs with rfl | hs
      · omega
      · have h₁ := hord.1 s hs
        unfold Chunk.stop at h₁
        omega

lemma Wf.takes (h : buf.Wf) {segments : List Segment} (ht : Takes buf.nread buf.segments out segments)
    (hn : n = buf.nread + out.length) : Wf { buf with nread := n, segments := segments } := by
  refine ⟨ht.apart, fun s hs => hn ▸ ht.unread s hs, fun s hs => ?_, ?_, h.largest_lt⟩
  · obtain ⟨t, hmem, hst⟩ := ht.stops s hs
    exact hst ▸ h.largest t hmem
  · change n ≤ buf.largestOffset
    by_cases hout : out.length = 0
    · rw [hn, hout]
      exact h.nread_le
    · -- the last byte taken lies in a stored fragment
      have hlast := ht.known (out.length - 1) (by omega)
      rw [List.getElem?_eq_getElem (by omega)] at hlast
      obtain ⟨c, hc, hget⟩ := List.exists_of_findSome?_eq_some hlast
      have hin : ¬(buf.nread + (out.length - 1) < c.offset ∨ c.stop ≤ buf.nread + (out.length - 1)) :=
        fun hout' => by simp [(c.get_eq_none_iff _).mpr hout'] at hget
      have := h.largest c hc
      omega

/-- `try_read` returns as much of the continuous data as fits into the destination. -/
theorem Wf.tryRead_takes (h : buf.Wf) (room : Nat) :
    (buf.tryRead room).1.length = min room buf.available ∧
    (buf.tryRead room).2.nread = buf.nread + (buf.tryRead room).1.length ∧
    (buf.tryRead room).2.largestOffset = buf.largestOffset ∧ (buf.tryRead room).2.Wf ∧
    Takes buf.nread buf.segments (buf.tryRead room).1 (buf.tryRead room).2.segments := by
  obtain ⟨hnread, hlen, htakes⟩ := readLoop_takes buf.nread room buf.segments h.apart h.unread
  exact ⟨hlen, hnread, rfl, h.takes htakes hnread, htakes⟩

/-- `try_next` returns the first fragment when it continues what was read. -/
theorem Wf.tryNext_takes (h : buf.Wf) :
    (∃ d, buf.tryNext.1 = some d ∧ d ≠ [] ∧ d.length ≤ buf.available ∧ buf.tryNext.2.Wf ∧
      buf.tryNext.2.nread = buf.nread + d.length ∧ buf.tryNext.2.largestOffset = buf.largestOffset ∧
      Takes buf.nread buf.segments d buf.tryNext.2.segments) ∨
    (buf.tryNext = (none, buf) ∧ buf.available = 0) := by
  obtain ⟨nread, largest, segments⟩ := buf
  unfold tryNext available
  cases segments with
  | nil => exact .inr ⟨rfl, by simp [continuousEnd]⟩
  | cons seg rest =>
    simp only
    by_cases heq : seg.offset = nread
    · subst heq
      rw [if_pos rfl]
      have hord := List.pairwise_cons.mp h.apart.ordered
      have htakes : Takes seg.offset (seg :: rest) seg.data rest := by
        have hrest : Takes (seg.offset + seg.data.length) rest [] rest :=
          Takes.nothing ⟨hord.2, fun s hs => h.apart.nonempty s (by simp [hs])⟩ hord.1
        have hpop := hrest.pop
        rwa [List.append_nil] at hpop
      refine .inl ⟨seg.data, rfl, h.apart.nonempty seg (by simp), ?_, h.takes htakes rfl, rfl, rfl, htakes⟩
      rw [continuousEnd, if_pos rfl]
      have := le_continuousEnd (seg.offset + seg.data.length) rest
      omega
    · rw [if_neg heq]
      exact .inr ⟨rfl, by rw [continuousEnd, if_neg heq, Nat.sub_self]⟩

/-! ### What a read leaves -/

lemma continuousEnd_unique {m : Nat} (hl : Apart l) (hn : ∀ s ∈ l, n ≤ s.offset) (hle : n ≤ m)
    (hsome : ∀ i, n ≤ i → i < m → (lookup l i).isSome) (hnone : lookup l m = none) : continuousEnd n l = m := by
  obtain ⟨hbelow, hstop⟩ := lookup_continuousEnd n l hl hn
  have hge := le_continuousEnd n l
  rcases Nat.lt_trichotomy (continuousEnd n l) m with hlt | heq | hgt
  · have hin := hsome _ hge hlt
    rw [hstop] at hin
    cases hin
  · exact heq
  · have hin := hbelow m hle hgt
    rw [hnone] at hin
    cases hin

def reach (buf : RecvBuf) : Nat := continuousEnd buf.nread buf.segments

lemma nread_add_available (buf : RecvBuf) : buf.nread + buf.available = buf.reach := by
  have hle := le_continuousEnd buf.nread buf.segments
  unfold available reach
  omega

lemma Wf.reach_le (h : buf.Wf) : buf.reach ≤ buf.largestOffset := continuousEnd_le h.nread_le h.largest

lemma Wf.lookup_reach (h : buf.Wf) :
    (∀ i, buf.nread ≤ i → i < buf.reach → (lookup buf.segments i).isSome) ∧ lookup buf.segments buf.reach = none :=
  lookup_continuousEnd buf.nread buf.segments h.apart h.unread

/-- `buf'` is `buf` after `out` was read. -/
structure Reads (buf : RecvBuf) (out : Bytes) (buf' : RecvBuf) : Prop where
  wf : buf'.Wf
  nread : buf'.nread = buf.nread + out.length
  largest : buf'.largestOffset = buf.largestOffset
  takes : Takes buf.nread buf.segments out buf'.segments
  reach : buf'.reach = buf.reach

lemma Wf.reads (h : buf.Wf) (hwf : buf'.Wf) (hnread : buf'.nread = buf.nread + out.length)
    (hlargest : buf'.largestOffset = buf.largestOffset) (htakes : Takes buf.nread buf.segments out buf'.segments)
    (hlen : out.length ≤ buf.available) : buf.Reads out buf' := by
  obtain ⟨hbelow, hstop⟩ := h.lookup_reach
  have hreach := buf.nread_add_available
  refine ⟨hwf, hnread, hlargest, htakes, ?_⟩
  apply continuousEnd_unique hwf.apart hwf.unread
  · omega
  · intro i hi hlt
    rw [htakes.rest i (by omega)]
    exact hbelow i (by omega) hlt
  · rw [htakes.rest _ (by omega)]
    exact hstop

lemma Wf.tryRead_reads (h : buf.Wf) (room : Nat) : buf.Reads (buf.tryRead room).1 (buf.tryRead room).2 := by
  obtain ⟨hlen, hnread, hlargest, hwf, htakes⟩ := h.tryRead_takes room
  exact h.reads hwf hnread hlargest htakes (hlen ▸ min_le_right _ _)

lemma Wf.tryNext_reads (h : buf.Wf) : buf.Reads (buf.tryNext.1.getD []) buf.tryNext.2 := by
  rcases h.tryNext_takes with ⟨d, hd, -, hlen, hwf, hnread, hlargest, htakes⟩ | ⟨hnone, -⟩
  · rw [hd]
    exact h.reads hwf hnread hlargest htakes hlen
  · rw [hnone]
    exact ⟨h, rfl, rfl, Takes.nothing h.apart h.unread, rfl⟩

lemma Wf.available_pos (h : buf.Wf) (hread : buf.isReadable = true) : 0 < buf.available := by
  have hhead := of_decide_eq_true hread
  obtain ⟨seg, hseg, hoffset⟩ := Option.map_eq_some_iff.mp hhead
  obtain ⟨rest, hsegments⟩ := List.head?_eq_some_iff.mp hseg
  have hpos := List.length_pos_iff.mpr (h.apart.nonempty seg (by simp [hsegments]))
  unfold available
  rw [hsegments, continuousEnd, if_pos hoffset]
  have hle := le_continuousEnd (buf.nread + seg.data.length) rest
  omega

/-- A buffer with data gives some to a destination with room. -/
lemma Wf.tryRead_ne_nil (h : buf.Wf) (hread : buf.isReadable = true) {room : Nat} (hroom : 0 < room) :
    (buf.tryRead room).1 ≠ [] := by
  intro hnil
  have hlen := (h.tryRead_takes room).1
  have havail := h.available_pos hread
  rw [hnil, List.length_nil] at hlen
  omega

end RecvBuf

end Dquic
