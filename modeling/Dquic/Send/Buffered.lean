import Dquic.Send.SendBuf

/-!
# What a send buffer holds

The invariant of `SendBuf` with respect to the bytes written to it, and what each of its
operations does to the colours of these bytes.
-/

namespace Dquic

open Lib

namespace BufMap

/-- No state at the very end of the map. Only a frame without data puts one there. -/
def Strict (m : BufMap) : Prop := ∀ s ∈ m.segs, s.offset < m.size

variable {m m' : BufMap} {range : Range} {c : Color} {pos : Nat}

lemma Repaint.strict {f : Color → Color} (h : Repaint m m' range f) (hm : m.Strict) (hr : range.start < m.size) :
    m'.Strict := by
  intro s hs
  rw [h.size_eq]
  rcases h.offsets s hs with ⟨t, ht, hts⟩ | hs | ⟨hs, hlt⟩
  · exact hts ▸ hm t ht
  · exact hs ▸ hr
  · exact hs ▸ hlt

lemma Picked.strict (h : Picked m m' range c) (hm : m.Strict) : m'.Strict := by
  intro s hs
  rw [h.size_eq]
  rcases h.offsets s hs with ⟨t, ht, hts⟩ | hlt
  · exact hts ▸ hm t ht
  · exact hlt

lemma Picked.start_lt (h : Picked m m' range c) (hm : m.Strict) : range.start < range.stop := by
  obtain ⟨s, hs, hstart⟩ := h.start_mem
  have hlt := hm s hs
  have hne := h.sentIn.nonempty
  rw [h.size_eq] at hne
  omega

lemma Picked.sent_le (h : Picked m m' range c) : m.sent ≤ m'.sent := by
  rw [h.sent_eq]
  have hle := h.sentIn.le
  rcases h.place with ⟨rfl, hstart⟩ | ⟨rfl, -⟩
  · rw [if_pos rfl]
    omega
  · simp

/-- `m'` is `m` with pending bytes up to `pos` added. -/
structure Extended (m m' : BufMap) (pos : Nat) : Prop where
  wf : m'.Wf
  size_le : m.size ≤ pos
  size_eq : m'.size = pos
  sent_eq : m'.sent = m.sent
  color : ∀ b < m.size, m'.colorAt b = m.colorAt b
  fresh : ∀ b, m.size ≤ b → b < pos → m'.colorAt b = .pending
  strict : m.Strict → m'.Strict

lemma extendTo_eq_none (m : BufMap) (h : 2 ^ 62 ≤ pos) : m.extendTo pos = none := by
  have hpos : debugAssert (pos < 2 ^ 62) = none := if_neg (by omega)
  rw [extendTo, hpos]
  rfl

/-- The map grows by a new pending interval, where it does not end in one. -/
lemma Wf.extended_push {segs : List State} {size : Nat} (hm : Wf ⟨segs, size⟩) (hpos : pos < 2 ^ 62) (hlt : size < pos)
    (hstrict : ∀ s ∈ segs, s.offset < size) (hnp : ∀ s ∈ segs, s.color ≠ .pending) :
    Extended ⟨segs, size⟩ ⟨segs ++ [⟨size, .pending⟩], pos⟩ pos := by
  have hsent : sent ⟨segs ++ [⟨size, .pending⟩], pos⟩ = size := by rw [sent_concat, if_pos rfl]
  refine ⟨⟨?_, ?_, hpos, fun s hs hp => ?_⟩, hlt.le, rfl, ?_, fun b hb => ?_, fun b hb _ => ?_, fun _ => ?_⟩
  · refine List.pairwise_append.mpr ⟨hm.increasing, List.pairwise_singleton _ _, fun s hs t ht => ?_⟩
    rw [List.mem_singleton.mp ht]
    exact hstrict s hs
  · exact List.forall_mem_append.mpr ⟨fun s hs => (hm.bounded s hs).trans hlt.le, List.forall_mem_singleton.mpr hlt.le⟩
  · rcases List.mem_append.mp hs with hs | hs
    · exact absurd hp (hnp s hs)
    · rw [hsent, List.mem_singleton.mp hs]
      exact ⟨rfl, hlt⟩
  · rw [hsent, sent_of_not_pending hnp]
  · have hb' : ¬size ≤ b := not_le.mpr hb
    unfold colorAt
    rw [paintAt_append, paintAt_cons, if_neg hb', paintAt_nil]
  · unfold colorAt
    rw [paintAt_append, paintAt_cons, if_pos hb, paintAt_nil]
  · exact List.forall_mem_append.mpr ⟨fun s hs => (hm.bounded s hs).trans_lt hlt, List.forall_mem_singleton.mpr hlt⟩

/-- The pending interval at the end of the map grows. -/
lemma Wf.extended_grow {K : List State} {s : State} {size : Nat} (hm : Wf ⟨K ++ [s], size⟩) (hpos : pos < 2 ^ 62)
    (hlt : size < pos) (hs : s.color = .pending) : Extended ⟨K ++ [s], size⟩ ⟨K ++ [s], pos⟩ pos := by
  have hsent : ∀ n, sent ⟨K ++ [s], n⟩ = s.offset := fun n => by rw [sent_concat, if_pos hs]
  refine ⟨⟨hm.increasing, fun t ht => (hm.bounded t ht).trans hlt.le, hpos, fun t ht hp => ?_⟩, hlt.le, rfl, ?_,
    fun b _ => rfl, fun b hb _ => ?_, fun _ t ht => (hm.bounded t ht).trans_lt hlt⟩
  · obtain ⟨ht, hlt'⟩ := hm.pending t ht hp
    rw [hsent] at ht ⊢
    exact ⟨ht, hlt'.trans hlt⟩
  · rw [hsent, hsent]
  · unfold colorAt
    rw [paintAt_of_le (fun t ht => (hm.bounded t ht).trans hb), lastColor_append]
    exact hs

theorem Wf.extendTo_extended (hm : m.Wf) (hpos : pos < 2 ^ 62) (hle : m.size ≤ pos) (hstrict : m.size < pos → m.Strict) :
    ∃ m', m.extendTo pos = some m' ∧ Extended m m' pos := by
  obtain ⟨segs, size⟩ := m
  change size ≤ pos at hle
  change size < pos → _ at hstrict
  unfold extendTo
  simp only [debugAssert_of hpos, debugAssert_of hle, some_bind]
  by_cases hlt : size < pos
  · rw [if_pos hlt]
    rcases List.eq_nil_or_concat segs with rfl | ⟨K, s, rfl⟩
    · exact ⟨_, rfl, hm.extended_push hpos hlt (hstrict hlt) (List.forall_mem_nil _)⟩
    · rw [List.concat_eq_append] at *
      simp only [List.getLast?_append, List.getLast?_singleton, Option.some_or]
      by_cases hs : s.color = .pending
      · rw [if_pos hs]
        exact ⟨_, rfl, hm.extended_grow hpos hlt hs⟩
      · rw [if_neg hs]
        have hnp := List.forall_mem_append.mpr ⟨(hm.split_sent (A := K) (B := []) rfl).1, List.forall_mem_singleton.mpr hs⟩
        exact ⟨_, rfl, hm.extended_push hpos hlt (hstrict hlt) hnp⟩
  · obtain rfl : size = pos := by omega
    rw [if_neg hlt]
    exact ⟨_, rfl, hm, le_rfl, rfl, rfl, fun b _ => rfl, fun b h₁ h₂ => absurd h₂ (by change size ≤ b at h₁; omega), id⟩

/-- `shift` forgets the acknowledged prefix and finds where it ends. -/
theorem Wf.shift_spec (hm : m.Wf) : (m.shift.2).Wf ∧ m.shift.2.size = m.size ∧
    m.shift.2.sent = m.sent ∧ (∀ b, m.shift.2.colorAt b = m.colorAt b) ∧ (m.Strict → m.shift.2.Strict) ∧
    m.shift.1 ≤ m.size ∧ (∀ b < m.shift.1, m.colorAt b = .recved) ∧
    (m.shift.1 < m.size → m.colorAt m.shift.1 ≠ .recved) := by
  obtain ⟨segs, size⟩ := m
  set rest := segs.dropWhile (fun s => s.color = .recved) with hrest
  set R := segs.takeWhile (fun s => s.color = .recved) with hR
  have hsplit : segs = R ++ rest := List.takeWhile_append_dropWhile.symm
  have hRcol : ∀ s ∈ R, s.color = .recved := fun s hs => by simpa using List.mem_takeWhile_imp hs
  have hinc := hm.increasing
  have hsub : ∀ s ∈ rest, s ∈ segs := fun s hs => by rw [hsplit]; exact List.mem_append_right _ hs
  have hcol : ∀ b, paintAt .recved segs b = paintAt .recved rest b := by
    intro b
    rw [hsplit, paintAt_append, paintAt_of_const hRcol]
  have hhead : ∀ s ∈ rest.head?, s.color ≠ .recved := by
    intro s hs
    have hnot := List.head?_dropWhile_not (fun s : State => decide (s.color = .recved)) segs
    rw [← hrest, Option.mem_def.mp hs] at hnot
    simpa using hnot
  have hsent : sent ⟨rest, size⟩ = sent ⟨segs, size⟩ := by
    rcases List.eq_nil_or_concat rest with hnil | ⟨K, s, hK⟩
    · have hrecved : ∀ s ∈ segs, s.color = .recved := by
        rw [hsplit, hnil, List.append_nil]
        exact hRcol
      have hold : sent ⟨segs, size⟩ = size := sent_of_not_pending (fun s hs => by simp [hrecved s hs])
      have hnew : sent ⟨rest, size⟩ = size := sent_of_not_pending (by simp [hnil])
      rw [hold, hnew]
    · rw [List.concat_eq_append] at hK
      rw [hsplit, hK, ← List.append_assoc, sent_concat, sent_concat]
  have hwf : Wf ⟨rest, size⟩ := by
    refine ⟨?_, fun s hs => hm.bounded s (hsub s hs), hm.size_lt, fun s hs hp => ?_⟩
    · exact hinc.sublist (List.dropWhile_sublist _)
    · rw [hsent]
      exact hm.pending s (hsub s hs) hp
  refine ⟨hwf, rfl, hsent, fun b => (hcol b).symm, fun h s hs => h s (hsub s hs), ?_⟩
  change (rest.head?.map Mark.offset).getD size ≤ size ∧
    (∀ b < (rest.head?.map Mark.offset).getD size, paintAt .recved segs b = .recved) ∧
    ((rest.head?.map Mark.offset).getD size < size →
      paintAt .recved segs ((rest.head?.map Mark.offset).getD size) ≠ .recved)
  cases hl : rest with
  | nil => exact ⟨le_rfl, fun b _ => by rw [hcol, hl]; rfl, fun h => absurd h (lt_irrefl _)⟩
  | cons s l =>
    rw [hl] at hhead hcol hsub
    have hlow := (List.pairwise_cons.mp (hl ▸ hwf.increasing)).1
    refine ⟨hm.bounded s (hsub s (by simp)), fun b hb => ?_, fun _ => ?_⟩
    · change b < s.offset at hb
      rw [hcol]
      refine paintAt_of_lt (fun t ht => ?_)
      rcases List.mem_cons.mp ht with rfl | ht
      · exact hb
      · exact hb.trans (hlow t ht)
    · change paintAt .recved segs s.offset ≠ .recved
      rw [hcol, paintAt_cons, if_pos le_rfl, paintAt_of_lt hlow]
      exact hhead s rfl

/-- `mark_flighting_lost` loses every byte in flight. -/
theorem Wf.markFlightingLost_spec (hm : m.Wf) : m.markFlightingLost.Wf ∧
    m.markFlightingLost.sent = m.sent ∧ (∀ b, m.markFlightingLost.colorAt b = (m.colorAt b).lose) ∧
    (m.Strict → m.markFlightingLost.Strict) := by
  have hlose : ∀ s : State, (⟨s.offset, if s.color = .flighting then .lost else s.color⟩ : State) =
      ⟨s.offset, s.color.lose⟩ := by
    intro s
    cases s.color <;> rfl
  have hsegs : m.markFlightingLost = ⟨m.segs.map (fun s => ⟨s.offset, s.color.lose⟩), m.size⟩ := by
    unfold markFlightingLost
    simp only [hlose]
  have hpend : ∀ c : Color, c.lose = .pending ↔ c = .pending := by
    intro c
    cases c <;> simp [Color.lose]
  have hsent : m.markFlightingLost.sent = m.sent := by
    rw [hsegs]
    obtain ⟨segs, size⟩ := m
    rcases List.eq_nil_or_concat segs with rfl | ⟨K, s, rfl⟩
    · rfl
    · rw [List.concat_eq_append, List.map_append, List.map_singleton, sent_concat, sent_concat]
      simp only [hpend]
  rw [hsegs] at hsent ⊢
  refine ⟨⟨?_, ?_, hm.size_lt, ?_⟩, hsent, fun b => ?_, ?_⟩
  · exact List.pairwise_map.mpr hm.increasing
  · intro s hs
    obtain ⟨t, ht, rfl⟩ := List.mem_map.mp hs
    exact hm.bounded t ht
  · intro s hs hp
    obtain ⟨t, ht, rfl⟩ := List.mem_map.mp hs
    rw [hsent]
    exact hm.pending t ht ((hpend t.color).mp hp)
  · exact paintAt_map Color.lose .recved m.segs b
  · intro h s hs
    obtain ⟨t, ht, rfl⟩ := List.mem_map.mp hs
    exact h t ht

end BufMap

namespace SendBuf

/-- The state of a send buffer to which the bytes `w` were written. -/
structure Inv (b : SendBuf) (w : Bytes) : Prop where
  wf : b.state.Wf
  content : b.data.flatten = w.drop b.offset
  offset_le : b.offset ≤ b.state.size
  size_eq : b.state.size = min w.length b.maxData
  nonempty : ∀ d ∈ b.data, d ≠ []
  rcvd : ∀ i < b.offset, b.state.colorAt i = .recved
  front : b.offset < b.state.size → b.state.colorAt b.offset ≠ .recved

variable {b : SendBuf} {w : Bytes}

lemma Inv.written_eq (h : b.Inv w) : b.written = w.length := by
  have hlen := congrArg List.length h.content
  rw [List.length_flatten, List.length_drop] at hlen
  have hoff := h.offset_le
  have hsize := h.size_eq
  unfold written
  omega

/-- Everything is acknowledged exactly when the buffer holds no more bytes. -/
theorem Inv.isAllRcvd_iff (h : b.Inv w) : b.isAllRcvd = true ↔
    w.length ≤ b.maxData ∧ ∀ i < w.length, b.state.colorAt i = .recved := by
  have hoff := h.offset_le
  have hsize := h.size_eq
  have hempty : b.isAllRcvd = true ↔ w.length ≤ b.offset := by
    rw [isAllRcvd, List.isEmpty_iff, ← List.drop_eq_nil_iff, ← h.content]
    constructor
    · intro hd
      rw [hd]
      rfl
    · intro hd
      cases hb : b.data with
      | nil => rfl
      | cons d l =>
        rw [hb, List.flatten_cons, List.append_eq_nil_iff] at hd
        exact absurd hd.1 (h.nonempty d (by simp [hb]))
  rw [hempty]
  constructor
  · intro hle
    exact ⟨by omega, fun i hi => h.rcvd i (by omega)⟩
  · rintro ⟨hle, hall⟩
    by_contra hlt
    exact h.front (by omega) (hall b.offset (by omega))

lemma inv_withCapacity (capacity : Nat) : (withCapacity capacity).Inv [] where
  wf := ⟨List.Pairwise.nil, by simp [withCapacity, BufMap.empty], by simp [withCapacity, BufMap.empty],
    by simp [withCapacity, BufMap.empty]⟩
  content := rfl
  offset_le := le_rfl
  size_eq := by simp [withCapacity, BufMap.empty]
  nonempty := by simp [withCapacity]
  rcvd := by simp [withCapacity]
  front := by simp [withCapacity, BufMap.empty]

variable {maxData : Nat} {state : BufMap} {range : Range}

lemma Inv.grow (h : b.Inv w) {w' : Bytes} {data : List Bytes}
    (hext : BufMap.Extended b.state state (min w'.length maxData)) (hcontent : data.flatten = w'.drop b.offset)
    (hne : ∀ d ∈ data, d ≠ []) :
    Inv ⟨b.offset, data, maxData, state⟩ w' where
  wf := hext.wf
  content := hcontent
  offset_le := by
    change b.offset ≤ state.size
    rw [hext.size_eq]
    exact h.offset_le.trans hext.size_le
  size_eq := hext.size_eq
  nonempty := hne
  rcvd i hi := by
    change i < b.offset at hi
    have hoff := h.offset_le
    exact (hext.color i (by omega)).trans (h.rcvd i hi)
  front hlt := by
    change state.colorAt b.offset ≠ .recved
    change b.offset < state.size at hlt
    rw [hext.size_eq] at hlt
    by_cases hin : b.offset < b.state.size
    · rw [hext.color _ hin]
      exact h.front hin
    · rw [hext.fresh _ (by omega) hlt]
      decide

theorem Inv.write_step (h : b.Inv w) (hstrict : b.state.Strict) (d : Bytes)
    (hroom : d ≠ [] → min (w.length + d.length) b.maxData < 2 ^ 62) :
    ∃ b', b.write d = some b' ∧ b'.Inv (w ++ d) ∧ b'.maxData = b.maxData ∧
      BufMap.Extended b.state b'.state b'.state.size := by
  unfold write
  by_cases hd : d = []
  · subst hd
    refine ⟨b, rfl, by rwa [List.append_nil], rfl, h.wf, le_rfl, rfl, rfl, fun i _ => rfl,
      fun i h₁ h₂ => ?_, id⟩
    omega
  · have hempty : d.isEmpty = false := by simpa using hd
    have hsize := h.size_eq
    have hoff := h.offset_le
    have hle : b.state.size ≤ min (w ++ d).length b.maxData := by
      rw [List.length_append]
      omega
    obtain ⟨m, hm, hext⟩ := h.wf.extendTo_extended (by rw [List.length_append]; exact hroom hd) hle
      (fun _ => hstrict)
    have hcontent : (b.data ++ [d]).flatten = (w ++ d).drop b.offset := by
      have hzero : b.offset - w.length = 0 := by omega
      rw [List.flatten_append, h.content, List.drop_append, hzero, List.drop_zero, List.flatten_singleton]
    rw [hempty, h.written_eq, ← List.length_append, hm]
    refine ⟨_, rfl, h.grow hext hcontent fun e he => ?_, rfl, hext.size_eq.symm ▸ hext⟩
    rcases List.mem_append.mp he with he | he
    · exact h.nonempty e he
    · exact List.mem_singleton.mp he ▸ hd

theorem Inv.extend_step (h : b.Inv w) (hstrict : b.state.Strict) (hmax : b.maxData ≤ maxData)
    (hroom : min w.length maxData < 2 ^ 62) :
    ∃ b', b.extend maxData = some b' ∧ b'.Inv w ∧ b'.maxData = maxData ∧
      BufMap.Extended b.state b'.state b'.state.size := by
  have hsize := h.size_eq
  have hle : b.state.size ≤ min w.length maxData := by omega
  obtain ⟨m, hm, hext⟩ := h.wf.extendTo_extended hroom hle (fun _ => hstrict)
  unfold extend
  rw [debugAssert_of hmax, h.written_eq, hm]
  exact ⟨_, rfl, h.grow hext h.content h.nonempty, rfl, hext.size_eq.symm ▸ hext⟩

lemma Inv.write_eq_none (h : b.Inv w) {d : Bytes} (hd : d ≠ [])
    (hover : 2 ^ 62 ≤ min (w.length + d.length) b.maxData) : b.write d = none := by
  have hempty : d.isEmpty = false := by simpa using hd
  simp [write, hempty, h.written_eq, BufMap.extendTo_eq_none _ hover]

lemma Inv.extend_eq_none (h : b.Inv w) (hover : 2 ^ 62 ≤ min w.length maxData) : b.extend maxData = none := by
  simp [extend, h.written_eq, BufMap.extendTo_eq_none _ hover]

lemma Inv.recolor (h : b.Inv w) (hwf : state.Wf) (hsize : state.size = b.state.size)
    (hkeep : ∀ i < b.state.size, state.colorAt i = .recved ↔ b.state.colorAt i = .recved) :
    Inv { b with state := state } w where
  wf := hwf
  content := h.content
  offset_le := hsize ▸ h.offset_le
  size_eq := hsize.trans h.size_eq
  nonempty := h.nonempty
  rcvd i hi := (hkeep i (lt_of_lt_of_le hi h.offset_le)).mpr (h.rcvd i hi)
  front hlt := by
    change b.offset < state.size at hlt
    rw [hsize] at hlt
    exact fun hr => h.front hlt ((hkeep _ hlt).mp hr)

/-- `pick_up` fails, panics on an overflow, or returns a range with the bytes written there. -/
theorem Inv.pickUp_cases (h : b.Inv w) {predicate : Nat → Option Nat} (flowLimit : Nat)
    (hpos : ∀ o n, predicate o = some n → 0 < n) :
    (∃ p, b.pickUp predicate flowLimit = some (.error p, b) ∧
      ((∀ s ∈ b.state.segs, ¬BufMap.Pickable flowLimit b.maxData s) ∨
        ∃ s ∈ b.state.segs, predicate s.offset = none)) ∨
    (b.pickUp predicate flowLimit = none ∧
      ∃ s ∈ b.state.segs, ∃ n, predicate s.offset = some n ∧ 2 ^ 64 ≤ s.offset + n) ∨
    ∃ range fresh data state, b.pickUp predicate flowLimit =
        some (.ok (range, fresh, data), { b with state := state }) ∧
      BufMap.Picked b.state state range (if fresh then .pending else .lost) ∧
      Inv { b with state := state } w ∧ data.flatten = (w.take range.stop).drop range.start ∧
      (fresh = true → range.stop ≤ range.start + flowLimit) ∧
      ∃ n, predicate range.start = some n ∧ range.stop ≤ range.start + n := by
  have hmax : b.state.size ≤ b.maxData := by
    rw [h.size_eq]
    exact min_le_right _ _
  unfold pickUp
  rcases h.wf.pick_cases hpos hmax with ⟨p, hp, hwhy⟩ | ⟨hp, hwhy⟩ | ⟨range, fresh, m, hp, hpicked, hflow, hn⟩
  · rw [hp]
    exact .inl ⟨p, rfl, hwhy⟩
  · rw [hp]
    exact .inr (.inl ⟨rfl, hwhy⟩)
  · have hle := hpicked.sentIn.le
    have hstop : range.stop ≤ b.state.size := by
      have h₁ := hpicked.sentIn.stop_le
      have h₂ := hpicked.wf.sent_le
      have h₃ := hpicked.size_eq
      omega
    have horigin : (if fresh = true then Color.pending else .lost) ≠ .recved := by
      cases fresh <;> decide
    -- picked bytes are not acknowledged, so they are still in the buffer
    have hoff : b.offset ≤ range.start := by
      by_cases hmem : range.Mem range.start
      · by_contra hlt
        have hrcvd := h.rcvd range.start (by omega)
        rw [hpicked.before _ hmem] at hrcvd
        exact horigin hrcvd
      · have hend := hpicked.sentIn.nonempty
        rw [hpicked.size_eq] at hend
        have hoffset := h.offset_le
        unfold Range.Mem at hmem
        omega
    obtain ⟨data, hdata, hflat⟩ := pieces_flatten range hle b.offset b.data
    have hbytes : data.flatten = (w.take range.stop).drop range.start := by
      rw [hflat, h.content, List.take_drop, Nat.add_sub_cancel' (hoff.trans hle), List.drop_drop,
        Nat.add_sub_cancel' hoff]
    rw [hp]
    simp only [some_bind, hdata]
    refine .inr (.inr ⟨range, fresh, data, m, rfl, hpicked, h.recolor hpicked.wf hpicked.size_eq ?_, hbytes,
      hflow, hn⟩)
    intro i hi
    rw [hpicked.color i hi]
    by_cases hmem : range.Mem i
    · rw [if_pos hmem, hpicked.before i hmem]
      simp [horigin]
    · rw [if_neg hmem]

lemma repaint_shift {m m' : BufMap} {f : Color → Color} (h : BufMap.Repaint m m' range f) :
    BufMap.Repaint m m'.shift.2 range f := by
  obtain ⟨hwf, hsize, hsent, hcol, -⟩ := h.wf.shift_spec
  refine ⟨hwf, hsize.trans h.size_eq, hsent.trans h.sent_eq, fun b hb => ?_, fun s hs => ?_⟩
  · rw [hcol, h.color b hb]
  · exact h.offsets s ((List.dropWhile_sublist _).subset hs)

theorem Inv.onDataAcked_step (h : b.Inv w) (hr : range.SentIn b.state) :
    ∃ b', b.onDataAcked range = some b' ∧ b'.Inv w ∧ b'.maxData = b.maxData ∧
      BufMap.Repaint b.state b'.state range (fun _ => .recved) := by
  obtain ⟨m, hm, hpaint⟩ := h.wf.ackRcvd_repaint hr
  obtain ⟨-, -, -, hcol, -, hposle, hbelow, hfront⟩ := hpaint.wf.shift_spec
  have hshift := repaint_shift hpaint
  have hsize := hpaint.size_eq
  have hoff := h.offset_le
  have hkeep : ∀ i < b.offset, m.shift.2.colorAt i = .recved := by
    intro i hi
    rw [hshift.color i (by omega), h.rcvd i hi, ite_self]
  unfold onDataAcked
  simp only [hm, some_bind]
  by_cases hlt : b.offset < m.shift.1
  · rw [if_pos hlt]
    refine ⟨_, rfl, ⟨hshift.wf, ?_, ?_, hshift.size_eq.trans h.size_eq, dropFront_ne_nil _ _ h.nonempty, ?_, ?_⟩,
      rfl, hshift⟩
    · rw [dropFront_flatten, h.content, List.drop_drop, Nat.add_sub_cancel' hlt.le]
    · change m.shift.1 ≤ m.shift.2.size
      rw [hshift.size_eq, ← hsize]
      exact hposle
    · intro i hi
      rw [hcol]
      exact hbelow i hi
    · intro hi
      rw [hcol]
      exact hfront (by rw [hsize, ← hshift.size_eq]; exact hi)
  · rw [if_neg hlt]
    refine ⟨_, rfl, ⟨hshift.wf, h.content, ?_, hshift.size_eq.trans h.size_eq, h.nonempty, hkeep, ?_⟩,
      rfl, hshift⟩
    · change b.offset ≤ m.shift.2.size
      rw [hshift.size_eq]
      exact hoff
    · intro hi
      change b.offset < m.shift.2.size at hi
      rw [hshift.size_eq] at hi
      -- the first byte that is not acknowledged cannot lie below the offset
      have heq : m.shift.1 = b.offset := by
        by_contra hne
        have hcolor := hkeep m.shift.1 (by omega)
        rw [hcol] at hcolor
        exact hfront (by omega) hcolor
      rw [hcol]
      exact heq ▸ hfront (by omega)

theorem Inv.mayLossData_step (h : b.Inv w) (hr : range.SentIn b.state) :
    ∃ b', b.mayLossData range = some b' ∧ b'.Inv w ∧ b'.maxData = b.maxData ∧
      BufMap.Repaint b.state b'.state range Color.lose := by
  obtain ⟨m, hm, hpaint⟩ := h.wf.mayLoss_repaint hr
  unfold mayLossData
  rw [hm]
  refine ⟨_, rfl, h.recolor hpaint.wf hpaint.size_eq fun i hi => ?_, rfl, hpaint⟩
  rw [hpaint.color i hi]
  split
  · exact Color.lose_eq_recved
  · rfl

theorem Inv.multipathHandshake_step (h : b.Inv w) : b.multipathHandshake.Inv w := by
  obtain ⟨hwf, -, hcol, -⟩ := h.wf.markFlightingLost_spec
  refine h.recolor hwf rfl fun i _ => ?_
  rw [hcol]
  exact Color.lose_eq_recved

end SendBuf

end Dquic
