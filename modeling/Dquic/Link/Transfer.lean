import Dquic.Recv.Reassembly
import Dquic.Send.Buffered

/-!
# From a send buffer to a receive buffer

One `SendBuf` joined to one `RecvBuf` by a network that drops, duplicates and reorders the picked
data. Acknowledgements come only for delivered ranges, loss reports for any picked range.
-/

namespace Dquic

open Lib

/-- The operations of the two ends and of the network between them. -/
inductive LinkOp
  | write (data : Bytes)
  | extend (maxData : Nat)
  | pickUp (predicate : Nat → Option Nat) (flowLimit : Nat)
  | multipathHandshake
  | deliver (range : Range) (data : Bytes)
  | onDataAcked (range : Range)
  | mayLossData (range : Range)
  | tryRead (room : Nat)
  | tryNext

/-- Both ends, the bytes written and read so far, all data ever handed to the network, and the ranges
that were delivered. -/
structure Link where
  snd : SendBuf
  rcv : RecvBuf
  written : Bytes
  out : Bytes
  wire : List (Range × Bytes)
  delivered : List Range

namespace Link

/-- The limit is never lowered, predicates allow at least one byte, the network delivers what was picked,
and feedback is about delivered ranges or, for loss, picked ones. -/
def Issued (l : Link) : LinkOp → Prop
  | .extend maxData => l.snd.maxData ≤ maxData
  | .pickUp predicate _ => ∀ o n, predicate o = some n → 0 < n
  | .deliver range data => (range, data) ∈ l.wire
  | .onDataAcked range => range ∈ l.delivered
  | .mayLossData range => ∃ data, (range, data) ∈ l.wire
  | _ => True

def exec (l : Link) : LinkOp → Option Link
  | .write data => do
    let snd ← l.snd.write data
    some { l with snd := snd, written := l.written ++ data }
  | .extend maxData => do
    let snd ← l.snd.extend maxData
    some { l with snd := snd }
  | .pickUp predicate flowLimit => do
    let (res, snd) ← l.snd.pickUp predicate flowLimit
    match res with
    | .ok (range, _, data) => some { l with snd := snd, wire := (range, data.flatten) :: l.wire }
    | .error _ => some { l with snd := snd }
  | .multipathHandshake => some { l with snd := l.snd.multipathHandshake }
  | .deliver range data => do
    let (_, rcv) ← l.rcv.recv range.start data
    some { l with rcv := rcv, delivered := range :: l.delivered }
  | .onDataAcked range => do
    let snd ← l.snd.onDataAcked range
    some { l with snd := snd }
  | .mayLossData range => do
    let snd ← l.snd.mayLossData range
    some { l with snd := snd }
  | .tryRead room =>
    let (out, rcv) := l.rcv.tryRead room
    some { l with rcv := rcv, out := l.out ++ out }
  | .tryNext =>
    match l.rcv.tryNext with
    | (some data, rcv) => some { l with rcv := rcv, out := l.out ++ data }
    | (none, rcv) => some { l with rcv := rcv }

def Arrived (l : Link) (i : Nat) : Prop := i < l.rcv.nread ∨ (lookup l.rcv.segments i).isSome

structure Inv (l : Link) : Prop where
  snd : l.snd.Inv l.written
  strict : l.snd.state.Strict
  rcv : l.rcv.Wf
  out_eq : l.out = l.written.take l.rcv.nread
  nread_le : l.rcv.nread ≤ l.written.length
  stored : ∀ i, l.rcv.nread ≤ i → ∀ x, lookup l.rcv.segments i = some x → l.written[i]? = some x
  wire : ∀ p ∈ l.wire, p.1.start < p.1.stop ∧ p.1.SentIn l.snd.state ∧
    p.2 = (l.written.take p.1.stop).drop p.1.start
  delivered : ∀ range ∈ l.delivered, (∃ data, (range, data) ∈ l.wire) ∧ ∀ i, range.Mem i → l.Arrived i
  rcvd : ∀ i < l.snd.state.size, l.snd.state.colorAt i = .recved → l.Arrived i

variable {l : Link}

variable {range : Range} {snd : SendBuf}

lemma Inv.stop_le (h : l.Inv) (hr : range.SentIn l.snd.state) : range.stop ≤ l.written.length := by
  have h₁ := hr.stop_le
  have h₂ := h.snd.wf.sent_le
  have h₃ := h.snd.size_eq
  omega

lemma Inv.sender (h : l.Inv) {tail : Bytes} (hsnd : snd.Inv (l.written ++ tail)) (hstrict : snd.state.Strict)
    (hsent : l.snd.state.sent ≤ snd.state.sent)
    (hrcvd : ∀ i < snd.state.size, snd.state.colorAt i = .recved → l.Arrived i) :
    Inv { l with snd := snd, written := l.written ++ tail } where
  snd := hsnd
  strict := hstrict
  rcv := h.rcv
  out_eq := by
    change l.out = (l.written ++ tail).take l.rcv.nread
    rw [List.take_append_of_le_length h.nread_le]
    exact h.out_eq
  nread_le := by
    change l.rcv.nread ≤ (l.written ++ tail).length
    rw [List.length_append]
    exact h.nread_le.trans (Nat.le_add_right _ _)
  stored i hi x hx := by
    have hw := h.stored i hi x hx
    obtain ⟨hlt, -⟩ := List.getElem?_eq_some_iff.mp hw
    change (l.written ++ tail)[i]? = some x
    rw [List.getElem?_append_left hlt, hw]
  wire p hp := by
    obtain ⟨hne, hr, hdata⟩ := h.wire p hp
    refine ⟨hne, hr.mono hne hsent, ?_⟩
    change p.2 = ((l.written ++ tail).take p.1.stop).drop p.1.start
    rw [List.take_append_of_le_length (h.stop_le hr)]
    exact hdata
  delivered := h.delivered
  rcvd := hrcvd

lemma Inv.feedback (h : l.Inv) (hsnd : snd.Inv l.written) (hstrict : snd.state.Strict)
    (hsent : l.snd.state.sent ≤ snd.state.sent)
    (hrcvd : ∀ i < snd.state.size, snd.state.colorAt i = .recved → l.Arrived i) : Inv { l with snd := snd } := by
  have hsnd' : snd.Inv (l.written ++ []) := by rwa [List.append_nil]
  have hstep := h.sender hsnd' hstrict hsent hrcvd
  rwa [List.append_nil] at hstep

lemma Inv.takes (h : l.Inv) {out : Bytes} {rcv : RecvBuf} (hwf : rcv.Wf)
    (hn : rcv.nread = l.rcv.nread + out.length)
    (ht : RecvBuf.Takes l.rcv.nread l.rcv.segments out rcv.segments) :
    Inv { l with rcv := rcv, out := l.out ++ out } := by
  have hbytes : ∀ j < out.length, l.written[l.rcv.nread + j]? = out[j]? := by
    intro j hj
    rw [List.getElem?_eq_getElem hj]
    refine h.stored _ (Nat.le_add_right _ _) _ ?_
    rw [ht.known j hj, List.getElem?_eq_getElem hj]
  have hle : l.rcv.nread + out.length ≤ l.written.length := by
    by_cases hzero : out.length = 0
    · rw [hzero]
      exact h.nread_le
    · have hlast := hbytes (out.length - 1) (by omega)
      rw [List.getElem?_eq_getElem (l := out) (by omega)] at hlast
      obtain ⟨hlt, -⟩ := List.getElem?_eq_some_iff.mp hlast
      omega
  have harrived : ∀ i, l.Arrived i → Arrived { l with rcv := rcv, out := l.out ++ out } i := by
    intro i hi
    change i < rcv.nread ∨ (lookup rcv.segments i).isSome
    by_cases hread : i < rcv.nread
    · exact .inl hread
    · rw [ht.rest i (by omega)]
      rcases hi with hi | hi
      · exact .inl (by omega)
      · exact .inr hi
  refine ⟨h.snd, h.strict, hwf, ?_, ?_, ?_, h.wire, fun r hr => ?_, fun i hi hc => harrived i (h.rcvd i hi hc)⟩
  · change l.out ++ out = l.written.take rcv.nread
    rw [hn, List.take_add, ← h.out_eq]
    congr 1
    refine List.ext_getElem? fun j => ?_
    rw [List.getElem?_take, List.getElem?_drop]
    by_cases hj : j < out.length
    · rw [if_pos hj, hbytes j hj]
    · rw [if_neg hj, List.getElem?_eq_none (by omega)]
  · change rcv.nread ≤ l.written.length
    omega
  · intro i hi x hx
    change rcv.nread ≤ i at hi
    change lookup rcv.segments i = some x at hx
    rw [ht.rest i (by omega)] at hx
    exact h.stored i (by omega) x hx
  · exact ⟨(h.delivered r hr).1, fun i hi => harrived i ((h.delivered r hr).2 i hi)⟩

lemma Inv.grown (h : l.Inv) {m : BufMap} (hext : BufMap.Extended l.snd.state m m.size) :
    ∀ i < m.size, m.colorAt i = .recved → l.Arrived i := by
  intro i hi hc
  by_cases hlt : i < l.snd.state.size
  · exact h.rcvd i hlt (by rw [← hext.color i hlt, hc])
  · rw [hext.fresh i (by omega) hi] at hc
    cases hc

lemma Inv.picked (h : l.Inv) {state : BufMap} {origin : Color} {data : List Bytes}
    (hinv : SendBuf.Inv { l.snd with state := state } l.written)
    (hpicked : BufMap.Picked l.snd.state state range origin)
    (hdata : data.flatten = (l.written.take range.stop).drop range.start) :
    Inv { l with snd := { l.snd with state := state }, wire := (range, data.flatten) :: l.wire } := by
  have hle := hpicked.sentIn.le
  have hsent : l.snd.state.sent ≤ state.sent := hpicked.sent_le
  have hfeed := h.feedback hinv (hpicked.strict h.strict) hsent fun i hi hc => by
    change i < state.size at hi
    change state.colorAt i = .recved at hc
    rw [hpicked.size_eq] at hi
    rw [hpicked.color i hi] at hc
    split at hc
    · cases hc
    · exact h.rcvd i hi hc
  refine { hfeed with wire := fun p hp => ?_, delivered := fun r hr => ?_ }
  · rcases List.mem_cons.mp hp with rfl | hp
    · exact ⟨hpicked.start_lt h.strict, hpicked.sentIn, hdata⟩
    · exact hfeed.wire p hp
  · obtain ⟨⟨d, hd⟩, harrived⟩ := hfeed.delivered r hr
    exact ⟨⟨d, List.mem_cons_of_mem _ hd⟩, harrived⟩

lemma Inv.deliver (h : l.Inv) {data : Bytes} (hp : (range, data) ∈ l.wire) :
    ∃ l', l.exec (.deliver range data) = some l' ∧ l'.Inv := by
  obtain ⟨hne, hr, hdata⟩ : range.start < range.stop ∧ range.SentIn l.snd.state ∧
    data = (l.written.take range.stop).drop range.start := h.wire _ hp
  have hstop := h.stop_le hr
  have hlen : data.length = range.stop - range.start := by
    rw [hdata, List.length_drop, List.length_take, min_eq_left hstop]
  have hbound : range.start + data.length < 2 ^ 64 := by
    have h₁ := hr.stop_le
    have h₂ := h.snd.wf.sent_le
    have h₃ := h.snd.wf.size_lt
    have h₄ : (2 : Nat) ^ 62 < 2 ^ 64 := by norm_num
    omega
  -- the data of a range is what was written there
  have hget : ∀ i, (⟨range.start, data⟩ : Segment).get i = if range.Mem i then l.written[i]? else none := by
    intro i
    have hmem : range.Mem i ↔ range.start ≤ i ∧ i < range.stop := Iff.rfl
    rw [Chunk.get, hdata]
    change (if range.start ≤ i then _ else _) = _
    by_cases hi : range.start ≤ i
    · have hidx : range.start + (i - range.start) = i := by omega
      rw [if_pos hi, List.getElem?_drop, hidx, List.getElem?_take]
      simp only [hmem, hi, true_and]
    · rw [if_neg hi, if_neg (by rw [hmem]; omega)]
  obtain ⟨rcv, hrecv, hwf, hnread, hknown, -⟩ := h.rcv.recv_absorbs (fun _ => hbound)
  have harrived : ∀ i, l.Arrived i ∨ range.Mem i → i < rcv.nread ∨ (lookup rcv.segments i).isSome := by
    intro i hi
    rw [hnread, hknown i]
    rcases hi with (hi | hi) | hi
    · exact .inl hi
    · exact .inr (by rw [Option.isSome_or, hi, Bool.true_or])
    · by_cases hread : i < l.rcv.nread
      · exact .inl hread
      · have hlt : i < l.written.length := lt_of_lt_of_le hi.2 hstop
        refine .inr ?_
        rw [if_pos (by omega), hget, if_pos hi, List.getElem?_eq_getElem hlt, Option.isSome_or]
        simp
  refine ⟨{ l with rcv := rcv, delivered := range :: l.delivered }, ?_, h.snd, h.strict, hwf, ?_, ?_,
    ?_, h.wire, fun r hr' => ?_, fun i hi hc => harrived i (.inl (h.rcvd i hi hc))⟩
  · simp only [exec, hrecv, some_bind]
  · change l.out = l.written.take rcv.nread
    rw [hnread]
    exact h.out_eq
  · change rcv.nread ≤ l.written.length
    rw [hnread]
    exact h.nread_le
  · intro i hi x hx
    change rcv.nread ≤ i at hi
    rw [hnread] at hi
    change lookup rcv.segments i = some x at hx
    rw [hknown i, if_pos hi, Option.or_eq_some_iff] at hx
    rcases hx with hx | ⟨-, hx⟩
    · exact h.stored i hi x hx
    · rw [hget] at hx
      split at hx
      · exact hx
      · cases hx
  · rcases List.mem_cons.mp hr' with rfl | hr'
    · exact ⟨⟨data, hp⟩, fun i hi => harrived i (.inr hi)⟩
    · exact ⟨(h.delivered r hr').1, fun i hi => harrived i (.inl ((h.delivered r hr').2 i hi))⟩

/-- What one step preserves. -/
theorem Inv.step (h : l.Inv) {op : LinkOp} (hop : l.Issued op) {l' : Link} (he : l.exec op = some l') :
    l'.Inv := by
  have hsize := h.snd.wf.sent_le
  cases op with
  | write d =>
    by_cases hroom : d ≠ [] ∧ 2 ^ 62 ≤ min (l.written.length + d.length) l.snd.maxData
    · simp [exec, h.snd.write_eq_none hroom.1 hroom.2] at he
    · obtain ⟨snd, hsnd, hinv, -, hext⟩ := h.snd.write_step h.strict d (fun hd => by
        by_contra hle
        exact hroom ⟨hd, by omega⟩)
      simp only [exec, hsnd, some_bind, Option.some.injEq] at he
      subst he
      exact h.sender hinv (hext.strict h.strict) hext.sent_eq.ge (h.grown hext)
  | extend maxData =>
    by_cases hroom : 2 ^ 62 ≤ min l.written.length maxData
    · simp [exec, h.snd.extend_eq_none hroom] at he
    · obtain ⟨snd, hsnd, hinv, -, hext⟩ := h.snd.extend_step h.strict hop (by omega)
      simp only [exec, hsnd, some_bind, Option.some.injEq] at he
      subst he
      exact h.feedback hinv (hext.strict h.strict) hext.sent_eq.ge (h.grown hext)
  | pickUp predicate flowLimit =>
    rcases h.snd.pickUp_cases flowLimit hop with
      ⟨p, hp, -⟩ | ⟨hp, -⟩ | ⟨range, fresh, data, state, hp, hpicked, hinv, hdata, -⟩
    · simp only [exec, hp, some_bind, Option.some.injEq] at he
      exact he ▸ h
    · simp [exec, hp] at he
    · simp only [exec, hp, some_bind, Option.some.injEq] at he
      subst he
      exact h.picked hinv hpicked hdata
  | multipathHandshake =>
    obtain ⟨-, hsent, hcol, hstrict⟩ := h.snd.wf.markFlightingLost_spec
    simp only [exec, Option.some.injEq] at he
    subst he
    refine h.feedback h.snd.multipathHandshake_step (hstrict h.strict) hsent.ge fun i hi hc => h.rcvd i hi ?_
    change l.snd.state.markFlightingLost.colorAt i = .recved at hc
    rw [hcol] at hc
    exact Color.lose_eq_recved.mp hc
  | deliver range data =>
    obtain ⟨l₁, hl₁, hinv⟩ := h.deliver hop
    rw [hl₁] at he
    exact Option.some.inj he ▸ hinv
  | onDataAcked range =>
    obtain ⟨⟨data, hdata⟩, harrived⟩ := h.delivered range hop
    obtain ⟨hne, hr, -⟩ := h.wire _ hdata
    obtain ⟨snd, hsnd, hinv, -, hpaint⟩ := h.snd.onDataAcked_step hr
    simp only [exec, hsnd, some_bind, Option.some.injEq] at he
    subst he
    refine h.feedback hinv (hpaint.strict h.strict (by have := hr.stop_le; omega)) hpaint.sent_eq.ge
      fun i hi hc => ?_
    rw [hpaint.size_eq] at hi
    rw [hpaint.color i hi] at hc
    by_cases hmem : range.Mem i
    · exact harrived i hmem
    · rw [if_neg hmem] at hc
      exact h.rcvd i hi hc
  | mayLossData range =>
    obtain ⟨data, hdata⟩ := hop
    obtain ⟨hne, hr, -⟩ := h.wire _ hdata
    obtain ⟨snd, hsnd, hinv, -, hpaint⟩ := h.snd.mayLossData_step hr
    simp only [exec, hsnd, some_bind, Option.some.injEq] at he
    subst he
    refine h.feedback hinv (hpaint.strict h.strict (by have := hr.stop_le; omega)) hpaint.sent_eq.ge
      fun i hi hc => ?_
    rw [hpaint.size_eq] at hi
    rw [hpaint.color i hi] at hc
    refine h.rcvd i hi ?_
    split at hc
    · exact Color.lose_eq_recved.mp hc
    · exact hc
  | tryRead room =>
    obtain ⟨-, hn, -, hwf, ht⟩ := h.rcv.tryRead_takes room
    simp only [exec, Option.some.injEq] at he
    subst he
    exact h.takes hwf hn ht
  | tryNext =>
    rcases h.rcv.tryNext_takes with ⟨d, hd, -, -, hwf, hn, -, ht⟩ | ⟨hnone, -⟩
    · have hpair : l.rcv.tryNext = (some d, l.rcv.tryNext.2) := Prod.ext hd rfl
      simp only [exec] at he
      rw [hpair] at he
      simp only [Option.some.injEq] at he
      subst he
      exact h.takes hwf hn ht
    · simp only [exec, hnone, Option.some.injEq] at he
      exact he ▸ h

end Link

def linkSystem (capacity : Nat) : System Link LinkOp where
  init l := l = ⟨SendBuf.withCapacity capacity, RecvBuf.empty, [], [], [], []⟩
  issued := Link.Issued
  exec := Link.exec

lemma Link.inv_of_reach {capacity : Nat} {l : Link} (h : (linkSystem capacity).Reach l) : l.Inv := by
  refine h.invariant (fun s hs => ?_) (fun s op s' hs hop he => hs.step hop he)
  change s = _ at hs
  subst hs
  exact ⟨SendBuf.inv_withCapacity capacity, by simp [BufMap.Strict, SendBuf.withCapacity, BufMap.empty],
    RecvBuf.wf_empty, rfl, le_rfl, by simp [RecvBuf.empty], by simp, by simp,
    by simp [SendBuf.withCapacity, BufMap.empty]⟩

/-- Whatever the network does, the bytes read are a part of the bytes written from its beginning, and
once the sender counts everything as received, all of it has been read or can be read at once. -/
theorem linkSystem_transfers (capacity : Nat) (l : Link) (h : (linkSystem capacity).Reach l) :
    l.out <+: l.written ∧ l.out.length = l.rcv.nread ∧
    (l.snd.isAllRcvd = true → l.rcv.nread + l.rcv.available = l.written.length) := by
  have hinv := Link.inv_of_reach h
  refine ⟨?_, ?_, fun hall => ?_⟩
  · rw [hinv.out_eq]
    exact List.take_prefix _ _
  · rw [hinv.out_eq, List.length_take, min_eq_left hinv.nread_le]
  · obtain ⟨hmax, hrecved⟩ := hinv.snd.isAllRcvd_iff.mp hall
    have hsize := hinv.snd.size_eq
    have hread := hinv.nread_le
    have hend := RecvBuf.le_continuousEnd l.rcv.nread l.rcv.segments
    obtain ⟨hsome, hnone⟩ := RecvBuf.lookup_continuousEnd l.rcv.nread l.rcv.segments hinv.rcv.apart hinv.rcv.unread
    have hge : l.written.length ≤ RecvBuf.continuousEnd l.rcv.nread l.rcv.segments := by
      by_contra hlt
      rcases hinv.rcvd _ (by omega) (hrecved _ (Nat.not_le.mp hlt)) with hi | hi
      · omega
      · simp [hnone] at hi
    have hle : RecvBuf.continuousEnd l.rcv.nread l.rcv.segments ≤ l.written.length := by
      by_contra hlt
      obtain ⟨x, hx⟩ := Option.isSome_iff_exists.mp (hsome l.written.length hread (by omega))
      have hbeyond := hinv.stored _ hread x hx
      simp at hbeyond
    unfold RecvBuf.available
    omega

/-- A run in which data is lost, sent again, delivered twice and out of order, and then acknowledged. -/
theorem linkSystem_transfers_run : ∃ l, (linkSystem 8).Reach l ∧ l.written = [1, 2, 3, 4] ∧ l.out = [1] ∧
    l.snd.isAllRcvd = true ∧ l.rcv.nread + l.rcv.available = l.written.length := by
  have hpos : ∀ o n : Nat, (fun _ => some 2 : Nat → Option Nat) o = some n → 0 < n := by
    intro o n hn
    simp at hn
    omega
  have h₀ : (linkSystem 8).Reach ⟨SendBuf.withCapacity 8, RecvBuf.empty, [], [], [], []⟩ := .start rfl
  have h₁ := h₀.step (e := LinkOp.write [1, 2, 3, 4]) trivial rfl
  have h₂ := h₁.step (e := LinkOp.pickUp (fun _ => some 2) 10) hpos rfl
  have h₃ := h₂.step (e := LinkOp.pickUp (fun _ => some 2) 10) hpos rfl
  have h₄ := h₃.step (e := LinkOp.mayLossData ⟨0, 2⟩) ⟨[1, 2], by decide⟩ rfl
  have h₅ := h₄.step (e := LinkOp.pickUp (fun _ => some 2) 0) hpos rfl
  have h₆ := h₅.step (e := LinkOp.deliver ⟨2, 4⟩ [3, 4]) (by decide : _ ∈ _) rfl
  have h₇ := h₆.step (e := LinkOp.deliver ⟨0, 2⟩ [1, 2]) (by decide : _ ∈ _) rfl
  have h₈ := h₇.step (e := LinkOp.deliver ⟨2, 4⟩ [3, 4]) (by decide : _ ∈ _) rfl
  have h₉ := h₈.step (e := LinkOp.onDataAcked ⟨2, 4⟩) (by decide : _ ∈ _) rfl
  have h₁₀ := h₉.step (e := LinkOp.onDataAcked ⟨0, 2⟩) (by decide : _ ∈ _) rfl
  have h₁₁ := h₁₀.step (e := LinkOp.tryRead 1) trivial rfl
  exact ⟨_, h₁₁, by decide, by decide, by decide, (linkSystem_transfers 8 _ h₁₁).2.2 (by decide)⟩

end Dquic
