import Dquic.Send.ColorMachine

/-!
# Fresh data goes out once

Over every run of a `SendBuf` each byte is handed out as fresh once, in order, below the limit of
the peer and within the flow limit of the caller.
-/

namespace Dquic

open Lib

/-- Ranges one after another, from `a` to `b`. -/
def Consecutive : Nat → List Range → Nat → Prop
  | a, [], b => a = b
  | a, r :: rs, b => r.start = a ∧ r.start ≤ r.stop ∧ Consecutive r.stop rs b

lemma Consecutive.append {a b : Nat} {rs : List Range} (h : Consecutive a rs b) {r : Range} (hstart : r.start = b)
    (hle : r.start ≤ r.stop) : Consecutive a (rs ++ [r]) r.stop := by
  induction rs generalizing a with
  | nil =>
    have hab : a = b := h
    exact ⟨hstart.trans hab.symm, hle, rfl⟩
  | cons r' rs ih => exact ⟨h.1, h.2.1, ih h.2.2⟩

/-- The operations of a send buffer, and the moment at which its stream was sent to the end. -/
inductive FreshOp
  | buf (op : SendOp)
  | finish

/-- A send buffer with all bytes written to it, the ranges picked from it and whether they were fresh, and for each byte
whether it was reported lost, and whether `multipath_handshake` released it, since it was last picked. -/
structure FreshWorld where
  buf : SendBuf
  written : Bytes
  picks : List (Range × Bool)
  lost : Nat → Bool
  released : Nat → Bool
  ended : Bool

namespace FreshWorld

/-- Feedback is about bytes that were sent, or about the end of the stream alone. -/
def Reported (w : FreshWorld) (range : Range) : Prop :=
  (range.start < range.stop ∧ range.stop ≤ w.buf.sent) ∨
    w.ended = true ∧ range = ⟨w.written.length, w.written.length⟩

/-- The limit is never lowered, predicates allow at least one byte, and nothing is written behind the end. -/
def Issued (w : FreshWorld) : FreshOp → Prop
  | .buf (.write _) => w.ended = false
  | .buf (.extend maxData) => w.ended = false ∧ w.buf.maxData ≤ maxData
  | .buf (.pickUp predicate _) => ∀ o n, predicate o = some n → 0 < n
  | .buf (.onDataAcked range) => w.Reported range
  | .buf (.mayLossData range) => w.Reported range
  | .buf .multipathHandshake => True
  | .finish => w.buf.sent = w.written.length

def exec (w : FreshWorld) : FreshOp → Option FreshWorld
  | .buf (.write data) => do
    let buf ← w.buf.write data
    some { w with buf := buf, written := w.written ++ data }
  | .buf (.extend maxData) => do
    let buf ← w.buf.extend maxData
    some { w with buf := buf }
  | .buf (.pickUp predicate flowLimit) => do
    let (res, buf) ← w.buf.pickUp predicate flowLimit
    match res with
    | .ok (range, isFresh, _) =>
      some { w with
        buf := buf
        picks := w.picks ++ [(range, isFresh)]
        lost := fun i => w.lost i && !decide (range.start ≤ i ∧ i < range.stop)
        released := fun i => w.released i && !decide (range.start ≤ i ∧ i < range.stop) }
    | .error _ => some { w with buf := buf }
  | .buf (.onDataAcked range) => do
    let buf ← w.buf.onDataAcked range
    some { w with buf := buf }
  | .buf (.mayLossData range) => do
    let buf ← w.buf.mayLossData range
    some { w with buf := buf, lost := fun i => w.lost i || decide (range.start ≤ i ∧ i < range.stop) }
  | .buf .multipathHandshake =>
    some { w with
      buf := w.buf.multipathHandshake
      released := fun i => w.released i || decide (w.buf.state.colorAt i = .flighting) }
  | .finish => some { w with ended := true }

def fresh (w : FreshWorld) : List Range := (w.picks.filter Prod.snd).map Prod.fst

structure Right (w : FreshWorld) (flowLimit : Nat) (range : Range) (isFresh : Bool) (data : List Bytes) : Prop where
  le : range.start ≤ range.stop
  limit : range.stop ≤ w.buf.maxData
  fresh : isFresh = true → range.start = w.buf.sent ∧ range.stop - range.start ≤ flowLimit
  lost : isFresh = false → ∀ i, range.start ≤ i → i < range.stop → w.lost i = true ∨ w.released i = true
  lowest : ∃ s ∈ w.buf.state.segs, s.offset = range.start ∧ BufMap.Pickable flowLimit w.buf.maxData s ∧
    ∀ t ∈ w.buf.state.segs, BufMap.Pickable flowLimit w.buf.maxData t → s.offset ≤ t.offset
  bytes : data.flatten = (w.written.take range.stop).drop range.start ∧ range.stop ≤ w.written.length

end FreshWorld

/-- Runs of a send buffer that starts empty with the given limit. -/
def freshSystem (capacity : Nat) : System FreshWorld FreshOp where
  init w := w = ⟨SendBuf.withCapacity capacity, [], [], fun _ => false, fun _ => false, false⟩
  issued := FreshWorld.Issued
  exec := FreshWorld.exec

/-! ### The lowest interval -/

namespace BufMap

lemma Wf.pick_lowest {m m' : BufMap} (hm : m.Wf) {predicate : Nat → Option Nat} {flowLimit window : Nat} {range : Range}
    {isFresh : Bool} (h : m.pick predicate flowLimit window = some (.ok (range, isFresh), m')) :
    ∃ s ∈ m.segs, s.offset = range.start ∧ Pickable flowLimit window s ∧
      ∀ t ∈ m.segs, Pickable flowLimit window t → s.offset ≤ t.offset := by
  unfold pick at h
  cases hfind : pickFind flowLimit window m.segs 0 .pending with
  | mk found availability =>
    rw [hfind] at h
    cases found with
    | none => cases h
    | some found =>
      obtain ⟨index, s⟩ := found
      obtain ⟨A, B, hsegs, -, hs, hA⟩ := pickFind_some hfind
      have hinc := hm.increasing
      rw [hsegs] at hinc
      have hstart : range.start = s.offset := by
        dsimp only at h
        split at h
        · cases h
        · obtain ⟨⟨range', m₁⟩, htake, h⟩ := of_bind h
          cases h
          unfold takeInterval at htake
          obtain ⟨limit, -, htake⟩ := of_bind htake
          split at htake
          · obtain ⟨_, -, htake⟩ := of_bind htake
            obtain ⟨_, -, htake⟩ := of_bind htake
            cases htake
            rfl
          · obtain ⟨_, -, htake⟩ := of_bind htake
            obtain ⟨_, -, htake⟩ := of_bind htake
            cases htake
            rfl
      refine ⟨s, by simp [hsegs], hstart.symm, hs, ?_⟩
      intro t ht hpick
      rw [hsegs] at ht
      rcases List.mem_append.mp ht with ht | ht
      · exact absurd hpick (hA t ht)
      · rcases List.mem_cons.mp ht with rfl | ht
        · exact le_rfl
        · exact ((List.pairwise_cons.mp (List.pairwise_append.mp hinc).2.1).1 t ht).le

end BufMap

/-! ### Whole runs -/

namespace FreshWorld

variable {w w' : FreshWorld}

structure Agrees (w : FreshWorld) : Prop where
  inv : w.buf.Inv w.written
  strict : w.ended = false → w.buf.state.Strict
  ended : w.ended = true → w.buf.sent = w.written.length
  fresh : Consecutive 0 w.fresh w.buf.sent
  lost : ∀ i < w.buf.state.size, w.buf.state.colorAt i = .lost → w.lost i = true ∨ w.released i = true

variable {range : Range} {buf : SendBuf}

lemma Agrees.sentIn (h : w.Agrees) (hr : w.Reported range) : range.SentIn w.buf.state := by
  rcases hr with ⟨hne, hle⟩ | ⟨hended, rfl⟩
  · exact ⟨hne.le, hle, .inl hne⟩
  · have hsent : w.buf.state.sent = w.written.length := h.ended hended
    have hle := h.inv.wf.sent_le
    have hsize := h.inv.size_eq
    exact ⟨le_rfl, hsent.ge, .inr (by change w.written.length = w.buf.state.size; omega)⟩

lemma Agrees.extended (h : w.Agrees) (hended : w.ended = false) {written : Bytes} (hinv : buf.Inv written)
    (hext : BufMap.Extended w.buf.state buf.state buf.state.size) :
    Agrees { w with buf := buf, written := written } where
  inv := hinv
  strict _ := hext.strict (h.strict hended)
  ended he := by cases hended.symm.trans he
  fresh := by
    change Consecutive 0 w.fresh buf.state.sent
    rw [hext.sent_eq]
    exact h.fresh
  lost i hi hcolor := by
    by_cases hlt : i < w.buf.state.size
    · exact h.lost i hlt ((hext.color i hlt).symm.trans hcolor)
    · cases (hext.fresh i (by omega) hi).symm.trans hcolor

lemma Agrees.repainted (h : w.Agrees) (hinv : buf.Inv w.written) (hsize : buf.state.size = w.buf.state.size)
    (hsent : buf.state.sent = w.buf.state.sent) (hstrict : w.ended = false → buf.state.Strict)
    {lost released : Nat → Bool}
    (hlost : ∀ i < w.buf.state.size, buf.state.colorAt i = .lost → lost i = true ∨ released i = true) :
    Agrees { w with buf := buf, lost := lost, released := released } where
  inv := hinv
  strict := hstrict
  ended hended := hsent.trans (h.ended hended)
  fresh := by
    change Consecutive 0 w.fresh buf.state.sent
    rw [hsent]
    exact h.fresh
  lost i hi := hlost i (hsize ▸ hi)

lemma Agrees.strict_of_repaint (h : w.Agrees) (hr : w.Reported range) {m : BufMap} {f : Color → Color}
    (hpaint : BufMap.Repaint w.buf.state m range f) (hended : w.ended = false) : m.Strict := by
  have hstop := (h.sentIn hr).stop_le
  have hsent := h.inv.wf.sent_le
  rcases hr with ⟨hne, -⟩ | ⟨he, -⟩
  · exact hpaint.strict (h.strict hended) (by omega)
  · cases hended.symm.trans he

lemma Agrees.pickedUp (h : w.Agrees) {state : BufMap} {isFresh : Bool}
    (hinv : SendBuf.Inv { w.buf with state := state } w.written)
    (hpicked : BufMap.Picked w.buf.state state range (if isFresh then .pending else .lost)) :
    Agrees { w with
      buf := { w.buf with state := state }
      picks := w.picks ++ [(range, isFresh)]
      lost := fun i => w.lost i && !decide (range.start ≤ i ∧ i < range.stop)
      released := fun i => w.released i && !decide (range.start ≤ i ∧ i < range.stop) } where
  inv := hinv
  strict hended := hpicked.strict (h.strict hended)
  ended hended := by
    have hsent : w.buf.state.sent = w.written.length := h.ended hended
    have hle := hpicked.sent_le
    have hbound := hinv.wf.sent_le
    have hsize := hinv.size_eq
    change state.sent = w.written.length
    change state.sent ≤ state.size at hbound
    change state.size = _ at hsize
    omega
  fresh := by
    change Consecutive 0 (((w.picks ++ [(range, isFresh)]).filter Prod.snd).map Prod.fst) state.sent
    rw [List.filter_append, List.map_append, hpicked.sent_eq]
    cases isFresh with
    | true =>
      have hstart := (hpicked.place.resolve_right fun hlost => by cases hlost.1).2
      exact h.fresh.append hstart hpicked.sentIn.le
    | false =>
      change Consecutive 0 (w.fresh ++ []) w.buf.state.sent
      rw [List.append_nil]
      exact h.fresh
  lost i hi hcolor := by
    change i < state.size at hi
    rw [hpicked.size_eq] at hi
    change state.colorAt i = .lost at hcolor
    rw [hpicked.color i hi] at hcolor
    by_cases hmem : range.Mem i
    · rw [if_pos hmem] at hcolor
      cases hcolor
    · rw [if_neg hmem] at hcolor
      have hout : decide (range.start ≤ i ∧ i < range.stop) = false := decide_eq_false hmem
      change (w.lost i && !decide _) = true ∨ (w.released i && !decide _) = true
      rw [hout, Bool.not_false, Bool.and_true, Bool.and_true]
      exact h.lost i hi hcolor

lemma Agrees.step (h : w.Agrees) {op : FreshOp} (hop : w.Issued op) (he : w.exec op = some w') : w'.Agrees := by
  cases op with
  | finish =>
    cases he
    exact ⟨h.inv, fun hended => (by cases hended), fun _ => hop, h.fresh, h.lost⟩
  | buf op =>
    cases op with
    | write data =>
      obtain ⟨buf, hbuf, he⟩ := of_bind he
      cases he
      have hroom : data ≠ [] → min (w.written.length + data.length) w.buf.maxData < 2 ^ 62 := by
        intro hne
        by_contra hover
        cases (h.inv.write_eq_none hne (by omega)).symm.trans hbuf
      obtain ⟨buf', hbuf', hinv, -, hext⟩ := h.inv.write_step (h.strict hop) data hroom
      cases hbuf.symm.trans hbuf'
      exact h.extended hop hinv hext
    | extend maxData =>
      obtain ⟨buf, hbuf, he⟩ := of_bind he
      cases he
      have hroom : min w.written.length maxData < 2 ^ 62 := by
        by_contra hover
        cases (h.inv.extend_eq_none (by omega)).symm.trans hbuf
      obtain ⟨buf', hbuf', hinv, -, hext⟩ := h.inv.extend_step (h.strict hop.1) hop.2 hroom
      cases hbuf.symm.trans hbuf'
      exact h.extended hop.1 hinv hext
    | pickUp predicate flowLimit =>
      obtain ⟨⟨res, buf⟩, hbuf, he⟩ := of_bind he
      rcases h.inv.pickUp_cases flowLimit hop with
        ⟨a, ha, -⟩ | ⟨hnone, -⟩ | ⟨range, isFresh, data, state, hp, hpicked, hinv, -⟩
      · cases ha.symm.trans hbuf
        cases he
        exact h
      · cases hnone.symm.trans hbuf
      · cases hp.symm.trans hbuf
        cases he
        exact h.pickedUp hinv hpicked
    | onDataAcked range =>
      obtain ⟨buf, hbuf, he⟩ := of_bind he
      cases he
      obtain ⟨buf', hbuf', hinv, -, hpaint⟩ := h.inv.onDataAcked_step (h.sentIn hop)
      cases hbuf.symm.trans hbuf'
      refine h.repainted hinv hpaint.size_eq hpaint.sent_eq (h.strict_of_repaint hop hpaint) ?_
      intro i hi hcolor
      rw [hpaint.color i hi] at hcolor
      split at hcolor
      · cases hcolor
      · exact h.lost i hi hcolor
    | mayLossData range =>
      obtain ⟨buf, hbuf, he⟩ := of_bind he
      cases he
      obtain ⟨buf', hbuf', hinv, -, hpaint⟩ := h.inv.mayLossData_step (h.sentIn hop)
      cases hbuf.symm.trans hbuf'
      refine h.repainted hinv hpaint.size_eq hpaint.sent_eq (h.strict_of_repaint hop hpaint) ?_
      intro i hi hcolor
      rw [hpaint.color i hi] at hcolor
      split at hcolor
      · next hmem => exact .inl (Bool.or_eq_true_iff.mpr (.inr (decide_eq_true hmem)))
      · exact (h.lost i hi hcolor).imp_left fun hlost => Bool.or_eq_true_iff.mpr (.inl hlost)
    | multipathHandshake =>
      cases he
      obtain ⟨-, hsent, hcolors, hstrict⟩ := h.inv.wf.markFlightingLost_spec
      refine h.repainted h.inv.multipathHandshake_step rfl hsent (fun hended => hstrict (h.strict hended)) ?_
      intro i hi hcolor
      have hlose : (w.buf.state.colorAt i).lose = .lost := (hcolors i).symm.trans hcolor
      rw [Bool.or_eq_true_iff, decide_eq_true_eq]
      cases hc : w.buf.state.colorAt i with
      | flighting => exact .inr (.inr rfl)
      | lost => exact (h.lost i hi hc).imp_right .inl
      | pending | recved =>
        rw [hc] at hlose
        cases hlose

theorem agrees_of_reach {capacity : Nat} (h : (freshSystem capacity).Reach w) : w.Agrees := by
  refine h.invariant ?_ fun w op w' hw hop he => hw.step hop he
  rintro w rfl
  exact ⟨SendBuf.inv_withCapacity capacity, fun _ => List.forall_mem_nil _, fun hended => (by cases hended),
    rfl, fun i hi => absurd hi (Nat.not_lt_zero i)⟩

/-- Over every run the fresh ranges cover what was sent, once and in order. Every pick takes the lowest interval that
may be sent, inside the limits, and what it takes a second time was reported lost or released for another path. -/
theorem pickUp_fresh_once {capacity : Nat} (hw : (freshSystem capacity).Reach w) :
    Consecutive 0 w.fresh w.buf.sent ∧
    ∀ predicate flowLimit range isFresh data buf, (∀ o n, predicate o = some n → 0 < n) →
      w.buf.pickUp predicate flowLimit = some (.ok (range, isFresh, data), buf) →
      w.Right flowLimit range isFresh data := by
  have h := agrees_of_reach hw
  refine ⟨h.fresh, ?_⟩
  intro predicate flowLimit range isFresh data buf hpos hpick
  have hlowest : ∃ s ∈ w.buf.state.segs, s.offset = range.start ∧ BufMap.Pickable flowLimit w.buf.maxData s ∧
      ∀ t ∈ w.buf.state.segs, BufMap.Pickable flowLimit w.buf.maxData t → s.offset ≤ t.offset := by
    obtain ⟨⟨picked, state⟩, hstate, hrest⟩ := of_bind hpick
    cases picked with
    | error a => cases hrest
    | ok r =>
      obtain ⟨_, -, hrest⟩ := of_bind hrest
      cases hrest
      exact h.inv.wf.pick_lowest hstate
  rcases h.inv.pickUp_cases flowLimit hpos with
    ⟨a, ha, -⟩ | ⟨hnone, -⟩ | ⟨range', isFresh', data', state, hp, hpicked, hinv, hbytes, hflow, -⟩
  · cases ha.symm.trans hpick
  · cases hnone.symm.trans hpick
  · cases hp.symm.trans hpick
    have hstop := hpicked.sentIn.stop_le
    have hsent := hpicked.wf.sent_le
    have hsize := hpicked.size_eq
    have hmin := h.inv.size_eq
    refine ⟨hpicked.sentIn.le, by omega, ?_, ?_, hlowest, hbytes, by omega⟩
    · intro hfresh
      have hroom := hflow hfresh
      rw [hfresh] at hpicked
      exact ⟨(hpicked.place.resolve_right fun hlost => by cases hlost.1).2, by omega⟩
    · intro hfresh i hle hlt
      rw [hfresh] at hpicked
      exact h.lost i (by omega) (hpicked.before i ⟨hle, hlt⟩)

/-- Six bytes in two picks, of which the first is lost. -/
theorem pickUp_fresh_once_lost : ∃ w, (freshSystem 8).Reach w ∧ w.fresh = [⟨0, 2⟩, ⟨2, 4⟩] ∧
    Consecutive 0 w.fresh w.buf.sent ∧ ∃ data, w.Right 10 ⟨0, 2⟩ false data := by
  have hpos : ∀ o n : Nat, (fun _ => some 2 : Nat → Option Nat) o = some n → 0 < n := by
    intro o n hn
    cases hn
    decide
  have h₀ : (freshSystem 8).Reach _ := .start rfl
  have h₁ := h₀.step (e := FreshOp.buf (.write [1, 2, 3, 4, 5, 6])) rfl rfl
  have h₂ := h₁.step (e := FreshOp.buf (.pickUp (fun _ => some 2) 10)) hpos rfl
  have h₃ := h₂.step (e := FreshOp.buf (.pickUp (fun _ => some 2) 10)) hpos rfl
  have h₄ := h₃.step (e := FreshOp.buf (.mayLossData ⟨0, 2⟩)) (.inl ⟨by decide, by decide⟩) rfl
  obtain ⟨hfresh, hright⟩ := pickUp_fresh_once h₄
  exact ⟨_, h₄, rfl, hfresh, _, hright _ 10 ⟨0, 2⟩ false _ _ hpos rfl⟩

/-- Two bytes go out a second time although nothing was reported lost. -/
theorem pickUp_again_not_lost : ∃ w, (freshSystem 8).Reach w ∧ w.picks = [(⟨0, 2⟩, true)] ∧ (∀ i, w.lost i = false) ∧
    ∃ data buf, w.buf.pickUp (fun _ => some 2) 10 = some (.ok (⟨0, 2⟩, false, data), buf) := by
  have hpos : ∀ o n : Nat, (fun _ => some 2 : Nat → Option Nat) o = some n → 0 < n := by
    intro o n hn
    cases hn
    decide
  have h₀ : (freshSystem 8).Reach _ := .start rfl
  have h₁ := h₀.step (e := FreshOp.buf (.write [1, 2])) rfl rfl
  have h₂ := h₁.step (e := FreshOp.buf (.pickUp (fun _ => some 2) 10)) hpos rfl
  have h₃ := h₂.step (e := FreshOp.buf .multipathHandshake) trivial rfl
  exact ⟨_, h₃, rfl, fun _ => rfl, _, _, rfl⟩

end FreshWorld

end Dquic
