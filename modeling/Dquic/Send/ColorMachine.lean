import Dquic.Lib.System
import Dquic.Send.Buffered

/-!
# The colours of a send buffer as a machine per byte

The naive machine keeps one colour for each byte of the stream. `SendBuf`, driven by any sequence
of its operations, keeps the same colours in its interval map.
-/

namespace Dquic

open Lib

abbrev Colors := Nat → Color

namespace Colors

/-- A picked byte is in flight. A byte once acknowledged stays so. -/
def pick (c : Colors) (range : Range) : Colors := fun i =>
  if range.Mem i then (if c i = .recved then .recved else .flighting) else c i

def ack (c : Colors) (range : Range) : Colors := fun i => if range.Mem i then .recved else c i

/-- Loss affects only bytes in flight. -/
def loss (c : Colors) (range : Range) : Colors := fun i =>
  if range.Mem i ∧ c i = .flighting then .lost else c i

def multipathHandshake (c : Colors) : Colors := fun i => if c i = .flighting then .lost else c i

end Colors

inductive SendOp
  | write (data : Bytes)
  | extend (maxData : Nat)
  | pickUp (predicate : Nat → Option Nat) (flowLimit : Nat)
  | onDataAcked (range : Range)
  | mayLossData (range : Range)
  | multipathHandshake

/-- A send buffer beside the naive machine, with the ranges picked so far. -/
structure ColorWorld where
  buf : SendBuf
  colors : Colors
  picked : List Range

namespace ColorWorld

/-- The limit is never lowered, predicates allow at least one byte, and feedback is about
non-empty ranges that were picked. -/
def Issued (w : ColorWorld) : SendOp → Prop
  | .extend maxData => w.buf.maxData ≤ maxData
  | .pickUp predicate _ => ∀ o n, predicate o = some n → 0 < n
  | .onDataAcked range => range ∈ w.picked ∧ range.start < range.stop
  | .mayLossData range => range ∈ w.picked ∧ range.start < range.stop
  | _ => True

def exec (w : ColorWorld) : SendOp → Option ColorWorld
  | .write data => do
    let buf ← w.buf.write data
    some { w with buf := buf }
  | .extend maxData => do
    let buf ← w.buf.extend maxData
    some { w with buf := buf }
  | .pickUp predicate flowLimit => do
    let (res, buf) ← w.buf.pickUp predicate flowLimit
    match res with
    | .ok (range, _, _) => some ⟨buf, w.colors.pick range, range :: w.picked⟩
    | .error _ => some { w with buf := buf }
  | .onDataAcked range => do
    let buf ← w.buf.onDataAcked range
    some { w with buf := buf, colors := w.colors.ack range }
  | .mayLossData range => do
    let buf ← w.buf.mayLossData range
    some { w with buf := buf, colors := w.colors.loss range }
  | .multipathHandshake =>
    some { w with buf := w.buf.multipathHandshake, colors := w.colors.multipathHandshake }

/-- Where an operation may panic: `extend_to` asserts that offsets stay below `2^62`, and `pick` adds
the answer of the predicate to an offset. -/
def MayPanic (w : ColorWorld) : SendOp → Prop
  | .write data => data ≠ [] ∧ 2 ^ 62 ≤ min (w.buf.written + data.length) w.buf.maxData
  | .extend maxData => 2 ^ 62 ≤ min w.buf.written maxData
  | .pickUp predicate _ => ∃ s ∈ w.buf.state.segs, ∃ n, predicate s.offset = some n ∧ 2 ^ 64 ≤ s.offset + n
  | _ => False

structure Agree (w : ColorWorld) : Prop where
  inv : ∃ bytes, w.buf.Inv bytes
  strict : w.buf.state.Strict
  color : ∀ i < w.buf.state.size, w.buf.state.colorAt i = w.colors i
  fresh : ∀ i, w.buf.state.size ≤ i → w.colors i = .pending
  picked : ∀ range ∈ w.picked, range.start < range.stop → range.SentIn w.buf.state

end ColorWorld

/-- Runs of a send buffer that starts empty with the given limit. -/
def colorMachine (capacity : Nat) : System ColorWorld SendOp where
  init w := w = ⟨SendBuf.withCapacity capacity, fun _ => .pending, []⟩
  issued := ColorWorld.Issued
  exec := ColorWorld.exec

namespace ColorWorld

variable {w : ColorWorld}

variable {buf : SendBuf} {bytes : Bytes} {range : Range}

lemma Agree.extended (h : w.Agree) (hinv : buf.Inv bytes) (hext : BufMap.Extended w.buf.state buf.state buf.state.size) :
    Agree { w with buf := buf } where
  inv := ⟨bytes, hinv⟩
  strict := hext.strict h.strict
  color i hi := by
    by_cases hlt : i < w.buf.state.size
    · exact (hext.color i hlt).trans (h.color i hlt)
    · exact (hext.fresh i (by omega) hi).trans (h.fresh i (by omega)).symm
  fresh i hi := h.fresh i (hext.size_le.trans hi)
  picked range hr hne := (h.picked range hr hne).mono hne hext.sent_eq.ge

lemma Agree.outside (h : w.Agree) (hr : range.SentIn w.buf.state) {i : Nat} (hi : w.buf.state.size ≤ i) :
    ¬range.Mem i := by
  intro hmem
  have hstop := hr.stop_le
  obtain ⟨bytes, hinv⟩ := h.inv
  have hsent := hinv.wf.sent_le
  have hlt := hmem.2
  omega

lemma Agree.repainted (h : w.Agree) {f : Color → Color} {colors : Colors} (hinv : buf.Inv bytes)
    (hpaint : BufMap.Repaint w.buf.state buf.state range f) (hr : range.SentIn w.buf.state)
    (hne : range.start < range.stop) (hcolors : ∀ i, colors i = if range.Mem i then f (w.colors i) else w.colors i) :
    Agree { w with buf := buf, colors := colors } where
  inv := ⟨bytes, hinv⟩
  strict := by
    obtain ⟨bytes', hinv'⟩ := h.inv
    have hstop := hr.stop_le
    have hsent := hinv'.wf.sent_le
    exact hpaint.strict h.strict (by omega)
  color i hi := by
    change i < buf.state.size at hi
    rw [hpaint.size_eq] at hi
    change buf.state.colorAt i = colors i
    rw [hcolors, hpaint.color i hi, h.color i hi]
  fresh i hi := by
    change buf.state.size ≤ i at hi
    rw [hpaint.size_eq] at hi
    change colors i = .pending
    rw [hcolors, if_neg (h.outside hr hi)]
    exact h.fresh i hi
  picked r hr' hne' := (h.picked r hr' hne').mono hne' hpaint.sent_eq.ge

lemma Agree.pickedUp (h : w.Agree) {state : BufMap} {origin : Color}
    (hinv : SendBuf.Inv { w.buf with state := state } bytes) (hpicked : BufMap.Picked w.buf.state state range origin)
    (horigin : origin ≠ .recved) :
    Agree ⟨{ w.buf with state := state }, w.colors.pick range, range :: w.picked⟩ where
  inv := ⟨bytes, hinv⟩
  strict := hpicked.strict h.strict
  color i hi := by
    change i < state.size at hi
    rw [hpicked.size_eq] at hi
    change state.colorAt i = w.colors.pick range i
    rw [hpicked.color i hi, Colors.pick, ← h.color i hi]
    by_cases hmem : range.Mem i
    · rw [if_pos hmem, if_pos hmem, if_neg (by rw [hpicked.before i hmem]; exact horigin)]
    · rw [if_neg hmem, if_neg hmem]
  fresh i hi := by
    change state.size ≤ i at hi
    have hmem : ¬range.Mem i := by
      intro hmem
      have hstop := hpicked.sentIn.stop_le
      have hsent := hpicked.wf.sent_le
      have hlt := hmem.2
      omega
    rw [hpicked.size_eq] at hi
    change w.colors.pick range i = .pending
    rw [Colors.pick, if_neg hmem, h.fresh i hi]
  picked r hr hne := by
    rcases List.mem_cons.mp hr with rfl | hr
    · exact hpicked.sentIn
    · exact (h.picked r hr hne).mono hne hpicked.sent_le

/-- What one operation does: it keeps the agreement, and panics only where `MayPanic` says. -/
theorem Agree.step (h : w.Agree) {op : SendOp} (hop : w.Issued op) :
    (∀ w', w.exec op = some w' → w'.Agree) ∧ (w.exec op = none → w.MayPanic op) := by
  obtain ⟨bytes, hinv⟩ := h.inv
  cases op with
  | write d =>
    by_cases hroom : d ≠ [] ∧ 2 ^ 62 ≤ min (bytes.length + d.length) w.buf.maxData
    · simp only [exec, hinv.write_eq_none hroom.1 hroom.2, Option.bind_eq_bind, Option.bind_none]
      exact ⟨nofun, fun _ => by rw [MayPanic, hinv.written_eq]; exact hroom⟩
    · obtain ⟨buf, hbuf, hinv', -, hext⟩ := hinv.write_step h.strict d (fun hd => by
        by_contra hle
        exact hroom ⟨hd, by omega⟩)
      simp only [exec, hbuf, some_bind]
      exact ⟨fun w' hw' => Option.some.inj hw' ▸ h.extended hinv' hext, nofun⟩
  | extend maxData =>
    by_cases hroom : 2 ^ 62 ≤ min bytes.length maxData
    · simp only [exec, hinv.extend_eq_none hroom, Option.bind_eq_bind, Option.bind_none]
      exact ⟨nofun, fun _ => by rw [MayPanic, hinv.written_eq]; exact hroom⟩
    · obtain ⟨buf, hbuf, hinv', -, hext⟩ := hinv.extend_step h.strict hop (by omega)
      simp only [exec, hbuf, some_bind]
      exact ⟨fun w' hw' => Option.some.inj hw' ▸ h.extended hinv' hext, nofun⟩
  | pickUp predicate flowLimit =>
    rcases hinv.pickUp_cases flowLimit hop with
      ⟨p, hp, -⟩ | ⟨hp, hwhy⟩ | ⟨range, fresh, data, state, hp, hpicked, hinv', -⟩
    · simp only [exec, hp, some_bind]
      exact ⟨fun w' hw' => Option.some.inj hw' ▸ h, nofun⟩
    · simp only [exec, hp, Option.bind_eq_bind, Option.bind_none]
      exact ⟨nofun, fun _ => hwhy⟩
    · have horigin : (if fresh = true then Color.pending else .lost) ≠ .recved := by
        cases fresh <;> decide
      simp only [exec, hp, some_bind]
      exact ⟨fun w' hw' => Option.some.inj hw' ▸ h.pickedUp hinv' hpicked horigin, nofun⟩
  | onDataAcked range =>
    have hr := h.picked range hop.1 hop.2
    obtain ⟨buf, hbuf, hinv', -, hpaint⟩ := hinv.onDataAcked_step hr
    simp only [exec, hbuf, some_bind]
    exact ⟨fun w' hw' => Option.some.inj hw' ▸ h.repainted hinv' hpaint hr hop.2 (fun i => rfl), nofun⟩
  | mayLossData range =>
    have hr := h.picked range hop.1 hop.2
    obtain ⟨buf, hbuf, hinv', -, hpaint⟩ := hinv.mayLossData_step hr
    simp only [exec, hbuf, some_bind]
    refine ⟨fun w' hw' => Option.some.inj hw' ▸ h.repainted hinv' hpaint hr hop.2 (fun i => ?_), nofun⟩
    unfold Colors.loss
    by_cases hmem : range.Mem i
    · cases hc : w.colors i <;> simp [hmem, Color.lose]
    · simp [hmem]
  | multipathHandshake =>
    obtain ⟨-, hsent, hcol, hstrict⟩ := hinv.wf.markFlightingLost_spec
    refine ⟨fun w' hw' => Option.some.inj hw' ▸ ⟨⟨bytes, hinv.multipathHandshake_step⟩, hstrict h.strict,
      fun i hi => ?_, fun i hi => ?_, fun r hr hne => ?_⟩, fun hnone => by cases hnone⟩
    · change w.buf.state.markFlightingLost.colorAt i = w.colors.multipathHandshake i
      rw [hcol, h.color i hi, Colors.multipathHandshake]
      cases w.colors i <;> rfl
    · have hp := h.fresh i hi
      simp [Colors.multipathHandshake, hp]
    · exact (h.picked r hr hne).mono hne hsent.ge

/-- Every reachable state of the machine agrees with the naive one. -/
theorem agree_of_reach {capacity : Nat} (h : (colorMachine capacity).Reach w) : w.Agree := by
  refine h.invariant (fun s hs => ?_) (fun s op s' hs hop he => (hs.step hop).1 s' he)
  change s = _ at hs
  subst hs
  exact ⟨⟨[], SendBuf.inv_withCapacity capacity⟩, by simp [BufMap.Strict, SendBuf.withCapacity, BufMap.empty],
    by simp [SendBuf.withCapacity, BufMap.empty], fun _ _ => rfl, by simp⟩

end ColorWorld

/-- The interval map of a send buffer refines one colour per byte over every run: colours agree, bytes
beyond the limit of the peer are still pending, states lie in order below the size with at most the last
one pending, and no operation panics inside `pick`, `ack_rcvd`, `may_loss` or `may_lost_from` except
where an offset and the answer of a predicate add up to `2^64` or more. -/
theorem colorMachine_refines (capacity : Nat) (w : ColorWorld) (h : (colorMachine capacity).Reach w) :
    (∀ i < w.buf.state.size, w.buf.state.colorAt i = w.colors i) ∧
    (∀ i, w.buf.state.size ≤ i → i < w.buf.written → w.colors i = .pending) ∧
    Increasing w.buf.state.segs ∧ (∀ s ∈ w.buf.state.segs, s.offset < w.buf.state.size) ∧
    (∀ A s B, w.buf.state.segs = A ++ s :: B → s.color = .pending → B = []) ∧
    ∀ op, w.Issued op → w.exec op = none → w.MayPanic op := by
  have hagree := ColorWorld.agree_of_reach h
  obtain ⟨bytes, hinv⟩ := hagree.inv
  exact ⟨hagree.color, fun i hi _ => hagree.fresh i hi, hinv.wf.increasing, hagree.strict,
    fun A s B hsegs hp => (hinv.wf.split_sent hsegs).2 hp, fun op hop => (hagree.step hop).2⟩

/-- A run that writes, picks twice, loses the first range and acknowledges the second. -/
theorem colorMachine_refines_run : ∃ w, (colorMachine 8).Reach w ∧
    w.buf.state.segs = [⟨0, .lost⟩, ⟨2, .recved⟩, ⟨4, .pending⟩] ∧ w.buf.state.size = 6 ∧
    (∀ i < w.buf.state.size, w.buf.state.colorAt i = w.colors i) := by
  have hpos : ∀ o n : Nat, (fun _ => some 2 : Nat → Option Nat) o = some n → 0 < n := by
    intro o n hn
    simp at hn
    omega
  have h₀ : (colorMachine 8).Reach ⟨SendBuf.withCapacity 8, fun _ => .pending, []⟩ := .start rfl
  have h₁ := h₀.step (e := SendOp.write [1, 2, 3, 4, 5, 6]) trivial rfl
  have h₂ := h₁.step (e := SendOp.pickUp (fun _ => some 2) 10) hpos rfl
  have h₃ := h₂.step (e := SendOp.pickUp (fun _ => some 2) 10) hpos rfl
  have h₄ := h₃.step (e := SendOp.mayLossData ⟨0, 2⟩) ⟨by decide, by decide⟩ rfl
  have h₅ := h₄.step (e := SendOp.onDataAcked ⟨2, 4⟩) ⟨by decide, by decide⟩ rfl
  exact ⟨_, h₅, by decide, by decide, (colorMachine_refines 8 _ h₅).1⟩

/-- The states of a buffer lose nothing as words of 64 bits: over every run each word gives back its offset and its
colour, and recolouring a word recolours its state. -/
theorem colorMachine_packs (capacity : Nat) (w : ColorWorld) (h : (colorMachine capacity).Reach w) :
    (∀ raw ∈ w.buf.state.words, raw < 2 ^ 64) ∧
    w.buf.state.words.map packedDecode = w.buf.state.segs.map (fun s => (s.offset, some s.color)) ∧
    ∀ s ∈ w.buf.state.segs, ∀ c, packedSetColor (packState s.offset s.color) c = packState s.offset c := by
  obtain ⟨bytes, hinv⟩ := (ColorWorld.agree_of_reach h).inv
  have hlt : ∀ s ∈ w.buf.state.segs, s.offset < 2 ^ 62 := fun s hs => (hinv.wf.bounded s hs).trans_lt hinv.wf.size_lt
  refine ⟨List.forall_mem_map.mpr fun s hs => packState_lt (hlt s hs) _, ?_,
    fun s hs => packedSetColor_packState (hlt s hs) _⟩
  rw [BufMap.words, List.map_map]
  exact List.map_congr_left fun s hs => packedDecode_packState (hlt s hs) _

theorem colorMachine_packs_two : ∃ w, (colorMachine 8).Reach w ∧ w.buf.state.words = [2 ^ 62, 1] ∧
    w.buf.state.words.map packedDecode = [(0, some .flighting), (1, some .pending)] := by
  have h₀ : (colorMachine 8).Reach ⟨SendBuf.withCapacity 8, fun _ => .pending, []⟩ := .start rfl
  have h₁ := h₀.step (e := SendOp.write [1, 2]) trivial rfl
  have h₂ := h₁.step (e := SendOp.pickUp (fun _ => some 1) 1) (fun _ _ h => by cases h; exact Nat.one_pos) rfl
  exact ⟨_, h₂, by decide, (colorMachine_packs 8 _ h₂).2.1⟩

end Dquic
