import Dquic.Recv.Reassembly

/-!
# Every order of arrival

Runs of a receive buffer, with the fragments in the order they arrived and the bytes read so far.
The first fragment to cover an unread offset decides its byte.
-/

namespace Dquic

open Lib

structure Arrival where
  offset : Nat
  data : Bytes
  nread : Nat
  deriving DecidableEq, Repr

/-- The byte of the first arrival that covered `i` when `i` was not read yet. -/
def firstCover (arrivals : List Arrival) (i : Nat) : Option UInt8 :=
  arrivals.findSome? (fun a => if a.nread ≤ i then (⟨a.offset, a.data⟩ : Segment).get i else none)

lemma firstCover_concat (arrivals : List Arrival) (a : Arrival) (i : Nat) :
    firstCover (arrivals ++ [a]) i = (firstCover arrivals i).or
      (if a.nread ≤ i then (⟨a.offset, a.data⟩ : Segment).get i else none) := by
  simp [firstCover, List.findSome?_append]

inductive RecvOp
  | recv (offset : Nat) (data : Bytes)
  | tryRead (room : Nat)
  | tryNext

/-- A receive buffer, what arrived, what was read, and the sum of what `recv` returned. -/
structure RecvWorld where
  buf : RecvBuf
  arrivals : List Arrival
  out : Bytes
  fresh : Nat

namespace RecvWorld

def exec (w : RecvWorld) : RecvOp → Option RecvWorld
  | .recv offset data => do
    let (fresh, buf) ← w.buf.recv offset data
    some ⟨buf, w.arrivals ++ [⟨offset, data, w.buf.nread⟩], w.out, w.fresh + fresh⟩
  | .tryRead room =>
    let (out, buf) := w.buf.tryRead room
    some { w with buf := buf, out := w.out ++ out }
  | .tryNext =>
    match w.buf.tryNext with
    | (some data, buf) => some { w with buf := buf, out := w.out ++ data }
    | (none, buf) => some { w with buf := buf }

structure Inv (w : RecvWorld) : Prop where
  wf : w.buf.Wf
  nread_eq : w.buf.nread = w.out.length
  read : ∀ i < w.buf.nread, w.out[i]? = firstCover w.arrivals i
  stored : ∀ i, w.buf.nread ≤ i → lookup w.buf.segments i = firstCover w.arrivals i
  fresh_eq : w.fresh = w.buf.largestOffset

variable {w : RecvWorld}

lemma Inv.takes (h : w.Inv) {out : Bytes} {buf : RecvBuf} (hwf : buf.Wf)
    (hn : buf.nread = w.buf.nread + out.length) (hl : buf.largestOffset = w.buf.largestOffset)
    (ht : RecvBuf.Takes w.buf.nread w.buf.segments out buf.segments) :
    Inv { w with buf := buf, out := w.out ++ out } where
  wf := hwf
  nread_eq := by
    change buf.nread = (w.out ++ out).length
    rw [hn, h.nread_eq, List.length_append]
  read i hi := by
    change i < buf.nread at hi
    change (w.out ++ out)[i]? = _
    rw [List.getElem?_append, ← h.nread_eq]
    by_cases hread : i < w.buf.nread
    · rw [if_pos hread, h.read i hread]
    · have hsum : w.buf.nread + (i - w.buf.nread) = i := by omega
      rw [if_neg hread, ← ht.known (i - w.buf.nread) (by omega), hsum, h.stored i (by omega)]
  stored i hi := by
    change buf.nread ≤ i at hi
    exact (ht.rest i (by omega)).trans (h.stored i (by omega))
  fresh_eq := h.fresh_eq.trans hl.symm

/-- What one operation preserves. -/
theorem Inv.step (h : w.Inv) {op : RecvOp} {w' : RecvWorld} (he : w.exec op = some w') : w'.Inv := by
  cases op with
  | recv offset data =>
    by_cases hlt : data ≠ [] → offset + data.length < 2 ^ 64
    · obtain ⟨buf, hrecv, hwf, hnread, hknown, hlargest⟩ := h.wf.recv_absorbs hlt
      simp only [exec, hrecv, some_bind, Option.some.injEq] at he
      subst he
      refine ⟨hwf, hnread.trans h.nread_eq, fun i hi => ?_, fun i hi => ?_, ?_⟩
      · change i < buf.nread at hi
        rw [hnread] at hi
        rw [firstCover_concat, if_neg (by change ¬w.buf.nread ≤ i; omega), Option.or_none]
        exact h.read i hi
      · change buf.nread ≤ i at hi
        rw [hnread] at hi
        rw [firstCover_concat, hknown i, h.stored i hi]
      · have hle : w.buf.largestOffset ≤ buf.largestOffset := by
          rw [hlargest]
          split
          · exact le_rfl
          · exact le_max_left _ _
        change w.fresh + (buf.largestOffset - w.buf.largestOffset) = buf.largestOffset
        have := h.fresh_eq
        omega
    · push Not at hlt
      simp only [exec, h.wf.recv_overflow hlt.1 hlt.2, Option.bind_eq_bind, Option.bind_none] at he
      cases he
  | tryRead room =>
    obtain ⟨-, hn, hl, hwf, ht⟩ := h.wf.tryRead_takes room
    simp only [exec, Option.some.injEq] at he
    subst he
    exact h.takes hwf hn hl ht
  | tryNext =>
    rcases h.wf.tryNext_takes with ⟨d, hd, -, -, hwf, hn, hl, ht⟩ | ⟨hnone, -⟩
    · have hpair : w.buf.tryNext = (some d, w.buf.tryNext.2) := Prod.ext hd rfl
      simp only [exec] at he
      rw [hpair] at he
      simp only [Option.some.injEq] at he
      subst he
      exact h.takes hwf hn hl ht
    · simp only [exec, hnone, Option.some.injEq] at he
      subst he
      exact h

end RecvWorld

/-- Runs of a receive buffer that starts empty, under any operations. -/
def recvMachine : System RecvWorld RecvOp where
  init w := w = ⟨RecvBuf.empty, [], [], 0⟩
  issued _ _ := True
  exec := RecvWorld.exec

lemma RecvWorld.inv_of_reach {w : RecvWorld} (h : recvMachine.Reach w) : w.Inv := by
  refine h.invariant (fun s hs => ?_) (fun s op s' hs _ he => hs.step he)
  change s = _ at hs
  subst hs
  exact ⟨RecvBuf.wf_empty, rfl, by simp [RecvBuf.empty], fun i _ => by simp [RecvBuf.empty, firstCover], rfl⟩

/-- A receive buffer reassembles under any order of arrival. Its fragments are non-empty, ordered,
disjoint and unread. Each byte read or stored is that of the first arrival to cover its offset. Reads
return the continuous content, whose length is `available`, from `nread` on. `recv` returns the
increase of the largest offset, and terminates for every fragment whose end is a `u64`. -/
theorem recvMachine_reassembles (w : RecvWorld) (h : recvMachine.Reach w) :
    (Apart w.buf.segments ∧ ∀ s ∈ w.buf.segments, w.buf.nread ≤ s.offset) ∧
    (w.out.length = w.buf.nread ∧ (∀ i < w.buf.nread, w.out[i]? = firstCover w.arrivals i) ∧
      ∀ i, w.buf.nread ≤ i → lookup w.buf.segments i = firstCover w.arrivals i) ∧
    ((∀ j < w.buf.available, (firstCover w.arrivals (w.buf.nread + j)).isSome) ∧
      firstCover w.arrivals (w.buf.nread + w.buf.available) = none ∧
      (∀ room, (w.buf.tryRead room).1.length = min room w.buf.available ∧
        ∀ j < min room w.buf.available,
          (w.buf.tryRead room).1[j]? = firstCover w.arrivals (w.buf.nread + j)) ∧
      (w.buf.tryNext.1 = none ↔ w.buf.available = 0) ∧
      ∀ d, w.buf.tryNext.1 = some d → d ≠ [] ∧ d.length ≤ w.buf.available ∧
        ∀ j < d.length, d[j]? = firstCover w.arrivals (w.buf.nread + j)) ∧
    (w.fresh = w.buf.largestOffset ∧ ∀ offset data n buf, w.buf.recv offset data = some (n, buf) →
      buf.largestOffset = w.buf.largestOffset + n) ∧
    ∀ offset data, offset + data.length < 2 ^ 64 → ∃ n buf, w.buf.recv offset data = some (n, buf) := by
  have hinv := RecvWorld.inv_of_reach h
  have hwf := hinv.wf
  have hend := RecvBuf.le_continuousEnd w.buf.nread w.buf.segments
  obtain ⟨hsome, hnone⟩ := RecvBuf.lookup_continuousEnd w.buf.nread w.buf.segments hwf.apart hwf.unread
  have havail : w.buf.nread + w.buf.available = RecvBuf.continuousEnd w.buf.nread w.buf.segments := by
    unfold RecvBuf.available
    omega
  refine ⟨⟨hwf.apart, hwf.unread⟩, ⟨hinv.nread_eq.symm, hinv.read, hinv.stored⟩, ⟨fun j hj => ?_, ?_,
    fun room => ?_, ?_, fun d hd => ?_⟩, ⟨hinv.fresh_eq, fun offset data n buf hrecv => ?_⟩,
    fun offset data hlt => ?_⟩
  · rw [← hinv.stored _ (by omega)]
    exact hsome _ (by omega) (by omega)
  · rw [← hinv.stored _ (by omega), havail]
    exact hnone
  · obtain ⟨hlen, -, -, -, ht⟩ := hwf.tryRead_takes room
    refine ⟨hlen, fun j hj => ?_⟩
    rw [← ht.known j (by omega), hinv.stored _ (by omega)]
  · rcases hwf.tryNext_takes with ⟨d, hd, hne, hle, -⟩ | ⟨hpair, hzero⟩
    · have := List.length_pos_iff.mpr hne
      rw [hd]
      simp only [reduceCtorEq, false_iff]
      omega
    · simp [hpair, hzero]
  · rcases hwf.tryNext_takes with ⟨d', hd', hne, hle, -, -, -, ht⟩ | ⟨hpair, -⟩
    · obtain rfl : d' = d := by simpa [hd'] using hd
      exact ⟨hne, hle, fun j hj => by rw [← ht.known j hj, hinv.stored _ (by omega)]⟩
    · simp [hpair] at hd
  · by_cases hlt : data ≠ [] → offset + data.length < 2 ^ 64
    · obtain ⟨buf', hrecv', -, -, -, hlargest⟩ := hwf.recv_absorbs hlt
      rw [hrecv'] at hrecv
      obtain ⟨rfl, rfl⟩ := Prod.mk.inj (Option.some.inj hrecv)
      have hle : w.buf.largestOffset ≤ buf'.largestOffset := by
        rw [hlargest]
        split
        · exact le_rfl
        · exact le_max_left _ _
      omega
    · push Not at hlt
      rw [hwf.recv_overflow hlt.1 hlt.2] at hrecv
      cases hrecv
  · have hlt' : data ≠ [] → offset + data.length < 2 ^ 64 := fun _ => hlt
    obtain ⟨buf, hrecv, -⟩ := hwf.recv_absorbs hlt'
    exact ⟨_, buf, hrecv⟩

/-- Fragments with a gap, an overlap and a duplicate, and a read of the continuous part. -/
theorem recvMachine_reassembles_run : ∃ w, recvMachine.Reach w ∧ w.out = [1, 2, 3] ∧
    w.buf.segments = [⟨3, [4]⟩, ⟨6, [7, 8]⟩] ∧ w.fresh = 8 ∧
    ∀ i < w.buf.nread, w.out[i]? = firstCover w.arrivals i := by
  have h₀ : recvMachine.Reach ⟨RecvBuf.empty, [], [], 0⟩ := .start rfl
  have h₁ := h₀.step (e := RecvOp.recv 6 [7, 8]) trivial rfl
  have h₂ := h₁.step (e := RecvOp.recv 1 [2, 3]) trivial rfl
  have h₃ := h₂.step (e := RecvOp.recv 0 [1, 9, 9, 4]) trivial rfl
  have h₄ := h₃.step (e := RecvOp.tryRead 3) trivial rfl
  exact ⟨_, h₄, by decide, by decide, by decide, (recvMachine_reassembles _ h₄).2.1.2.1⟩

end Dquic
