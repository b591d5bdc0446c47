import Dquic.Flow.Controller
import Dquic.Recv.Reassembly
import Dquic.Send.SenderRuns

/-!
# Two ends of connection flow control

Sending tasks take credit, spend it on the fresh bytes of any number of streams, and give back the
rest. STREAM and MAX_DATA frames may be lost, repeated and reordered on the way.
-/

namespace Dquic

open Lib

lemma sum_update_add {ι α : Type*} [Fintype ι] [DecidableEq ι] (g : α → Nat) (f : ι → α) (i : ι) (a : α) :
    ∑ j, g (Function.update f i a j) + g (f i) = ∑ j, g (f j) + g a := by
  have hfun : (fun j => g (Function.update f i a j)) = Function.update (fun j => g (f j)) i (g a) := by
    funext j
    exact Function.apply_update (fun _ => g) f i a j
  rw [hfun, Finset.sum_update_of_mem (Finset.mem_univ i), Finset.sdiff_singleton_eq_erase, add_assoc,
    Finset.sum_erase_add _ (fun j => g (f j)) (Finset.mem_univ i), add_comm]

def offsetsOf : List StreamFrame → Finset Nat
  | [] => ∅
  | f :: l => Finset.Ico f.range.start f.range.stop ∪ offsetsOf l

lemma offsetsOf_push (log : Ledger StreamFrame) (f : StreamFrame) :
    offsetsOf (log.push f).issued = offsetsOf log.issued ∪ Finset.Ico f.range.start f.range.stop := by
  change offsetsOf (log.issued ++ [f]) = _
  induction log.issued with
  | nil => simp [offsetsOf]
  | cons g l ih => rw [List.cons_append, offsetsOf, ih, offsetsOf, Finset.union_assoc]

/-- A `Credit`, and what `poll_dump` has not spent of it yet. -/
structure Credit where
  available : Nat
  remaining : Nat
  deriving DecidableEq, Repr

def Credit.unspent (c : Option Credit) : Nat := c.elim 0 Credit.remaining

structure Wired (ι : Type) where
  stream : ι
  frame : StreamFrame
  data : Bytes

/-- Both ends, with streams `ι` and sending tasks `κ`, and every frame that was ever sent. -/
structure FlowWorld (ι κ ε : Type) where
  snd : SendControler
  credits : κ → Option Credit
  streams : ι → SenderWorld ε
  wire : List (Wired ι)
  rcv : RecvController
  rcvbufs : ι → RecvBuf
  granted : List MaxDataFrame
  refused : List QuicError

inductive FlowOp (ι κ : Type)
  | stream (i : ι) (op : StreamOp)
  | credit (k : κ) (quota : Nat)
  | dump (k : κ) (i : ι) (capacity budget : Nat)
  | settle (k : κ)
  | deliver (n : Nat)
  | deliverMaxData (n : Nat)
  | tryRead (i : ι) (room : Nat)
  | tryNext (i : ι)

/-- Frames are taken from a stream by sending tasks only. -/
def StreamOp.isDump : StreamOp → Bool
  | .pollDump _ _ _ => true
  | _ => false

namespace FlowWorld

variable {ι κ ε : Type}

def Issued (w : FlowWorld ι κ ε) : FlowOp ι κ → Prop
  | .stream i op => (w.streams i).Issued op ∧ op.isDump = false
  | .credit k _ => w.credits k = none
  | .dump _ _ _ budget => 0 < budget
  | _ => True

variable [DecidableEq ι] [DecidableEq κ]

/-- One step of `DataStreams::poll_dump`, with the credit it holds, on the stream whose turn it is. -/
def dump (w : FlowWorld ι κ ε) (k : κ) (i : ι) (capacity budget : Nat) : Option (FlowWorld ι κ ε) := do
  let credit ← w.credits k
  let stream := w.streams i
  let (res, sender) ← Outgoing.pollDump stream.sender capacity credit.remaining budget
  match res with
  | .ok dump =>
    some { w with
      credits := Function.update w.credits k (some { credit with remaining := dump.credit })
      streams := Function.update w.streams i { stream with sender := sender, log := stream.log.push dump.frame }
      wire := w.wire ++ [⟨i, dump.frame, dump.data.flatten⟩] }
  | .error _ => some { w with streams := Function.update w.streams i { stream with sender := sender } }

/-- A STREAM frame arrives, and its stream says how much of it is new. -/
def deliver (w : FlowWorld ι κ ε) (n : Nat) : Option (FlowWorld ι κ ε) := do
  let p ← w.wire[n]?
  let (fresh, rcvbuf) ← (w.rcvbufs p.stream).recv p.frame.offset.val p.data
  let (res, rcv, frame) ← w.rcv.onNewRcvd p.frame.frameType fresh
  some { w with
    rcvbufs := Function.update w.rcvbufs p.stream rcvbuf
    rcv := rcv
    granted := w.granted ++ frame.toList
    refused := w.refused ++ (match res with | .ok _ => [] | .error e => [e]) }

def exec (w : FlowWorld ι κ ε) : FlowOp ι κ → Option (FlowWorld ι κ ε)
  | .stream i op => do
    let stream ← (w.streams i).exec op
    some { w with streams := Function.update w.streams i stream }
  | .credit k quota => do
    let (available, snd, _) ← w.snd.credit quota
    some { w with snd := snd, credits := Function.update w.credits k (some ⟨available, available⟩) }
  | .dump k i capacity budget => w.dump k i capacity budget
  | .settle k => do
    let credit ← w.credits k
    let fresh ← checkedSub credit.available credit.remaining
    let snd ← w.snd.settle credit.available fresh
    some { w with snd := snd, credits := Function.update w.credits k none }
  | .deliver n => w.deliver n
  | .deliverMaxData n => do
    let frame ← w.granted[n]?
    some { w with snd := w.snd.increaseLimit frame.maxData.val }
  | .tryRead i room => some { w with rcvbufs := Function.update w.rcvbufs i ((w.rcvbufs i).tryRead room).2 }
  | .tryNext i => some { w with rcvbufs := Function.update w.rcvbufs i (w.rcvbufs i).tryNext.2 }

/-- What the sending tasks hold and have not spent. -/
def outstanding [Fintype κ] (w : FlowWorld ι κ ε) : Nat := ∑ k, Credit.unspent (w.credits k)

def freshSent [Fintype ι] (w : FlowWorld ι κ ε) : Nat := ∑ i, (offsetsOf (w.streams i).log.issued).card

end FlowWorld

def flowSystem (ι κ ε : Type) [DecidableEq ι] [DecidableEq κ] (sid : ι → StreamId) (bufSize : ι → Nat)
    (initialMaxData : Nat) : System (FlowWorld ι κ ε) (FlowOp ι κ) where
  init w := w = ⟨SendControler.new initialMaxData, fun _ => none, fun i => SenderWorld.opened (sid i) (bufSize i), [],
    RecvController.new initialMaxData, fun _ => RecvBuf.empty, [], []⟩
  issued := FlowWorld.Issued
  exec := FlowWorld.exec

/-! ### The invariant of both ends -/

namespace SenderWorld

variable {ε : Type} {w w' : SenderWorld ε}

variable {op : StreamOp}

lemma issued_exec (hop : op.isDump = false) (he : w.exec op = some w') : w'.log.issued = w.log.issued := by
  rcases exec_issued he with ⟨hissued, -⟩ | ⟨capacity, credit, budget, dump, rfl, -⟩
  · exact hissued
  · cases hop

def claimed (w : SenderWorld ε) : Nat := claimedBy w.log.issued

/-- A stream agrees with its history, and sent its bytes without a gap. -/
structure Gapless (w : SenderWorld ε) (sid : StreamId) : Prop where
  agrees : w.sender.Agrees sid w.toSenderHistory
  offsets : offsetsOf w.log.issued = Finset.range w.claimed

lemma gapless_opened (sid : StreamId) (bufSize : Nat) : (opened sid bufSize : SenderWorld ε).Gapless sid :=
  ⟨agrees_opened sid bufSize, rfl⟩

variable {sid : StreamId}

lemma Gapless.step (h : w.Gapless sid) (hissued : w.Issued op) (hop : op.isDump = false) (he : w.exec op = some w') :
    w'.Gapless sid ∧ w'.log.issued = w.log.issued := by
  have hlog := issued_exec hop he
  refine ⟨⟨agrees_step h.agrees hissued he, ?_⟩, hlog⟩
  rw [claimed, hlog]
  exact h.offsets

lemma Gapless.push (h : w.Gapless sid) {sender : ArcSender ε} {dump : Dump} {credit : Nat}
    (hpaid : dump.Paid w.log credit)
    (hagrees : sender.Agrees sid { w.toSenderHistory with log := w.log.push dump.frame }) :
    Gapless { w with sender := sender, log := w.log.push dump.frame } sid where
  agrees := hagrees
  offsets := by
    change offsetsOf (w.log.push dump.frame).issued = Finset.range (claimedBy (w.log.push dump.frame).issued)
    have hstart := hpaid.start_le
    rw [offsetsOf_push, claimedBy_push, h.offsets]
    ext o
    simp only [Finset.mem_union, Finset.mem_range, Finset.mem_Ico, claimed]
    omega

end SenderWorld

namespace FlowWorld

variable {ι κ ε : Type} [Fintype ι] [Fintype κ]

structure Agrees (w : FlowWorld ι κ ε) (sid : ι → StreamId) : Prop where
  streams : ∀ i, (w.streams i).Gapless (sid i)
  wire : ∀ p ∈ w.wire, p.frame ∈ (w.streams p.stream).log.issued ∧ p.data.length = p.frame.length
  credits : ∀ k c, w.credits k = some c → c.remaining ≤ c.available
  sent : w.snd.sentData = w.outstanding + ∑ i, (w.streams i).claimed
  limit : w.snd.sentData ≤ w.snd.maxData
  promised : w.snd.maxData ≤ w.rcv.maxData
  granted : ∀ f ∈ w.granted, f.maxData.val ≤ w.rcv.maxData
  wf : ∀ i, (w.rcvbufs i).Wf
  arrived : ∀ i, (w.rcvbufs i).largestOffset ≤ (w.streams i).claimed
  rcvd : w.rcv.rcvdData = ∑ i, (w.rcvbufs i).largestOffset
  refused : w.refused = []

namespace Agrees

variable {w w' : FlowWorld ι κ ε} {sid : ι → StreamId}

lemma freshSent_eq (h : w.Agrees sid) : w.freshSent = ∑ i, (w.streams i).claimed := by
  apply Finset.sum_congr rfl
  intro i _
  rw [(h.streams i).offsets, Finset.card_range]

lemma claimed_le (h : w.Agrees sid) : ∑ i, (w.streams i).claimed ≤ w.rcv.maxData := by
  have hsent := h.sent
  have hlimit := h.limit
  have hpromised := h.promised
  omega

variable {i : ι} {k : κ}

lemma stream [DecidableEq ι] (h : w.Agrees sid) {s : SenderWorld ε} (hs : s.Gapless (sid i))
    (hlog : s.log.issued = (w.streams i).log.issued) :
    Agrees { w with streams := Function.update w.streams i s } sid := by
  have hissued : ∀ j, (Function.update w.streams i s j).log.issued = (w.streams j).log.issued := by
    intro j
    by_cases hj : j = i
    · subst hj
      rw [Function.update_self, hlog]
    · rw [Function.update_of_ne hj]
  have hclaimed : ∀ j, (Function.update w.streams i s j).claimed = (w.streams j).claimed :=
    fun j => congrArg claimedBy (hissued j)
  exact
    { h with
      streams := by
        rw [Function.forall_update_iff w.streams (p := fun j t => t.Gapless (sid j))]
        exact ⟨hs, fun j _ => h.streams j⟩
      wire := fun p hp => by
        rw [hissued]
        exact h.wire p hp
      sent := by
        simp only [hclaimed]
        exact h.sent
      arrived := fun j => (h.arrived j).trans (hclaimed j).ge }

lemma recredit [DecidableEq κ] (h : w.Agrees sid) {t : Option Credit} {snd : SendControler}
    (ht : ∀ c, t = some c → c.remaining ≤ c.available)
    (hsent : snd.sentData + Credit.unspent (w.credits k) = w.snd.sentData + Credit.unspent t)
    (hle : snd.sentData ≤ snd.maxData) (hmax : snd.maxData = w.snd.maxData) :
    Agrees { w with snd := snd, credits := Function.update w.credits k t } sid := by
  have hsum := sum_update_add Credit.unspent w.credits k t
  have hold := h.sent
  unfold outstanding at hold
  refine { h with credits := ?_, sent := ?_, limit := hle, promised := hmax.trans_le h.promised }
  · rw [Function.forall_update_iff w.credits (p := fun _ t => ∀ c, t = some c → c.remaining ≤ c.available)]
    exact ⟨ht, fun j _ => h.credits j⟩
  · change snd.sentData = ∑ j, Credit.unspent (Function.update w.credits k t j) + ∑ i, (w.streams i).claimed
    omega

lemma dump [DecidableEq ι] [DecidableEq κ] (h : w.Agrees sid) {capacity budget : Nat} (hbudget : 0 < budget)
    (he : w.dump k i capacity budget = some w') : w'.Agrees sid := by
  obtain ⟨c, hc, he⟩ := of_bind he
  obtain ⟨⟨res, sender⟩, hres, he⟩ := of_bind he
  rcases (h.streams i).agrees.pollDump hbudget hres with ⟨a, rfl, hagrees⟩ | ⟨dump, rfl, hagrees, hpaid⟩
  · cases he
    exact h.stream ⟨hagrees, (h.streams i).offsets⟩ rfl
  · cases he
    set s : SenderWorld ε := { w.streams i with sender := sender, log := (w.streams i).log.push dump.frame }
    have hsum := sum_update_add SenderWorld.claimed w.streams i s
    have hcredit := sum_update_add Credit.unspent w.credits k (some { c with remaining := dump.credit })
    rw [hc] at hcredit
    change _ + c.remaining = _ + dump.credit at hcredit
    have hclaimed : s.claimed + dump.credit = (w.streams i).claimed + c.remaining := hpaid.claimed
    have hgrow : (w.streams i).claimed ≤ s.claimed := by
      change claimedBy _ ≤ claimedBy ((w.streams i).log.push dump.frame).issued
      rw [claimedBy_push]
      exact le_max_left _ _
    have hkeep : ∀ j, ∀ f ∈ (w.streams j).log.issued, f ∈ (Function.update w.streams i s j).log.issued := by
      rw [Function.forall_update_iff w.streams (p := fun j t => ∀ f ∈ (w.streams j).log.issued, f ∈ t.log.issued)]
      exact ⟨fun f hf => Ledger.mem_push.mpr (.inl hf), fun j _ f hf => hf⟩
    have hold := h.sent
    unfold outstanding at hold
    refine { h with streams := ?_, wire := ?_, credits := ?_, sent := ?_, arrived := ?_ }
    · rw [Function.forall_update_iff w.streams (p := fun j t => t.Gapless (sid j))]
      exact ⟨(h.streams i).push hpaid hagrees, fun j _ => h.streams j⟩
    · intro p hp
      change p.frame ∈ (Function.update w.streams i s p.stream).log.issued ∧ _
      cases List.mem_append.mp hp with
      | inl hp => exact ⟨hkeep p.stream p.frame (h.wire p hp).1, (h.wire p hp).2⟩
      | inr hp =>
        rw [List.mem_singleton.mp hp, Function.update_self]
        exact ⟨Ledger.mem_push.mpr (.inr rfl), hpaid.length⟩
    · rw [Function.forall_update_iff w.credits (p := fun _ t => ∀ c, t = some c → c.remaining ≤ c.available)]
      refine ⟨?_, fun j _ => h.credits j⟩
      intro t ht
      cases ht
      have hrem := h.credits k c hc
      change dump.credit ≤ c.available
      omega
    · change w.snd.sentData = ∑ j, Credit.unspent (Function.update w.credits k _ j) +
        ∑ j, (Function.update w.streams i s j).claimed
      omega
    · rw [Function.forall_update_iff w.streams (p := fun j t => (w.rcvbufs j).largestOffset ≤ t.claimed)]
      exact ⟨(h.arrived i).trans hgrow, fun j _ => h.arrived j⟩

lemma read [DecidableEq ι] (h : w.Agrees sid) {buf : RecvBuf} (hwf : buf.Wf)
    (hlargest : buf.largestOffset = (w.rcvbufs i).largestOffset) :
    Agrees { w with rcvbufs := Function.update w.rcvbufs i buf } sid := by
  have hsum := sum_update_add RecvBuf.largestOffset w.rcvbufs i buf
  have hold := h.rcvd
  refine { h with wf := ?_, arrived := ?_, rcvd := ?_ }
  · rw [Function.forall_update_iff w.rcvbufs (p := fun _ t => t.Wf)]
    exact ⟨hwf, fun j _ => h.wf j⟩
  · rw [Function.forall_update_iff w.rcvbufs (p := fun j t => t.largestOffset ≤ (w.streams j).claimed)]
    exact ⟨hlargest.trans_le (h.arrived i), fun j _ => h.arrived j⟩
  · change w.rcv.rcvdData = ∑ j, (Function.update w.rcvbufs i buf j).largestOffset
    omega

lemma deliver [DecidableEq ι] (h : w.Agrees sid) {n : Nat} (he : w.deliver n = some w') : w'.Agrees sid := by
  obtain ⟨p, hp, he⟩ := of_bind he
  obtain ⟨⟨fresh, buf⟩, hrecv, he⟩ := of_bind he
  obtain ⟨⟨res, rcv, frame⟩, hrcv, he⟩ := of_bind he
  obtain ⟨hmem, hlen⟩ := h.wire p (List.mem_of_getElem? hp)
  have hstop : p.frame.offset.val + p.data.length ≤ (w.streams p.stream).claimed := hlen ▸ le_claimedBy hmem
  have hlt : p.data ≠ [] → p.frame.offset.val + p.data.length < 2 ^ 64 := by
    intro hne
    by_contra hover
    rw [(h.wf p.stream).recv_overflow hne (by omega)] at hrecv
    cases hrecv
  obtain ⟨b, hb, hwf, -, -, hlargest⟩ := (h.wf p.stream).recv_absorbs hlt
  obtain ⟨rfl, rfl⟩ := Prod.mk.inj (Option.some.inj (hb.symm.trans hrecv))
  have hbound : b.largestOffset ≤ (w.streams p.stream).claimed ∧
      (w.rcvbufs p.stream).largestOffset ≤ b.largestOffset := by
    have hold := h.arrived p.stream
    split at hlargest <;> omega
  have hsum := sum_update_add RecvBuf.largestOffset w.rcvbufs p.stream b
  have harrived : ∀ j, (Function.update w.rcvbufs p.stream b j).largestOffset ≤ (w.streams j).claimed := by
    rw [Function.forall_update_iff w.rcvbufs (p := fun j t => t.largestOffset ≤ (w.streams j).claimed)]
    exact ⟨hbound.1, fun j _ => h.arrived j⟩
  have htotal := Finset.sum_le_sum (fun j (_ : j ∈ Finset.univ) => harrived j)
  have hpaid := h.claimed_le
  have hrcvd := h.rcvd
  obtain ⟨rfl, hdata, hmax, hframe⟩ := RecvController.onNewRcvd_eq hrcv (by omega)
  cases he
  refine { h with promised := h.promised.trans hmax, granted := ?_, wf := ?_, arrived := harrived, rcvd := ?_, refused := ?_ }
  · intro f hf
    cases List.mem_append.mp hf with
    | inl hf => exact (h.granted f hf).trans hmax
    | inr hf => exact (hframe f (Option.mem_toList.mp hf)).le
  · rw [Function.forall_update_iff w.rcvbufs (p := fun _ t => t.Wf)]
    exact ⟨hwf, fun j _ => h.wf j⟩
  · change rcv.rcvdData = ∑ j, (Function.update w.rcvbufs p.stream b j).largestOffset
    omega
  · change w.refused ++ [] = []
    rw [h.refused, List.append_nil]

lemma step [DecidableEq ι] [DecidableEq κ] (h : w.Agrees sid) {op : FlowOp ι κ} (hop : w.Issued op)
    (he : w.exec op = some w') : w'.Agrees sid := by
  cases op with
  | stream i op =>
    obtain ⟨s, hs, he⟩ := of_bind he
    cases he
    obtain ⟨hgapless, hlog⟩ := (h.streams i).step hop.1 hop.2 hs
    exact h.stream hgapless hlog
  | credit k quota =>
    obtain ⟨⟨n, snd, frame⟩, hcredit, he⟩ := of_bind he
    cases he
    obtain ⟨hsent, hmax, hle⟩ := SendControler.credit_eq hcredit
    change w.credits k = none at hop
    apply h.recredit
    · intro c hc
      cases hc
      exact le_rfl
    · rw [hop]
      exact hsent
    · omega
    · exact hmax
  | dump k i capacity budget => exact h.dump hop he
  | settle k =>
    obtain ⟨c, hc, he⟩ := of_bind he
    obtain ⟨fresh, hfresh, he⟩ := of_bind he
    obtain ⟨snd, hsettle, he⟩ := of_bind he
    cases he
    have hle := h.credits k c hc
    rw [checkedSub_of_le hle] at hfresh
    cases hfresh
    obtain ⟨hsent, hmax⟩ := SendControler.settle_eq hsettle
    have hlimit := h.limit
    apply h.recredit
    · exact nofun
    · rw [hc]
      change snd.sentData + c.remaining = w.snd.sentData
      omega
    · omega
    · exact hmax
  | deliver n => exact h.deliver he
  | deliverMaxData n =>
    obtain ⟨frame, hframe, he⟩ := of_bind he
    cases he
    obtain ⟨hsent, hmax⟩ := w.snd.increaseLimit_eq frame.maxData.val
    have hgranted := h.granted frame (List.mem_of_getElem? hframe)
    refine { h with sent := hsent.trans h.sent, limit := ?_, promised := ?_ }
    · rw [hsent, hmax]
      exact h.limit.trans (le_max_left _ _)
    · rw [hmax]
      exact max_le h.promised hgranted
  | tryRead i room =>
    cases he
    obtain ⟨-, -, hlargest, hwf, -⟩ := (h.wf i).tryRead_takes room
    exact h.read hwf hlargest
  | tryNext i =>
    cases he
    rcases (h.wf i).tryNext_takes with ⟨d, -, -, -, hwf, -, hlargest, -⟩ | ⟨hnone, -⟩
    · exact h.read hwf hlargest
    · rw [hnone]
      exact h.read (h.wf i) rfl

lemma settle_isSome [DecidableEq ι] [DecidableEq κ] (h : w.Agrees sid) {c : Credit} (hc : w.credits k = some c) :
    (w.exec (.settle k : FlowOp ι κ)).isSome := by
  have hle := h.credits k c hc
  have hsent := h.sent
  have hlimit := h.limit
  have hmember : Credit.unspent (w.credits k) ≤ w.outstanding :=
    Finset.single_le_sum (f := fun k => Credit.unspent (w.credits k)) (fun _ _ => Nat.zero_le _) (Finset.mem_univ k)
  rw [hc] at hmember
  change c.remaining ≤ w.outstanding at hmember
  have hrest : checkedSub c.available (c.available - c.remaining) = some c.remaining := by
    rw [checkedSub_of_le (by omega), Nat.sub_sub_self hle]
  have hback : checkedSub w.snd.sentData c.remaining = some (w.snd.sentData - c.remaining) :=
    checkedSub_of_le (by omega)
  have havaliable : checkedSub w.snd.maxData (w.snd.sentData - c.remaining) =
      some (w.snd.maxData - (w.snd.sentData - c.remaining)) := checkedSub_of_le (by omega)
  have hsettle : (w.snd.settle c.available (c.available - c.remaining)).isSome := by
    unfold SendControler.settle
    rw [hrest]
    change (if c.remaining = 0 then some w.snd else w.snd.returnBack c.remaining).isSome
    split
    · rfl
    · unfold SendControler.returnBack SendControler.avaliable
      rw [hback]
      change ((checkedSub w.snd.maxData (w.snd.sentData - c.remaining)).bind _).isSome
      rw [havaliable]
      rfl
  obtain ⟨snd, hsnd⟩ := Option.isSome_iff_exists.mp hsettle
  change ((w.credits k).bind _).isSome
  rw [hc]
  change ((checkedSub c.available c.remaining).bind _).isSome
  rw [checkedSub_of_le hle]
  change ((w.snd.settle c.available (c.available - c.remaining)).bind _).isSome
  rw [hsnd]
  rfl

end Agrees

lemma agrees_of_reach [DecidableEq ι] [DecidableEq κ] {w : FlowWorld ι κ ε} {sid : ι → StreamId} {bufSize : ι → Nat}
    {initialMaxData : Nat} (hr : (flowSystem ι κ ε sid bufSize initialMaxData).Reach w) : w.Agrees sid := by
  apply hr.invariant (I := fun w => w.Agrees sid)
  · rintro w rfl
    exact
      { streams := fun i => SenderWorld.gapless_opened (sid i) (bufSize i)
        wire := fun p hp => absurd hp List.not_mem_nil
        credits := nofun
        sent := by simp [SendControler.new, outstanding, Credit.unspent, SenderWorld.claimed, SenderWorld.opened,
          Ledger.empty, claimedBy]
        limit := Nat.zero_le _
        promised := le_rfl
        granted := fun f hf => absurd hf List.not_mem_nil
        wf := fun _ => RecvBuf.wf_empty
        arrived := fun _ => le_rfl
        rcvd := by simp [RecvController.new, RecvBuf.empty]
        refused := rfl }
  · intro w op w' hw hop he
    exact hw.step hop he

end FlowWorld

/-- Two ends that start from the same limit never refuse each other's data, the sender stays within the limit, and
what it counts is what its tasks hold and what it has sent. -/
theorem flowSystem_within_limits {ι κ ε : Type} [Fintype ι] [Fintype κ] [DecidableEq ι] [DecidableEq κ]
    (sid : ι → StreamId) (bufSize : ι → Nat) (initialMaxData : Nat) (w : FlowWorld ι κ ε)
    (hr : (flowSystem ι κ ε sid bufSize initialMaxData).Reach w) :
    w.refused = [] ∧ w.snd.sentData ≤ w.snd.maxData ∧
      w.snd.avaliable = some (w.snd.maxData - w.snd.sentData) ∧
      w.snd.sentData = w.outstanding + w.freshSent ∧
      ∀ k c, w.credits k = some c → (w.exec (.settle k : FlowOp ι κ)).isSome := by
  have h := FlowWorld.agrees_of_reach hr
  refine ⟨h.refused, h.limit, checkedSub_of_le h.limit, ?_, fun k c hc => h.settle_isSome hc⟩
  rw [h.freshSent_eq]
  exact h.sent

/-- Two streams spend one credit, a lost frame is sent again without credit and arrives twice, and the limit is raised. -/
theorem flowSystem_within_limits_run :
    ∃ w, (flowSystem Bool Unit Unit (fun _ => ⟨⟨0, by decide⟩⟩) (fun _ => 8) 6).Reach w ∧
      w.rcv.rcvdData = 3 ∧ w.snd.maxData = 9 ∧ w.snd.sentData = 6 ∧ w.refused = [] ∧
      w.snd.sentData = w.outstanding + w.freshSent := by
  have hpos : 0 < 4096 := by decide
  have hone : 0 < 1 := by decide
  have h₀ : (flowSystem Bool Unit Unit (fun _ => ⟨⟨0, by decide⟩⟩) (fun _ => 8) 6).Reach _ := .start rfl
  have h₁ := h₀.step (e := FlowOp.stream false (.write [1, 2, 3])) ⟨trivial, rfl⟩ rfl
  have h₂ := h₁.step (e := FlowOp.stream true (.write [4, 5])) ⟨trivial, rfl⟩ rfl
  have h₃ := h₂.step (e := FlowOp.credit () 10) rfl rfl
  have h₄ := h₃.step (e := FlowOp.dump () false 100 4096) hpos rfl
  have h₅ := h₄.step (e := FlowOp.dump () true 100 4096) hpos rfl
  have h₆ := h₅.step (e := FlowOp.stream false (.mayLossData 0)) ⟨hone, rfl⟩ rfl
  have h₇ := h₆.step (e := FlowOp.dump () false 100 4096) hpos rfl
  have h₈ := h₇.step (e := FlowOp.deliver 2) trivial rfl
  have h₉ := h₈.step (e := FlowOp.deliver 0) trivial rfl
  have h₁₀ := h₉.step (e := FlowOp.deliverMaxData 0) trivial rfl
  have hall := flowSystem_within_limits _ _ _ _ h₁₀
  exact ⟨_, h₁₀, rfl, rfl, rfl, hall.1, hall.2.2.2.1⟩

end Dquic
