import Dquic.Frame.Frames

/-!
# Connection flow control

`SendControler`, the credit taken from it, and `RecvController` of `qbase/src/flow.rs`. A credit
is taken out of the limit at once, and what it did not use goes back when it is dropped.
-/

namespace Dquic

structure SendControler where
  sentData : Nat
  maxData : Nat
  flowLimited : Bool
  deriving DecidableEq, Repr

structure RecvController where
  rcvdData : Nat
  maxData : Nat
  step : Nat
  deriving DecidableEq, Repr

namespace SendControler

def new (initialMaxData : Nat) : SendControler := ⟨0, initialMaxData, false⟩

def increaseLimit (c : SendControler) (maxData : Nat) : SendControler :=
  if c.maxData < maxData then { c with maxData := maxData, flowLimited := false } else c

def avaliable (c : SendControler) : Option Nat := checkedSub c.maxData c.sentData

/-- Take `flow` out of the limit, and report when nothing is left. -/
def commit (c : SendControler) (flow : Nat) : Option (SendControler × Option DataBlockedFrame) := do
  let sentData ← checkedAdd c.sentData flow
  let c := { c with sentData := sentData }
  let avaliable ← c.avaliable
  if avaliable = 0 ∧ c.flowLimited = false then
    let limit ← VarInt.fromU64 c.maxData
    some ({ c with flowLimited := true }, some ⟨limit⟩)
  else some (c, none)

def returnBack (c : SendControler) (flow : Nat) : Option SendControler := do
  let sentData ← checkedSub c.sentData flow
  let c := { c with sentData := sentData }
  let _ ← c.avaliable
  some c

/-- `ArcSendControler::credit`: at most `quota` of what is left. -/
def credit (c : SendControler) (quota : Nat) : Option (Nat × SendControler × Option DataBlockedFrame) := do
  let left ← c.avaliable
  let avaliable := min left quota
  let (c, frame) ← c.commit avaliable
  some (avaliable, c, frame)

/-- `Credit::post_sent` with the fresh bytes that were sent, and then the drop of the credit. -/
def settle (c : SendControler) (available fresh : Nat) : Option SendControler := do
  let available ← checkedSub available fresh
  if available = 0 then some c else c.returnBack available

end SendControler

namespace RecvController

def new (initialMaxData : Nat) : RecvController := ⟨0, initialMaxData, initialMaxData / 2⟩

def onNewRcvd (c : RecvController) (frameType : FrameType) (amount : Nat) :
    Option (Except QuicError Nat × RecvController × Option MaxDataFrame) := do
  let rcvdData ← checkedAdd c.rcvdData amount
  let c := { c with rcvdData := rcvdData }
  if rcvdData ≤ c.maxData then
    let near ← checkedAdd rcvdData c.step
    if c.maxData ≤ near then
      let maxData ← checkedAdd c.maxData c.step
      let limit ← VarInt.fromU64 maxData
      some (.ok amount, { c with maxData := maxData }, some ⟨limit⟩)
    else some (.ok amount, c, none)
  else
    some (.error ⟨.flowControl, frameType, "flow control overflow: " ++ toString (rcvdData - c.maxData)⟩, c, none)

end RecvController

/-! ### What the controllers do -/

namespace SendControler

variable {c c' : SendControler} {frame : Option DataBlockedFrame} {n : Nat}

lemma increaseLimit_eq (c : SendControler) (maxData : Nat) :
    (c.increaseLimit maxData).sentData = c.sentData ∧ (c.increaseLimit maxData).maxData = max c.maxData maxData := by
  unfold increaseLimit
  by_cases h : c.maxData < maxData
  · rw [if_pos h]
    exact ⟨rfl, (max_eq_right h.le).symm⟩
  · rw [if_neg h]
    exact ⟨rfl, (max_eq_left (by omega)).symm⟩

lemma commit_eq {flow : Nat} (h : c.commit flow = some (c', frame)) :
    c'.sentData = c.sentData + flow ∧ c'.maxData = c.maxData := by
  obtain ⟨sent, hsent, h⟩ := of_bind h
  obtain ⟨left, -, h⟩ := of_bind h
  have hadd := checkedAdd_eq_some hsent
  split at h
  · obtain ⟨limit, -, h⟩ := of_bind h
    cases h
    exact ⟨hadd, rfl⟩
  · cases h
    exact ⟨hadd, rfl⟩

lemma credit_eq {quota : Nat} (h : c.credit quota = some (n, c', frame)) :
    c'.sentData = c.sentData + n ∧ c'.maxData = c.maxData ∧ c.sentData + n ≤ c.maxData := by
  obtain ⟨left, hleft, h⟩ := of_bind h
  obtain ⟨⟨c₁, frame₁⟩, hcommit, h⟩ := of_bind h
  cases h
  obtain ⟨hsent, hmax⟩ := commit_eq hcommit
  unfold avaliable checkedSub at hleft
  split at hleft
  · cases hleft
    exact ⟨hsent, hmax, by omega⟩
  · cases hleft

lemma settle_eq {available fresh : Nat} (h : c.settle available fresh = some c') :
    c'.sentData + (available - fresh) = c.sentData ∧ c'.maxData = c.maxData := by
  obtain ⟨rest, hrest, h⟩ := of_bind h
  obtain ⟨-, rfl⟩ := checkedSub_eq_some hrest
  split at h
  · rename_i hzero
    cases h
    omega
  · obtain ⟨sent, hsent, h⟩ := of_bind h
    obtain ⟨left, -, h⟩ := of_bind h
    cases h
    obtain ⟨hle, rfl⟩ := checkedSub_eq_some hsent
    refine ⟨?_, rfl⟩
    change c.sentData - (available - fresh) + (available - fresh) = c.sentData
    omega

end SendControler

namespace RecvController

variable {c c' : RecvController} {frameType : FrameType} {amount : Nat} {res : Except QuicError Nat}
  {frame : Option MaxDataFrame}

lemma onNewRcvd_eq (h : c.onNewRcvd frameType amount = some (res, c', frame))
    (hle : c.rcvdData + amount ≤ c.maxData) :
    res = .ok amount ∧ c'.rcvdData = c.rcvdData + amount ∧ c.maxData ≤ c'.maxData ∧
      ∀ f, frame = some f → f.maxData.val = c'.maxData := by
  obtain ⟨rcvd, hrcvd, h⟩ := of_bind h
  obtain rfl := checkedAdd_eq_some hrcvd
  rw [if_pos hle] at h
  obtain ⟨near, -, h⟩ := of_bind h
  split at h
  · obtain ⟨maxData, hmax, h⟩ := of_bind h
    obtain ⟨limit, hlimit, h⟩ := of_bind h
    cases h
    have hadd := checkedAdd_eq_some hmax
    refine ⟨rfl, rfl, ?_, ?_⟩
    · change c.maxData ≤ maxData
      exact hadd ▸ Nat.le_add_right _ _
    · intro f hf
      cases hf
      unfold VarInt.fromU64 at hlimit
      split at hlimit
      · cases hlimit
        rfl
      · cases hlimit
  · cases h
    refine ⟨rfl, rfl, le_rfl, ?_⟩
    intro f hf
    cases hf

end RecvController

end Dquic
