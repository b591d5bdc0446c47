import Dquic.Frame.Frames
import Dquic.Journal.IndexDeque
import Dquic.Lib.System

/-!
# Connection ids given to the peer

`LocalCids` of `qbase/src/cid/local_cid.rs`: an endpoint issues connection ids by sequence number,
replaces each one that the peer retires, and releases all of them at the end.
-/

namespace Dquic

open Lib

/-- What `gen_unique_cid` and `ResetToken::random_gen` yield for each sequence number. -/
abbrev CidSource := Nat → ConnectionId × ResetToken

def ResetToken.default : ResetToken := ⟨List.replicate resetTokenSize 0, List.length_replicate⟩

structure LocalCids where
  role : Role
  odcid : ConnectionId
  /-- A retired id leaves an empty slot. -/
  cidDeque : IndexDeque (Option (ConnectionId × ResetToken)) varintMax
  activeCidLimit : Option Nat

namespace LocalCids

variable (gen : CidSource)

def new (role : Role) (odcid scid : ConnectionId) : Option (LocalCids × NewConnectionIdFrame) := do
  let cidDeque ← IndexDeque.empty.pushBack (some (scid, ResetToken.default))
  let frame : NewConnectionIdFrame := ⟨.fromU32 1, .fromU32 0, (gen 1).1, (gen 1).2⟩
  let cidDeque ← cidDeque.pushBack (some (frame.id, frame.resetToken))
  some (⟨role, odcid, cidDeque, none⟩, frame)

def issueNewCid (l : LocalCids) : Option (LocalCids × NewConnectionIdFrame) := do
  let largest ← l.cidDeque.largest
  let seq ← VarInt.fromU64 largest
  let retirePriorTo ← VarInt.fromU64 l.cidDeque.offset
  let frame : NewConnectionIdFrame := ⟨seq, retirePriorTo, (gen largest).1, (gen largest).2⟩
  let cidDeque ← l.cidDeque.pushBack (some (frame.id, frame.resetToken))
  some ({ l with cidDeque := cidDeque }, frame)

/-- The loop of `set_limit`. -/
def issueNewCids (l : LocalCids) : Nat → Option (LocalCids × List NewConnectionIdFrame)
  | 0 => some (l, [])
  | n + 1 => do
    let (l, frame) ← l.issueNewCid gen
    let (l, frames) ← issueNewCids l n
    some (l, frame :: frames)

def setLimit (l : LocalCids) (activeCidLimit : Nat) :
    Option (Except QuicError Unit × LocalCids × List NewConnectionIdFrame) := do
  debugAssert (l.activeCidLimit = none)
  if activeCidLimit < 2 then
    some (.error ⟨.transportParameter, .crypto,
      "active connection id limit " ++ toString activeCidLimit ++ " < 2"⟩, l, [])
  else
    let largest ← l.cidDeque.largest
    let (l, frames) ← l.issueNewCids gen (activeCidLimit - largest)
    some (.ok (), { l with activeCidLimit := some activeCidLimit }, frames)

/-- The slot of a sequence number is emptied, and the empty ones at the front go. -/
def retire (l : LocalCids) (seq : Nat) : Option LocalCids := do
  let cidDeque := l.cidDeque.set seq none
  let cidDeque ← cidDeque.advance (cidDeque.deque.takeWhile Option.isNone).length
  some { l with cidDeque := cidDeque }

/-- A frame of the peer, with the frames sent and the ids released for it. -/
def recvRetireCidFrame (l : LocalCids) (frame : RetireConnectionIdFrame) :
    Option (Except QuicError Unit × LocalCids × List NewConnectionIdFrame × List ConnectionId) := do
  let seq := frame.sequence.val
  let largest ← l.cidDeque.largest
  if largest ≤ seq then
    some (.error ⟨.connectionIdLimit, .retireConnectionId, "Sequence(" ++ toString seq ++
      ") in RetireConnectionIdFrame exceeds the largest one(" ++ toString (largest - 1) ++ ") issued by us"⟩, l, [], [])
  else
    match l.cidDeque.get seq with
    | some (some (cid, _)) => do
      let l ← l.retire seq
      let (l, frame) ← l.issueNewCid gen
      some (.ok (), l, [frame], [cid])
    | _ => some (.ok (), l, [], [])

def clear (l : LocalCids) : Option (List ConnectionId) := do
  let largest ← l.cidDeque.largest
  let (drained, _) ← l.cidDeque.drainTo largest
  some (drained.reduceOption.map Prod.fst ++ if l.role = .server then [l.odcid] else [])

/-- The ids that were issued and not retired. -/
def active (l : LocalCids) : List ConnectionId := l.cidDeque.deque.reduceOption.map Prod.fst

end LocalCids

/-- The manager until it is dropped, the frames sent, the sequence numbers retired, and the calls of `retire_cid`. -/
structure LocalCidWorld where
  cids : Option LocalCids
  frames : List NewConnectionIdFrame
  gone : List Nat
  retired : List ConnectionId

inductive LocalCidOp
  | setLimit (limit : Nat)
  | recvRetire (frame : RetireConnectionIdFrame)
  | drop

namespace LocalCidWorld

def issued (w : LocalCidWorld) (scid : ConnectionId) : List ConnectionId := scid :: w.frames.map (·.id)

def exec (gen : CidSource) (w : LocalCidWorld) : LocalCidOp → Option LocalCidWorld
  | .setLimit limit => do
    let l ← w.cids
    let (_, l, frames) ← l.setLimit gen limit
    some { w with cids := some l, frames := w.frames ++ frames }
  | .recvRetire frame => do
    let l ← w.cids
    let (_, l, frames, retired) ← l.recvRetireCidFrame gen frame
    some
      { cids := some l
        frames := w.frames ++ frames
        gone := w.gone ++ retired.map fun _ => frame.sequence.val
        retired := w.retired ++ retired }
  | .drop => do
    let l ← w.cids
    let retired ← l.clear
    some { w with cids := none, retired := w.retired ++ retired }

end LocalCidWorld

lemma reduceOption_set_none {α : Type} {l : List (Option α)} {i : Nat} {a : α} (h : l[i]? = some (some a)) :
    l.reduceOption.Perm (a :: (l.set i none).reduceOption) := by
  induction l generalizing i with
  | nil => cases h
  | cons s l ih =>
    cases i with
    | zero =>
      cases h
      exact List.Perm.refl _
    | succ i =>
      have hperm := ih h
      cases s with
      | none => exact hperm
      | some b => exact (hperm.cons b).trans (List.Perm.swap a b _)

namespace LocalCids

variable {gen : CidSource} {l l' : LocalCids}

/-- A new id takes the next sequence number and asks for the retirement of what has left the deque. -/
lemma issueNewCid_eq_some {frame : NewConnectionIdFrame} (h : l.issueNewCid gen = some (l', frame)) :
    frame.sequence.val = l.cidDeque.next ∧ frame.retirePriorTo.val = l.cidDeque.offset ∧
      ∃ cidDeque, l.cidDeque.pushBack (some (frame.id, frame.resetToken)) = some cidDeque ∧
        cidDeque = ⟨l.cidDeque.deque ++ [some (frame.id, frame.resetToken)], l.cidDeque.offset⟩ ∧
        l' = { l with cidDeque := cidDeque } := by
  obtain ⟨largest, hlargest, h⟩ := of_bind h
  obtain ⟨seq, hseq, h⟩ := of_bind h
  obtain ⟨prior, hprior, h⟩ := of_bind h
  obtain ⟨cidDeque, hpush, h⟩ := of_bind h
  cases h
  have hval : ∀ {n : Nat} {v : VarInt}, VarInt.fromU64 n = some v → v.val = n := by
    intro n v hv
    unfold VarInt.fromU64 at hv
    split_ifs at hv
    cases hv
    rfl
  exact ⟨(hval hseq).trans (IndexDeque.largest_eq_some hlargest), hval hprior, cidDeque, hpush,
    (IndexDeque.pushBack_eq_some hpush).1, rfl⟩

/-- The deque, the frames and the calls of `retire_cid` agree. -/
structure Agrees (l : LocalCids) (scid : ConnectionId) (w : LocalCidWorld) : Prop where
  numbered : ∀ i f, w.frames[i]? = some f → f.sequence.val = i + 1
  next : l.cidDeque.next = w.frames.length + 1
  gone : ∀ k, k ∈ w.gone ↔ k < l.cidDeque.next ∧ l.cidDeque.slot k = none
  held : ∀ k value, l.cidDeque.slot k = some value → (w.issued scid)[k]? = some value.1
  perm : (w.retired ++ l.active).Perm (w.issued scid)
  prior : ∀ f ∈ w.frames, f.retirePriorTo.val ≤ l.cidDeque.offset ∧ f.retirePriorTo.val ≤ f.sequence.val

variable {scid : ConnectionId} {w : LocalCidWorld} {frames : List NewConnectionIdFrame}
  {value : ConnectionId × ResetToken} {frame : RetireConnectionIdFrame}

lemma Agrees.length_issued (hl : l.Agrees scid w) : (w.issued scid).length = l.cidDeque.next := by
  rw [hl.next, LocalCidWorld.issued, List.length_cons, List.length_map]

lemma Agrees.issue (hl : l.Agrees scid w) {frame : NewConnectionIdFrame} (h : l.issueNewCid gen = some (l', frame)) :
    l'.Agrees scid { w with frames := w.frames ++ [frame] } ∧ l'.active = l.active ++ [frame.id] ∧
      l'.role = l.role ∧ l'.odcid = l.odcid ∧ l'.activeCidLimit = l.activeCidLimit := by
  obtain ⟨hseq, hprior, cidDeque, hpush, hdeque, rfl⟩ := issueNewCid_eq_some h
  obtain ⟨hnext, hslot⟩ := IndexDeque.pushBack_slot hpush
  have hactive : active { l with cidDeque := cidDeque } = l.active ++ [frame.id] := by
    unfold active
    rw [hdeque, List.reduceOption_append, List.map_append]
    rfl
  have hissued : LocalCidWorld.issued { w with frames := w.frames ++ [frame] } scid = w.issued scid ++ [frame.id] := by
    unfold LocalCidWorld.issued
    rw [List.map_append, List.cons_append]
    rfl
  refine ⟨⟨fun i f hf => ?_, ?_, fun k => ?_, fun k value hk => ?_, ?_, fun f hf => ?_⟩, hactive, rfl, rfl, rfl⟩
  · rcases Nat.lt_trichotomy i w.frames.length with hlt | rfl | hgt
    · rw [List.getElem?_append_left hlt] at hf
      exact hl.numbered i f hf
    · rw [List.getElem?_concat_length] at hf
      cases hf
      exact hseq.trans hl.next
    · rw [List.getElem?_eq_none (by simpa using hgt)] at hf
      cases hf
  · change cidDeque.next = (w.frames ++ [frame]).length + 1
    rw [hnext, hl.next, List.length_append]
    rfl
  · change k ∈ w.gone ↔ k < cidDeque.next ∧ cidDeque.slot k = none
    rw [hl.gone k, hnext, hslot k]
    by_cases hk : k = l.cidDeque.next
    · rw [if_pos hk]
      constructor
      · intro hgone
        omega
      · intro hfresh
        cases hfresh.2
    · rw [if_neg hk]
      constructor
      · intro hgone
        exact ⟨by omega, hgone.2⟩
      · intro hfresh
        exact ⟨by omega, hfresh.2⟩
  · change cidDeque.slot k = some value at hk
    rw [hslot k] at hk
    rw [hissued]
    split_ifs at hk with hlast
    · cases hk
      rw [hlast, ← hl.length_issued, List.getElem?_concat_length]
    · have hlt : k < (w.issued scid).length := hl.length_issued ▸ (IndexDeque.slot_lt hk).2
      rw [List.getElem?_append_left hlt]
      exact hl.held k value hk
  · rw [hactive, ← List.append_assoc, hissued]
    exact hl.perm.append_right _
  · have hoffset : cidDeque.offset = l.cidDeque.offset := by rw [hdeque]
    change f.retirePriorTo.val ≤ cidDeque.offset ∧ _
    rw [hoffset]
    cases List.mem_append.mp hf with
    | inl hf => exact hl.prior f hf
    | inr hf =>
      rw [List.mem_singleton.mp hf, hprior, hseq]
      exact ⟨le_rfl, Nat.le_add_right _ _⟩

lemma Agrees.issueNewCids (hl : l.Agrees scid w) {n : Nat} (h : l.issueNewCids gen n = some (l', frames)) :
    l'.Agrees scid { w with frames := w.frames ++ frames } ∧ l'.active.length = l.active.length + n ∧
      l'.role = l.role ∧ l'.odcid = l.odcid := by
  induction n generalizing l w frames with
  | zero =>
    cases h
    rw [List.append_nil]
    exact ⟨hl, rfl, rfl, rfl⟩
  | succ n ih =>
    obtain ⟨⟨l₁, frame⟩, hissue, h⟩ := of_bind h
    obtain ⟨⟨l₂, rest⟩, hrest, h⟩ := of_bind h
    cases h
    obtain ⟨hl₁, hactive, hrole, hodcid, -⟩ := hl.issue hissue
    obtain ⟨hl₂, hlen, hrole₂, hodcid₂⟩ := ih hl₁ hrest
    refine ⟨?_, ?_, hrole₂.trans hrole, hodcid₂.trans hodcid⟩
    · change l'.Agrees scid { w with frames := w.frames ++ [frame] ++ rest } at hl₂
      rwa [List.append_assoc] at hl₂
    · rw [hlen, hactive, List.length_append, List.length_singleton]
      omega

lemma Agrees.retire (hl : l.Agrees scid w) {seq : Nat} (hslot : l.cidDeque.slot seq = some value) :
    ∃ l₁, l.retire seq = some l₁ ∧
      l₁.Agrees scid { w with gone := w.gone ++ [seq], retired := w.retired ++ [value.1] } ∧
      l₁.active.length + 1 = l.active.length ∧ l₁.role = l.role ∧ l₁.odcid = l.odcid ∧
      l₁.activeCidLimit = l.activeCidLimit := by
  have hlt := IndexDeque.slot_lt hslot
  have hget := IndexDeque.get_of_slot hslot
  rw [IndexDeque.get, if_pos hlt.1] at hget
  obtain ⟨hnext, hreclaim⟩ := IndexDeque.reclaim_slot (l.cidDeque.set seq none)
  have hempty : ∀ k, (l.cidDeque.set seq none).reclaim.slot k = if k = seq then none else l.cidDeque.slot k := by
    intro k
    rw [hreclaim k, IndexDeque.slot_set_none hlt.1]
  have hperm : l.active.Perm (value.1 :: active { l with cidDeque := (l.cidDeque.set seq none).reclaim }) := by
    unfold active
    rw [IndexDeque.reclaim_reduceOption]
    exact (reduceOption_set_none hget).map Prod.fst
  have hretire : l.retire seq = some { l with cidDeque := (l.cidDeque.set seq none).reclaim } := by
    rw [LocalCids.retire, IndexDeque.advance_takeWhile]
    rfl
  refine ⟨_, hretire, ⟨hl.numbered, ?_, fun k => ?_, fun k v hk => ?_, ?_, fun f hf => ?_⟩, ?_, rfl, rfl, rfl⟩
  · rw [hnext, IndexDeque.next_set]
    exact hl.next
  · rw [List.mem_append, List.mem_singleton, hl.gone k, hempty k, hnext, IndexDeque.next_set]
    by_cases hk : k = seq
    · rw [if_pos hk]
      exact ⟨fun _ => ⟨by omega, rfl⟩, fun _ => Or.inr hk⟩
    · rw [if_neg hk]
      exact ⟨fun h => h.resolve_right hk, Or.inl⟩
  · change (l.cidDeque.set seq none).reclaim.slot k = some v at hk
    rw [hempty k] at hk
    split_ifs at hk
    exact hl.held k v hk
  · change (w.retired ++ [value.1] ++ _).Perm (w.issued scid)
    rw [List.append_assoc]
    exact (hperm.symm.append_left w.retired).trans hl.perm
  · obtain ⟨hoffset, hle⟩ := hl.prior f hf
    exact ⟨hoffset.trans (IndexDeque.offset_le_reclaim (l.cidDeque.set seq none)), hle⟩
  · exact hperm.length_eq.symm

lemma Agrees.largest (hl : l.Agrees scid w) : l.cidDeque.largest = some l.cidDeque.next := by
  have hlt : l.cidDeque.next < 2 ^ 64 := by
    rw [hl.next]
    rcases Nat.eq_zero_or_pos w.frames.length with hzero | hpos
    · omega
    · have hlast := hl.numbered (w.frames.length - 1) _ (List.getElem?_eq_getElem (by omega))
      have hvar := (w.frames.get ⟨w.frames.length - 1, by omega⟩).sequence.lt
      rw [List.get_eq_getElem, hlast] at hvar
      omega
  exact checkedAdd_of_lt hlt

lemma Agrees.recvRetire_unissued (hl : l.Agrees scid w) (h : l.cidDeque.next ≤ frame.sequence.val) :
    ∃ e, l.recvRetireCidFrame gen frame = some (.error e, l, [], []) ∧ e.kind = .connectionIdLimit := by
  unfold recvRetireCidFrame
  simp only [hl.largest, some_bind, if_pos h]
  exact ⟨_, rfl, rfl⟩

lemma Agrees.recvRetire_gone (hl : l.Agrees scid w) (h : frame.sequence.val ∈ w.gone) :
    l.recvRetireCidFrame gen frame = some (.ok (), l, [], []) := by
  obtain ⟨hlt, hslot⟩ := (hl.gone _).mp h
  unfold recvRetireCidFrame
  simp only [hl.largest, some_bind, if_neg (not_le.mpr hlt)]
  unfold IndexDeque.slot at hslot
  split
  · rename_i hget
    rw [hget] at hslot
    cases hslot
  · rfl

lemma Agrees.recvRetire_active (hl : l.Agrees scid w) (hslot : l.cidDeque.slot frame.sequence.val = some value)
    {res : Except QuicError Unit} {retired : List ConnectionId}
    (h : l.recvRetireCidFrame gen frame = some (res, l', frames, retired)) :
    res = .ok () ∧ frames.length = 1 ∧ retired = [value.1] ∧
      l'.Agrees scid
        { w with
          frames := w.frames ++ frames
          gone := w.gone ++ [frame.sequence.val]
          retired := w.retired ++ [value.1] } ∧
      l'.active.length = l.active.length ∧ l'.role = l.role ∧ l'.odcid = l.odcid ∧
      l'.activeCidLimit = l.activeCidLimit := by
  obtain ⟨l₁, hretire, hl₁, hlen₁, hrole₁, hodcid₁, hlimit₁⟩ := hl.retire hslot
  unfold recvRetireCidFrame at h
  simp only [hl.largest, some_bind,
    if_neg (not_le.mpr (IndexDeque.slot_lt hslot).2), IndexDeque.get_of_slot hslot, hretire] at h
  obtain ⟨⟨l₂, f⟩, hissue, h⟩ := of_bind h
  cases h
  obtain ⟨hl₂, hactive₂, hrole₂, hodcid₂, hlimit₂⟩ := hl₁.issue hissue
  refine ⟨rfl, rfl, rfl, hl₂, ?_, hrole₂.trans hrole₁, hodcid₂.trans hodcid₁, hlimit₂.trans hlimit₁⟩
  rw [hactive₂, List.length_append, List.length_singleton]
  exact hlen₁

/-- Two ids are active before the limit is known, and at most as many as it allows afterwards. -/
def Within (l : LocalCids) : Prop :=
  match l.activeCidLimit with
  | none => l.active.length = 2
  | some limit => l.active.length ≤ limit

end LocalCids

namespace LocalCidWorld

variable {gen : CidSource} {w w' : LocalCidWorld} {role : Role} {odcid scid : ConnectionId}

/-- What holds in a run: for a manager that lives, and after it was dropped. -/
def Kept (role : Role) (odcid scid : ConnectionId) (w : LocalCidWorld) : Prop :=
  match w.cids with
  | some l => l.Agrees scid w ∧ l.Within ∧ 1 ≤ w.frames.length ∧ l.role = role ∧ l.odcid = odcid
  | none => (∀ i f, w.frames[i]? = some f → f.sequence.val = i + 1 ∧ f.retirePriorTo.val ≤ f.sequence.val ∧
        ∀ k < f.retirePriorTo.val, k ∈ w.gone) ∧
      w.retired.Perm (w.issued scid ++ if role = .server then [odcid] else [])

variable {l l' : LocalCids} {frames : List NewConnectionIdFrame} {res : Except QuicError Unit}
  {retired : List ConnectionId}

lemma numbered_of_agrees (hl : l.Agrees scid w) {i : Nat} {f : NewConnectionIdFrame} (hf : w.frames[i]? = some f) :
    f.sequence.val = i + 1 ∧ f.retirePriorTo.val ≤ f.sequence.val ∧
      ∀ k < f.retirePriorTo.val, k ∈ w.gone := by
  obtain ⟨hoffset, hle⟩ := hl.prior f (List.mem_of_getElem? hf)
  have hseq := hl.numbered i f hf
  refine ⟨hseq, hle, fun k hk => (hl.gone k).mpr ⟨?_, ?_⟩⟩
  · have hlt := (List.getElem?_eq_some_iff.mp hf).1
    rw [hl.next]
    omega
  · unfold IndexDeque.slot IndexDeque.get
    rw [if_neg (by omega)]
    rfl

lemma kept_setLimit (hl : l.Agrees scid w) (hwithin : l.Within) (hframes : 1 ≤ w.frames.length) (hrole : l.role = role)
    (hodcid : l.odcid = odcid) {limit : Nat} (h : l.setLimit gen limit = some (res, l', frames)) :
    Kept role odcid scid { w with cids := some l', frames := w.frames ++ frames } := by
  obtain ⟨_, hnone, h⟩ := of_bind h
  have hnone := of_debugAssert hnone
  by_cases hsmall : limit < 2
  · rw [if_pos hsmall] at h
    cases h
    rw [List.append_nil]
    exact ⟨⟨hl.numbered, hl.next, hl.gone, hl.held, hl.perm, hl.prior⟩, hwithin, hframes, hrole, hodcid⟩
  · rw [if_neg hsmall, hl.largest, some_bind] at h
    obtain ⟨⟨l₁, fs⟩, hissue, h⟩ := of_bind h
    cases h
    obtain ⟨hl₁, hlen, hrole₁, hodcid₁⟩ := hl.issueNewCids hissue
    have htwo : l.active.length = 2 := by
      unfold LocalCids.Within at hwithin
      rwa [hnone] at hwithin
    refine ⟨⟨hl₁.numbered, hl₁.next, hl₁.gone, hl₁.held, hl₁.perm, hl₁.prior⟩, ?_, ?_, hrole₁.trans hrole,
      hodcid₁.trans hodcid⟩
    · change l₁.active.length ≤ limit
      rw [hlen, htwo, hl.next]
      omega
    · change 1 ≤ (w.frames ++ frames).length
      rw [List.length_append]
      omega

lemma kept_recvRetire (hl : l.Agrees scid w) (hwithin : l.Within) (hframes : 1 ≤ w.frames.length)
    (hrole : l.role = role) (hodcid : l.odcid = odcid) {frame : RetireConnectionIdFrame}
    (h : l.recvRetireCidFrame gen frame = some (res, l', frames, retired)) :
    Kept role odcid scid
      { cids := some l'
        frames := w.frames ++ frames
        gone := w.gone ++ retired.map fun _ => frame.sequence.val
        retired := w.retired ++ retired } := by
  -- an id that was never issued and one that is gone leave everything as it is
  have hsame : ∀ res', l.recvRetireCidFrame gen frame = some (res', l, [], []) → Kept role odcid scid
      { cids := some l'
        frames := w.frames ++ frames
        gone := w.gone ++ retired.map fun _ => frame.sequence.val
        retired := w.retired ++ retired } := by
    intro res' heq
    rw [heq] at h
    cases h
    simp only [List.append_nil, List.map_nil]
    exact ⟨⟨hl.numbered, hl.next, hl.gone, hl.held, hl.perm, hl.prior⟩, hwithin, hframes, hrole, hodcid⟩
  by_cases hnext : l.cidDeque.next ≤ frame.sequence.val
  · have hunissued : ∃ e, l.recvRetireCidFrame gen frame = some (.error e, l, [], []) ∧ e.kind = .connectionIdLimit :=
      hl.recvRetire_unissued hnext
    obtain ⟨e, heq, -⟩ := hunissued
    exact hsame _ heq
  · cases hslot : l.cidDeque.slot frame.sequence.val with
    | none => exact hsame _ (hl.recvRetire_gone ((hl.gone _).mpr ⟨not_le.mp hnext, hslot⟩))
    | some value =>
      obtain ⟨-, hlen, rfl, hl', hactive, hrole', hodcid', hlimit⟩ := hl.recvRetire_active hslot h
      refine ⟨⟨hl'.numbered, hl'.next, hl'.gone, hl'.held, hl'.perm, hl'.prior⟩, ?_, ?_, hrole'.trans hrole,
        hodcid'.trans hodcid⟩
      · unfold LocalCids.Within
        rw [hlimit, hactive]
        exact hwithin
      · change 1 ≤ (w.frames ++ frames).length
        rw [List.length_append]
        omega

lemma kept_drop (hl : l.Agrees scid w) (hrole : l.role = role) (hodcid : l.odcid = odcid) (h : l.clear = some retired) :
    Kept role odcid scid { w with cids := none, retired := w.retired ++ retired } := by
  unfold LocalCids.clear at h
  have hdrain : l.cidDeque.drainTo l.cidDeque.next =
      some (l.cidDeque.deque.take (l.cidDeque.next - l.cidDeque.offset),
        ⟨l.cidDeque.deque.drop (l.cidDeque.next - l.cidDeque.offset), l.cidDeque.next⟩) :=
    if_pos ⟨Nat.le_add_right _ _, le_rfl⟩
  simp only [hl.largest, some_bind, hdrain] at h
  cases h
  have hall : l.cidDeque.deque.take (l.cidDeque.next - l.cidDeque.offset) = l.cidDeque.deque := by
    apply List.take_of_length_le
    unfold IndexDeque.next
    omega
  rw [hall, hrole, hodcid]
  refine ⟨fun i f hf => numbered_of_agrees hl hf, ?_⟩
  change (w.retired ++ (l.active ++ _)).Perm (w.issued scid ++ _)
  rw [← List.append_assoc]
  exact hl.perm.append_right _

lemma Kept.of_some (hw : w.Kept role odcid scid) (hcids : w.cids = some l) :
    l.Agrees scid w ∧ l.Within ∧ 1 ≤ w.frames.length ∧ l.role = role ∧ l.odcid = odcid := by
  unfold Kept at hw
  rwa [hcids] at hw

lemma Kept.step (hw : w.Kept role odcid scid) {op : LocalCidOp} (h : w.exec gen op = some w') :
    w'.Kept role odcid scid := by
  cases op with
  | setLimit limit =>
    obtain ⟨l, hcids, h⟩ := of_bind h
    obtain ⟨⟨res, l', frames⟩, hset, h⟩ := of_bind h
    cases h
    obtain ⟨hl, hwithin, hframes, hrole, hodcid⟩ := hw.of_some hcids
    exact kept_setLimit hl hwithin hframes hrole hodcid hset
  | recvRetire frame =>
    obtain ⟨l, hcids, h⟩ := of_bind h
    obtain ⟨⟨res, l', frames, retired⟩, hrecv, h⟩ := of_bind h
    cases h
    obtain ⟨hl, hwithin, hframes, hrole, hodcid⟩ := hw.of_some hcids
    exact kept_recvRetire hl hwithin hframes hrole hodcid hrecv
  | drop =>
    obtain ⟨l, hcids, h⟩ := of_bind h
    obtain ⟨retired, hclear, h⟩ := of_bind h
    cases h
    obtain ⟨hl, -, -, hrole, hodcid⟩ := hw.of_some hcids
    exact kept_drop hl hrole hodcid hclear

end LocalCidWorld

end Dquic
