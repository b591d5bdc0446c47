import Dquic.Lib.System
import Dquic.Streams.Sid

/-!
# Limits on streams

An endpoint that limits its peer and the peer that opens streams under these limits, in one
system. MAX_STREAMS frames reach the peer in any order, some of them never.
-/

namespace Dquic

open Lib

variable {κ : Type}

/-- Both ends, with the MAX_STREAMS and STREAMS_BLOCKED frames that were sent, the ids that the peer allocated and those
that the endpoint accepted, and the streams that were created for them, the oldest first. -/
structure LimitWorld (κ : Type) where
  remote : RemoteStreamIds κ
  peer : LocalStreamIds
  sent : List MaxStreamsFrame
  blocked : List StreamsBlockedFrame
  allocated : List StreamId
  accepted : List StreamId
  created : List StreamId

inductive LimitOp
  | tryAcceptSid (sid : StreamId)
  | onEndOfStream (sid : StreamId)
  | recvStreamsBlocked (frame : StreamsBlockedFrame)
  | recvMaxStreams (frame : MaxStreamsFrame)
  | pollAllocSid (dir : Dir)

/-- `for sid in need_create`. -/
def AcceptSid.created : AcceptSid → List StreamId
  | old => []
  | new needCreate => needCreate.ids

namespace LimitWorld

def new (role : Role) (initial : Dir → VarInt) (ctrl : κ) : LimitWorld κ :=
  ⟨.new role (fun dir => (initial dir).val) ctrl, .new role (fun dir => (initial dir).val), [], [], [], [], []⟩

/-- The peer only sees frames that were sent. -/
def Issued (w : LimitWorld κ) : LimitOp → Prop
  | .recvMaxStreams frame => frame ∈ w.sent
  | _ => True

def acceptAs (w : LimitWorld κ) (sid : StreamId) : Except ExceedLimitError AcceptSid → LimitWorld κ
  | .error _ => w
  | .ok result => { w with accepted := w.accepted ++ [sid], created := w.created ++ result.created }

def allot (w : LimitWorld κ) : AllocSid → LimitWorld κ
  | .allocated sid => { w with allocated := w.allocated ++ [sid] }
  | .exhausted => w
  | .blocked frame => { w with blocked := w.blocked ++ [frame] }

def exec [ControlStreamsConcurrency κ] (w : LimitWorld κ) : LimitOp → Option (LimitWorld κ)
  | .tryAcceptSid sid => do
    let (result, remote, frame) ← w.remote.tryAcceptSid sid
    some (acceptAs { w with remote := remote, sent := w.sent ++ frame.toList } sid result)
  | .onEndOfStream sid => do
    let (remote, frame) ← w.remote.onEndOfStream sid
    some { w with remote := remote, sent := w.sent ++ frame.toList }
  | .recvStreamsBlocked frame => do
    let (remote, frame) ← w.remote.recvStreamsBlockedFrame frame
    some { w with remote := remote, sent := w.sent ++ frame.toList }
  | .recvMaxStreams frame => do
    let peer ← w.peer.recvMaxStreamsFrame frame
    some { w with peer := peer }
  | .pollAllocSid dir => do
    let (result, peer) ← w.peer.pollAllocSid dir
    some (allot { w with peer := peer } result)

/-- The limits given for a direction, the transport parameter first. -/
def advertised (w : LimitWorld κ) (initial : Dir → VarInt) (dir : Dir) : List Nat :=
  (initial dir).val :: (w.sent.filter (·.dir = dir)).map (·.count.val)

def indices (sids : List StreamId) (dir : Dir) : List Nat := (sids.filter (·.dir = dir)).map StreamId.id

end LimitWorld

/-- Runs of two ends that start with the same transport parameters. -/
def limitSystem [ControlStreamsConcurrency κ] (role : Role) (initial : Dir → VarInt) (ctrl : κ) :
    System (LimitWorld κ) LimitOp where
  init w := w = .new role initial ctrl
  issued := LimitWorld.Issued
  exec := LimitWorld.exec

/-! ### Storing a limit -/

def store (max : Dir → Nat) : Option MaxStreamsFrame → Dir → Nat
  | none => max
  | some frame => Function.update max frame.dir frame.count.val

/-- A strategy's answer about a direction, as the frame that it becomes. -/
structure Answers (dir : Dir) (answer : Option Nat) (frame : Option MaxStreamsFrame) : Prop where
  dir : ∀ f ∈ frame, f.dir = dir
  count : frame.map (·.count.val) = answer

lemma Answers.count_mem {dir : Dir} {answer : Option Nat} {frame : Option MaxStreamsFrame}
    (h : Answers dir answer frame) {f : MaxStreamsFrame} (hf : f ∈ frame) : answer = some f.count.val := by
  rw [← h.count, hf]
  rfl

namespace RemoteStreamIds

variable {r r' : RemoteStreamIds κ} {frame : Option MaxStreamsFrame}

variable {answer : Option Nat}

lemma revise_eq_some {dir : Dir} {ctrl : κ} (h : r.revise dir (answer, ctrl) = some (r', frame)) :
    Answers dir answer frame ∧ r' = { r with max := store r.max frame, ctrl := ctrl } := by
  cases answer with
  | none =>
    cases h
    exact ⟨⟨by simp, rfl⟩, rfl⟩
  | some maxStreams =>
    obtain ⟨count, hcount, h⟩ := of_bind h
    unfold VarInt.fromU64 at hcount
    split_ifs at hcount
    cases hcount
    cases h
    constructor
    · constructor
      · intro f hf
        cases hf
        exact MaxStreamsFrame.dir_withDir dir _
      · simp
    · simp [store]

lemma revise_of_lt (dir : Dir) (ctrl : κ) (h : ∀ limit ∈ answer, limit < 2 ^ 62) :
    ∃ r' frame, r.revise dir (answer, ctrl) = some (r', frame) := by
  cases answer with
  | none => exact ⟨_, _, rfl⟩
  | some limit =>
    unfold revise
    simp only [VarInt.fromU64_of_lt (h limit rfl), some_bind]
    exact ⟨_, _, rfl⟩

variable [ControlStreamsConcurrency κ] {sid : StreamId}

/-- An id is refused, it is old, or it is new and its stream is created with those before it. -/
lemma tryAcceptSid_eq_some {result : Except ExceedLimitError AcceptSid} (h : r.tryAcceptSid sid = some (result, r', frame)) :
    sid.role = r.role ∧
      (r.max sid.dir < sid.id ∧ result = .error ⟨sid, r.max sid.dir⟩ ∧ r' = r ∧ frame = none ∨
      sid.id ≤ r.max sid.dir ∧
        (sid.raw.val < r.unallocated sid.dir ∧ result = .ok .old ∧ r' = r ∧ frame = none ∨
        r.unallocated sid.dir ≤ sid.raw.val ∧ result = .ok (.new ⟨r.unallocated sid.dir, sid⟩) ∧ ∃ answer ctrl,
          ControlStreamsConcurrency.onAcceptStreams r.ctrl sid.dir sid.id = some (answer, ctrl) ∧
          Answers sid.dir answer frame ∧
          r' = ⟨r.role, store r.max frame, Function.update r.unallocated sid.dir (sid.raw.val + 4), ctrl⟩)) := by
  obtain ⟨_, hrole, h⟩ := of_bind h
  refine ⟨of_debugAssert hrole, ?_⟩
  by_cases hlimit : r.max sid.dir < sid.id
  · rw [if_pos hlimit] at h
    cases h
    exact Or.inl ⟨hlimit, rfl, rfl, rfl⟩
  · rw [if_neg hlimit] at h
    refine Or.inr ⟨by omega, ?_⟩
    by_cases hold : sid.raw.val < r.unallocated sid.dir
    · rw [if_pos hold] at h
      cases h
      exact Or.inl ⟨hold, rfl, rfl, rfl⟩
    · rw [if_neg hold] at h
      obtain ⟨⟨answer, ctrl⟩, hanswer, h⟩ := of_bind h
      obtain ⟨⟨t, f⟩, hrevise, h⟩ := of_bind h
      cases h
      obtain ⟨hframe, rfl⟩ := revise_eq_some hrevise
      exact Or.inr ⟨by omega, rfl, answer, ctrl, hanswer, hframe, rfl⟩

lemma onEndOfStream_eq_some (h : r.onEndOfStream sid = some (r', frame)) :
    sid.role ≠ r.role ∧ r' = r ∧ frame = none ∨
    sid.role = r.role ∧ ∃ answer ctrl,
      ControlStreamsConcurrency.onEndOfStream r.ctrl sid.dir sid.id = some (answer, ctrl) ∧
      Answers sid.dir answer frame ∧ r' = ⟨r.role, store r.max frame, r.unallocated, ctrl⟩ := by
  unfold onEndOfStream at h
  by_cases hrole : sid.role ≠ r.role
  · rw [if_pos hrole] at h
    cases h
    exact Or.inl ⟨hrole, rfl, rfl⟩
  · rw [if_neg hrole] at h
    obtain ⟨⟨answer, ctrl⟩, hanswer, hrevise⟩ := of_bind h
    obtain ⟨hframe, rfl⟩ := revise_eq_some hrevise
    exact Or.inr ⟨not_ne_iff.mp hrole, answer, ctrl, hanswer, hframe, rfl⟩

lemma recvStreamsBlockedFrame_eq_some {f : StreamsBlockedFrame} (h : r.recvStreamsBlockedFrame f = some (r', frame)) :
    ∃ answer ctrl, ControlStreamsConcurrency.onStreamsBlocked r.ctrl f.dir f.count.val = some (answer, ctrl) ∧
      Answers f.dir answer frame ∧ r' = ⟨r.role, store r.max frame, r.unallocated, ctrl⟩ := by
  obtain ⟨⟨answer, ctrl⟩, hanswer, hrevise⟩ := of_bind h
  obtain ⟨hframe, rfl⟩ := revise_eq_some hrevise
  exact ⟨answer, ctrl, hanswer, hframe, rfl⟩

end RemoteStreamIds

namespace LocalStreamIds

variable {l l' : LocalStreamIds}

lemma recvMaxStreamsFrame_eq_some {f : MaxStreamsFrame} (h : l.recvMaxStreamsFrame f = some l') :
    l' = { l with max := Function.update l.max f.dir (Max.max (l.max f.dir) f.count.val) } := by
  obtain ⟨_, -, h⟩ := of_bind h
  split_ifs at h with hlt
  · cases h
    rw [max_eq_right hlt.le]
  · cases h
    rw [max_eq_left (by omega), Function.update_eq_self]

lemma pollAllocSid_eq_some {dir : Dir} {result : AllocSid} (h : l.pollAllocSid dir = some (result, l')) :
    (∃ sid, result = .allocated sid ∧ sid.role = l.role ∧ sid.dir = dir ∧ sid.id = l.unallocated dir ∧
      l.unallocated dir < l.max dir ∧
      l' = { l with unallocated := Function.update l.unallocated dir (l.unallocated dir + 1) }) ∨
    (result = .exhausted ∨ ∃ frame, result = .blocked frame) ∧ l' = l := by
  unfold pollAllocSid at h
  dsimp only at h
  by_cases hexhausted : maxStreamsLimit < l.unallocated dir
  · rw [if_pos hexhausted] at h
    cases h
    exact Or.inr ⟨Or.inl rfl, rfl⟩
  · rw [if_neg hexhausted] at h
    by_cases hlt : l.unallocated dir < l.max dir
    · rw [if_pos hlt] at h
      obtain ⟨sid, hsid, h⟩ := of_bind h
      cases h
      obtain ⟨hrole, hdir, hid⟩ := StreamId.new_eq_some hsid
      exact Or.inl ⟨sid, rfl, hrole, hdir, hid, hlt, rfl⟩
    · rw [if_neg hlt] at h
      obtain ⟨maxStreams, -, h⟩ := of_bind h
      cases h
      exact Or.inr ⟨Or.inr ⟨_, rfl⟩, rfl⟩

end LocalStreamIds

namespace LimitWorld

variable {w w' : LimitWorld κ}

/-! ### What holds between the ends -/

/-- The limits of a direction are in order, and the last of them is stored. -/
structure Growing (w : LimitWorld κ) (initial : Dir → VarInt) : Prop where
  sorted : ∀ dir, (w.advertised initial dir).Pairwise (· ≤ ·)
  below : ∀ dir, ∀ limit ∈ w.advertised initial dir, limit ≤ w.remote.max dir
  current : ∀ dir, (w.advertised initial dir).getLast? = some (w.remote.max dir)

structure PeerBelow (w : LimitWorld κ) : Prop where
  role : w.peer.role = w.remote.role
  limit : ∀ dir, w.peer.max dir ≤ w.remote.max dir
  unallocated : ∀ dir, w.peer.unallocated dir ≤ w.peer.max dir
  allocated : ∀ sid ∈ w.allocated, sid.role = w.peer.role ∧ sid.id < w.peer.unallocated sid.dir

/-- The streams of a direction are created in the order of their indices. -/
structure Numbered (w : LimitWorld κ) : Prop where
  created : ∀ dir, indices w.created dir = List.range (indices w.created dir).length
  next : ∀ dir, w.remote.unallocated dir = StreamId.rawOf w.remote.role dir (indices w.created dir).length
  role : ∀ sid ∈ w.created, sid.role = w.remote.role
  accepted : ∀ sid ∈ w.accepted, sid ∈ w.created

def WithinLimit (w : LimitWorld κ) : Prop := ∀ dir, (indices w.created dir).length ≤ w.remote.max dir

lemma growing_new (role : Role) (initial : Dir → VarInt) (ctrl : κ) : Growing (.new role initial ctrl) initial :=
  ⟨fun _ => List.pairwise_singleton _ _, fun _ _ hlimit => (List.mem_singleton.mp hlimit).le,
    fun _ => rfl⟩

lemma peerBelow_new (role : Role) (initial : Dir → VarInt) (ctrl : κ) : PeerBelow (.new role initial ctrl) :=
  ⟨rfl, fun _ => le_rfl, fun _ => Nat.zero_le _, fun _ hsid => absurd hsid List.not_mem_nil⟩

lemma numbered_new (role : Role) (initial : Dir → VarInt) (ctrl : κ) : Numbered (.new role initial ctrl) :=
  ⟨fun _ => rfl, fun _ => rfl, fun _ hsid => absurd hsid List.not_mem_nil, fun _ hsid => absurd hsid List.not_mem_nil⟩

variable {initial : Dir → VarInt} {sid : StreamId} {P : Dir → Nat → Prop} {op : LimitOp}

lemma advertised_append {frame : Option MaxStreamsFrame} (h : w'.sent = w.sent ++ frame.toList) (dir : Dir) :
    w'.advertised initial dir =
      w.advertised initial dir ++ (frame.toList.filter (·.dir = dir)).map (·.count.val) := by
  unfold advertised
  rw [h, List.filter_append, List.map_append, List.cons_append]

lemma PeerBelow.of_remote (hw : w.PeerBelow) (hpeer : w'.peer = w.peer) (hallocated : w'.allocated = w.allocated)
    (hrole : w'.remote.role = w.remote.role) (hmax : ∀ dir, w.remote.max dir ≤ w'.remote.max dir) : w'.PeerBelow := by
  constructor
  · rw [hpeer, hrole]
    exact hw.role
  · intro dir
    rw [hpeer]
    exact (hw.limit dir).trans (hmax dir)
  · rw [hpeer]
    exact hw.unallocated
  · rw [hpeer, hallocated]
    exact hw.allocated

lemma indices_append (l l' : List StreamId) (dir : Dir) : indices (l ++ l') dir = indices l dir ++ indices l' dir := by
  unfold indices
  rw [List.filter_append, List.map_append]

lemma mem_of_indices {l : List StreamId} (hrole : ∀ s ∈ l, s.role = sid.role)
    (hl : indices l sid.dir = List.range (indices l sid.dir).length) (hlt : sid.id < (indices l sid.dir).length) :
    sid ∈ l := by
  have hmem : sid.id ∈ indices l sid.dir := by
    rw [hl]
    exact List.mem_range.mpr hlt
  obtain ⟨s, hs, hid⟩ := List.mem_map.mp hmem
  obtain ⟨hs, hdir⟩ := List.mem_filter.mp hs
  have heq : s = sid := StreamId.ext_parts (hrole s hs) (by simpa using hdir) hid
  exact heq ▸ hs

lemma indices_ids {n : Nat} (hn : n ≤ sid.id) (dir : Dir) :
    indices (NeedCreate.ids ⟨StreamId.rawOf sid.role sid.dir n, sid⟩) dir =
      if sid.dir = dir then List.range' n (sid.id + 1 - n) else [] := by
  obtain ⟨hmap, hall⟩ := NeedCreate.ids_indices hn
  unfold indices
  split_ifs with hdir
  · rw [List.filter_eq_self.mpr, hmap]
    intro s hs
    rw [(hall s hs).2, hdir]
    simp
  · rw [List.filter_eq_nil_iff.mpr]
    · rfl
    · intro s hs
      rw [(hall s hs).2]
      simpa using hdir

lemma Numbered.length_le (hw : w.Numbered) (hrole : sid.role = w.remote.role)
    (hle : w.remote.unallocated sid.dir ≤ sid.raw.val) : (indices w.created sid.dir).length ≤ sid.id := by
  rw [hw.next, StreamId.raw_eq sid, hrole] at hle
  exact not_lt.mp fun hlt => absurd (StreamId.rawOf_lt_iff.mpr hlt) (not_lt.mpr hle)

lemma Numbered.create (hw : w.Numbered) (hrole : sid.role = w.remote.role)
    (hle : w.remote.unallocated sid.dir ≤ sid.raw.val) (dir : Dir) :
    indices (w.created ++ NeedCreate.ids ⟨w.remote.unallocated sid.dir, sid⟩) dir =
      if sid.dir = dir then List.range (sid.id + 1) else indices w.created dir := by
  have hn := hw.length_le hrole hle
  rw [indices_append, hw.next, ← hrole, indices_ids hn]
  split_ifs with hdir
  · subst hdir
    have hsplit : List.range' 0 (indices w.created sid.dir).length ++
        List.range' (0 + (indices w.created sid.dir).length) (sid.id + 1 - (indices w.created sid.dir).length) =
          List.range' 0 (sid.id + 1) := by
      rw [List.range'_append_1]
      congr 1
      omega
    rw [Nat.zero_add] at hsplit
    rw [hw.created, List.length_range, List.range_eq_range', List.range_eq_range', hsplit]
  · exact List.append_nil _

variable [ControlStreamsConcurrency κ]

/-! ### What a step does -/

/-- The strategy was asked, and its answer is stored and sent. -/
def answered (w : LimitWorld κ) (ctrl : κ) (frame : Option MaxStreamsFrame) : LimitWorld κ :=
  { w with
    remote := ⟨w.remote.role, store w.remote.max frame, w.remote.unallocated, ctrl⟩
    sent := w.sent ++ frame.toList }

/-- An id is refused, it is old, or it is new and its stream is created with those before it. Only streams of the peer
end for the strategy, and an id is allocated below the limit. -/
inductive Step (w : LimitWorld κ) : LimitOp → LimitWorld κ → Prop
  | refused {s : StreamId} : s.role = w.remote.role → w.remote.max s.dir < s.id → Step w (.tryAcceptSid s) w
  | old {s : StreamId} : s.role = w.remote.role → s.raw.val < w.remote.unallocated s.dir →
      Step w (.tryAcceptSid s) { w with accepted := w.accepted ++ [s] }
  | new {s : StreamId} {answer ctrl frame} : s.role = w.remote.role → s.id ≤ w.remote.max s.dir →
      w.remote.unallocated s.dir ≤ s.raw.val →
      ControlStreamsConcurrency.onAcceptStreams w.remote.ctrl s.dir s.id = some (answer, ctrl) →
      Answers s.dir answer frame →
      Step w (.tryAcceptSid s)
        { w.answered ctrl frame with
          remote.unallocated := Function.update w.remote.unallocated s.dir (s.raw.val + 4)
          accepted := w.accepted ++ [s]
          created := w.created ++ NeedCreate.ids ⟨w.remote.unallocated s.dir, s⟩ }
  | own {s : StreamId} : s.role ≠ w.remote.role → Step w (.onEndOfStream s) w
  | ended {s : StreamId} {answer ctrl frame} : s.role = w.remote.role →
      ControlStreamsConcurrency.onEndOfStream w.remote.ctrl s.dir s.id = some (answer, ctrl) →
      Answers s.dir answer frame → Step w (.onEndOfStream s) (w.answered ctrl frame)
  | blocked {f : StreamsBlockedFrame} {answer ctrl frame} :
      ControlStreamsConcurrency.onStreamsBlocked w.remote.ctrl f.dir f.count.val = some (answer, ctrl) →
      Answers f.dir answer frame → Step w (.recvStreamsBlocked f) (w.answered ctrl frame)
  | raised {f} : Step w (.recvMaxStreams f)
      { w with peer.max := Function.update w.peer.max f.dir (max (w.peer.max f.dir) f.count.val) }
  | allocated {dir} {s : StreamId} : s.role = w.peer.role → s.dir = dir → s.id = w.peer.unallocated dir →
      w.peer.unallocated dir < w.peer.max dir →
      Step w (.pollAllocSid dir)
        { w with
          peer.unallocated := Function.update w.peer.unallocated dir (w.peer.unallocated dir + 1)
          allocated := w.allocated ++ [s] }
  | waiting {dir} (blocked : List StreamsBlockedFrame) : Step w (.pollAllocSid dir) { w with blocked := blocked }

lemma exec_step (h : w.exec op = some w') : w.Step op w' := by
  have hnil := List.append_nil w.sent
  cases op with
  | tryAcceptSid sid =>
    obtain ⟨⟨result, remote, frame⟩, htry, h⟩ := of_bind h
    cases h
    obtain ⟨hrole, ⟨hlimit, rfl, rfl, rfl⟩ | ⟨hlimit, ⟨hold, rfl, rfl, rfl⟩ | ⟨hnew, rfl, answer, ctrl, hanswer, hframe, rfl⟩⟩⟩ :=
      RemoteStreamIds.tryAcceptSid_eq_some htry
    · simpa only [acceptAs, Option.toList_none, hnil] using Step.refused hrole hlimit
    · simpa only [acceptAs, Option.toList_none, hnil, AcceptSid.created, List.append_nil] using Step.old hrole hold
    · exact .new hrole hlimit hnew hanswer hframe
  | onEndOfStream sid =>
    obtain ⟨⟨remote, frame⟩, hend, h⟩ := of_bind h
    cases h
    obtain ⟨hrole, rfl, rfl⟩ | ⟨hrole, answer, ctrl, hanswer, hframe, rfl⟩ := RemoteStreamIds.onEndOfStream_eq_some hend
    · simpa only [Option.toList_none, hnil] using Step.own hrole
    · exact .ended hrole hanswer hframe
  | recvStreamsBlocked f =>
    obtain ⟨⟨remote, frame⟩, hblocked, h⟩ := of_bind h
    cases h
    obtain ⟨answer, ctrl, hanswer, hframe, rfl⟩ := RemoteStreamIds.recvStreamsBlockedFrame_eq_some hblocked
    exact .blocked hanswer hframe
  | recvMaxStreams f =>
    obtain ⟨peer, hpeer, h⟩ := of_bind h
    cases h
    rw [LocalStreamIds.recvMaxStreamsFrame_eq_some hpeer]
    exact .raised
  | pollAllocSid dir =>
    obtain ⟨⟨result, peer⟩, hpoll, h⟩ := of_bind h
    cases h
    obtain ⟨sid, rfl, hrole, hdir, hid, hlt, rfl⟩ | ⟨rfl | ⟨frame, rfl⟩, rfl⟩ :=
      LocalStreamIds.pollAllocSid_eq_some hpoll
    · exact .allocated hrole hdir hid hlt
    · exact .waiting _
    · exact .waiting _

/-! ### Limits that grow -/

/-- A new limit that the strategy answers with in this step has a property. -/
def Answering (w : LimitWorld κ) (P : Dir → Nat → Prop) : LimitOp → Prop
  | .tryAcceptSid sid => ∀ limit ctrl,
      ControlStreamsConcurrency.onAcceptStreams w.remote.ctrl sid.dir sid.id = some (some limit, ctrl) → P sid.dir limit
  | .onEndOfStream sid => ∀ limit ctrl, sid.role = w.remote.role →
      ControlStreamsConcurrency.onEndOfStream w.remote.ctrl sid.dir sid.id = some (some limit, ctrl) → P sid.dir limit
  | .recvStreamsBlocked frame => ∀ limit ctrl,
      ControlStreamsConcurrency.onStreamsBlocked w.remote.ctrl frame.dir frame.count.val = some (some limit, ctrl) →
        P frame.dir limit
  | _ => True

/-- The strategy never answers with less than the stored limit. -/
def Raises (w : LimitWorld κ) (op : LimitOp) : Prop := w.Answering (fun dir limit => w.remote.max dir ≤ limit) op

lemma Answering.mono {Q : Dir → Nat → Prop} (hop : w.Answering P op) (h : ∀ dir limit, P dir limit → Q dir limit) :
    w.Answering Q op := by
  cases op with
  | tryAcceptSid | recvStreamsBlocked => exact fun limit ctrl hanswer => h _ _ (hop limit ctrl hanswer)
  | onEndOfStream sid => exact fun limit ctrl hrole hanswer => h _ _ (hop limit ctrl hrole hanswer)
  | recvMaxStreams frame => trivial
  | pollAllocSid dir => trivial

lemma exec_stores (hop : w.Answering P op) (h : w.exec op = some w') :
    ∃ frame : Option MaxStreamsFrame, w'.remote.max = store w.remote.max frame ∧ w'.sent = w.sent ++ frame.toList ∧
      ∀ f ∈ frame, P f.dir f.count.val := by
  cases exec_step h with
  | refused | old | own | raised | allocated | waiting => exact ⟨none, rfl, (List.append_nil _).symm, by simp⟩
  | new _ _ _ hanswer hframe | blocked hanswer hframe =>
    refine ⟨_, rfl, rfl, fun f hf => ?_⟩
    rw [hframe.dir f hf]
    exact hop _ _ (hframe.count_mem hf ▸ hanswer)
  | ended hrole hanswer hframe =>
    refine ⟨_, rfl, rfl, fun f hf => ?_⟩
    rw [hframe.dir f hf]
    exact hop _ _ hrole (hframe.count_mem hf ▸ hanswer)

lemma exec_advertises (initial : Dir → VarInt) (hop : w.Answering P op) (h : w.exec op = some w') (dir : Dir) :
    w'.advertised initial dir = w.advertised initial dir ∧ w'.remote.max dir = w.remote.max dir ∨
    ∃ limit, P dir limit ∧ w'.advertised initial dir = w.advertised initial dir ++ [limit] ∧ w'.remote.max dir = limit := by
  obtain ⟨frame, hmax, hsent, hframe⟩ := exec_stores hop h
  rw [advertised_append hsent dir, hmax]
  cases frame with
  | none => exact Or.inl ⟨List.append_nil _, rfl⟩
  | some f =>
    by_cases hdir : f.dir = dir
    · subst hdir
      exact Or.inr ⟨f.count.val, hframe f rfl, by simp, Function.update_self _ _ _⟩
    · exact Or.inl ⟨by simp [hdir], Function.update_of_ne (Ne.symm hdir) _ _⟩

lemma Growing.step (hw : w.Growing initial) (hop : w.Raises op) (h : w.exec op = some w') : w'.Growing initial := by
  suffices hdir : ∀ dir, (w'.advertised initial dir).Pairwise (· ≤ ·) ∧
      (∀ limit ∈ w'.advertised initial dir, limit ≤ w'.remote.max dir) ∧
      (w'.advertised initial dir).getLast? = some (w'.remote.max dir) from
    ⟨fun dir => (hdir dir).1, fun dir => (hdir dir).2.1, fun dir => (hdir dir).2.2⟩
  intro dir
  obtain ⟨hadv, hmax⟩ | ⟨limit, hle, hadv, hmax⟩ := exec_advertises initial hop h dir
  · rw [hadv, hmax]
    exact ⟨hw.sorted dir, hw.below dir, hw.current dir⟩
  · have hbelow : ∀ a ∈ w.advertised initial dir, a ≤ limit := fun a ha => (hw.below dir a ha).trans hle
    rw [hadv, hmax]
    refine ⟨List.pairwise_append.mpr ⟨hw.sorted dir, List.pairwise_singleton _ _, fun a ha b hb => ?_⟩, ?_,
      List.getLast?_concat⟩
    · rw [List.mem_singleton.mp hb]
      exact hbelow a ha
    · exact List.forall_mem_append.mpr ⟨hbelow, List.forall_mem_singleton.mpr le_rfl⟩

/-! ### The peer -/

lemma exec_max_le (hop : w.Raises op) (h : w.exec op = some w') (dir : Dir) : w.remote.max dir ≤ w'.remote.max dir := by
  obtain ⟨-, hmax⟩ | ⟨limit, hle, -, hmax⟩ := exec_advertises (fun _ => ⟨0, by decide⟩) hop h dir
  · exact hmax.ge
  · exact hmax ▸ hle

lemma PeerBelow.step (hw : w.PeerBelow) (hgrow : w.Growing initial) (hissued : w.Issued op) (hop : w.Raises op)
    (h : w.exec op = some w') : w'.PeerBelow := by
  have hmax := exec_max_le hop h
  cases exec_step h with
  | refused | old | new | own | ended | blocked => exact hw.of_remote rfl rfl rfl hmax
  | waiting => exact { hw with }
  | @raised f =>
    have hcount : f.count.val ≤ w.remote.max f.dir := by
      apply hgrow.below f.dir
      exact List.mem_cons_of_mem _ (List.mem_map.mpr ⟨f, List.mem_filter.mpr ⟨hissued, by simp⟩, rfl⟩)
    have hbounds : ∀ dir, w.peer.max dir ≤ Function.update w.peer.max f.dir (max (w.peer.max f.dir) f.count.val) dir ∧
        Function.update w.peer.max f.dir (max (w.peer.max f.dir) f.count.val) dir ≤ w.remote.max dir := by
      intro dir
      by_cases hdir : dir = f.dir
      · subst hdir
        rw [Function.update_self]
        exact ⟨le_max_left _ _, max_le (hw.limit _) hcount⟩
      · rw [Function.update_of_ne hdir]
        exact ⟨le_rfl, hw.limit dir⟩
    exact ⟨hw.role, fun dir => (hbounds dir).2, fun dir => (hw.unallocated dir).trans (hbounds dir).1, hw.allocated⟩
  | @allocated dir sid hrole hdir hid hlt =>
    have hbounds : ∀ d, w.peer.unallocated d ≤ Function.update w.peer.unallocated dir (w.peer.unallocated dir + 1) d ∧
        Function.update w.peer.unallocated dir (w.peer.unallocated dir + 1) d ≤ w.peer.max d := by
      intro d
      by_cases hd : d = dir
      · subst hd
        rw [Function.update_self]
        exact ⟨Nat.le_succ _, hlt⟩
      · rw [Function.update_of_ne hd]
        exact ⟨le_rfl, hw.unallocated d⟩
    refine ⟨hw.role, hw.limit, fun d => (hbounds d).2, List.forall_mem_append.mpr ⟨fun s hs => ?_, ?_⟩⟩
    · obtain ⟨hr, hlt'⟩ := hw.allocated s hs
      exact ⟨hr, hlt'.trans_le (hbounds s.dir).1⟩
    · refine List.forall_mem_singleton.mpr ⟨hrole, ?_⟩
      change sid.id < Function.update w.peer.unallocated dir (w.peer.unallocated dir + 1) sid.dir
      rw [hdir, Function.update_self, hid]
      exact Nat.lt_succ_self _

/-! ### The streams that are created -/

lemma exec_creates (h : w.exec op = some w') :
    w'.remote.role = w.remote.role ∧
      (w'.created = w.created ∧ w'.remote.unallocated = w.remote.unallocated ∧
        (∀ sid ∈ w'.accepted, sid ∈ w.accepted ∨
          sid.role = w.remote.role ∧ sid.raw.val < w.remote.unallocated sid.dir) ∨
      ∃ sid, op = .tryAcceptSid sid ∧ sid.role = w.remote.role ∧ sid.id ≤ w.remote.max sid.dir ∧
        w.remote.unallocated sid.dir ≤ sid.raw.val ∧
        w'.created = w.created ++ NeedCreate.ids ⟨w.remote.unallocated sid.dir, sid⟩ ∧
        w'.remote.unallocated = Function.update w.remote.unallocated sid.dir (sid.raw.val + 4) ∧
        w'.accepted = w.accepted ++ [sid]) := by
  cases exec_step h with
  | refused | own | ended | blocked | raised | allocated | waiting => exact ⟨rfl, Or.inl ⟨rfl, rfl, fun _ => Or.inl⟩⟩
  | old hrole hold =>
    refine ⟨rfl, Or.inl ⟨rfl, rfl, List.forall_mem_append.mpr ⟨fun _ => Or.inl, ?_⟩⟩⟩
    exact List.forall_mem_singleton.mpr (Or.inr ⟨hrole, hold⟩)
  | new hrole hlimit hle => exact ⟨rfl, Or.inr ⟨_, rfl, hrole, hlimit, hle, rfl, rfl, rfl⟩⟩

lemma Numbered.step (hw : w.Numbered) (h : w.exec op = some w') : w'.Numbered := by
  obtain ⟨hkeep, ⟨hcreated, hnext, haccepted⟩ | ⟨sid, -, hrole, -, hle, hcreated, hnext, haccepted⟩⟩ := exec_creates h
  · refine ⟨?_, ?_, ?_, fun sid hsid => ?_⟩
    · rw [hcreated]
      exact hw.created
    · rw [hcreated, hnext, hkeep]
      exact hw.next
    · rw [hcreated, hkeep]
      exact hw.role
    · rw [hcreated]
      cases haccepted sid hsid with
      | inl hmem => exact hw.accepted sid hmem
      | inr hold =>
        obtain ⟨hrole, hold⟩ := hold
        apply mem_of_indices (fun s hs => (hw.role s hs).trans hrole.symm) (hw.created sid.dir)
        rw [hw.next, StreamId.raw_eq sid, hrole] at hold
        exact StreamId.rawOf_lt_iff.mp hold
  · have hcreate : ∀ dir, indices w'.created dir =
        if sid.dir = dir then List.range (sid.id + 1) else indices w.created dir := by
      rw [hcreated]
      exact hw.create hrole hle
    have hlen : ∀ dir, (indices w'.created dir).length =
        if sid.dir = dir then sid.id + 1 else (indices w.created dir).length := by
      intro dir
      rw [hcreate dir]
      split_ifs
      · exact List.length_range
      · rfl
    have hrange : ∀ dir, indices w'.created dir = List.range (indices w'.created dir).length := by
      intro dir
      rw [hlen dir, hcreate dir]
      split_ifs
      · rfl
      · exact hw.created dir
    have hroles : ∀ s ∈ w'.created, s.role = w.remote.role := by
      intro s hs
      rw [hcreated] at hs
      cases List.mem_append.mp hs with
      | inl hs => exact hw.role s hs
      | inr hs =>
        rw [hw.next, ← hrole] at hs
        exact ((NeedCreate.ids_indices (hw.length_le hrole hle)).2 s hs).1.trans hrole
    refine ⟨hrange, fun dir => ?_, hkeep ▸ hroles, fun s hs => ?_⟩
    · rw [hnext, hkeep, hlen dir]
      by_cases hdir : sid.dir = dir
      · subst hdir
        rw [Function.update_self, if_pos rfl, StreamId.raw_eq sid, hrole, StreamId.rawOf_succ]
      · rw [Function.update_of_ne (Ne.symm hdir), if_neg hdir]
        exact hw.next dir
    · rw [haccepted] at hs
      cases List.mem_append.mp hs with
      | inl hs =>
        rw [hcreated]
        exact List.mem_append_left _ (hw.accepted s hs)
      | inr hs =>
        rw [List.mem_singleton.mp hs]
        apply mem_of_indices (fun t ht => (hroles t ht).trans hrole.symm) (hrange sid.dir)
        rw [hlen, if_pos rfl]
        exact Nat.lt_succ_self _

/-- No id has exactly the limit as its index, and no limit is lowered. -/
def Regular (w : LimitWorld κ) (op : LimitOp) : Prop :=
  w.Raises op ∧ ∀ sid, op = .tryAcceptSid sid → sid.id ≠ w.remote.max sid.dir

lemma WithinLimit.step (hw : w.WithinLimit) (hnum : w.Numbered) (hop : w.Regular op) (h : w.exec op = some w') :
    w'.WithinLimit := by
  intro dir
  apply le_trans _ (exec_max_le hop.1 h dir)
  obtain ⟨-, ⟨hcreated, -, -⟩ | ⟨sid, hsid, hrole, hlimit, hle, hcreated, -, -⟩⟩ := exec_creates h
  · rw [hcreated]
    exact hw dir
  · have hne := hop.2 sid hsid
    rw [hcreated, hnum.create hrole hle dir]
    split_ifs with hdir
    · subst hdir
      rw [List.length_range]
      omega
    · exact hw dir

lemma tryAcceptSid_of_le {r : RemoteStreamIds κ} (hrole : sid.role = r.role) (hle : sid.id ≤ r.max sid.dir) :
    (∀ e r' frame, r.tryAcceptSid sid ≠ some (.error e, r', frame)) ∧
      ((∀ ctrl, ControlStreamsConcurrency.onAcceptStreams r.ctrl sid.dir sid.id = some (none, ctrl) →
        ∃ result r' frame, r.tryAcceptSid sid = some (.ok result, r', frame))) := by
  unfold RemoteStreamIds.tryAcceptSid
  rw [debugAssert_of hrole]
  simp only [some_bind, if_neg (not_lt.mpr hle)]
  constructor
  · intro e r' frame h
    split_ifs at h with hold
    · cases h
    · obtain ⟨answer, -, h⟩ := of_bind h
      obtain ⟨revised, -, h⟩ := of_bind h
      cases h
  · intro ctrl hanswer
    split_ifs with hold
    · exact ⟨_, _, _, rfl⟩
    · rw [hanswer]
      exact ⟨_, _, _, rfl⟩

end LimitWorld

open LimitWorld in
/-- In every run of regular steps, an id that the peer has allocated is not refused, and it is accepted if the strategy
keeps its limit. An id is accepted only below a limit that was given, the streams of a direction are created in the
order of their indices, and there are at most as many as some limit allows. -/
theorem limitSystem_agrees [ControlStreamsConcurrency κ] (role : Role) (initial : Dir → VarInt) (ctrl : κ) (w : LimitWorld κ)
    (hr : ((limitSystem role initial ctrl).restrict Regular).Reach w) :
    (∀ sid ∈ w.allocated, (∀ e remote frame, w.remote.tryAcceptSid sid ≠ some (.error e, remote, frame)) ∧
      ∀ ctrl, ControlStreamsConcurrency.onAcceptStreams w.remote.ctrl sid.dir sid.id = some (none, ctrl) →
        ∃ result remote frame, w.remote.tryAcceptSid sid = some (.ok result, remote, frame)) ∧
    (∀ sid ∈ w.accepted, sid ∈ w.created ∧ ∃ limit ∈ w.advertised initial sid.dir, sid.id < limit) ∧
    (∀ dir, indices w.created dir = List.range (indices w.created dir).length ∧
      ∃ limit ∈ w.advertised initial dir, (indices w.created dir).length ≤ limit) ∧
    ∀ sid ∈ w.created, sid.role = role := by
  have hinv : w.remote.role = role ∧ w.Growing initial ∧ w.PeerBelow ∧ w.Numbered ∧ w.WithinLimit := by
    apply hr.invariant (I := fun w => w.remote.role = role ∧ w.Growing initial ∧ w.PeerBelow ∧ w.Numbered ∧ w.WithinLimit)
    · rintro s rfl
      exact ⟨rfl, growing_new role initial ctrl, peerBelow_new role initial ctrl, numbered_new role initial ctrl,
        fun dir => Nat.zero_le _⟩
    · rintro s op s' ⟨hrole, hgrow, hpeer, hnum, hwithin⟩ ⟨hissued, hregular⟩ hexec
      exact ⟨(exec_creates hexec).1.trans hrole, hgrow.step hregular.1 hexec, hpeer.step hgrow hissued hregular.1 hexec,
        hnum.step hexec, hwithin.step hnum hregular hexec⟩
  obtain ⟨hrole, hgrow, hpeer, hnum, hwithin⟩ := hinv
  refine ⟨fun sid hsid => ?_, fun sid hsid => ?_, fun dir => ?_, fun sid hsid => ?_⟩
  · obtain ⟨hr, hlt⟩ := hpeer.allocated sid hsid
    apply tryAcceptSid_of_le (hr.trans hpeer.role)
    exact hlt.le.trans ((hpeer.unallocated _).trans (hpeer.limit _))
  · have hmem := hnum.accepted sid hsid
    refine ⟨hmem, w.remote.max sid.dir, List.mem_of_getLast? (hgrow.current sid.dir), ?_⟩
    apply lt_of_lt_of_le _ (hwithin sid.dir)
    have hindex : sid.id ∈ indices w.created sid.dir := List.mem_map.mpr ⟨sid, List.mem_filter.mpr ⟨hmem, by simp⟩, rfl⟩
    rw [hnum.created] at hindex
    exact List.mem_range.mp hindex
  · exact ⟨hnum.created dir, w.remote.max dir, List.mem_of_getLast? (hgrow.current dir), hwithin dir⟩
  · rw [hnum.role sid hsid, hrole]

lemma ConsistentConcurrency.raises {w : LimitWorld ConsistentConcurrency} (h : w.remote.ctrl.maxStreams = w.remote.max)
    (op : LimitOp) : w.Raises op := by
  cases op with
  | tryAcceptSid | recvStreamsBlocked =>
    intro limit ctrl hanswer
    cases hanswer
  | onEndOfStream sid =>
    intro limit ctrl _ hanswer
    obtain ⟨newLimit, hadd, hanswer⟩ := of_bind hanswer
    cases hanswer
    rw [checkedAdd_eq_some hadd, h]
    exact Nat.le_succ _
  | recvMaxStreams f => trivial
  | pollAllocSid dir => trivial

/-- The first two streams of a client that starts with a limit of one: the second one is opened after the first ended. -/
theorem limitSystem_agrees_second : ∃ w, ((limitSystem .client (fun _ => ⟨1, by decide⟩)
      (⟨fun _ => 1⟩ : ConsistentConcurrency)).restrict LimitWorld.Regular).Reach w ∧
    w.advertised (fun _ => ⟨1, by decide⟩) .bi = [1, 2] ∧ w.allocated = [⟨⟨0, by decide⟩⟩, ⟨⟨4, by decide⟩⟩] ∧
    LimitWorld.indices w.created .bi = [0] ∧
    ∃ result remote frame, w.remote.tryAcceptSid ⟨⟨4, by decide⟩⟩ = some (.ok result, remote, frame) := by
  have h₀ : ((limitSystem .client (fun _ => ⟨1, by decide⟩)
      (⟨fun _ => 1⟩ : ConsistentConcurrency)).restrict LimitWorld.Regular).Reach _ := .start rfl
  have h₁ := h₀.step (e := LimitOp.pollAllocSid .bi) ⟨trivial, trivial, by simp⟩ rfl
  have hbelow : ∀ sid, LimitOp.tryAcceptSid ⟨⟨0, by decide⟩⟩ = .tryAcceptSid sid → sid.id ≠ 1 := by
    intro sid heq
    cases heq
    decide
  have h₂ := h₁.step (e := LimitOp.tryAcceptSid ⟨⟨0, by decide⟩⟩)
    ⟨trivial, ConsistentConcurrency.raises rfl _, hbelow⟩ rfl
  have h₃ := h₂.step (e := LimitOp.onEndOfStream ⟨⟨0, by decide⟩⟩)
    ⟨trivial, ConsistentConcurrency.raises rfl _, by simp⟩ rfl
  have h₄ := h₃.step (e := LimitOp.recvMaxStreams (.bi ⟨2, by decide⟩)) ⟨List.mem_singleton_self _, trivial, by simp⟩ rfl
  have h₅ := h₄.step (e := LimitOp.pollAllocSid .bi) ⟨trivial, trivial, by simp⟩ rfl
  refine ⟨_, h₅, rfl, rfl, rfl, ?_⟩
  exact ((limitSystem_agrees .client _ _ _ h₅).1 ⟨⟨4, by decide⟩⟩ (by decide)).2 _ rfl

/-- A peer that follows the limits it received, and sends what it says it sends. -/
def LimitWorld.Conforming (w : LimitWorld κ) : LimitOp → Prop
  | .tryAcceptSid sid => sid ∈ w.allocated
  | .recvStreamsBlocked frame => frame ∈ w.blocked
  | _ => True

/-- A limit of zero admits one stream. And a client that was blocked at one, twice, at two and at three is refused its
fourth stream: the second frame of the first block arrives last, and lowers the limit from four to two. -/
theorem limitSystem_disagrees :
    (∃ w, (limitSystem .client (fun _ => ⟨0, by decide⟩) (⟨fun _ => 0⟩ : ConsistentConcurrency)).Reach w ∧
      w.advertised (fun _ => ⟨0, by decide⟩) .bi = [0] ∧ w.accepted = [⟨⟨0, by decide⟩⟩]) ∧
    ∃ w, ((limitSystem .client (fun _ => ⟨1, by decide⟩) DemandConcurrency.mk).restrict LimitWorld.Conforming).Reach w ∧
      w.advertised (fun _ => ⟨1, by decide⟩) .bi = [1, 2, 3, 4, 2] ∧ ⟨⟨12, by decide⟩⟩ ∈ w.allocated ∧
      w.remote.tryAcceptSid ⟨⟨12, by decide⟩⟩ = some (.error ⟨⟨⟨12, by decide⟩⟩, 2⟩, w.remote, none) := by
  constructor
  · have h₀ : (limitSystem .client (fun _ => ⟨0, by decide⟩) (⟨fun _ => 0⟩ : ConsistentConcurrency)).Reach _ :=
      .start rfl
    have h₁ := h₀.step (e := LimitOp.tryAcceptSid ⟨⟨0, by decide⟩⟩) trivial rfl
    exact ⟨_, h₁, rfl, rfl⟩
  · have h₀ : ((limitSystem .client (fun _ => ⟨1, by decide⟩) DemandConcurrency.mk).restrict
        LimitWorld.Conforming).Reach _ := .start rfl
    have h₁ := h₀.step (e := LimitOp.pollAllocSid .bi) ⟨trivial, trivial⟩ rfl
    have h₂ := h₁.step (e := LimitOp.pollAllocSid .bi) ⟨trivial, trivial⟩ rfl
    have h₃ := h₂.step (e := LimitOp.pollAllocSid .bi) ⟨trivial, trivial⟩ rfl
    have h₄ := h₃.step (e := LimitOp.recvStreamsBlocked (.bi ⟨1, by decide⟩)) ⟨trivial, List.mem_cons_self⟩ rfl
    have h₅ := h₄.step (e := LimitOp.recvMaxStreams (.bi ⟨2, by decide⟩)) ⟨List.mem_cons_self, trivial⟩ rfl
    have h₆ := h₅.step (e := LimitOp.pollAllocSid .bi) ⟨trivial, trivial⟩ rfl
    have h₇ := h₆.step (e := LimitOp.pollAllocSid .bi) ⟨trivial, trivial⟩ rfl
    have h₈ := h₇.step (e := LimitOp.recvStreamsBlocked (.bi ⟨2, by decide⟩))
      ⟨trivial, List.mem_append_right _ List.mem_cons_self⟩ rfl
    have h₉ := h₈.step (e := LimitOp.recvMaxStreams (.bi ⟨3, by decide⟩))
      ⟨List.mem_append_right _ List.mem_cons_self, trivial⟩ rfl
    have h₁₀ := h₉.step (e := LimitOp.pollAllocSid .bi) ⟨trivial, trivial⟩ rfl
    have h₁₁ := h₁₀.step (e := LimitOp.pollAllocSid .bi) ⟨trivial, trivial⟩ rfl
    have h₁₂ := h₁₁.step (e := LimitOp.recvStreamsBlocked (.bi ⟨3, by decide⟩))
      ⟨trivial, List.mem_append_right _ List.mem_cons_self⟩ rfl
    have h₁₃ := h₁₂.step (e := LimitOp.recvMaxStreams (.bi ⟨4, by decide⟩))
      ⟨List.mem_append_right _ List.mem_cons_self, trivial⟩ rfl
    have h₁₄ := h₁₃.step (e := LimitOp.pollAllocSid .bi) ⟨trivial, trivial⟩ rfl
    have h₁₅ := h₁₄.step (e := LimitOp.recvStreamsBlocked (.bi ⟨1, by decide⟩)) ⟨trivial, List.mem_cons_self⟩ rfl
    exact ⟨_, h₁₅, rfl, List.mem_append_right _ List.mem_cons_self, rfl⟩

end Dquic
