import Dquic.Frame.RoundTrip

/-!
# Stream ids

The ids of streams and the limits on them (`qbase/src/sid.rs`, `qbase/src/sid/`): an endpoint
allocates ids under the limit of its peer, checks the ids of its peer against its own limit, and
raises that limit as its strategy says.
-/

namespace Dquic

/-- `role as u64`. -/
def Role.toNat : Role → Nat
  | client => 0
  | server => 1

/-- `!role`. -/
def Role.not : Role → Role
  | client => server
  | server => client

lemma Role.not_ne (r : Role) : r.not ≠ r := by
  cases r <;> decide

lemma Role.not_injective : Function.Injective Role.not := by
  intro r s h
  cases r <;> cases s <;> first | rfl | cases h

lemma Role.eq_not_iff {r s : Role} : s = r.not ↔ s ≠ r := by
  cases r <;> cases s <;> decide

/-- `dir as u64`. -/
def Dir.toNat : Dir → Nat
  | bi => 0
  | uni => 1

namespace StreamId

def rawOf (role : Role) (dir : Dir) (id : Nat) : Nat := (id * 2 + dir.toNat) * 2 + role.toNat

lemma rawOf_lt {role : Role} {dir : Dir} {id : Nat} (h : id ≤ maxStreamsLimit) : rawOf role dir id < 2 ^ 62 := by
  unfold maxStreamsLimit at h
  cases role <;> cases dir <;> simp only [rawOf, Role.toNat, Dir.toNat] <;> omega

/-- `StreamId::new` asserts that the index fits 60 bits. -/
def new (role : Role) (dir : Dir) (id : Nat) : Option StreamId :=
  if h : id ≤ maxStreamsLimit then some ⟨⟨rawOf role dir id, rawOf_lt h⟩⟩ else none

def role (sid : StreamId) : Role := if sid.raw.val % 2 = 0 then .client else .server

def dir (sid : StreamId) : Dir := if sid.raw.val / 2 % 2 = 0 then .bi else .uni

def id (sid : StreamId) : Nat := sid.raw.val / 4

lemma raw_eq (sid : StreamId) : sid.raw.val = rawOf sid.role sid.dir sid.id := by
  unfold rawOf role dir id
  split_ifs <;> simp only [Role.toNat, Dir.toNat] <;> omega

variable {d : Dir} {n : Nat} {r : Role} {sid : StreamId}

lemma parts_of_raw (h : sid.raw.val = rawOf r d n) : sid.role = r ∧ sid.dir = d ∧ sid.id = n := by
  have hd : d.toNat < 2 := by cases d <;> decide
  have hr : r.toNat < 2 := by cases r <;> decide
  unfold rawOf at h
  refine ⟨?_, ?_, ?_⟩
  · cases r with
    | client =>
      rw [Role.toNat] at h
      exact if_pos (by omega)
    | server =>
      rw [Role.toNat] at h
      exact if_neg (by omega)
  · cases d with
    | bi =>
      rw [Dir.toNat] at h
      exact if_pos (by omega)
    | uni =>
      rw [Dir.toNat] at h
      exact if_neg (by omega)
  · rw [id]
    omega

lemma ext_parts {sid' : StreamId} (hrole : sid.role = sid'.role) (hdir : sid.dir = sid'.dir) (hid : sid.id = sid'.id) :
    sid = sid' := by
  have hraw : sid.raw.val = sid'.raw.val := by rw [raw_eq sid, raw_eq sid', hrole, hdir, hid]
  exact congrArg StreamId.mk (VarInt.ext_val hraw)

lemma new_of_le (h : n ≤ maxStreamsLimit) : ∃ sid, new r d n = some sid ∧ sid.role = r ∧ sid.dir = d ∧ sid.id = n :=
  ⟨_, dif_pos h, parts_of_raw rfl⟩

lemma new_eq_some (h : new r d n = some sid) : sid.role = r ∧ sid.dir = d ∧ sid.id = n := by
  unfold new at h
  split_ifs at h
  cases h
  exact parts_of_raw rfl

lemma rawOf_succ (r : Role) (d : Dir) (n : Nat) : rawOf r d n + 4 = rawOf r d (n + 1) := by
  unfold rawOf
  omega

lemma rawOf_lt_iff {m : Nat} : rawOf r d m < rawOf r d n ↔ m < n := by
  unfold rawOf
  omega

end StreamId

/-! ### Frames about limits -/

def MaxStreamsFrame.withDir : Dir → VarInt → MaxStreamsFrame
  | .bi, maxStreams => bi maxStreams
  | .uni, maxStreams => uni maxStreams

@[simp] lemma MaxStreamsFrame.dir_withDir (dir : Dir) (v : VarInt) : (withDir dir v).dir = dir := by
  cases dir <;> rfl

@[simp] lemma MaxStreamsFrame.count_withDir (dir : Dir) (v : VarInt) : (withDir dir v).count = v := by
  cases dir <;> rfl

namespace StreamsBlockedFrame

def withDir : Dir → VarInt → StreamsBlockedFrame
  | .bi, maxStreams => bi maxStreams
  | .uni, maxStreams => uni maxStreams

def dir : StreamsBlockedFrame → Dir
  | bi _ => .bi
  | uni _ => .uni

def count : StreamsBlockedFrame → VarInt
  | bi maxStreams => maxStreams
  | uni maxStreams => maxStreams

end StreamsBlockedFrame

/-! ### Local stream ids -/

structure LocalStreamIds where
  role : Role
  max : Dir → Nat
  /-- The index that is allocated next. -/
  unallocated : Dir → Nat

/-- What `poll_alloc_sid` returns. A blocked allocation sends a frame. -/
inductive AllocSid
  | allocated (sid : StreamId)
  | exhausted
  | blocked (frame : StreamsBlockedFrame)
  deriving DecidableEq, Repr

namespace LocalStreamIds

def new (role : Role) (max : Dir → Nat) : LocalStreamIds := ⟨role, max, fun _ => 0⟩

def increaseLimit (l : LocalStreamIds) (dir : Dir) (val : Nat) : Option LocalStreamIds := do
  debugAssert (val ≤ maxStreamsLimit)
  if l.max dir < val then some { l with max := Function.update l.max dir val } else some l

def recvMaxStreamsFrame (l : LocalStreamIds) (frame : MaxStreamsFrame) : Option LocalStreamIds :=
  l.increaseLimit frame.dir frame.count.val

def pollAllocSid (l : LocalStreamIds) (dir : Dir) : Option (AllocSid × LocalStreamIds) :=
  let max := l.max dir
  let unallocated := l.unallocated dir
  if maxStreamsLimit < unallocated then some (.exhausted, l)
  else if unallocated < max then do
    let sid ← StreamId.new l.role dir unallocated
    some (.allocated sid, { l with unallocated := Function.update l.unallocated dir (unallocated + 1) })
  else do
    let maxStreams ← VarInt.fromU64 max
    some (.blocked (.withDir dir maxStreams), l)

end LocalStreamIds

/-! ### Strategies -/

/-- `ControlStreamsConcurrency`: callbacks that may answer with a new limit, and may panic. -/
class ControlStreamsConcurrency (κ : Type) where
  onAcceptStreams : κ → Dir → Nat → Option (Option Nat × κ)
  onEndOfStream : κ → Dir → Nat → Option (Option Nat × κ)
  onStreamsBlocked : κ → Dir → Nat → Option (Option Nat × κ)

structure ConsistentConcurrency where
  maxStreams : Dir → Nat

instance : ControlStreamsConcurrency ConsistentConcurrency where
  onAcceptStreams c _ _ := some (none, c)
  onEndOfStream c dir _ := do
    let newLimit ← checkedAdd (c.maxStreams dir) 1
    some (some newLimit, ⟨Function.update c.maxStreams dir newLimit⟩)
  onStreamsBlocked c _ _ := some (none, c)

structure DemandConcurrency

instance : ControlStreamsConcurrency DemandConcurrency where
  onAcceptStreams c _ _ := some (none, c)
  onEndOfStream c _ _ := some (none, c)
  onStreamsBlocked c _ maxStreams := do
    let newLimit ← checkedAdd maxStreams 1
    some (some newLimit, c)

/-! ### Remote stream ids -/

structure ExceedLimitError where
  sid : StreamId
  limit : Nat
  deriving DecidableEq, Repr

def ExceedLimitError.display (e : ExceedLimitError) : String := e.sid.display ++ " exceed limit: " ++ toString e.limit

/-- The streams that are created together. The start may lie one past the largest id. -/
structure NeedCreate where
  start : Nat
  stop : StreamId
  deriving DecidableEq, Repr

namespace NeedCreate

def next (n : NeedCreate) : Option (StreamId × NeedCreate) :=
  if h : n.start ≤ n.stop.raw.val then
    some (⟨⟨n.start, lt_of_le_of_lt h n.stop.raw.lt⟩⟩, { n with start := n.start + 4 })
  else none

def collect : Nat → NeedCreate → List StreamId
  | 0, _ => []
  | fuel + 1, n =>
    match n.next with
    | none => []
    | some (sid, n) => sid :: collect fuel n

def ids (n : NeedCreate) : List StreamId := collect (n.stop.raw.val + 1 - n.start) n

end NeedCreate

inductive AcceptSid
  | old
  | new (needCreate : NeedCreate)
  deriving DecidableEq, Repr

structure RemoteStreamIds (κ : Type) where
  /-- The role of the peer. -/
  role : Role
  max : Dir → Nat
  /-- The first id that the peer has not used. -/
  unallocated : Dir → Nat
  ctrl : κ

namespace RemoteStreamIds

variable {κ : Type}

def new (role : Role) (max : Dir → Nat) (ctrl : κ) : RemoteStreamIds κ :=
  ⟨role, max, fun dir => StreamId.rawOf role dir 0, ctrl⟩

def revise (r : RemoteStreamIds κ) (dir : Dir) : Option Nat × κ → Option (RemoteStreamIds κ × Option MaxStreamsFrame)
  | (none, ctrl) => some ({ r with ctrl := ctrl }, none)
  | (some maxStreams, ctrl) => do
    let count ← VarInt.fromU64 maxStreams
    some ({ r with max := Function.update r.max dir maxStreams, ctrl := ctrl }, some (.withDir dir count))

variable [ControlStreamsConcurrency κ]

def tryAcceptSid (r : RemoteStreamIds κ) (sid : StreamId) :
    Option (Except ExceedLimitError AcceptSid × RemoteStreamIds κ × Option MaxStreamsFrame) := do
  debugAssert (sid.role = r.role)
  if r.max sid.dir < sid.id then some (.error ⟨sid, r.max sid.dir⟩, r, none)
  else if sid.raw.val < r.unallocated sid.dir then some (.ok .old, r, none)
  else
    let start := r.unallocated sid.dir
    let answer ← ControlStreamsConcurrency.onAcceptStreams r.ctrl sid.dir sid.id
    let (r, frame) ←
      revise { r with unallocated := Function.update r.unallocated sid.dir (sid.raw.val + 4) } sid.dir answer
    some (.ok (.new ⟨start, sid⟩), r, frame)

def onEndOfStream (r : RemoteStreamIds κ) (sid : StreamId) : Option (RemoteStreamIds κ × Option MaxStreamsFrame) :=
  if sid.role ≠ r.role then some (r, none)
  else do
    let answer ← ControlStreamsConcurrency.onEndOfStream r.ctrl sid.dir sid.id
    r.revise sid.dir answer

def recvStreamsBlockedFrame (r : RemoteStreamIds κ) (frame : StreamsBlockedFrame) :
    Option (RemoteStreamIds κ × Option MaxStreamsFrame) := do
  let answer ← ControlStreamsConcurrency.onStreamsBlocked r.ctrl frame.dir frame.count.val
  r.revise frame.dir answer

end RemoteStreamIds

/-! ### What the iterator yields -/

namespace NeedCreate

variable {n : Nat} {sid : StreamId}

lemma next_of_le (h : n ≤ sid.id) :
    ∃ s, next ⟨StreamId.rawOf sid.role sid.dir n, sid⟩ = some (s, ⟨StreamId.rawOf sid.role sid.dir (n + 1), sid⟩) ∧
      s.role = sid.role ∧ s.dir = sid.dir ∧ s.id = n := by
  have hle : StreamId.rawOf sid.role sid.dir n ≤ sid.raw.val := by
    rw [StreamId.raw_eq sid]
    unfold StreamId.rawOf
    omega
  refine ⟨⟨⟨StreamId.rawOf sid.role sid.dir n, lt_of_le_of_lt hle sid.raw.lt⟩⟩, ?_, StreamId.parts_of_raw rfl⟩
  rw [← StreamId.rawOf_succ]
  exact dif_pos hle

lemma next_of_gt (h : sid.id < n) : next ⟨StreamId.rawOf sid.role sid.dir n, sid⟩ = none := by
  have hgt : ¬ StreamId.rawOf sid.role sid.dir n ≤ sid.raw.val := by
    rw [StreamId.raw_eq sid, not_le, StreamId.rawOf_lt_iff]
    exact h
  exact dif_neg hgt

lemma collect_indices (sid : StreamId) (fuel n : Nat) (hn : n ≤ sid.id + 1) (hfuel : sid.id + 1 - n ≤ fuel) :
    (collect fuel ⟨StreamId.rawOf sid.role sid.dir n, sid⟩).map StreamId.id = List.range' n (sid.id + 1 - n) ∧
      ∀ s ∈ collect fuel ⟨StreamId.rawOf sid.role sid.dir n, sid⟩, s.role = sid.role ∧ s.dir = sid.dir := by
  induction fuel generalizing n with
  | zero =>
    rw [show sid.id + 1 - n = 0 by omega]
    exact ⟨rfl, fun s hs => absurd hs List.not_mem_nil⟩
  | succ fuel ih =>
    by_cases hle : n ≤ sid.id
    · obtain ⟨s, hnext, hrole, hdir, hid⟩ := next_of_le hle
      obtain ⟨hmap, hall⟩ := ih (n + 1) (by omega) (by omega)
      rw [collect, hnext, show sid.id + 1 - n = sid.id + 1 - (n + 1) + 1 by omega, List.range'_succ]
      constructor
      · rw [List.map_cons, hid, hmap]
      · intro t ht
        cases List.mem_cons.mp ht with
        | inl heq => exact heq ▸ ⟨hrole, hdir⟩
        | inr hmem => exact hall t hmem
    · rw [collect, next_of_gt (by omega), show sid.id + 1 - n = 0 by omega]
      exact ⟨rfl, fun s hs => absurd hs List.not_mem_nil⟩

/-- Each index from the start to the accepted one is created once, in increasing order. -/
theorem ids_indices (hn : n ≤ sid.id) :
    (ids ⟨StreamId.rawOf sid.role sid.dir n, sid⟩).map StreamId.id = List.range' n (sid.id + 1 - n) ∧
      ∀ s ∈ ids ⟨StreamId.rawOf sid.role sid.dir n, sid⟩, s.role = sid.role ∧ s.dir = sid.dir := by
  have hfuel : sid.id + 1 - n ≤ sid.raw.val + 1 - StreamId.rawOf sid.role sid.dir n := by
    rw [StreamId.raw_eq sid]
    unfold StreamId.rawOf
    omega
  exact collect_indices sid _ n (by omega) hfuel

end NeedCreate

end Dquic
