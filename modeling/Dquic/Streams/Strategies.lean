import Dquic.Streams.Limits

/-!
# The two strategies for limits

What `ConsistentConcurrency` and `DemandConcurrency` (`qbase/src/sid/handy.rs`) do to the limits
that an endpoint gives its peer.
-/

namespace Dquic

open Lib Lib.Nom

variable {κ : Type}

/-! ### Calls that return -/

namespace RemoteStreamIds

variable [ControlStreamsConcurrency κ] {r : RemoteStreamIds κ} {answer : Option Nat} {ctrl : κ}

lemma tryAcceptSid_returns {sid : StreamId} (hrole : sid.role = r.role)
    (hanswer : ControlStreamsConcurrency.onAcceptStreams r.ctrl sid.dir sid.id = some (answer, ctrl))
    (hfits : ∀ limit ∈ answer, limit < 2 ^ 62) : ∃ out, r.tryAcceptSid sid = some out := by
  obtain ⟨r', frame, hrevise⟩ := revise_of_lt
    (r := { r with unallocated := Function.update r.unallocated sid.dir (sid.raw.val + 4) }) sid.dir ctrl hfits
  unfold tryAcceptSid
  rw [debugAssert_of hrole, hanswer]
  simp only [some_bind, hrevise]
  split_ifs
  · exact ⟨_, rfl⟩
  · exact ⟨_, rfl⟩
  · exact ⟨_, rfl⟩

lemma onEndOfStream_returns {sid : StreamId}
    (hanswer : ControlStreamsConcurrency.onEndOfStream r.ctrl sid.dir sid.id = some (answer, ctrl))
    (hfits : ∀ limit ∈ answer, limit < 2 ^ 62) : ∃ out, r.onEndOfStream sid = some out := by
  obtain ⟨r', frame, hrevise⟩ := revise_of_lt (r := r) sid.dir ctrl hfits
  unfold onEndOfStream
  split_ifs
  · exact ⟨_, rfl⟩
  · rw [hanswer]
    exact ⟨_, hrevise⟩

lemma recvStreamsBlockedFrame_returns {f : StreamsBlockedFrame}
    (hanswer : ControlStreamsConcurrency.onStreamsBlocked r.ctrl f.dir f.count.val = some (answer, ctrl))
    (hfits : ∀ limit ∈ answer, limit < 2 ^ 62) : ∃ out, r.recvStreamsBlockedFrame f = some out := by
  obtain ⟨r', frame, hrevise⟩ := revise_of_lt (r := r) f.dir ctrl hfits
  unfold recvStreamsBlockedFrame
  rw [hanswer]
  exact ⟨_, hrevise⟩

end RemoteStreamIds

namespace LocalStreamIds

lemma recvMaxStreamsFrame_returns (l : LocalStreamIds) {f : MaxStreamsFrame} (h : f.count.val ≤ maxStreamsLimit) :
    ∃ l', l.recvMaxStreamsFrame f = some l' := by
  unfold recvMaxStreamsFrame increaseLimit
  rw [debugAssert_of h]
  simp only [some_bind]
  split_ifs
  · exact ⟨_, rfl⟩
  · exact ⟨_, rfl⟩

lemma pollAllocSid_returns {l : LocalStreamIds} {dir : Dir} (h : l.max dir < 2 ^ 62) :
    ∃ out, l.pollAllocSid dir = some out := by
  unfold pollAllocSid
  dsimp only
  split_ifs with hexhausted
  · exact ⟨_, rfl⟩
  · obtain ⟨sid, hsid, -⟩ := StreamId.new_of_le (r := l.role) (d := dir) (not_lt.mp hexhausted)
    rw [hsid]
    exact ⟨_, rfl⟩
  · rw [VarInt.fromU64_of_lt h]
    exact ⟨_, rfl⟩

end LocalStreamIds

/-! ### Moderate answers -/

/-- A limit is not withdrawn: those of a direction are in order, never above `2^60` and the last of them is stored. The
peer can parse each of them, ids below any of them are accepted, and no issued step panics as long as it meets `P`. -/
structure LimitWorld.Kept [ControlStreamsConcurrency κ] (w : LimitWorld κ) (role : Role) (initial : Dir → VarInt)
    (P : LimitWorld κ → LimitOp → Prop) : Prop where
  sorted : ∀ dir, (w.advertised initial dir).Pairwise (· ≤ ·)
  bounded : ∀ dir, ∀ limit ∈ w.advertised initial dir, limit ≤ 2 ^ 60
  stored : ∀ dir, (w.advertised initial dir).getLast? = some (w.remote.max dir)
  parsed : ∀ f ∈ w.sent, ∀ rest, Parses (maxStreamsFrameWithDir f.dir) (putVarint f.count) rest f
  permitted : ∀ sid : StreamId, sid.role = role → (∃ limit ∈ w.advertised initial sid.dir, sid.id ≤ limit) →
    ∃ result remote frame, w.remote.tryAcceptSid sid = some (.ok result, remote, frame)
  runs : ∀ op, w.Issued op → P w op → (∀ sid, op = .tryAcceptSid sid → sid.role = role) → ∃ w', w.exec op = some w'

namespace LimitWorld

variable {w w' : LimitWorld κ} {role : Role} {initial : Dir → VarInt}

/-- What both strategies keep, as long as their answers lie between the stored limit and what a peer can parse. -/
structure Moderate (w : LimitWorld κ) (role : Role) (initial : Dir → VarInt) : Prop where
  role : w.remote.role = role
  grow : w.Growing initial
  peer : w.PeerBelow
  parsable : ∀ f ∈ w.sent, f.count.val ≤ maxStreamsLimit

lemma moderate_new (role : Role) (initial : Dir → VarInt) (ctrl : κ) : Moderate (.new role initial ctrl) role initial :=
  ⟨rfl, growing_new role initial ctrl, peerBelow_new role initial ctrl, fun _ hf => absurd hf List.not_mem_nil⟩

lemma Moderate.max_le (hw : w.Moderate role initial) (hinitial : ∀ dir, (initial dir).val ≤ 2 ^ 60) (dir : Dir) :
    ∀ limit ∈ w.advertised initial dir, limit ≤ 2 ^ 60 := by
  intro limit hlimit
  cases List.mem_cons.mp hlimit with
  | inl hfirst => exact hfirst ▸ hinitial dir
  | inr hsent =>
    obtain ⟨f, hf, rfl⟩ := List.mem_map.mp hsent
    have hle := hw.parsable f (List.mem_filter.mp hf).1
    unfold maxStreamsLimit at hle
    omega

variable [ControlStreamsConcurrency κ]

def Moderates (w : LimitWorld κ) (op : LimitOp) : Prop :=
  w.Answering (fun dir limit => w.remote.max dir ≤ limit ∧ limit ≤ maxStreamsLimit) op

lemma Moderate.step (hw : w.Moderate role initial) {op : LimitOp} (hissued : w.Issued op) (hop : w.Moderates op)
    (h : w.exec op = some w') : w'.Moderate role initial := by
  have hraises : w.Raises op := hop.mono fun _ _ hlimit => hlimit.1
  refine ⟨(exec_creates h).1.trans hw.role, hw.grow.step hraises h, hw.peer.step hw.grow hissued hraises h, ?_⟩
  obtain ⟨frame, -, hsent, hframe⟩ := exec_stores hop h
  intro f hf
  rw [hsent] at hf
  cases List.mem_append.mp hf with
  | inl hold => exact hw.parsable f hold
  | inr hnew => exact (hframe f (Option.mem_toList.mp hnew)).2

lemma Moderate.runs (hw : w.Moderate role initial) (hinitial : ∀ dir, (initial dir).val ≤ 2 ^ 60) {op : LimitOp}
    (hissued : w.Issued op) (hop : w.Moderates op)
    (haccept : ∀ sid, op = .tryAcceptSid sid → sid.role = role ∧
      ∃ answer, ControlStreamsConcurrency.onAcceptStreams w.remote.ctrl sid.dir sid.id = some answer)
    (hend : ∀ sid, op = .onEndOfStream sid → sid.role = w.remote.role →
      ∃ answer, ControlStreamsConcurrency.onEndOfStream w.remote.ctrl sid.dir sid.id = some answer)
    (hblocked : ∀ f, op = .recvStreamsBlocked f →
      ∃ answer, ControlStreamsConcurrency.onStreamsBlocked w.remote.ctrl f.dir f.count.val = some answer) :
    ∃ w', w.exec op = some w' := by
  have hfits : ∀ limit, limit ≤ maxStreamsLimit → limit < 2 ^ 62 := by
    unfold maxStreamsLimit
    omega
  cases op with
  | tryAcceptSid sid =>
    obtain ⟨hrole, ⟨answer, ctrl⟩, hanswer⟩ := haccept sid rfl
    obtain ⟨out, hout⟩ := RemoteStreamIds.tryAcceptSid_returns (hrole.trans hw.role.symm) hanswer
      (fun limit hlimit => hfits limit (hop limit ctrl (hlimit ▸ hanswer)).2)
    rw [exec, hout]
    exact ⟨_, rfl⟩
  | onEndOfStream sid =>
    have hout : ∃ out, w.remote.onEndOfStream sid = some out := by
      by_cases hrole : sid.role = w.remote.role
      · obtain ⟨⟨answer, ctrl⟩, hanswer⟩ := hend sid rfl hrole
        exact RemoteStreamIds.onEndOfStream_returns hanswer
          (fun limit hlimit => hfits limit (hop limit ctrl hrole (hlimit ▸ hanswer)).2)
      · exact ⟨_, if_pos hrole⟩
    obtain ⟨out, hout⟩ := hout
    rw [exec, hout]
    exact ⟨_, rfl⟩
  | recvStreamsBlocked f =>
    obtain ⟨⟨answer, ctrl⟩, hanswer⟩ := hblocked f rfl
    obtain ⟨out, hout⟩ := RemoteStreamIds.recvStreamsBlockedFrame_returns hanswer
      (fun limit hlimit => hfits limit (hop limit ctrl (hlimit ▸ hanswer)).2)
    rw [exec, hout]
    exact ⟨_, rfl⟩
  | recvMaxStreams f =>
    obtain ⟨peer, hpeer⟩ := LocalStreamIds.recvMaxStreamsFrame_returns w.peer (hw.parsable f hissued)
    rw [exec, hpeer]
    exact ⟨_, rfl⟩
  | pollAllocSid dir =>
    have hmax : w.peer.max dir < 2 ^ 62 := by
      have hlast := List.mem_of_getLast? (hw.grow.current dir)
      have hle := (hw.peer.limit dir).trans (hw.max_le hinitial dir _ hlast)
      omega
    obtain ⟨out, hout⟩ := LocalStreamIds.pollAllocSid_returns hmax
    rw [exec, hout]
    exact ⟨_, rfl⟩

end LimitWorld

/-! ### The limit grows as streams end -/

namespace ConsistentConcurrency

def Counts (w : LimitWorld ConsistentConcurrency) : Prop := w.remote.ctrl.maxStreams = w.remote.max

/-- A stream ends while the limit is below the largest one that a peer can parse. -/
def Grows (w : LimitWorld ConsistentConcurrency) : LimitOp → Prop
  | .onEndOfStream sid => sid.role = w.remote.role → w.remote.max sid.dir < maxStreamsLimit
  | _ => True

variable {w w' : LimitWorld ConsistentConcurrency}

lemma onEndOfStream_eq (hw : Counts w) {sid : StreamId} (hlt : w.remote.max sid.dir < maxStreamsLimit) :
    ControlStreamsConcurrency.onEndOfStream w.remote.ctrl sid.dir sid.id =
      some (some (w.remote.max sid.dir + 1),
        ⟨Function.update w.remote.max sid.dir (w.remote.max sid.dir + 1)⟩) := by
  have hadd : w.remote.max sid.dir + 1 < 2 ^ 64 := by
    unfold maxStreamsLimit at hlt
    omega
  change (do
    let newLimit ← checkedAdd (w.remote.ctrl.maxStreams sid.dir) 1
    some (some newLimit, (⟨Function.update w.remote.ctrl.maxStreams sid.dir newLimit⟩ : ConsistentConcurrency))) = _
  rw [hw, checkedAdd_of_lt hadd]
  rfl

lemma moderates (hw : Counts w) {op : LimitOp} (hop : Grows w op) : w.Moderates op := by
  cases op with
  | tryAcceptSid | recvStreamsBlocked =>
    intro limit ctrl hanswer
    cases hanswer
  | onEndOfStream sid =>
    intro limit ctrl hrole hanswer
    have hlt := hop hrole
    rw [onEndOfStream_eq hw hlt] at hanswer
    cases hanswer
    exact ⟨Nat.le_succ _, hlt⟩
  | recvMaxStreams f => trivial
  | pollAllocSid dir => trivial

lemma counts_step (hw : Counts w) {op : LimitOp} (hop : Grows w op) (h : w.exec op = some w') : Counts w' := by
  cases LimitWorld.exec_step h with
  | refused | old | own | raised | allocated | waiting => exact hw
  | new _ _ _ hanswer hframe | blocked hanswer hframe =>
    cases hanswer
    rw [Option.map_eq_none_iff.mp hframe.count]
    exact hw
  | ended hrole hanswer hframe =>
    rw [onEndOfStream_eq hw (hop hrole)] at hanswer
    cases hanswer
    obtain ⟨f, rfl, hcount⟩ := Option.map_eq_some_iff.mp hframe.count
    change _ = Function.update w.remote.max f.dir f.count.val
    rw [hframe.dir f rfl, hcount]
    rfl

end ConsistentConcurrency

/-! ### The limit grows when the peer asks for it -/

namespace DemandConcurrency

/-- The peer says it is blocked at its limit or above, below the largest limit that it can parse. -/
def Grows (w : LimitWorld DemandConcurrency) : LimitOp → Prop
  | .recvStreamsBlocked f => w.remote.max f.dir ≤ f.count.val + 1 ∧ f.count.val < maxStreamsLimit
  | _ => True

variable {w : LimitWorld DemandConcurrency}

lemma onStreamsBlocked_eq {f : StreamsBlockedFrame} (hlt : f.count.val < maxStreamsLimit) :
    ControlStreamsConcurrency.onStreamsBlocked w.remote.ctrl f.dir f.count.val =
      some (some (f.count.val + 1), w.remote.ctrl) := by
  have hadd : f.count.val + 1 < 2 ^ 64 := by
    unfold maxStreamsLimit at hlt
    omega
  change (do
    let newLimit ← checkedAdd f.count.val 1
    some (some newLimit, w.remote.ctrl)) = _
  rw [checkedAdd_of_lt hadd]
  rfl

lemma moderates {op : LimitOp} (hop : Grows w op) : w.Moderates op := by
  cases op with
  | tryAcceptSid sid =>
    intro limit ctrl hanswer
    cases hanswer
  | onEndOfStream sid =>
    intro limit ctrl _ hanswer
    cases hanswer
  | recvStreamsBlocked f =>
    intro limit ctrl hanswer
    rw [onStreamsBlocked_eq hop.2] at hanswer
    cases hanswer
    exact ⟨hop.1, hop.2⟩
  | recvMaxStreams f => trivial
  | pollAllocSid dir => trivial

end DemandConcurrency

/-! ### Limits are not withdrawn -/

/-- What a moderate world keeps, under a strategy that says nothing when a stream is accepted. -/
lemma LimitWorld.Moderate.kept [ControlStreamsConcurrency κ] {w : LimitWorld κ} {role : Role} {initial : Dir → VarInt}
    {P : LimitWorld κ → LimitOp → Prop} (hinitial : ∀ dir, (initial dir).val ≤ 2 ^ 60) (hw : w.Moderate role initial)
    (hsilent : ∀ sid : StreamId,
      ControlStreamsConcurrency.onAcceptStreams w.remote.ctrl sid.dir sid.id = some (none, w.remote.ctrl))
    (hruns : ∀ op, w.Issued op → P w op → (∀ sid, op = .tryAcceptSid sid → sid.role = role) → ∃ w', w.exec op = some w') :
    w.Kept role initial P where
  sorted := hw.grow.sorted
  bounded := hw.max_le hinitial
  stored := hw.grow.current
  parsed f hf rest := parses_maxStreamsFrameWithDir (hw.parsable f hf) rest
  permitted := by
    rintro sid hrole ⟨limit, hlimit, hle⟩
    apply (LimitWorld.tryAcceptSid_of_le (hrole.trans hw.role.symm) _).2 _ (hsilent sid)
    exact hle.trans (hw.grow.below sid.dir limit hlimit)
  runs := hruns

/-- In every run whose steps grow the limits, with either strategy, no limit is withdrawn. -/
theorem limits_kept (role : Role) (initial : Dir → VarInt) (hinitial : ∀ dir, (initial dir).val ≤ 2 ^ 60) :
    (∀ w, ((limitSystem role initial (ConsistentConcurrency.mk fun dir => (initial dir).val)).restrict
        ConsistentConcurrency.Grows).Reach w → w.Kept role initial ConsistentConcurrency.Grows) ∧
    ∀ w, ((limitSystem role initial DemandConcurrency.mk).restrict DemandConcurrency.Grows).Reach w →
      w.Kept role initial DemandConcurrency.Grows := by
  constructor
  · intro w hr
    have hinv : w.Moderate role initial ∧ ConsistentConcurrency.Counts w := by
      apply hr.invariant (I := fun w => w.Moderate role initial ∧ ConsistentConcurrency.Counts w)
      · rintro s rfl
        exact ⟨LimitWorld.moderate_new role initial _, rfl⟩
      · rintro s op s' ⟨hw, hcounts⟩ ⟨hissued, hgrows⟩ hexec
        exact ⟨hw.step hissued (ConsistentConcurrency.moderates hcounts hgrows) hexec,
          ConsistentConcurrency.counts_step hcounts hgrows hexec⟩
    obtain ⟨hw, hcounts⟩ := hinv
    apply hw.kept hinitial fun _ => rfl
    intro op hissued hgrows hrole
    apply hw.runs hinitial hissued (ConsistentConcurrency.moderates hcounts hgrows)
    · exact fun sid hsid => ⟨hrole sid hsid, _, rfl⟩
    · rintro sid rfl hrole
      exact ⟨_, ConsistentConcurrency.onEndOfStream_eq hcounts (hgrows hrole)⟩
    · exact fun f _ => ⟨_, rfl⟩
  · intro w hr
    have hw : w.Moderate role initial := by
      apply hr.invariant (I := fun w => w.Moderate role initial)
      · rintro s rfl
        exact LimitWorld.moderate_new role initial _
      · rintro s op s' hw ⟨hissued, hgrows⟩ hexec
        exact hw.step hissued (DemandConcurrency.moderates hgrows) hexec
    apply hw.kept hinitial fun _ => rfl
    intro op hissued hgrows hrole
    apply hw.runs hinitial hissued (DemandConcurrency.moderates hgrows)
    · exact fun sid hsid => ⟨hrole sid hsid, _, rfl⟩
    · exact fun sid _ _ => ⟨_, rfl⟩
    · rintro f rfl
      exact ⟨_, DemandConcurrency.onStreamsBlocked_eq hgrows.2⟩

/-- With a limit of one, a stream of the client ends; or the client says that it is blocked. Either way the limit is two. -/
theorem limits_kept_two :
    (∃ w, ((limitSystem .client (fun _ => ⟨1, by decide⟩) (ConsistentConcurrency.mk fun _ => 1)).restrict
        ConsistentConcurrency.Grows).Reach w ∧ w.advertised (fun _ => ⟨1, by decide⟩) .bi = [1, 2] ∧
      w.Kept .client (fun _ => ⟨1, by decide⟩) ConsistentConcurrency.Grows) ∧
    ∃ w, ((limitSystem .client (fun _ => ⟨1, by decide⟩) DemandConcurrency.mk).restrict DemandConcurrency.Grows).Reach w ∧
      w.advertised (fun _ => ⟨1, by decide⟩) .bi = [1, 2] ∧
      w.Kept .client (fun _ => ⟨1, by decide⟩) DemandConcurrency.Grows := by
  have hkept := limits_kept .client (fun _ => ⟨1, by decide⟩) (fun _ => by decide)
  constructor
  · have h₀ : ((limitSystem .client (fun _ => ⟨1, by decide⟩) (ConsistentConcurrency.mk fun _ => 1)).restrict
        ConsistentConcurrency.Grows).Reach _ := .start rfl
    have h₁ := h₀.step (e := LimitOp.tryAcceptSid ⟨⟨0, by decide⟩⟩) ⟨trivial, trivial⟩ rfl
    have h₂ := h₁.step (e := LimitOp.onEndOfStream ⟨⟨0, by decide⟩⟩) ⟨trivial, fun _ => by decide⟩ rfl
    exact ⟨_, h₂, rfl, hkept.1 _ h₂⟩
  · have h₀ : ((limitSystem .client (fun _ => ⟨1, by decide⟩) DemandConcurrency.mk).restrict
        DemandConcurrency.Grows).Reach _ := .start rfl
    have h₁ := h₀.step (e := LimitOp.recvStreamsBlocked (.bi ⟨1, by decide⟩)) ⟨trivial, by decide, by decide⟩ rfl
    exact ⟨_, h₁, rfl, hkept.2 _ h₁⟩

/-- A peer that says it is blocked at zero has its limit lowered from 100 to one and is refused its 51st stream, which
was permitted. One that says it is blocked at `2^60` is given more than `2^60`, and one that says it is blocked at the
largest integer of the encoding makes the endpoint panic. When a stream ends at the limit `2^60 - 1` or `2^60`, the next
limit is one that the parser refuses. -/
theorem limits_withdrawn :
    (∃ w, (limitSystem .client (fun _ => ⟨100, by decide⟩) DemandConcurrency.mk).Reach w ∧
      w.advertised (fun _ => ⟨100, by decide⟩) .bi = [100, 1] ∧
      w.remote.tryAcceptSid ⟨⟨200, by decide⟩⟩ = some (.error ⟨⟨⟨200, by decide⟩⟩, 1⟩, w.remote, none)) ∧
    (∃ w, (limitSystem .client (fun _ => ⟨100, by decide⟩) DemandConcurrency.mk).Reach w ∧
      w.advertised (fun _ => ⟨100, by decide⟩) .bi = [100, 2 ^ 60 + 1]) ∧
    (limitSystem .client (fun _ => ⟨100, by decide⟩) DemandConcurrency.mk).exec
      (.new .client (fun _ => ⟨100, by decide⟩) DemandConcurrency.mk)
      (.recvStreamsBlocked (.bi ⟨2 ^ 62 - 1, by decide⟩)) = none ∧
    (∃ w, (limitSystem .client (fun _ => ⟨2 ^ 60, by decide⟩) (ConsistentConcurrency.mk fun _ => 2 ^ 60)).Reach w ∧
      w.advertised (fun _ => ⟨2 ^ 60, by decide⟩) .bi = [2 ^ 60, 2 ^ 60 + 1]) ∧
    (∃ w, (limitSystem .client (fun _ => ⟨2 ^ 60 - 1, by decide⟩)
        (ConsistentConcurrency.mk fun _ => 2 ^ 60 - 1)).Reach w ∧ w.sent = [.bi ⟨2 ^ 60, by decide⟩]) ∧
    maxStreamsFrameWithDir .bi (putVarint ⟨2 ^ 60, by decide⟩) = .error (.error .tooLarge) := by
  refine ⟨?_, ?_, rfl, ?_, ?_, by decide +kernel⟩
  · have h₀ : (limitSystem .client (fun _ => ⟨100, by decide⟩) DemandConcurrency.mk).Reach _ := .start rfl
    have h₁ := h₀.step (e := LimitOp.recvStreamsBlocked (.bi ⟨0, by decide⟩)) trivial rfl
    exact ⟨_, h₁, rfl, rfl⟩
  · have h₀ : (limitSystem .client (fun _ => ⟨100, by decide⟩) DemandConcurrency.mk).Reach _ := .start rfl
    have h₁ := h₀.step (e := LimitOp.recvStreamsBlocked (.bi ⟨2 ^ 60, by decide⟩)) trivial rfl
    exact ⟨_, h₁, rfl⟩
  · have h₀ : (limitSystem .client (fun _ => ⟨2 ^ 60, by decide⟩)
        (ConsistentConcurrency.mk fun _ => 2 ^ 60)).Reach _ := .start rfl
    have h₁ := h₀.step (e := LimitOp.tryAcceptSid ⟨⟨0, by decide⟩⟩) trivial rfl
    have h₂ := h₁.step (e := LimitOp.onEndOfStream ⟨⟨0, by decide⟩⟩) trivial rfl
    exact ⟨_, h₂, rfl⟩
  · have h₀ : (limitSystem .client (fun _ => ⟨2 ^ 60 - 1, by decide⟩)
        (ConsistentConcurrency.mk fun _ => 2 ^ 60 - 1)).Reach _ := .start rfl
    have h₁ := h₀.step (e := LimitOp.tryAcceptSid ⟨⟨0, by decide⟩⟩) trivial rfl
    have h₂ := h₁.step (e := LimitOp.onEndOfStream ⟨⟨0, by decide⟩⟩) trivial rfl
    exact ⟨_, h₂, rfl⟩

end Dquic
