import Dquic.Packet.Assemble

/-!
# Packages of any kind

`Package` and `PacketBuffer::assemble` of `qbase/src/packet/assemble.rs` for sources that may do
anything to the buffer, where `Source` keeps to well sized frames.
-/

namespace Dquic

open Lib

/-- `Error` of `qbase/src/error.rs`, with the frame type as it was received. -/
inductive ConnError
  | app (errorCode : VarInt) (reason : String)
  | quic (kind : ErrorKind) (frameType : ErrorFrameType) (reason : String)
  deriving DecidableEq, Repr

namespace ConnError

def ofQuic (e : QuicError) : ConnError := quic e.kind (.v1 e.frameType) e.reason

/-- `From<ConnectionCloseFrame> for Error`. -/
def ofFrame : ConnectionCloseFrame → ConnError
  | .quic f => quic f.errorKind f.frameType f.reason
  | .app f => app f.errorCode f.reason

/-- `From<Error> for ConnectionCloseFrame`. -/
def toFrame : ConnError → ConnectionCloseFrame
  | quic kind frameType reason => .quic ⟨kind, frameType, reason⟩
  | app errorCode reason => .app ⟨errorCode, reason⟩

end ConnError

/-- `Poll<Result<usize, Error>>`, where `none` is `Pending`. -/
abbrev PollPackage := Option (Except ConnError Nat)

/-- `Package`, with the frames that it wrote beside its result. -/
structure Package where
  content : PacketContent
  belongsTo : PacketType → Bool
  priority : Nat
  pollDump : PacketBuffer → Option (PollPackage × List (Frame Bytes) × PacketBuffer)

namespace PacketBuffer

def pollPackages (result : PollPackage) (b : PacketBuffer) :
    List Package → Option (PollPackage × List (Frame Bytes) × PacketBuffer)
  | [] => some (result, [], b)
  | p :: rest =>
    if b.finished then some (result, [], b)
    else do
      let (poll, log, b) ← p.pollDump b
      match poll with
      | some (.error e) => some (some (.error e), log, b)
      | some (.ok _) => do
        let (result, more, b) ← pollPackages (some (.ok 0)) b rest
        some (result, log ++ more, b)
      | none => do
        let (result, more, b) ← pollPackages result b rest
        some (result, log ++ more, b)

/-- The packages that are polled, those of equal priority in their order. -/
def packageQueue (b : PacketBuffer) (content : PacketContent) (packages : List Package) : List Package :=
  (packages.insertionSort fun p q => q.priority ≤ p.priority).filter fun p =>
    p.belongsTo b.info.pktype && decide (p.content.rank ≤ content.rank)

def packageOutcome (start : Nat) (result : PollPackage) (b : PacketBuffer) : PollPackage :=
  match result with
  | some (.error e) => some (.error e)
  | result => if start < b.info.nframes then some (.ok (b.info.nframes - start)) else result

def assemblePackages (b : PacketBuffer) (content : PacketContent) (packages : List Package) :
    Option (PollPackage × List (Frame Bytes) × PacketBuffer) :=
  if b.finished then some (some (.ok 0), [], b)
  else do
    let (result, log, b') ← pollPackages none b (b.packageQueue content packages)
    some (packageOutcome b.info.nframes result b', log, b')

/-! ### The package that comes first -/

variable {p : Package} {post pre : List Package} {b : PacketBuffer}

lemma insertionSort_eq_cons (hpre : ∀ q ∈ pre, q.priority < p.priority) (hpost : ∀ q ∈ post, q.priority ≤ p.priority) :
    ∃ rest, (pre ++ p :: post).insertionSort (fun p q => q.priority ≤ p.priority) = p :: rest := by
  induction pre with
  | nil => exact ⟨_, List.insertionSort_cons_of_forall_rel _ hpost⟩
  | cons q pre ih =>
    obtain ⟨rest, hrest⟩ := ih fun r hr => hpre r (.tail _ hr)
    have hlt : ¬ p.priority ≤ q.priority := not_le.mpr (hpre q (.head _))
    refine ⟨rest.orderedInsert (fun p q => q.priority ≤ p.priority) q, ?_⟩
    rw [List.cons_append, List.insertionSort_cons, hrest, List.orderedInsert_cons, if_neg hlt]

/-- A package of the highest priority that goes into every packet is polled before all that stand behind it. -/
lemma packageQueue_eq_cons {content : PacketContent} (hpre : ∀ q ∈ pre, q.priority < p.priority)
    (hpost : ∀ q ∈ post, q.priority ≤ p.priority) (hbelongs : p.belongsTo b.info.pktype = true)
    (hcontent : p.content = .nonAckEliciting) : ∃ rest, b.packageQueue content (pre ++ p :: post) = p :: rest := by
  obtain ⟨rest, hrest⟩ := insertionSort_eq_cons hpre hpost
  unfold packageQueue
  rw [hrest, List.filter_cons_of_pos]
  · exact ⟨_, rfl⟩
  · rw [hbelongs, hcontent, Bool.true_and]
    exact decide_eq_true content.rank.zero_le

lemma pollPackages_of_finished (h : b.finished = true) (result : PollPackage) (packages : List Package) :
    pollPackages result b packages = some (result, [], b) := by
  cases packages with
  | nil => rfl
  | cons p rest =>
    unfold pollPackages
    rw [if_pos h]

/-- If the first package finishes the packet or fails, then nothing is written beside its frames. -/
lemma log_of_pollPackages {b₁ b' : PacketBuffer} {rest : List Package} {poll result result' : PollPackage}
    {log log' : List (Frame Bytes)} (hb : b.finished = false) (hp : p.pollDump b = some (poll, log, b₁))
    (hlast : b₁.finished = true ∨ ∃ e, poll = some (.error e))
    (h : pollPackages result b (p :: rest) = some (result', log', b')) : log' = log := by
  unfold pollPackages at h
  rw [if_neg (by rw [hb]; exact Bool.false_ne_true), hp] at h
  rcases hlast with hfin | ⟨e, rfl⟩
  · rcases poll with _ | e | n
    · simp only [some_bind, pollPackages_of_finished hfin, List.append_nil] at h
      cases h
      rfl
    · cases h
      rfl
    · simp only [some_bind, pollPackages_of_finished hfin, List.append_nil] at h
      cases h
      rfl
  · cases h
    rfl

end PacketBuffer

end Dquic
