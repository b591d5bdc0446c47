import Dquic.Frame.Errors

/-!
# The keys of 1-RTT packets

`PacketKeyRing` of `qtransport/src/keys/short.rs`: up to three generations of packet keys, of
which the last one seals, and the candidate for the next one.
-/

namespace Dquic

/-- `RangeInclusive<u64>`. -/
structure PnBounds where
  start : Nat
  last : Nat
  deriving DecidableEq, Repr

/-- The keys of a generation, the bounds of the packet numbers that were authenticated with them, and when they expire. -/
structure PacketKeyState where
  generation : Nat
  received : Option PnBounds
  expires : Option Nat
  deriving DecidableEq, Repr

structure PacketKeyRing where
  keys : List PacketKeyState
  next : Option Nat
  canUpdate : Bool
  deriving DecidableEq, Repr

/-- `KeyPhaseBit` of a generation. -/
def keyPhase (generation : Nat) : Bool := generation &&& 1 != 0

def rposition {α : Type} (p : α → Bool) : List α → Option Nat
  | [] => none
  | a :: l =>
    match rposition p l with
    | some i => some (i + 1)
    | none => if p a then some 0 else none

namespace PacketKeyState

def expired (s : PacketKeyState) (now : Nat) : Bool := s.expires.any fun expiry => expiry ≤ now

/-- A packet at or before the packet number was authenticated. -/
def startsBy (s : PacketKeyState) (pn : Nat) : Bool := s.received.any fun b => b.start ≤ pn

def reaches (s : PacketKeyState) (pn : Nat) : Bool := s.received.any fun b => pn ≤ b.last

def age (s : PacketKeyState) (expiry : Nat) : PacketKeyState := { s with expires := s.expires.or (some expiry) }

def observe (s : PacketKeyState) (pn : Nat) : PacketKeyState :=
  { s with received := some (match s.received with
    | some b => ⟨min b.start pn, max b.last pn⟩
    | none => ⟨pn, pn⟩) }

end PacketKeyState

namespace PacketKeyRing

def initial : PacketKeyRing := ⟨[⟨0, none, none⟩], none, false⟩

def nextKeys (r : PacketKeyRing) : Option (Except QuicError Nat × PacketKeyRing) :=
  match r.next with
  | some generation => some (.ok generation, r)
  | none => do
    let back ← r.keys.getLast?
    match checkedAdd back.generation 1 with
    | some generation => some (.ok generation, { r with next := some generation })
    | none => some (.error (.withDefaultFty .keyUpdate "key generation exhausted"), r)

def pushNext (r : PacketKeyRing) : Option PacketKeyRing := do
  let generation ← r.next
  let kept := if r.keys.length = 3 then r.keys.tail else r.keys
  some ⟨kept ++ [⟨generation, none, none⟩], none, false⟩

def update (r : PacketKeyRing) : Option (Except QuicError Unit × PacketKeyRing) :=
  if r.canUpdate then do
    match ← r.nextKeys with
    | (.ok _, r) => do some (.ok (), ← r.pushNext)
    | (.error e, r) => some (.error e, r)
  else some (.error (.withDefaultFty .keyUpdate "local key update is not permitted"), r)

/-- The front expires, unless it is alone. -/
def expireFront (now : Nat) : List PacketKeyState → List PacketKeyState
  | s :: t :: rest => if s.expired now then expireFront now (t :: rest) else s :: t :: rest
  | keys => keys

def select (r : PacketKeyRing) (now index : Nat) : Option (Except QuicError (Option Nat) × PacketKeyRing) :=
  if index = r.keys.length then do
    let (result, r) ← r.nextKeys
    some (result.map some, r)
  else do
    let s ← r.keys[index]?
    some (.ok (if s.expired now then none else some s.generation), r)

/-- The generation that opens a packet. The latest one that was seen at or before the packet number, or the one after it
if the phase has changed behind everything that was seen. -/
def opening (r : PacketKeyRing) (now pn : Nat) (phase : Bool) : Option (Except QuicError (Option Nat) × PacketKeyRing) := do
  let r := { r with keys := expireFront now r.keys }
  let index := (rposition (fun s => s.startsBy pn) r.keys).getD 0
  let s ← r.keys[index]?
  if phase = keyPhase s.generation then r.select now index
  else if s.reaches pn then some (.ok none, r)
  else r.select now (index + 1)

def install (r : PacketKeyRing) (generation : Nat) : Option PacketKeyRing :=
  if r.next = some generation then r.pushNext else some r

/-- Commit the generation that has opened a packet. It may have been evicted since it was selected. -/
def onOpened (r : PacketKeyRing) (now pn generation pto : Nat) : Option PacketKeyRing := do
  let r ← r.install generation
  match r.keys.findIdx? fun s => s.generation = generation with
  | none => some r
  | some index => some { r with
      keys := (r.keys.take index).map (fun s => s.age (now + 3 * pto)) ++ (r.keys.drop index).modifyHead fun s => s.observe pn }

def allowUpdate (r : PacketKeyRing) : PacketKeyRing := { r with canUpdate := true }

def onAck (r : PacketKeyRing) (generation : Nat) : Option PacketKeyRing := do
  let back ← r.keys.getLast?
  some (if generation ≠ 0 ∧ back.generation = generation then { r with canUpdate := true } else r)

/-- The keys that seal are updated before their limit, if they may be. -/
def renew (r : PacketKeyRing) (limit sealedCount : Nat) : Option (Except QuicError Unit × PacketKeyRing) :=
  if limit - 1 ≤ sealedCount ∧ r.canUpdate then r.update else some (.ok (), r)

def prepareSealing (r : PacketKeyRing) (limit : Nat) (sealedCount : Nat → Nat) :
    Option (Except QuicError Unit × PacketKeyRing) := do
  let back ← r.keys.getLast?
  match ← r.renew limit (sealedCount back.generation) with
  | (.error e, r) => some (.error e, r)
  | (.ok (), r) => do
    let back ← r.keys.getLast?
    if limit ≤ sealedCount back.generation then
      some (.error (.withDefaultFty .aeadLimitReached "packet protection confidentiality limit"), r)
    else some (.ok (), r)

end PacketKeyRing

end Dquic
