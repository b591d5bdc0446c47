import Dquic.Frame.Types

/-!
# Stream and connection errors

RESET_STREAM frames, the error they end a stream with, and connection errors
(`qbase/src/error.rs`, `qbase/src/frame/reset_stream.rs`).
-/

namespace Dquic

namespace StreamId

def display (sid : StreamId) : String :=
  (if sid.raw.val % 2 = 0 then "client" else "server") ++ " side " ++
    (if sid.raw.val / 2 % 2 = 0 then "bidirectional" else "unidirectional") ++
    " stream " ++ toString (sid.raw.val / 4)

end StreamId

structure ResetStreamFrame where
  streamId : StreamId
  appErrorCode : VarInt
  finalSize : VarInt
  deriving DecidableEq, Repr

structure ResetStreamError where
  appErrorCode : VarInt
  finalSize : VarInt
  deriving DecidableEq, Repr

def ResetStreamError.ofFrame (f : ResetStreamFrame) : ResetStreamError := ⟨f.appErrorCode, f.finalSize⟩

def ResetStreamError.combine (error : ResetStreamError) (sid : StreamId) : ResetStreamFrame :=
  ⟨sid, error.appErrorCode, error.finalSize⟩

/-- Why the application cannot use a stream. -/
inductive StreamError (ε : Type)
  | connection (error : ε)
  | reset (reset : ResetStreamError)
  | finished
  deriving DecidableEq, Repr

def StreamFrame.frameType (f : StreamFrame) : FrameType := .stream (f.offset.val ≠ 0) f.lenBit f.finBit

inductive ErrorKind
  | none
  | internal
  | connectionRefused
  | flowControl
  | streamLimit
  | streamState
  | finalSize
  | frameEncoding
  | transportParameter
  | connectionIdLimit
  | protocolViolation
  | invalidToken
  | application
  | cryptoBufferExceeded
  | keyUpdate
  | aeadLimitReached
  | noViablePath
  | crypto (alert : UInt8)
  deriving DecidableEq, Repr

namespace ErrorKind

/-- `From<ErrorKind> for VarInt`. -/
def toVarInt : ErrorKind → VarInt
  | none => .fromU32 0x00
  | internal => .fromU32 0x01
  | connectionRefused => .fromU32 0x02
  | flowControl => .fromU32 0x03
  | streamLimit => .fromU32 0x04
  | streamState => .fromU32 0x05
  | finalSize => .fromU32 0x06
  | frameEncoding => .fromU32 0x07
  | transportParameter => .fromU32 0x08
  | connectionIdLimit => .fromU32 0x09
  | protocolViolation => .fromU32 0x0a
  | invalidToken => .fromU32 0x0b
  | application => .fromU32 0x0c
  | cryptoBufferExceeded => .fromU32 0x0d
  | keyUpdate => .fromU32 0x0e
  | aeadLimitReached => .fromU32 0x0f
  | noViablePath => .fromU32 0x10
  | crypto alert => .fromU32 (0x0100 ||| alert.toNat)

/-- `TryFrom<VarInt> for ErrorKind`. -/
def ofVarInt (v : VarInt) : Option ErrorKind :=
  match v.val with
  | 0x00 => some none
  | 0x01 => some internal
  | 0x02 => some connectionRefused
  | 0x03 => some flowControl
  | 0x04 => some streamLimit
  | 0x05 => some streamState
  | 0x06 => some finalSize
  | 0x07 => some frameEncoding
  | 0x08 => some transportParameter
  | 0x09 => some connectionIdLimit
  | 0x0a => some protocolViolation
  | 0x0b => some invalidToken
  | 0x0c => some application
  | 0x0d => some cryptoBufferExceeded
  | 0x0e => some keyUpdate
  | 0x0f => some aeadLimitReached
  | 0x10 => some noViablePath
  | code => if 0x0100 ≤ code ∧ code ≤ 0x01ff then some (crypto (UInt8.ofNat (code &&& 0xff))) else Option.none

theorem ofVarInt_toVarInt (kind : ErrorKind) : ofVarInt kind.toVarInt = some kind := by
  cases kind with
  | crypto alert =>
    have hall : ∀ n < 256, ofVarInt (.fromU32 (0x0100 ||| n)) = some (crypto (UInt8.ofNat n)) := by decide +kernel
    have halert := hall alert.toNat alert.toNat_lt
    rwa [UInt8.ofNat_toNat] at halert
  | _ => rfl

end ErrorKind

/-- The frame type in an error, which may be one that is not known here. -/
inductive ErrorFrameType
  | v1 (fty : FrameType)
  | ext (fty : VarInt)
  deriving DecidableEq, Repr

def ErrorFrameType.toVarInt : ErrorFrameType → VarInt
  | v1 fty => fty.toVarInt
  | ext fty => fty

/-- `QuicError`, with the frame type that triggered it. -/
structure QuicError where
  kind : ErrorKind
  frameType : FrameType
  reason : String
  deriving DecidableEq, Repr

def QuicError.withDefaultFty (kind : ErrorKind) (reason : String) : QuicError := ⟨kind, .padding, reason⟩

end Dquic
