import Dquic.Lib.Table
import Dquic.Net.Addr

/-!
# Transport parameters

`qbase/src/param/core.rs`: the parameters of an endpoint by their ids, with the type, the default
and the bound that `ParameterId` declares for each.
-/

namespace Dquic

open Lib

/-! ### Values -/

inductive ParameterValueType
  | varInt
  | boolean
  | bytes
  | duration
  | resetToken
  | connectionId
  | preferredAddress
  deriving DecidableEq, Repr

structure SocketAddrV4 where
  ip : BitVec 32
  port : UInt16
  deriving DecidableEq, Repr

structure SocketAddrV6 where
  ip : BitVec 128
  port : UInt16
  flowinfo : UInt32
  scopeId : UInt32
  deriving DecidableEq, Repr

structure PreferredAddress where
  addressV4 : SocketAddrV4
  addressV6 : SocketAddrV6
  connectionId : ConnectionId
  statelessResetToken : ResetToken
  deriving DecidableEq, Repr

inductive ParameterValue
  | bytes (b : Bytes)
  | false
  | true
  | varInt (v : VarInt)
  | duration (nanos : Nat)
  | connectionId (cid : ConnectionId)
  | resetToken (token : ResetToken)
  | preferredAddress (addr : PreferredAddress)
  deriving DecidableEq, Repr

def ParameterValue.valueType : ParameterValue → ParameterValueType
  | bytes _ => .bytes
  | false => .boolean
  | true => .boolean
  | varInt _ => .varInt
  | duration _ => .duration
  | connectionId _ => .connectionId
  | resetToken _ => .resetToken
  | preferredAddress _ => .preferredAddress

/-- `as_millis`. -/
def asMillis (nanos : Nat) : Nat := nanos / 10 ^ 6

/-- `Duration::from_millis`. -/
def fromMillis (millis : Nat) : Nat := millis * 10 ^ 6

/-! ### Ids -/

inductive ParameterId
  | originalDestinationConnectionId
  | maxIdleTimeout
  | statelessResetToken
  | maxUdpPayloadSize
  | initialMaxData
  | initialMaxStreamDataBidiLocal
  | initialMaxStreamDataBidiRemote
  | initialMaxStreamDataUni
  | initialMaxStreamsBidi
  | initialMaxStreamsUni
  | ackDelayExponent
  | maxAckDelay
  | disableActiveMigration
  | preferredAddress
  | activeConnectionIdLimit
  | initialSourceConnectionId
  | retrySourceConnectionId
  | maxDatagramFrameSize
  | greaseQuicBit
  | clientName
  deriving DecidableEq, Repr

/-- What the enumeration declares for an id: its name and number, and the arguments of `param`. -/
structure ParamArgs where
  name : String
  code : Nat
  valueType : ParameterValueType
  default : Option ParameterValue
  bound : Option (Nat × Nat)

namespace ParameterId

def args : ParameterId → ParamArgs
  | originalDestinationConnectionId => ⟨"OriginalDestinationConnectionId", 0x0000, .connectionId, none, none⟩
  | maxIdleTimeout => ⟨"MaxIdleTimeout", 0x0001, .duration, some (.duration 0), none⟩
  | statelessResetToken => ⟨"StatelessResetToken", 0x0002, .resetToken, none, none⟩
  | maxUdpPayloadSize => ⟨"MaxUdpPayloadSize", 0x0003, .varInt, some (.varInt (.fromU32 65527)), some (1200, 65527)⟩
  | initialMaxData => ⟨"InitialMaxData", 0x0004, .varInt, some (.varInt (.fromU32 0)), none⟩
  | initialMaxStreamDataBidiLocal => ⟨"InitialMaxStreamDataBidiLocal", 0x0005, .varInt, some (.varInt (.fromU32 0)), none⟩
  | initialMaxStreamDataBidiRemote => ⟨"InitialMaxStreamDataBidiRemote", 0x0006, .varInt, some (.varInt (.fromU32 0)), none⟩
  | initialMaxStreamDataUni => ⟨"InitialMaxStreamDataUni", 0x0007, .varInt, some (.varInt (.fromU32 0)), none⟩
  | initialMaxStreamsBidi => ⟨"InitialMaxStreamsBidi", 0x0008, .varInt, some (.varInt (.fromU32 0)), none⟩
  | initialMaxStreamsUni => ⟨"InitialMaxStreamsUni", 0x0009, .varInt, some (.varInt (.fromU32 0)), none⟩
  | ackDelayExponent => ⟨"AckDelayExponent", 0x000a, .varInt, some (.varInt (.fromU32 3)), some (0, 20)⟩
  | maxAckDelay => ⟨"MaxAckDelay", 0x000b, .duration, some (.duration (fromMillis 25)), none⟩
  | disableActiveMigration => ⟨"DisableActiveMigration", 0x000c, .boolean, some .false, none⟩
  | preferredAddress => ⟨"PreferredAddress", 0x000d, .preferredAddress, none, none⟩
  | activeConnectionIdLimit => ⟨"ActiveConnectionIdLimit", 0x000e, .varInt, some (.varInt (.fromU32 2)), some (2, varintMax)⟩
  | initialSourceConnectionId => ⟨"InitialSourceConnectionId", 0x000f, .connectionId, none, none⟩
  | retrySourceConnectionId => ⟨"RetrySourceConnectionId", 0x0010, .connectionId, none, none⟩
  | maxDatagramFrameSize => ⟨"MaxDatagramFrameSize", 0x0020, .varInt, some (.varInt (.fromU32 0)), none⟩
  | greaseQuicBit => ⟨"GreaseQuicBit", 0x2ab2, .boolean, some .false, none⟩
  | clientName => ⟨"ClientName", 0xffee, .bytes, none, none⟩

def all : List ParameterId :=
  [originalDestinationConnectionId, maxIdleTimeout, statelessResetToken, maxUdpPayloadSize, initialMaxData,
    initialMaxStreamDataBidiLocal, initialMaxStreamDataBidiRemote, initialMaxStreamDataUni, initialMaxStreamsBidi,
    initialMaxStreamsUni, ackDelayExponent, maxAckDelay, disableActiveMigration, preferredAddress,
    activeConnectionIdLimit, initialSourceConnectionId, retrySourceConnectionId, maxDatagramFrameSize, greaseQuicBit,
    clientName]

def valueType (id : ParameterId) : ParameterValueType := id.args.valueType

def defaultValue (id : ParameterId) : Option ParameterValue := id.args.default

def toVarInt (id : ParameterId) : VarInt := .fromU32 id.args.code

end ParameterId

/-- `param::error::Error`. -/
inductive ParamError
  | incompleteParameterId (reason : String)
  | unknownParameterId (id : VarInt)
  | duplicateParameter (id : VarInt)
  | lackParameterId (role : Role) (id : ParameterId)
  | invalidParameterId (id : ParameterId) (role : Role)
  | incompleteValue (id : ParameterId) (reason : String)
  | invalidValueType (id : ParameterId) (ty : ParameterValueType)
  | outOfBounds (id : ParameterId) (value : Nat) (bound : Nat × Nat)
  deriving DecidableEq, Repr

namespace ParameterId

/-- `TryFrom<VarInt>`. -/
def ofVarInt (v : VarInt) : Except ParamError ParameterId :=
  match all.find? fun id => id.toVarInt = v with
  | some id => .ok id
  | none => .error (.unknownParameterId v)

def belongTo (id : ParameterId) (role : Role) : Except ParamError Unit :=
  match id with
  | originalDestinationConnectionId | statelessResetToken | preferredAddress | retrySourceConnectionId =>
    if role ≠ .server then .error (.invalidParameterId id role) else .ok ()
  | clientName => if role ≠ .client then .error (.invalidParameterId id role) else .ok ()
  | _ => .ok ()

/-- What a bound is compared with, for the types that can have one. -/
def boundedValue (id : ParameterId) (value : ParameterValue) : Option Nat :=
  match id.valueType, value with
  | .varInt, .varInt v => some v.val
  | .duration, .duration nanos => some (asMillis nanos % 2 ^ 64)
  | _, _ => none

/-- `validate`. Without a bound nothing is checked. -/
def validate (id : ParameterId) (value : ParameterValue) : Except ParamError Unit :=
  match id.args.bound with
  | none => .ok ()
  | some (low, high) =>
    match id.boundedValue value with
    | none => .error (.invalidValueType id value.valueType)
    | some n => if low ≤ n ∧ n ≤ high then .ok () else .error (.outOfBounds id n (low, high))

lemma ofVarInt_toVarInt (id : ParameterId) : ofVarInt id.toVarInt = .ok id := by cases id <;> rfl

variable {id : ParameterId} {v : VarInt}

lemma ofVarInt_eq_ok (h : ofVarInt v = .ok id) : v = id.toVarInt := by
  unfold ofVarInt at h
  cases hfind : all.find? fun id => id.toVarInt = v with
  | none =>
    rw [hfind] at h
    cases h
  | some found =>
    rw [hfind] at h
    cases h
    have hv := List.find?_some hfind
    exact (of_decide_eq_true hv).symm

lemma toVarInt_injective : Function.Injective toVarInt := by
  intro a b h
  have hok := ofVarInt_toVarInt a
  rw [h, ofVarInt_toVarInt] at hok
  exact (Except.ok.inj hok).symm

lemma ofVarInt_eq_error {e : ParamError} (h : ofVarInt v = .error e) : e = .unknownParameterId v := by
  unfold ofVarInt at h
  split at h
  · cases h
  · cases h
    rfl

lemma validate_default {value : ParameterValue} (h : id.defaultValue = some value) :
    value.valueType = id.valueType ∧ id.validate value = .ok () := by
  cases id <;> cases h <;> exact ⟨rfl, rfl⟩

end ParameterId

/-! ### Parameters -/

abbrev Parameters := Table ParameterId ParameterValue

namespace Parameters

def new : Parameters := ∅

def contains (p : Parameters) (id : ParameterId) : Prop := (p.lookup id).isSome

instance (p : Parameters) (id : ParameterId) : Decidable (p.contains id) := inferInstanceAs (Decidable (_ = _))

/-- `try_get`, before the value is converted into the type that the caller asks for. -/
def tryGet (p : Parameters) (id : ParameterId) : Option ParameterValue := (p.lookup id).or id.defaultValue

def set (p : Parameters) (role : Role) (id : ParameterId) (value : ParameterValue) : Except ParamError Parameters := do
  id.belongTo role
  id.validate value
  .ok (p.insert id value)

/-- What can be built with `set`. -/
inductive Built (role : Role) : Parameters → Prop
  | new : Built role new
  | set {p p' : Parameters} {id : ParameterId} {value : ParameterValue} (hp : Built role p)
    (hset : p.set role id value = .ok p') : Built role p'

variable {id : ParameterId} {p : Parameters} {role : Role} {value : ParameterValue}

lemma set_eq_ok {p' : Parameters} :
    p.set role id value = .ok p' ↔
      id.belongTo role = .ok () ∧ id.validate value = .ok () ∧ p' = p.insert id value := by
  unfold set
  cases hbelong : id.belongTo role with
  | error e =>
    constructor
    · intro h
      cases h
    · rintro ⟨h, -⟩
      cases h
  | ok u =>
    cases hvalid : id.validate value with
    | error e =>
      constructor
      · intro h
        cases h
      · rintro ⟨-, h, -⟩
        cases h
    | ok u' =>
      constructor
      · intro h
        cases h
        exact ⟨rfl, rfl, rfl⟩
      · rintro ⟨-, -, rfl⟩
        rfl

lemma Built.entry (h : Built role p) (hlookup : p.lookup id = some value) :
    id.belongTo role = .ok () ∧ id.validate value = .ok () := by
  induction h with
  | new => cases hlookup
  | @set p p' id' value' hp hset ih =>
    obtain ⟨hbelong, hvalid, rfl⟩ := set_eq_ok.mp hset
    rw [Table.lookup_insert_eq] at hlookup
    by_cases hid : id = id'
    · rw [if_pos hid] at hlookup
      cases hlookup
      rw [hid]
      exact ⟨hbelong, hvalid⟩
    · rw [if_neg hid] at hlookup
      exact ih hlookup

end Parameters

end Dquic
