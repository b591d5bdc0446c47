import Dquic.Packet.Header
import Dquic.Param.Parameters

/-!
# Transport parameters on the wire

`qbase/src/param/io.rs` and the codec of `qbase/src/param/preferred_address.rs`. Each parameter is
its id, the length of its value and the value.
-/

namespace Dquic

open Lib Lib.Nom

/-! ### Writing -/

def putPreferredAddress (addr : PreferredAddress) : Bytes :=
  toBE 4 addr.addressV4.ip.toNat ++ (toBE 2 addr.addressV4.port.toNat ++
    (toBE 16 addr.addressV6.ip.toNat ++ (toBE 2 addr.addressV6.port.toNat ++
      (putConnectionId addr.connectionId ++ addr.statelessResetToken.val))))

def PreferredAddress.encodingSize (addr : PreferredAddress) : Nat :=
  6 + 18 + (1 + addr.connectionId.bytes.length) + resetTokenSize

def putParameterId (id : ParameterId) : Bytes := putVarint id.toVarInt

def putBytesParameter (id : ParameterId) (bytes : Bytes) : Option Bytes := do
  let len ← VarInt.fromU64 bytes.length
  some (putParameterId id ++ (putVarint len ++ bytes))

def putCidParameter (id : ParameterId) (cid : ConnectionId) : Option Bytes :=
  some (putParameterId id ++ putConnectionId cid)

def putBoolParameter (id : ParameterId) : Option Bytes := some (putParameterId id ++ putVarint (.fromU32 0))

def putPreferredAddressParameter (id : ParameterId) (addr : PreferredAddress) : Option Bytes := do
  let len ← VarInt.fromU64 addr.encodingSize
  some (putParameterId id ++ (putVarint len ++ putPreferredAddress addr))

def putResetTokenParameter (id : ParameterId) (token : ResetToken) : Option Bytes := do
  let len ← VarInt.fromU64 resetTokenSize
  some (putParameterId id ++ (putVarint len ++ token.val))

def putVarintParameter (id : ParameterId) (value : VarInt) : Option Bytes := do
  let len ← VarInt.fromU64 value.encodingSize
  some (putParameterId id ++ (putVarint len ++ putVarint value))

/-- Only whole milliseconds are written. -/
def putDurationParameter (id : ParameterId) (nanos : Nat) : Option Bytes := do
  let value ← VarInt.fromU64 (asMillis nanos)
  putVarintParameter id value

def putParameter (id : ParameterId) : ParameterValue → Option Bytes
  | .bytes bytes => putBytesParameter id bytes
  | .connectionId cid => putCidParameter id cid
  | .duration nanos => putDurationParameter id nanos
  | .false => some []
  | .true => putBoolParameter id
  | .preferredAddress addr => putPreferredAddressParameter id addr
  | .resetToken token => putResetTokenParameter id token
  | .varInt v => putVarintParameter id v

/-- `put_parameters`, for the entries in the order in which the map is iterated. -/
def putParameters : List (Sigma fun _ : ParameterId => ParameterValue) → Option Bytes
  | [] => some []
  | ⟨id, value⟩ :: entries => do
    let bytes ← putParameter id value
    let rest ← putParameters entries
    some (bytes ++ rest)

/-! ### Reading -/

def bePreferredAddress : FieldParser PreferredAddress := do
  let buf ← take 6
  let addressV4 : SocketAddrV4 := ⟨BitVec.ofNat 32 (ofBE (buf.take 4)), UInt16.ofNat (ofBE (buf.drop 4))⟩
  let buf ← take 18
  let addressV6 : SocketAddrV6 := ⟨BitVec.ofNat 128 (ofBE (buf.take 16)), UInt16.ofNat (ofBE (buf.drop 16)), 0, 0⟩
  let connectionId ← beConnectionId
  let statelessResetToken ← beResetToken
  pure ⟨addressV4, addressV6, connectionId, statelessResetToken⟩

def beRawParameter : FieldParser (VarInt × Bytes) := do
  let id ← beVarint
  let data ← lengthData
  pure (id, data)

def beParameterValue (id : ParameterId) : FieldParser ParameterValue :=
  match id.valueType with
  | .varInt => do
    let v ← beVarint
    pure (.varInt v)
  | .boolean => pure .true
  | .bytes => fun input => .ok (.bytes input, [])
  | .duration => do
    let v ← beVarint
    pure (.duration (fromMillis v.val))
  | .resetToken => do
    let token ← beResetToken
    pure (.resetToken token)
  | .connectionId => fun input =>
    if maxCidSize < input.length then .error (.error .tooLarge) else .ok (.connectionId (.fromSlice input), [])
  | .preferredAddress => do
    let addr ← bePreferredAddress
    pure (.preferredAddress addr)

/-- `handle_nom_error`. -/
def handleNomError : ParamError := .incompleteParameterId "invalid transport parameter encoding"

def readParameter (role : Role) (params : Parameters) (id : VarInt) (data : Bytes) : Except ParamError Parameters :=
  match ParameterId.ofVarInt id with
  | .error (.unknownParameterId _) => .ok params
  | .error e => .error e
  | .ok id => do
    id.belongTo role
    match beParameterValue id data with
    | .error _ => .error handleNomError
    | .ok (value, remain) =>
      if remain ≠ [] then .error (.incompleteValue id "trailing value bytes") else params.set role id value

lemma beRawParameter_lt {s r : Bytes} {raw : VarInt × Bytes} (h : beRawParameter s = .ok (raw, r)) :
    r.length < s.length := by
  obtain ⟨id, s', hid, h⟩ := bind_eq_ok h
  obtain ⟨data, s'', hdata, h⟩ := bind_eq_ok h
  cases h
  obtain ⟨b, s₁, htake, hb⟩ := bind_eq_ok hid
  cases hb
  obtain ⟨rfl, hb⟩ := take_eq_ok htake
  have hpos : 0 < varintWidth (b ++ s') := by
    cases b ++ s' with
    | nil => exact Nat.one_pos
    | cons first tail => exact Nat.two_pow_pos _
  obtain ⟨used, rfl⟩ := lengthData_eq_ok hdata
  simp only [List.length_append] at hb ⊢
  omega

/-- The loop of `parse_from_bytes` and of `try_from_remembered_bytes`. -/
def readParameters (role : Role) (seen : List VarInt) (params : Parameters) (buf : Bytes) :
    Except ParamError Parameters :=
  if buf = [] then .ok params
  else
    match _h : beRawParameter buf with
    | .error _ => .error handleNomError
    | .ok ((id, data), rest) =>
      if id ∈ seen then .error (.duplicateParameter id)
      else
        match readParameter role params id data with
        | .error e => .error e
        | .ok params => readParameters role (id :: seen) params rest
termination_by buf.length
decreasing_by exact beRawParameter_lt _h

/-- `required_parameters`. -/
def requiredParameters : Role → List ParameterId
  | .client => [.initialSourceConnectionId]
  | .server => [.initialSourceConnectionId, .originalDestinationConnectionId]

/-- The first required parameter that is missing, if there is one. -/
def checkRequired (role : Role) (params : Parameters) : Except ParamError Parameters :=
  match (requiredParameters role).find? fun id => ¬params.contains id with
  | some id => .error (.lackParameterId role id)
  | none => .ok params

/-! ### Errors -/

def Role.text : Role → String
  | .client => "client"
  | .server => "server"

def ParameterValueType.name : ParameterValueType → String
  | varInt => "VarInt"
  | boolean => "Boolean"
  | bytes => "Bytes"
  | duration => "Duration"
  | resetToken => "ResetToken"
  | connectionId => "ConnectionId"
  | preferredAddress => "PreferredAddress"

namespace ParamError

def text : ParamError → String
  | incompleteParameterId reason => "Incomplete parameter id: " ++ reason
  | unknownParameterId id => "Parameter " ++ toString id.val ++ " is not defined"
  | duplicateParameter id => "Duplicate transport parameter " ++ toString id.val
  | lackParameterId role id => "Lack " ++ id.args.name ++ " for " ++ role.text
  | invalidParameterId id role => id.args.name ++ " is not belong to " ++ role.text
  | incompleteValue id reason => "Incomplete value for " ++ id.args.name ++ ": " ++ reason
  | invalidValueType id ty => id.args.name ++ " is not supported for " ++ ty.name
  | outOfBounds id value bound =>
    id.args.name ++ "'s value " ++ toString value ++ " is out of bounds " ++ toString bound.1 ++ "..=" ++ toString bound.2

/-- `From<Error> for QuicError`. -/
def toQuicError (e : ParamError) : QuicError := ⟨.transportParameter, .crypto, e.text⟩

end ParamError

namespace Parameters

def parseFromBytes (role : Role) (buf : Bytes) : Except QuicError Parameters :=
  match readParameters role [] new buf with
  | .error e => .error e.toQuicError
  | .ok params =>
    match checkRequired role params with
    | .error e => .error e.toQuicError
    | .ok params => .ok params

/-- Parameters from an earlier connection need not be complete. -/
def tryFromRememberedBytes (buf : Bytes) : Except QuicError Parameters :=
  match readParameters .server [] new buf with
  | .error e => .error e.toQuicError
  | .ok params => .ok params

end Parameters

end Dquic
