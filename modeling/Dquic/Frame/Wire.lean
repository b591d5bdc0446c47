import Dquic.Frame.Errors
import Dquic.Lib.Nom

/-!
# Fields of frames on the wire

Variable-length integers (`qbase/src/varint.rs`) and the fields that frames are made of: stream
and connection ids, reset tokens, socket addresses, NAT types and texts.
-/

namespace Dquic

open Lib Lib.Nom

/-- `nom::error::ErrorKind`, as far as it occurs. -/
inductive NomErrorKind
  | eof
  | tooLarge
  | verify
  | alt
  | many0
  deriving DecidableEq, Repr

abbrev FieldParser (α : Type) := Nom NomErrorKind α

/-! ### Variable-length integers -/

def putVarint (v : VarInt) : Bytes :=
  if v.val < 2 ^ 6 then toBE 1 v.val
  else if v.val < 2 ^ 14 then toBE 2 (1 * 2 ^ 14 ||| v.val)
  else if v.val < 2 ^ 30 then toBE 4 (2 * 2 ^ 30 ||| v.val)
  else toBE 8 (3 * 2 ^ 62 ||| v.val)

def varintWidth : Bytes → Nat
  | [] => 1
  | b :: _ => 2 ^ (b.toNat / 64)

def VarInt.lowBits (bits n : Nat) : VarInt :=
  ⟨n % 2 ^ min bits 62, lt_of_lt_of_le (Nat.mod_lt n (Nat.two_pow_pos _))
    (Nat.pow_le_pow_right (by decide) (Nat.min_le_right bits 62))⟩

def beVarint {ε : Type} : Nom ε VarInt := fun s =>
  (do
    let b ← take (varintWidth s)
    pure (.lowBits (8 * b.length - 2) (ofBE b)) : Nom ε VarInt) s

@[simp] lemma length_putVarint (v : VarInt) : (putVarint v).length = v.encodingSize := by
  unfold putVarint VarInt.encodingSize VarInt.sizeOf
  split_ifs <;> exact length_toBE _ _

variable {v : VarInt} {ε : Type}

lemma VarInt.ext_val {w : VarInt} (h : v.val = w.val) : v = w := by
  cases v
  cases w
  cases h
  rfl

lemma parses_beVarint_of {bs rest : Bytes} (hwidth : varintWidth (bs ++ rest) = bs.length)
    (hval : VarInt.lowBits (8 * bs.length - 2) (ofBE bs) = v) : Parses (beVarint : Nom ε VarInt) bs rest v := by
  have h := (parses_take (ε := ε) bs rest).map (f := fun b => VarInt.lowBits (8 * b.length - 2) (ofBE b))
  unfold Parses beVarint
  rw [hwidth]
  rw [hval] at h
  exact h

lemma parses_prefixed {p m : Nat} (hp : p < 4) (hm : m + 1 = 2 ^ p) (hv : v.val < 2 ^ (8 * m + 6)) (rest : Bytes) :
    Parses (beVarint : Nom ε VarInt) (toBE (m + 1) (p * 2 ^ (8 * m + 6) ||| v.val)) rest v := by
  have hor : p * 2 ^ (8 * m + 6) ||| v.val = p * 2 ^ (8 * m + 6) + v.val := by
    rw [mul_comm]
    exact (Nat.two_pow_add_eq_or_of_lt hv p).symm
  have hpow : 2 ^ (8 * m + 6) = 64 * 256 ^ m := by
    rw [pow_add, pow_mul, mul_comm]
    norm_num
  rw [hor]
  apply parses_beVarint_of
  · -- the prefix is in the highest bits of the first byte
    have hfirst : (p * 2 ^ (8 * m + 6) + v.val) / 256 ^ m = 64 * p + v.val / 256 ^ m := by
      rw [hpow, show p * (64 * 256 ^ m) + v.val = v.val + 256 ^ m * (64 * p) by ring,
        Nat.add_mul_div_left _ _ (Nat.pow_pos (by decide)), add_comm]
    have hlow : v.val / 256 ^ m < 64 := by
      rw [Nat.div_lt_iff_lt_mul (Nat.pow_pos (by decide)), ← hpow]
      exact hv
    have hbits : (64 * p + v.val / 256 ^ m) % 2 ^ 8 / 64 = p := by
      generalize v.val / 256 ^ m = low at hlow
      omega
    rw [length_toBE, toBE, List.cons_append, varintWidth, hfirst, UInt8.toNat_ofNat', hbits, hm]
  · have hlt : p * 2 ^ (8 * m + 6) + v.val < 256 ^ (m + 1) := by
      rw [hpow] at hv ⊢
      have hle : p * (64 * 256 ^ m) ≤ 3 * (64 * 256 ^ m) := Nat.mul_le_mul_right _ (Nat.le_of_lt_succ hp)
      rw [pow_succ]
      omega
    have hmle : m ≤ 7 := by
      have := Nat.pow_le_pow_right (show 0 < 2 by decide) (Nat.le_of_lt_succ hp)
      omega
    rw [length_toBE, ofBE_toBE hlt]
    apply VarInt.ext_val
    change (p * 2 ^ (8 * m + 6) + v.val) % 2 ^ min (8 * (m + 1) - 2) 62 = v.val
    rw [show min (8 * (m + 1) - 2) 62 = 8 * m + 6 by omega, Nat.mul_add_mod_self_right, Nat.mod_eq_of_lt hv]

theorem parses_beVarint (v : VarInt) (rest : Bytes) : Parses (beVarint : Nom ε VarInt) (putVarint v) rest v := by
  unfold putVarint
  by_cases h6 : v.val < 2 ^ 6
  · rw [if_pos h6]
    have h := parses_prefixed (ε := ε) (p := 0) (m := 0) (by decide) (by decide) h6 rest
    rwa [zero_mul, Nat.zero_or] at h
  · by_cases h14 : v.val < 2 ^ 14
    · rw [if_neg h6, if_pos h14]
      exact parses_prefixed (p := 1) (m := 1) (by decide) (by decide) h14 rest
    · by_cases h30 : v.val < 2 ^ 30
      · rw [if_neg h6, if_neg h14, if_pos h30]
        exact parses_prefixed (p := 2) (m := 3) (by decide) (by decide) h30 rest
      · rw [if_neg h6, if_neg h14, if_neg h30]
        exact parses_prefixed (p := 3) (m := 7) (by decide) (by decide) v.lt rest

/-! ### Ids and tokens -/

def putStreamid (sid : StreamId) : Bytes := putVarint sid.raw

def beStreamid : FieldParser StreamId := do
  let v ← beVarint
  pure ⟨v⟩

@[simp] lemma length_putStreamid (sid : StreamId) : (putStreamid sid).length = sid.encodingSize :=
  length_putVarint sid.raw

def maxCidSize : Nat := 20

/-- `ConnectionId`, of at most 20 bytes. -/
structure ConnectionId where
  bytes : Bytes
  len_le : bytes.length ≤ maxCidSize
  deriving DecidableEq, Repr

/-- `ConnectionId::from_slice`. Its callers check the length. -/
def ConnectionId.fromSlice (b : Bytes) : ConnectionId := ⟨b.take maxCidSize, List.length_take_le _ _⟩

lemma ConnectionId.fromSlice_bytes (cid : ConnectionId) : ConnectionId.fromSlice cid.bytes = cid := by
  cases cid with
  | mk bytes len_le => simp only [fromSlice, List.take_of_length_le len_le]

def putConnectionId (cid : ConnectionId) : Bytes := toBE 1 cid.bytes.length ++ cid.bytes

def beConnectionIdWithLen (len : Nat) : FieldParser ConnectionId :=
  if maxCidSize < len then Nom.fail .tooLarge
  else do
    let b ← take len
    pure (.fromSlice b)

def beConnectionId : FieldParser ConnectionId := do
  let len ← beUint 1
  beConnectionIdWithLen len

lemma parses_beConnectionId (cid : ConnectionId) (rest : Bytes) :
    Parses beConnectionId (putConnectionId cid) rest cid := by
  have hle := cid.len_le
  apply Parses.bind (parses_beUint (by unfold maxCidSize at hle; omega) _)
  unfold beConnectionIdWithLen
  rw [if_neg (not_lt.mpr hle)]
  have h := (parses_take (ε := NomErrorKind) cid.bytes rest).map (f := ConnectionId.fromSlice)
  rwa [ConnectionId.fromSlice_bytes] at h

def resetTokenSize : Nat := 16

abbrev ResetToken := { b : Bytes // b.length = resetTokenSize }

def beResetToken : FieldParser ResetToken := takeArrayComplete .eof resetTokenSize

/-! ### Addresses -/

/-- `SocketAddr`. An IPv6 address has a flow label and a scope. -/
inductive SocketAddr
  | v4 (ip : BitVec 32) (port : UInt16)
  | v6 (ip : BitVec 128) (port : UInt16) (flowinfo scopeId : UInt32)
  deriving DecidableEq, Repr

namespace SocketAddr

def family : SocketAddr → Family
  | v4 _ _ => .v4
  | v6 _ _ _ _ => .v6

def encodingSize : SocketAddr → Nat
  | v4 _ _ => 2 + 4
  | v6 _ _ _ _ => 2 + 16

def maxEncodingSize (_ : SocketAddr) : Nat := 2 + 16

lemma encodingSize_le (addr : SocketAddr) : addr.encodingSize ≤ addr.maxEncodingSize := by
  cases addr with
  | v4 ip port => exact Nat.add_le_add_left (by decide) 2
  | v6 ip port flowinfo scopeId => exact le_rfl

def Plain : SocketAddr → Prop
  | v4 _ _ => True
  | v6 _ _ flowinfo scopeId => flowinfo = 0 ∧ scopeId = 0

end SocketAddr

def putSocketAddr : SocketAddr → Bytes
  | .v4 ip port => toBE 2 port.toNat ++ toBE 4 ip.toNat
  | .v6 ip port _ _ => toBE 2 port.toNat ++ toBE 16 ip.toNat

/-- `SocketAddr::new` sets neither flow label nor scope. -/
def beSocketAddr (family : Family) : FieldParser SocketAddr := do
  let port ← beUintComplete .eof 2
  match family with
  | .v4 => do
    let ip ← beUintComplete .eof 4
    pure (.v4 (BitVec.ofNat 32 ip) (UInt16.ofNat port))
  | .v6 => do
    let ip ← beUintComplete .eof 16
    pure (.v6 (BitVec.ofNat 128 ip) (UInt16.ofNat port) 0 0)

@[simp] lemma length_putSocketAddr (addr : SocketAddr) : (putSocketAddr addr).length = addr.encodingSize := by
  cases addr <;> simp [putSocketAddr, SocketAddr.encodingSize]

lemma parses_beSocketAddr {addr : SocketAddr} (h : addr.Plain) (rest : Bytes) :
    Parses (beSocketAddr addr.family) (putSocketAddr addr) rest addr := by
  cases addr with
  | v4 ip port =>
    unfold beSocketAddr putSocketAddr
    apply Parses.bind (parses_beUintComplete NomErrorKind.eof (n := 2) port.toNat_lt _)
    have hip := (parses_beUintComplete NomErrorKind.eof (n := 4) ip.isLt rest).map
      (f := fun ip => SocketAddr.v4 (BitVec.ofNat 32 ip) (UInt16.ofNat port.toNat))
    simpa only [SocketAddr.family, BitVec.ofNat_toNat, BitVec.setWidth_eq, UInt16.ofNat_toNat] using hip
  | v6 ip port flowinfo scopeId =>
    obtain ⟨rfl, rfl⟩ := h
    unfold beSocketAddr putSocketAddr
    apply Parses.bind (parses_beUintComplete NomErrorKind.eof (n := 2) port.toNat_lt _)
    have hip := (parses_beUintComplete NomErrorKind.eof (n := 16) ip.isLt rest).map
      (f := fun ip => SocketAddr.v6 (BitVec.ofNat 128 ip) (UInt16.ofNat port.toNat) 0 0)
    simpa only [SocketAddr.family, BitVec.ofNat_toNat, BitVec.setWidth_eq, UInt16.ofNat_toNat] using hip

inductive NatType
  | blocked
  | fullCone
  | restrictedCone
  | restrictedPort
  | symmetric
  | dynamic
  deriving DecidableEq, Repr

namespace NatType

def toVarInt : NatType → VarInt
  | blocked => .fromU32 0x00
  | fullCone => .fromU32 0x01
  | restrictedCone => .fromU32 0x02
  | restrictedPort => .fromU32 0x03
  | symmetric => .fromU32 0x04
  | dynamic => .fromU32 0x05

def ofVarInt (v : VarInt) : Option NatType :=
  match v.val % 2 ^ 8 with
  | 0x00 => some blocked
  | 0x01 => some fullCone
  | 0x02 => some restrictedCone
  | 0x03 => some restrictedPort
  | 0x04 => some symmetric
  | 0x05 => some dynamic
  | _ => none

lemma ofVarInt_toVarInt (nat : NatType) : ofVarInt nat.toVarInt = some nat := by
  cases nat <;> rfl

end NatType

def beNatType : FieldParser NatType := do
  let v ← beVarint
  match NatType.ofVarInt v with
  | some nat => pure nat
  | none => Nom.fail .verify

def utf8 (s : String) : Bytes := s.toByteArray.data.toList

/-- `String::from_utf8_lossy`, for what it makes of invalid bytes. -/
def fromUtf8Lossy (replaceInvalid : Bytes → String) (b : Bytes) : String :=
  if h : (ByteArray.mk b.toArray).IsValidUTF8 then String.ofByteArray ⟨b.toArray⟩ h else replaceInvalid b

end Dquic
