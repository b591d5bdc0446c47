import Dquic.Param.Reading

/-!
# Parameters come back from the wire

Parameters that were built with `set` come back with the same answer for every id if each value
has the type of its id.
-/

namespace Dquic

open Lib Lib.Nom

/-! ### Values -/

/-- What the wire can carry: whole milliseconds, and addresses without flow label and scope. -/
def ParameterValue.Encodable : ParameterValue → Prop
  | duration nanos => nanos % 10 ^ 6 = 0 ∧ asMillis nanos < 2 ^ 62
  | preferredAddress addr => addr.addressV6.flowinfo = 0 ∧ addr.addressV6.scopeId = 0
  | _ => True

def ParameterValue.Fits (value : ParameterValue) (id : ParameterId) : Prop :=
  value.valueType = id.valueType ∧ ∀ b, value = .bytes b → b.length < 2 ^ 62

variable {a b m n : Nat} {addr : PreferredAddress} {id : ParameterId} {value : ParameterValue}
  {entries : List ParameterEntry} {role : Role} {raws : List (VarInt × Bytes)}

lemma parses_takePair (n m : Nat) (rest : Bytes) :
    Parses (take (n + m) : FieldParser Bytes) (toBE n a ++ toBE m b) rest (toBE n a ++ toBE m b) := by
  have h := parses_take (ε := NomErrorKind) (toBE n a ++ toBE m b) rest
  rwa [List.length_append, length_toBE, length_toBE] at h

lemma ofBE_take_pair (ha : a < 256 ^ n) : ofBE ((toBE n a ++ toBE m b).take n) = a := by
  rw [List.take_left' (length_toBE n a), ofBE_toBE ha]

lemma ofBE_drop_pair (hb : b < 256 ^ m) : ofBE ((toBE n a ++ toBE m b).drop n) = b := by
  rw [List.drop_left' (length_toBE n a), ofBE_toBE hb]

lemma parses_bePreferredAddress (h : (ParameterValue.preferredAddress addr).Encodable) (rest : Bytes) :
    Parses bePreferredAddress (putPreferredAddress addr) rest addr := by
  obtain ⟨⟨ip4, port4⟩, ⟨ip6, port6, flowinfo, scopeId⟩, connectionId, token⟩ := addr
  obtain ⟨rfl, rfl⟩ := h
  have hpieces : putPreferredAddress ⟨⟨ip4, port4⟩, ⟨ip6, port6, 0, 0⟩, connectionId, token⟩ =
      (toBE 4 ip4.toNat ++ toBE 2 port4.toNat) ++ ((toBE 16 ip6.toNat ++ toBE 2 port6.toNat) ++
        (putConnectionId connectionId ++ token.val)) := by
    simp only [putPreferredAddress, List.append_assoc]
  rw [hpieces]
  apply Parses.bind (parses_takePair 4 2 _)
  rw [ofBE_take_pair ip4.isLt, ofBE_drop_pair port4.toNat_lt]
  apply Parses.bind (parses_takePair 16 2 _)
  rw [ofBE_take_pair ip6.isLt, ofBE_drop_pair port6.toNat_lt]
  apply Parses.bind (parses_beConnectionId connectionId _)
  have htoken := (parses_takeArrayComplete NomErrorKind.eof token rest).map
    (f := fun token => (⟨⟨ip4, port4⟩, ⟨ip6, port6, 0, 0⟩, connectionId, token⟩ : PreferredAddress))
  simp only [BitVec.ofNat_toNat, BitVec.setWidth_eq, UInt16.ofNat_toNat]
  exact htoken

/-- What is written for a value is its id, the length of its bytes and the bytes. -/
def Written (id : ParameterId) (value : ParameterValue) (data : Bytes) : Prop :=
  ∃ h : data.length < 2 ^ 62, putParameter id value = some (putVarint id.toVarInt ++ (putVarint ⟨data.length, h⟩ ++ data)) ∧
    beParameterValue id data = .ok (value, [])

lemma written_varInt {v : VarInt} (h : id.valueType = .varInt) : Written id (.varInt v) (putVarint v) := by
  have hle := v.encodingSize_le
  have hlt : (putVarint v).length < 2 ^ 62 := by
    rw [length_putVarint]
    omega
  refine ⟨hlt, ?_, ?_⟩
  · simp only [putParameter, putVarintParameter, ← length_putVarint, VarInt.fromU64_of_lt hlt, Option.bind_eq_bind,
      Option.bind_some]
    rfl
  · unfold beParameterValue
    rw [h]
    exact (parses_beVarint v []).map.all

lemma written_duration {nanos : Nat} (h : id.valueType = .duration) (hnanos : (ParameterValue.duration nanos).Encodable) :
    Written id (.duration nanos) (putVarint ⟨asMillis nanos, hnanos.2⟩) := by
  have hle := (⟨asMillis nanos, hnanos.2⟩ : VarInt).encodingSize_le
  have hlt : (putVarint ⟨asMillis nanos, hnanos.2⟩).length < 2 ^ 62 := by
    rw [length_putVarint]
    omega
  refine ⟨hlt, ?_, ?_⟩
  · simp only [putParameter, putDurationParameter, putVarintParameter, VarInt.fromU64_of_lt hnanos.2, Option.bind_eq_bind,
      Option.bind_some, ← length_putVarint, VarInt.fromU64_of_lt hlt]
    rfl
  · have hwhole : fromMillis (asMillis nanos) = nanos := Nat.div_mul_cancel (Nat.dvd_of_mod_eq_zero hnanos.1)
    have hparses := (parses_beVarint (ε := NomErrorKind) ⟨asMillis nanos, hnanos.2⟩ []).map
      (f := fun v => ParameterValue.duration (fromMillis v.val))
    unfold beParameterValue
    rw [h]
    rw [hwhole] at hparses
    exact hparses.all

lemma written_connectionId {cid : ConnectionId} (h : id.valueType = .connectionId) :
    Written id (.connectionId cid) cid.bytes := by
  have hle := cid.len_le
  unfold maxCidSize at hle
  refine ⟨by omega, ?_, ?_⟩
  · have hlen : putVarint ⟨cid.bytes.length, by omega⟩ = toBE 1 cid.bytes.length := if_pos (by dsimp only; omega)
    rw [hlen]
    rfl
  · unfold beParameterValue
    rw [h]
    dsimp only
    rw [if_neg (not_lt.mpr cid.len_le), ConnectionId.fromSlice_bytes]

lemma written_resetToken {token : ResetToken} (h : id.valueType = .resetToken) :
    Written id (.resetToken token) token.val := by
  have hlen : token.val.length = resetTokenSize := token.property
  have hlt : token.val.length < 2 ^ 62 := by
    rw [hlen]
    decide
  refine ⟨hlt, ?_, ?_⟩
  · simp only [putParameter, putResetTokenParameter, ← hlen, VarInt.fromU64_of_lt hlt, Option.bind_eq_bind,
      Option.bind_some]
    rfl
  · unfold beParameterValue
    rw [h]
    exact (parses_takeArrayComplete NomErrorKind.eof token []).map.all

lemma written_preferredAddress (h : id.valueType = .preferredAddress)
    (haddr : (ParameterValue.preferredAddress addr).Encodable) :
    Written id (.preferredAddress addr) (putPreferredAddress addr) := by
  have hlen : (putPreferredAddress addr).length = addr.encodingSize := by
    simp only [putPreferredAddress, putConnectionId, List.length_append, length_toBE, PreferredAddress.encodingSize,
      addr.statelessResetToken.property]
    omega
  have hlt : (putPreferredAddress addr).length < 2 ^ 62 := by
    have hle := addr.connectionId.len_le
    unfold maxCidSize at hle
    rw [hlen]
    unfold PreferredAddress.encodingSize resetTokenSize
    omega
  refine ⟨hlt, ?_, ?_⟩
  · simp only [putParameter, putPreferredAddressParameter, ← hlen, VarInt.fromU64_of_lt hlt, Option.bind_eq_bind,
      Option.bind_some]
    rfl
  · unfold beParameterValue
    rw [h]
    exact (parses_bePreferredAddress haddr []).map.all

lemma exists_written (hfits : value.Fits id) (hvalue : value.Encodable) (hne : value ≠ .false) :
    ∃ data, Written id value data := by
  obtain ⟨hty, hlen⟩ := hfits
  cases value with
  | bytes b =>
    refine ⟨b, hlen b rfl, ?_, ?_⟩
    · simp only [putParameter, putBytesParameter, VarInt.fromU64_of_lt (hlen b rfl), some_bind]
      rfl
    · unfold beParameterValue
      rw [← hty]
      rfl
  | false => exact absurd rfl hne
  | true =>
    refine ⟨[], by decide, rfl, ?_⟩
    unfold beParameterValue
    rw [← hty]
    rfl
  | varInt v => exact ⟨_, written_varInt hty.symm⟩
  | duration nanos => exact ⟨_, written_duration hty.symm hvalue⟩
  | connectionId cid => exact ⟨_, written_connectionId hty.symm⟩
  | resetToken token => exact ⟨_, written_resetToken hty.symm⟩
  | preferredAddress addr => exact ⟨_, written_preferredAddress hty.symm hvalue⟩

/-! ### Writing and reading in any order -/

abbrev ParameterEntry := Sigma fun _ : ParameterId => ParameterValue

structure Writable (role : Role) (e : ParameterEntry) : Prop where
  belongs : e.1.belongTo role = .ok ()
  validates : e.1.validate e.2 = .ok ()
  fits : e.2.Fits e.1
  encodable : e.2.Encodable

/-- The raw parameters of written entries: all but the booleans that are false. -/
structure Carries (role : Role) (entries : List ParameterEntry) (raws : List (VarInt × Bytes)) : Prop where
  ids : (raws.map Prod.fst).Sublist (entries.map fun e => e.1.toVarInt)
  valid : ∀ raw ∈ raws, ∃ e ∈ entries, raw.1 = e.1.toVarInt ∧ Valid role e.1 raw.2 e.2
  written : ∀ e ∈ entries, e.2 ≠ .false → ∃ data, (e.1.toVarInt, data) ∈ raws

lemma exists_putParameters (h : ∀ e ∈ entries, Writable role e) :
    ∃ bytes raws, putParameters entries = some bytes ∧ Raws bytes raws ∧ Carries role entries raws := by
  induction entries with
  | nil =>
    refine ⟨[], [], rfl, .nil, List.Sublist.refl _, ?_, ?_⟩
    · intro raw hraw
      cases hraw
    · intro e he
      cases he
  | cons e entries ih =>
    obtain ⟨rest, raws, hrest, hraws, hcarries⟩ := ih fun e' he' => h e' (List.mem_cons_of_mem e he')
    have he := h e List.mem_cons_self
    obtain ⟨id, value⟩ := e
    by_cases hfalse : value = .false
    · -- nothing is written
      subst hfalse
      refine ⟨rest, raws, ?_, hraws, hcarries.ids.cons _, ?_, ?_⟩
      · rw [putParameters, hrest]
        rfl
      · intro raw hraw
        obtain ⟨e, hmem, hvalid⟩ := hcarries.valid raw hraw
        exact ⟨e, List.mem_cons_of_mem _ hmem, hvalid⟩
      · intro e hmem hne
        rcases List.mem_cons.mp hmem with rfl | hmem
        · exact absurd rfl hne
        · exact hcarries.written e hmem hne
    · obtain ⟨data, hlen, hput, hread⟩ := exists_written he.fits he.encodable hfalse
      have hraw : Parses beRawParameter (putVarint id.toVarInt ++ (putVarint ⟨data.length, hlen⟩ ++ data)) rest
          (id.toVarInt, data) :=
        Parses.bind (parses_beVarint id.toVarInt _) (parses_lengthData rfl (fun rest => parses_beVarint _ rest) rest).map
      refine ⟨_, (id.toVarInt, data) :: raws, ?_, .cons hraw hraws, hcarries.ids.cons_cons _, ?_, ?_⟩
      · rw [putParameters, hput, hrest]
        rfl
      · intro raw hmem
        rcases List.mem_cons.mp hmem with rfl | hmem
        · exact ⟨⟨id, value⟩, List.mem_cons_self, rfl, he.belongs, hread, he.validates⟩
        · obtain ⟨e, hmem, hvalid⟩ := hcarries.valid raw hmem
          exact ⟨e, List.mem_cons_of_mem _ hmem, hvalid⟩
      · intro e hmem hne
        rcases List.mem_cons.mp hmem with rfl | hmem
        · exact ⟨data, List.mem_cons_self⟩
        · obtain ⟨data', hdata'⟩ := hcarries.written e hmem hne
          exact ⟨data', List.mem_cons_of_mem _ hdata'⟩

lemma exists_putParameter {bytes : Bytes} (h : putParameters entries = some bytes) (he : ⟨id, value⟩ ∈ entries) :
    ∃ bytes', putParameter id value = some bytes' := by
  induction entries generalizing bytes with
  | nil => cases he
  | cons e entries ih =>
    obtain ⟨id', value'⟩ := e
    obtain ⟨bytes', hbytes', h⟩ := of_bind h
    obtain ⟨rest, hrest, h⟩ := of_bind h
    rcases List.mem_cons.mp he with heq | he
    · cases heq
      exact ⟨bytes', hbytes'⟩
    · exact ih hrest he

lemma exists_readRaws {seen : List VarInt} (params : Parameters) (hnodup : (raws.map Prod.fst).Nodup)
    (hseen : ∀ raw ∈ raws, raw.1 ∉ seen)
    (hvalid : ∀ raw ∈ raws, ∃ id value, raw.1 = id.toVarInt ∧ Valid role id raw.2 value) :
    ∃ q, readRaws role seen params raws = .ok q := by
  induction raws generalizing seen params with
  | nil => exact ⟨params, rfl⟩
  | cons raw raws ih =>
    obtain ⟨vid, data⟩ := raw
    obtain ⟨id, value, hid, hvalue⟩ := hvalid (vid, data) List.mem_cons_self
    have hread : readParameter role params vid data = .ok (params.insert id value) :=
      readParameter_eq_ok.mpr (Or.inr ⟨id, value, hid, hvalue, rfl⟩)
    rw [List.map_cons, List.nodup_cons] at hnodup
    rw [readRaws, if_neg (hseen (vid, data) List.mem_cons_self), hread]
    apply ih (params.insert id value) hnodup.2
    · intro raw hraw hmem
      rcases List.mem_cons.mp hmem with heq | hmem
      · exact hnodup.1 (List.mem_map.mpr ⟨raw, hraw, heq⟩)
      · exact hseen raw (List.mem_cons_of_mem _ hraw) hmem
    · intro raw hraw
      exact hvalid raw (List.mem_cons_of_mem _ hraw)

lemma Carries.lookup {p q : Parameters} (h : Carries role entries raws) (hperm : entries.Perm p.entries)
    (hq : readRaws role [] Parameters.new raws = .ok q) (id : ParameterId) (value : ParameterValue) :
    q.lookup id = some value ↔ p.lookup id = some value ∧ value ≠ .false := by
  have hlookup : q.lookup id = some value ↔ ∃ data, (id.toVarInt, data) ∈ raws ∧ Valid role id data value := by
    rw [lookup_of_readRaws hq]
    exact or_iff_left fun h => absurd h.2.symm (Option.some_ne_none value)
  have hmem : ∀ v, (⟨id, v⟩ : ParameterEntry) ∈ entries ↔ p.lookup id = some v := by
    intro v
    rw [hperm.mem_iff]
    exact p.mem_entries
  rw [hlookup]
  constructor
  · rintro ⟨data, hraw, hvalid⟩
    obtain ⟨⟨id', value'⟩, he, hid, hvalid'⟩ := h.valid _ hraw
    obtain rfl := ParameterId.toVarInt_injective hid
    cases hvalid.read.symm.trans hvalid'.read
    refine ⟨(hmem _).mp he, ?_⟩
    rintro rfl
    exact ne_false_of_beParameterValue hvalid.read rfl
  · rintro ⟨hp, hne⟩
    obtain ⟨data, hraw⟩ := h.written _ ((hmem value).mpr hp) hne
    obtain ⟨⟨id', value'⟩, he, hid, hvalid⟩ := h.valid _ hraw
    obtain rfl := ParameterId.toVarInt_injective hid
    cases hp.symm.trans ((hmem value').mp he)
    exact ⟨data, hraw, hvalid⟩

namespace Parameters

/-- Whatever the order of the map is, what is written is read with the same answers. -/
def RoundTrips (role : Role) (p : Parameters) : Prop :=
  ∀ entries : List ParameterEntry, entries.Perm p.entries → ∃ bytes q, putParameters entries = some bytes ∧
    parseFromBytes role bytes = .ok q ∧ ∀ id, q.tryGet id = p.tryGet id

variable {buf : Bytes} {q : Parameters}

lemma parseFromBytes_eq_ok :
    parseFromBytes role buf = .ok q ↔
      readParameters role [] new buf = .ok q ∧ ∀ id ∈ requiredParameters role, q.contains id := by
  unfold parseFromBytes checkRequired
  cases hread : readParameters role [] new buf with
  | error e =>
    constructor
    · intro h
      cases h
    · rintro ⟨h, -⟩
      cases h
  | ok params =>
    dsimp only
    cases hfind : (requiredParameters role).find? fun id => ¬params.contains id with
    | some id =>
      constructor
      · intro h
        cases h
      · rintro ⟨h, hall⟩
        cases h
        have hmissing := List.find?_some hfind
        exact absurd (hall id (List.mem_of_find?_eq_some hfind)) (of_decide_eq_true hmissing)
    | none =>
      have hall : ∀ id ∈ requiredParameters role, params.contains id := by
        intro id hid
        have hnot := List.find?_eq_none.mp hfind id hid
        exact not_not.mp fun hmissing => hnot (decide_eq_true hmissing)
      constructor
      · intro h
        cases h
        exact ⟨rfl, hall⟩
      · rintro ⟨h, -⟩
        cases h
        rfl

variable {role : Role} {p : Parameters}

lemma defaultValue_of_boolean (h : id.valueType = .boolean) : id.defaultValue = some .false := by
  cases id <;> first | rfl | cases h

lemma roundTrips_of_fits (hbuilt : Built role p) (hrequired : ∀ id ∈ requiredParameters role, p.contains id)
    (hencodable : ∀ id value, p.lookup id = some value → value.Encodable)
    (hfits : ∀ id value, p.lookup id = some value → value.Fits id) : RoundTrips role p := by
  intro entries hperm
  have hwritable : ∀ e ∈ entries, Writable role e := by
    rintro ⟨id, value⟩ he
    have hlookup : p.lookup id = some value := p.mem_entries.mp (hperm.mem_iff.mp he)
    obtain ⟨hbelongs, hvalidates⟩ := hbuilt.entry hlookup
    exact ⟨hbelongs, hvalidates, hfits id value hlookup, hencodable id value hlookup⟩
  obtain ⟨bytes, raws, hput, hraws, hcarries⟩ := exists_putParameters hwritable
  have hnodup : (raws.map Prod.fst).Nodup := by
    apply hcarries.ids.nodup
    have hkeys : (entries.map Sigma.fst).Nodup := (hperm.map Sigma.fst).nodup_iff.mpr p.nodupKeys
    have hmap := hkeys.map ParameterId.toVarInt_injective
    rwa [List.map_map] at hmap
  have hvalid : ∀ raw ∈ raws, ∃ id value, raw.1 = id.toVarInt ∧ Valid role id raw.2 value := by
    intro raw hraw
    obtain ⟨e, -, hid, hvalid⟩ := hcarries.valid raw hraw
    exact ⟨e.1, e.2, hid, hvalid⟩
  obtain ⟨q, hq⟩ := exists_readRaws new hnodup (fun _ _ => List.not_mem_nil) hvalid
  have hlookup := hcarries.lookup hperm hq
  refine ⟨bytes, q, hput, parseFromBytes_eq_ok.mpr ⟨(hraws.readParameters_eq role [] new).trans hq, ?_⟩, ?_⟩
  · -- a required parameter is a connection id, which is always written
    intro id hid
    obtain ⟨value, hvalue⟩ := Option.isSome_iff_exists.mp (hrequired id hid)
    have hne : value ≠ .false := by
      rintro rfl
      have hty := (hfits id _ hvalue).1
      cases role with
      | client =>
        obtain rfl := List.mem_singleton.mp hid
        cases hty
      | server =>
        rcases List.mem_pair.mp hid with rfl | rfl
        · cases hty
        · cases hty
    exact Option.isSome_iff_exists.mpr ⟨value, (hlookup id value).mpr ⟨hvalue, hne⟩⟩
  · intro id
    unfold tryGet
    cases hp : p.lookup id with
    | none =>
      have hnone : q.lookup id = none := by
        rw [Option.eq_none_iff_forall_ne_some]
        intro value hvalue
        exact absurd (hp.symm.trans ((hlookup id value).mp hvalue).1).symm (Option.some_ne_none value)
      rw [hnone]
    | some value =>
      by_cases hfalse : value = .false
      · have hnone : q.lookup id = none := by
          rw [Option.eq_none_iff_forall_ne_some]
          intro value' hvalue'
          obtain ⟨hp', hne⟩ := (hlookup id value').mp hvalue'
          exact hne ((Option.some.inj (hp'.symm.trans hp)).trans hfalse)
        subst hfalse
        rw [hnone, defaultValue_of_boolean (hfits id _ hp).1.symm]
        rfl
      · rw [(hlookup id value).mpr ⟨hp, hfalse⟩]

lemma valueType_of_tryGet (h : parseFromBytes role buf = .ok q) (hvalue : q.tryGet id = some value) :
    value.valueType = id.valueType := by
  obtain ⟨hread, -⟩ := parseFromBytes_eq_ok.mp h
  obtain ⟨raws, hraws⟩ := exists_raws hread
  rw [hraws.readParameters_eq] at hread
  unfold tryGet at hvalue
  cases hq : q.lookup id with
  | none =>
    rw [hq] at hvalue
    exact (ParameterId.validate_default hvalue).1
  | some value' =>
    rw [hq] at hvalue
    cases hvalue
    rcases (lookup_of_readRaws hread id value).mp hq with ⟨data, -, hvalid⟩ | ⟨-, hnew⟩
    · exact valueType_of_beParameterValue hvalid.read
    · cases hnew

lemma fits_of_roundTrips (h : RoundTrips role p) (hvalue : p.lookup id = some value) : value.Fits id := by
  obtain ⟨bytes, q, hput, hparse, hsame⟩ := h p.entries (List.Perm.refl _)
  have hanswer : q.tryGet id = some value := by
    rw [hsame, tryGet, hvalue]
    rfl
  refine ⟨valueType_of_tryGet hparse hanswer, ?_⟩
  rintro b rfl
  -- a longer value cannot be written
  obtain ⟨bytes', hbytes'⟩ := exists_putParameter hput (p.mem_entries.mpr hvalue)
  obtain ⟨len, hlen, -⟩ := of_bind hbytes'
  unfold VarInt.fromU64 at hlen
  split at hlen
  · assumption
  · cases hlen

/-- Parameters come back exactly if every value fits its id. Of any bytes, what is accepted is a sequence of parameters with
distinct ids, each known one of the role and with a valid value, and the others could as well be left out. -/
theorem parseFromBytes_faithful (role : Role) :
    (∀ p : Parameters, Built role p → (∀ id ∈ requiredParameters role, p.contains id) →
      (∀ id value, p.lookup id = some value → value.Encodable) →
      (RoundTrips role p ↔ ∀ id value, p.lookup id = some value → value.Fits id)) ∧
    (∀ buf q, parseFromBytes role buf = .ok q → ∃ raws, Raws buf raws ∧ (raws.map Prod.fst).Nodup ∧
      (∀ id data, (id.toVarInt, data) ∈ raws → ∃ value, Valid role id data value ∧ q.lookup id = some value) ∧
      ∀ id value, q.lookup id = some value → value.valueType = id.valueType ∧
        ∃ data, (id.toVarInt, data) ∈ raws ∧ Valid role id data value) ∧
    ∀ (buf buf' : Bytes) (raws₁ raws₂ : List (VarInt × Bytes)) (id : VarInt) (data : Bytes),
      (∀ known : ParameterId, known.toVarInt ≠ id) → id ∉ (raws₁ ++ raws₂).map Prod.fst →
      Raws buf (raws₁ ++ (id, data) :: raws₂) → Raws buf' (raws₁ ++ raws₂) →
      parseFromBytes role buf = parseFromBytes role buf' := by
  refine ⟨?_, ?_, ?_⟩
  · intro p hbuilt hrequired hencodable
    exact ⟨fun h _ _ hvalue => fits_of_roundTrips h hvalue, roundTrips_of_fits hbuilt hrequired hencodable⟩
  · intro buf q h
    obtain ⟨hread, -⟩ := parseFromBytes_eq_ok.mp h
    obtain ⟨raws, hraws⟩ := exists_raws hread
    rw [hraws.readParameters_eq] at hread
    refine ⟨raws, hraws, (nodup_of_readRaws hread).1, ?_, ?_⟩
    · intro id data hraw
      obtain ⟨value, hvalid⟩ := valid_of_readRaws hread hraw
      exact ⟨value, hvalid, (lookup_of_readRaws hread id value).mpr (Or.inl ⟨data, hraw, hvalid⟩)⟩
    · intro id value hvalue
      rcases (lookup_of_readRaws hread id value).mp hvalue with ⟨data, hraw, hvalid⟩ | ⟨-, hnew⟩
      · exact ⟨valueType_of_beParameterValue hvalid.read, data, hraw, hvalid⟩
      · cases hnew
  · intro buf buf' raws₁ raws₂ id data hunknown hfresh hbuf hbuf'
    unfold parseFromBytes
    rw [hbuf.readParameters_eq, hbuf'.readParameters_eq, readRaws_unknown hunknown hfresh List.not_mem_nil]

/-- A client with its connection id that asks for migration to be left on. -/
theorem parseFromBytes_faithful_client :
    RoundTrips .client ((new.insert .initialSourceConnectionId (.connectionId (.fromSlice [1, 2]))).insert
      .disableActiveMigration .false) := by
  have hbuilt : Built .client ((new.insert .initialSourceConnectionId (.connectionId (.fromSlice [1, 2]))).insert
      .disableActiveMigration .false) :=
    .set (.set .new (set_eq_ok.mpr ⟨rfl, rfl, rfl⟩)) (set_eq_ok.mpr ⟨rfl, rfl, rfl⟩)
  have hlookup : ∀ id value, ((new.insert .initialSourceConnectionId (.connectionId (.fromSlice [1, 2]))).insert
      .disableActiveMigration .false).lookup id = some value →
      id = .disableActiveMigration ∧ value = .false ∨
        id = .initialSourceConnectionId ∧ value = .connectionId (.fromSlice [1, 2]) := by
    intro id value h
    rw [Table.lookup_insert_eq, Table.lookup_insert_eq] at h
    split at h
    · cases h
      exact Or.inl ⟨‹_›, rfl⟩
    · split at h
      · cases h
        exact Or.inr ⟨‹_›, rfl⟩
      · cases h
  apply ((parseFromBytes_faithful .client).1 _ hbuilt _ _).mpr
  · intro id value h
    rcases hlookup id value h with ⟨rfl, rfl⟩ | ⟨rfl, rfl⟩
    · exact ⟨rfl, fun b hb => by cases hb⟩
    · exact ⟨rfl, fun b hb => by cases hb⟩
  · intro id hid
    obtain rfl := List.mem_singleton.mp hid
    rfl
  · intro id value h
    rcases hlookup id value h with ⟨-, rfl⟩ | ⟨-, rfl⟩
    · trivial
    · trivial

/-- `set` takes a boolean for the initial limit of data, which does not come back. -/
theorem not_roundTrips_of_boolean :
    ∃ p : Parameters, Built .client p ∧ (∀ id ∈ requiredParameters .client, p.contains id) ∧
      (∀ id value, p.lookup id = some value → value.Encodable) ∧ ¬RoundTrips .client p := by
  refine ⟨(new.insert .initialSourceConnectionId (.connectionId (.fromSlice [1, 2]))).insert .initialMaxData .true,
    .set (.set .new (set_eq_ok.mpr ⟨rfl, rfl, rfl⟩)) (set_eq_ok.mpr ⟨rfl, rfl, rfl⟩), ?_, ?_, ?_⟩
  · intro id hid
    obtain rfl := List.mem_singleton.mp hid
    rfl
  · intro id value h
    rw [Table.lookup_insert_eq, Table.lookup_insert_eq] at h
    split at h
    · cases h
      trivial
    · split at h
      · cases h
        trivial
      · cases h
  · intro h
    have hfits : ParameterValue.Fits .true .initialMaxData := fits_of_roundTrips h rfl
    cases hfits.1

end Parameters

end Dquic
