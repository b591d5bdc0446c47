import Dquic.Param.Codec

/-!
# What the reader accepts

A buffer is read as a list of raw parameters.
-/

namespace Dquic

open Lib Lib.Nom

inductive Raws : Bytes → List (VarInt × Bytes) → Prop
  | nil : Raws [] []
  | cons {buf rest : Bytes} {raw : VarInt × Bytes} {raws : List (VarInt × Bytes)}
    (hraw : beRawParameter buf = .ok (raw, rest)) (hrest : Raws rest raws) : Raws buf (raw :: raws)

def readRaws (role : Role) (seen : List VarInt) (params : Parameters) :
    List (VarInt × Bytes) → Except ParamError Parameters
  | [] => .ok params
  | (id, data) :: raws =>
    if id ∈ seen then .error (.duplicateParameter id)
    else
      match readParameter role params id data with
      | .error e => .error e
      | .ok params => readRaws role (id :: seen) params raws

section Loop

variable {role : Role} {seen : List VarInt} {params : Parameters}

lemma readParameters_nil : readParameters role seen params [] = .ok params := by
  rw [readParameters, if_pos rfl]

variable {buf data r s : Bytes} {id : VarInt} {raws : List (VarInt × Bytes)} {q : Parameters} {value : ParameterValue}

lemma readParameters_of_raw {rest : Bytes} (h : beRawParameter buf = .ok ((id, data), rest)) :
    readParameters role seen params buf =
      if id ∈ seen then .error (.duplicateParameter id)
      else
        match readParameter role params id data with
        | .error e => .error e
        | .ok params => readParameters role (id :: seen) params rest := by
  have hne : buf ≠ [] := by
    rintro rfl
    exact absurd (beRawParameter_lt h) (Nat.not_lt_zero _)
  rw [readParameters, if_neg hne]
  split
  · next e he => cases he.symm.trans h
  · next id' data' rest' he =>
    cases he.symm.trans h
    rfl

lemma Raws.readParameters_eq (h : Raws buf raws) (role : Role) (seen : List VarInt) (params : Parameters) :
    readParameters role seen params buf = readRaws role seen params raws := by
  induction h generalizing seen params with
  | nil => exact readParameters_nil
  | @cons buf rest raw raws hraw hrest ih =>
    obtain ⟨id, data⟩ := raw
    rw [readParameters_of_raw hraw, readRaws]
    by_cases hseen : id ∈ seen
    · rw [if_pos hseen, if_pos hseen]
    · rw [if_neg hseen, if_neg hseen]
      cases readParameter role params id data with
      | error e => rfl
      | ok params' => exact ih (id :: seen) params'

lemma exists_raws (h : readParameters role seen params buf = .ok q) : ∃ raws, Raws buf raws := by
  induction hn : buf.length using Nat.strong_induction_on generalizing buf seen params with
  | _ n ih =>
    by_cases hne : buf = []
    · subst hne
      exact ⟨[], .nil⟩
    · cases hraw : beRawParameter buf with
      | error e =>
        rw [readParameters, if_neg hne] at h
        split at h
        · cases h
        · next id' data' rest' he => cases he.symm.trans hraw
      | ok out =>
        obtain ⟨⟨id, data⟩, rest⟩ := out
        rw [readParameters_of_raw hraw] at h
        split at h
        · cases h
        · split at h
          · cases h
          · obtain ⟨raws, hraws⟩ := ih rest.length (by rw [← hn]; exact beRawParameter_lt hraw) h rfl
            exact ⟨(id, data) :: raws, .cons hraw hraws⟩

/-! ### One parameter -/

lemma valueType_of_beParameterValue {id : ParameterId} (h : beParameterValue id s = .ok (value, r)) :
    value.valueType = id.valueType := by
  unfold beParameterValue at h
  cases hty : id.valueType with
  | varInt | duration | resetToken | preferredAddress =>
    rw [hty] at h
    obtain ⟨v, s', -, h⟩ := bind_eq_ok h
    cases h
    rfl
  | boolean | bytes =>
    rw [hty] at h
    cases h
    rfl
  | connectionId =>
    rw [hty] at h
    dsimp only at h
    split at h
    · cases h
    · cases h
      rfl

lemma ne_false_of_beParameterValue {id : ParameterId} (h : beParameterValue id s = .ok (value, r)) :
    value ≠ .false := by
  rintro rfl
  have hty : id.valueType = .boolean := (valueType_of_beParameterValue h).symm
  unfold beParameterValue at h
  rw [hty] at h
  cases h

structure Valid (role : Role) (id : ParameterId) (data : Bytes) (value : ParameterValue) : Prop where
  belongs : id.belongTo role = .ok ()
  read : beParameterValue id data = .ok (value, [])
  validates : id.validate value = .ok ()

/-- An id that is not known leaves everything as it is, and a known one sets a valid value. -/
lemma readParameter_eq_ok {params' : Parameters} :
    readParameter role params id data = .ok params' ↔
      ((∀ known : ParameterId, known.toVarInt ≠ id) ∧ params' = params) ∨
      ∃ known value, id = known.toVarInt ∧ Valid role known data value ∧ params' = params.insert known value := by
  unfold readParameter
  cases hid : ParameterId.ofVarInt id with
  | error e =>
    have hunknown : ∀ known : ParameterId, known.toVarInt ≠ id := by
      rintro known rfl
      rw [ParameterId.ofVarInt_toVarInt] at hid
      cases hid
    rw [ParameterId.ofVarInt_eq_error hid]
    constructor
    · intro h
      cases h
      exact Or.inl ⟨hunknown, rfl⟩
    · rintro (⟨-, rfl⟩ | ⟨known, value, hknown, -⟩)
      · rfl
      · exact absurd hknown.symm (hunknown known)
  | ok known =>
    have hknown := ParameterId.ofVarInt_eq_ok hid
    dsimp only
    constructor
    · intro h
      cases hbelong : known.belongTo role with
      | error e =>
        rw [hbelong] at h
        cases h
      | ok u =>
        rw [hbelong] at h
        cases hvalue : beParameterValue known data with
        | error e =>
          rw [hvalue] at h
          cases h
        | ok out =>
          obtain ⟨value, remain⟩ := out
          rw [hvalue] at h
          have h' : (if remain ≠ [] then .error (.incompleteValue known "trailing value bytes")
            else params.set role known value) = .ok params' := h
          split at h'
          · cases h'
          · next hremain =>
            obtain rfl := not_not.mp hremain
            obtain ⟨-, hvalid, rfl⟩ := Parameters.set_eq_ok.mp h'
            exact Or.inr ⟨known, value, hknown, ⟨hbelong, hvalue, hvalid⟩, rfl⟩
    · rintro (⟨hunknown, -⟩ | ⟨known', value, hknown', hvalid, rfl⟩)
      · exact absurd hknown.symm (hunknown known)
      · obtain rfl := ParameterId.toVarInt_injective (hknown.symm.trans hknown')
        rw [hvalid.belongs, hvalid.read]
        have hset : params.set role known value = .ok (params.insert known value) :=
          Parameters.set_eq_ok.mpr ⟨hvalid.belongs, hvalid.validates, rfl⟩
        exact hset

/-! ### All parameters -/

lemma nodup_of_readRaws (h : readRaws role seen params raws = .ok q) :
    (raws.map Prod.fst).Nodup ∧ ∀ raw ∈ raws, raw.1 ∉ seen := by
  induction raws generalizing seen params with
  | nil => exact ⟨List.nodup_nil, fun raw hraw => absurd hraw List.not_mem_nil⟩
  | cons raw raws ih =>
    obtain ⟨id, data⟩ := raw
    rw [readRaws] at h
    split at h
    · cases h
    · next hseen =>
      split at h
      · cases h
      · obtain ⟨hnodup, hnew⟩ := ih h
        constructor
        · rw [List.map_cons, List.nodup_cons]
          refine ⟨?_, hnodup⟩
          rw [List.mem_map]
          rintro ⟨raw', hraw', hid⟩
          exact hnew raw' hraw' (hid ▸ List.mem_cons_self)
        · intro raw' hraw'
          rcases List.mem_cons.mp hraw' with rfl | hraw'
          · exact hseen
          · exact fun hmem => hnew raw' hraw' (List.mem_cons_of_mem id hmem)

lemma lookup_of_readRaws (h : readRaws role seen params raws = .ok q) (id : ParameterId) (value : ParameterValue) :
    q.lookup id = some value ↔
      (∃ data, (id.toVarInt, data) ∈ raws ∧ Valid role id data value) ∨
        (id.toVarInt ∉ raws.map Prod.fst ∧ params.lookup id = some value) := by
  induction raws generalizing seen params with
  | nil =>
    cases h
    simp
  | cons raw raws ih =>
    obtain ⟨vid, data⟩ := raw
    have hnodup := (nodup_of_readRaws h).1
    rw [List.map_cons, List.nodup_cons] at hnodup
    rw [readRaws] at h
    split at h
    · cases h
    · split at h
      · cases h
      · next params' hparams' =>
        rw [ih h]
        rcases readParameter_eq_ok.mp hparams' with ⟨hunknown, rfl⟩ | ⟨known, value', rfl, hvalid, rfl⟩
        · -- an id that is not known is no one's
          have hne : id.toVarInt ≠ vid := hunknown id
          simp [hne]
        · rw [Table.lookup_insert_eq]
          by_cases hid : id = known
          · subst hid
            have hnone : ∀ data', (id.toVarInt, data') ∉ raws := by
              intro data' hmem
              exact hnodup.1 (List.mem_map.mpr ⟨_, hmem, rfl⟩)
            have hread : ∀ value'', Valid role id data value'' ↔ value' = value'' := by
              intro value''
              constructor
              · intro hvalid'
                cases hvalid.read.symm.trans hvalid'.read
                rfl
              · rintro rfl
                exact hvalid
            simp only [List.mem_cons, Prod.mk.injEq, true_and, hnone, or_false, exists_eq_left, hread, false_and,
              exists_false, false_or, if_pos, List.map_cons, true_or, not_true_eq_false, Option.some.injEq]
            exact ⟨fun h => h.2, fun h => ⟨hnodup.1, h⟩⟩
          · have hne : id.toVarInt ≠ known.toVarInt := fun heq => hid (ParameterId.toVarInt_injective heq)
            rw [if_neg hid]
            simp [hne]

lemma valid_of_readRaws (h : readRaws role seen params raws = .ok q) {id : ParameterId}
    (hraw : (id.toVarInt, data) ∈ raws) : ∃ value, Valid role id data value := by
  induction raws generalizing seen params with
  | nil => cases hraw
  | cons raw raws ih =>
    rw [readRaws] at h
    split at h
    · cases h
    · split at h
      · cases h
      · next params' hparams' =>
        rcases List.mem_cons.mp hraw with rfl | hraw
        · rcases readParameter_eq_ok.mp hparams' with ⟨hunknown, -⟩ | ⟨known, value, hid, hvalid, -⟩
          · exact absurd rfl (hunknown id)
          · obtain rfl := ParameterId.toVarInt_injective hid
            exact ⟨value, hvalid⟩
        · exact ih h hraw

/-! ### Ids that are not known -/

lemma readRaws_congr {seen' : List VarInt} (h : ∀ raw ∈ raws, raw.1 ∈ seen ↔ raw.1 ∈ seen') :
    readRaws role seen params raws = readRaws role seen' params raws := by
  induction raws generalizing seen seen' params with
  | nil => rfl
  | cons raw raws ih =>
    obtain ⟨id, data⟩ := raw
    rw [readRaws, readRaws]
    simp only [h (id, data) List.mem_cons_self]
    by_cases hseen : id ∈ seen'
    · rw [if_pos hseen, if_pos hseen]
    · rw [if_neg hseen, if_neg hseen]
      cases readParameter role params id data with
      | error e => rfl
      | ok params' =>
        apply ih
        intro raw hraw
        rw [List.mem_cons, List.mem_cons, h raw (List.mem_cons_of_mem _ hraw)]

/-- A parameter that is not known and occurs once makes no difference, wherever it is. -/
lemma readRaws_unknown {raws₁ raws₂ : List (VarInt × Bytes)} (hunknown : ∀ known : ParameterId, known.toVarInt ≠ id)
    (hfresh : id ∉ (raws₁ ++ raws₂).map Prod.fst) (hseen : id ∉ seen) :
    readRaws role seen params (raws₁ ++ (id, data) :: raws₂) = readRaws role seen params (raws₁ ++ raws₂) := by
  induction raws₁ generalizing seen params with
  | nil =>
    have hread : readParameter role params id data = .ok params := readParameter_eq_ok.mpr (Or.inl ⟨hunknown, rfl⟩)
    rw [List.nil_append, readRaws, if_neg hseen, hread]
    apply readRaws_congr
    intro raw hraw
    have hne : raw.1 ≠ id := by
      rintro rfl
      exact hfresh (List.mem_map_of_mem hraw)
    rw [List.mem_cons, or_iff_right hne]
  | cons raw raws₁ ih =>
    obtain ⟨id', data'⟩ := raw
    rw [List.cons_append, List.map_cons, List.mem_cons, not_or] at hfresh
    rw [List.cons_append, List.cons_append, readRaws, readRaws]
    by_cases hseen' : id' ∈ seen
    · rw [if_pos hseen', if_pos hseen']
    · rw [if_neg hseen', if_neg hseen']
      cases readParameter role params id' data' with
      | error e => rfl
      | ok params' => exact ih hfresh.2 (fun hmem => (List.mem_cons.mp hmem).elim hfresh.1 hseen)

end Loop

end Dquic
