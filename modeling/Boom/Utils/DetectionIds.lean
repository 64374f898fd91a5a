import Boom.Foundations.Rounding
import Boom.Utils.TrackWrites

/-! # Ids of detections

A run links the detections of the alert surveys and of the Catalina archive, which share one
space of ids: alerts keep theirs, DECam's negated, and a Catalina detection gets one made of
its epoch and its source id. Tracks stored before surveys were hold packed ids. -/

namespace Boom.Utils

open Boom.Foundations

/-! ## Sites -/

def siteSurvey : Option String → Option Survey
  | none => some .ztf
  | some mpcCode =>
    if mpcCode = "I41" then some .ztf
    else if mpcCode = "X05" then some .lsst
    else if mpcCode = "W84" then some .decam
    else if mpcCode = "675" then some .winter
    else none

def surveySiteCode : Survey → Option String
  | .ztf => none
  | .lsst => some "X05"
  | .decam => some "W84"
  | .winter => some "675"

theorem siteSurvey_surveySiteCode (survey : Survey) : siteSurvey (surveySiteCode survey) = some survey := by
  cases survey <;> rfl

/-! ## Alerts -/

structure Detection (F : Type) where
  survey : Option Survey
  jd : F

def detectionId (survey : Survey) (alertId : Int64) : Int64 :=
  match survey with
  | .decam => -alertId
  | _ => alertId

def memberOf {F : Type} (id : Int64) (detection : Detection F) : Option Member :=
  detection.survey.map fun survey => (survey, detectionId survey id)

/-! ## Catalina -/

def nearestUnits (units : Nat) : Nat :=
  if units.log2 ≤ 52 then units
  else
    let unit := 2 ^ (units.log2 - 52)
    let kept := units / unit
    let rest := units % unit
    let up := if unit < 2 * rest ∨ (2 * rest = unit ∧ kept % 2 = 1) then 1 else 0
    (kept + up) * unit

def millis (jd : F64) : Int :=
  if jd.isNan then 0
  else
    let product := nearestUnits (jd.units.natAbs * 86400000)
    -- Halves are rounded away from zero, and what is out of range goes to its end.
    let rounded : Nat := (2 * product + F64.scale) / (2 * F64.scale)
    if jd.negative then max (-2 ^ 63) (-(rounded : Int)) else min (2 ^ 63 - 1) rounded

def packed (sourceId : Int64) (jd : F64) : Nat :=
  (millis jd % 2 ^ 39).toNat <<< 24 ||| (sourceId.toInt % 2 ^ 24).toNat

def catalinaDetectionId (sourceId : Int64) (jd : F64) : Int64 :=
  .ofInt (-1 - packed sourceId jd)

/-! ## A run -/

inductive Numbered where
  | alert (survey : Survey) (alertId : Int64)
  /-- A source on an image of one of the telescopes. -/
  | catalina (mpcCode : String) (sourceId : Int64) (jd : F64)
deriving DecidableEq

namespace Numbered

def id : Numbered → Int64
  | .alert survey alertId => detectionId survey alertId
  | .catalina _ sourceId jd => catalinaDetectionId sourceId jd

def InRange : Numbered → Prop
  | .alert .ztf alertId => ztfIds ≤ alertId
  | .alert .lsst alertId => lsstIds ≤ alertId ∧ alertId < ztfIds
  | .alert .decam alertId => 0 < alertId
  | .alert .winter alertId => 0 ≤ alertId ∧ alertId < decamIds - winterIds
  | .catalina _ sourceId _ => 0 < sourceId

end Numbered

/-! ## What an id tells -/

theorem packed_eq (sourceId : Int64) (jd : F64) :
    packed sourceId jd = (millis jd % 2 ^ 39).toNat * 2 ^ 24 + (sourceId.toInt % 2 ^ 24).toNat := by
  have small : (sourceId.toInt % 2 ^ 24).toNat < 2 ^ 24 := by omega
  rw [packed, ← Nat.shiftLeft_add_eq_or_of_lt small, Nat.shiftLeft_eq]

theorem packed_lt (sourceId : Int64) (jd : F64) : packed sourceId jd < 2 ^ 63 := by
  rw [packed_eq]
  omega

theorem toInt_catalinaDetectionId (sourceId : Int64) (jd : F64) :
    (catalinaDetectionId sourceId jd).toInt = -1 - packed sourceId jd := by
  have := packed_lt sourceId jd
  rw [catalinaDetectionId, Int64.toInt_ofInt_of_le] <;> omega

theorem packed_eq_iff {sourceId sourceId' : Int64} {jd jd' : F64} : packed sourceId jd = packed sourceId' jd' ↔
    millis jd % 2 ^ 39 = millis jd' % 2 ^ 39 ∧ sourceId.toInt % 2 ^ 24 = sourceId'.toInt % 2 ^ 24 := by
  rw [packed_eq, packed_eq]
  omega

theorem toInt_detectionId_decam {alertId : Int64} (positive : 0 < alertId) :
    (detectionId .decam alertId).toInt = -alertId.toInt := by
  have most := alertId.toInt_lt
  rw [Int64.lt_iff_toInt_lt, Int64.toInt_zero] at positive
  rw [detectionId, Int64.toInt_neg, Int.bmod_eq_of_le] <;> omega

namespace Numbered

theorem toInt_id {detection : Numbered} (inRange : detection.InRange) : detection.id.toInt =
    match detection with
    | .alert .decam alertId => -alertId.toInt
    | .alert _ alertId => alertId.toInt
    | .catalina _ sourceId jd => -1 - packed sourceId jd := by
  match detection with
  | .alert .ztf _ => rfl
  | .alert .lsst _ => rfl
  | .alert .winter _ => rfl
  | .alert .decam _ => exact toInt_detectionId_decam inRange
  | .catalina _ sourceId jd => exact toInt_catalinaDetectionId sourceId jd

def Collide : Numbered → Numbered → Prop
  | .catalina _ sourceId jd, .catalina _ sourceId' jd' =>
    millis jd % 2 ^ 39 = millis jd' % 2 ^ 39 ∧ sourceId.toInt % 2 ^ 24 = sourceId'.toInt % 2 ^ 24
  | .alert .decam alertId, .catalina _ sourceId jd => alertId.toInt = 1 + packed sourceId jd
  | .catalina _ sourceId jd, .alert .decam alertId => alertId.toInt = 1 + packed sourceId jd
  | _, _ => False

theorem id_eq_iff {first second : Numbered} (inRange : first.InRange) (inRange' : second.InRange) (distinct : first ≠ second) :
    first.id = second.id ↔ Collide first second := by
  have sizes : ztfIds.toInt = 400000000000000000 ∧ lsstIds.toInt = 53000000000000000 ∧
      (decamIds - winterIds).toInt = 1000000000000000 := by decide
  rw [← Int64.toInt_inj, toInt_id inRange, toInt_id inRange']
  cases first with
  | catalina mpcCode sourceId jd =>
    cases second with
    | catalina mpcCode' sourceId' jd' =>
      rw [Collide, ← packed_eq_iff]
      dsimp only
      omega
    | alert survey alertId =>
      cases survey <;>
        simp only [Collide, InRange, Int64.le_iff_toInt_le, Int64.lt_iff_toInt_lt, sizes, Int64.toInt_zero, iff_false] at inRange inRange' ⊢ <;>
        omega
  | alert survey alertId =>
    cases second with
    | catalina mpcCode sourceId jd =>
      cases survey <;>
        simp only [Collide, InRange, Int64.le_iff_toInt_le, Int64.lt_iff_toInt_lt, sizes, Int64.toInt_zero, iff_false] at inRange inRange' ⊢ <;>
        omega
    | alert survey' alertId' =>
      -- The ranges do not meet, and within one each alert has its own number.
      have apart : survey = survey' → alertId.toInt ≠ alertId'.toInt := by
        rintro rfl same
        exact distinct (by rw [Int64.toInt_inj.mp same])
      cases survey <;> cases survey' <;>
        simp only [Collide, InRange, Int64.le_iff_toInt_le, Int64.lt_iff_toInt_lt, sizes, Int64.toInt_zero, forall_const, reduceCtorEq, false_implies, iff_false]
          at inRange inRange' apart ⊢ <;>
        omega

end Numbered

structure Identified (run : Set Numbered) : Prop where
  apart : ∀ first ∈ run, ∀ second ∈ run, first.id = second.id → first = second
  memberOf : ∀ survey alertId, .alert survey alertId ∈ run → ∀ jd : F64,
    memberOf (Numbered.alert survey alertId).id ⟨siteSurvey (surveySiteCode survey), jd⟩ = some (survey, alertId)
  legacy : ∀ survey alertId, .alert survey alertId ∈ run → legacyMember (legacyMemberId survey alertId) = (survey, alertId)

theorem legacyMember_eq (id : Int64) : legacyMember id =
    if 51000000000000000 ≤ id.toInt ∧ id.toInt < 52000000000000000 then (.winter, id - winterIds)
    else if 52000000000000000 ≤ id.toInt ∧ id.toInt < 53000000000000000 then (.decam, id - decamIds)
    else if 53000000000000000 ≤ id.toInt ∧ id.toInt < 400000000000000000 then (.lsst, id)
    else (.ztf, id) := by
  have sizes : winterIds.toInt = 51000000000000000 ∧ decamIds.toInt = 52000000000000000 ∧ lsstIds.toInt = 53000000000000000 ∧
      ztfIds.toInt = 400000000000000000 := by decide
  simp only [legacyMember, Int64.le_iff_toInt_le, Int64.lt_iff_toInt_lt, sizes]

theorem legacyMember_legacyMemberId {survey : Survey} {alertId : Int64} (inRange : (Numbered.alert survey alertId).InRange) :
    legacyMember (legacyMemberId survey alertId) = (survey, alertId) ↔ (survey = .decam → alertId < lsstIds - decamIds) := by
  have sizes : winterIds.toInt = 51000000000000000 ∧ decamIds.toInt = 52000000000000000 ∧ lsstIds.toInt = 53000000000000000 ∧
      ztfIds.toInt = 400000000000000000 ∧ (decamIds - winterIds).toInt = 1000000000000000 ∧
      (lsstIds - decamIds).toInt = 1000000000000000 := by decide
  have most := alertId.toInt_lt
  have back (start : Int64) : start + alertId - start = alertId := by rw [Int64.add_comm, Int64.add_sub_cancel]
  rw [legacyMember_eq]
  cases survey <;>
    simp only [Numbered.InRange, Int64.le_iff_toInt_le, Int64.lt_iff_toInt_lt, sizes, Int64.toInt_zero] at inRange
  case ztf =>
    rw [legacyMemberId, if_neg (by omega), if_neg (by omega), if_neg (by omega)]
    simp
  case lsst =>
    rw [legacyMemberId, if_neg (by omega), if_neg (by omega), if_pos (by omega)]
    simp
  case winter =>
    have sum : (winterIds + alertId).toInt = 51000000000000000 + alertId.toInt := by
      rw [Int64.toInt_add, sizes.1, Int.bmod_eq_of_le] <;> omega
    rw [legacyMemberId, sum, if_pos (by omega), back]
    simp
  case decam =>
    have sum : (decamIds + alertId).toInt = 52000000000000000 + alertId.toInt ∨
        (decamIds + alertId).toInt < 0 ∧ 1000000000000000 ≤ alertId.toInt := by
      rw [Int64.toInt_add, sizes.2.1, Int.bmod_def]
      omega
    rw [legacyMemberId, Int64.lt_iff_toInt_lt, sizes.2.2.2.2.2, if_neg (by omega)]
    split
    · rw [back]
      simp
      omega
    · split
      · simp
        omega
      · simp
        omega

/-- The ids of a run's detections identify them exactly if no two of them collide and every
    alert of DECam has a number that fits between the packed ids of two surveys. -/
theorem ids_identify_iff (run : Set Numbered) (minted : ∀ detection ∈ run, detection.InRange) : Identified run ↔
    (∀ first ∈ run, ∀ second ∈ run, Numbered.Collide first second → first = second) ∧
      ∀ alertId, .alert .decam alertId ∈ run → alertId < lsstIds - decamIds := by
  constructor
  · intro identified
    refine ⟨fun first there second there' collide => ?_, fun alertId there => ?_⟩
    · by_contra distinct
      exact distinct (identified.apart first there second there'
        ((Numbered.id_eq_iff (minted first there) (minted second there') distinct).mpr collide))
    · exact (legacyMember_legacyMemberId (minted _ there)).mp (identified.legacy .decam alertId there) rfl
  · rintro ⟨apart, small⟩
    refine ⟨fun first there second there' same => ?_, fun survey alertId _ jd => ?_, fun survey alertId there => ?_⟩
    · by_contra distinct
      exact distinct (apart first there second there'
        ((Numbered.id_eq_iff (minted first there) (minted second there') distinct).mp same))
    · rw [memberOf, siteSurvey_surveySiteCode, Option.map_some, Numbered.id]
      cases survey <;> simp [detectionId]
    · refine (legacyMember_legacyMemberId (minted _ there)).mpr ?_
      rintro rfl
      exact small alertId there

/-- An alert of ZTF and a Catalina detection are told apart. -/
theorem ids_identify_ztf : Identified {.alert .ztf 400000000000000001, .catalina "G96" 1 ⟨0x4142c69340000000⟩} := by
  refine (ids_identify_iff _ ?_).mpr ⟨?_, ?_⟩
  · rintro detection (rfl | rfl) <;> simp only [Numbered.InRange] <;> decide
  · rintro first (rfl | rfl) second (rfl | rfl) <;> simp [Numbered.Collide]
  · rintro alertId (isOne | isOne) <;> cases isOne

/-- A DECam alert whose number is one more than what a Catalina detection is packed into. -/
theorem ids_collide : (∀ detection ∈ ({.alert .decam 7075982766466138114, .catalina "G96" 1 ⟨0x4142c69340000000⟩} : Set Numbered), detection.InRange) ∧
    ¬ Identified {.alert .decam 7075982766466138114, .catalina "G96" 1 ⟨0x4142c69340000000⟩} := by
  refine ⟨?_, fun identified => ?_⟩
  · rintro detection (rfl | rfl) <;> simp only [Numbered.InRange] <;> decide
  · have same : (Numbered.alert .decam 7075982766466138114).id = (Numbered.catalina "G96" 1 ⟨0x4142c69340000000⟩).id := by decide +kernel
    cases identified.apart _ (.inl rfl) _ (.inr rfl) same

end Boom.Utils
