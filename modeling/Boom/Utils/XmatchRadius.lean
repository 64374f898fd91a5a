import Boom.Foundations.Bson
import Boom.Foundations.Except
import Boom.Foundations.Json
import Boom.Utils.Conf
import Boom.Utils.SkyAngles

/-! # How far the rows of a catalog reach

A catalog says how near an alert has to be to a row: within a fixed radius, within a projected distance at the
row's redshift, or within a multiple of the row's own size.  Numbers are real numbers here. -/

namespace Boom.Utils.Xmatch

open Boom.Foundations Real

noncomputable section

/-! ## Rows -/

/-- A value of a row, as far as numbers go. -/
inductive Cell where
  | number (value : ℝ)
  | infinity
  /-- A number in the store's decimal format, which is not read. -/
  | decimal (value : ℝ)
  | array (items : List Cell)
  | document (fields : List (String × Cell))
  | other

abbrev Fields := List (String × Cell)

def Cell.Exceeds (bound : ℝ) : Cell → Prop
  | .number value | .decimal value => bound < value
  | .infinity => True
  | .array _ | .document _ | .other => False

/-- What a query compares at a path.  It looks into the elements of an array, and at the one with an index. -/
def Cell.found : List String → Cell → List Cell
  | [], .array items => items
  | [], cell => [cell]
  | name :: rest, .document fields => (fields.lookup name).elim [] (Cell.found rest)
  | name :: rest, .array items =>
    (items.flatMap fun item => match item with
      | .document fields => (fields.lookup name).elim [] (Cell.found rest)
      | _ => []) ++
      items.zipIdx.flatMap fun item => if toString item.2 = name then Cell.found rest item.1 else []
  | _ :: _, _ => []

theorem Cell.found_single {name : String} {fields : Fields} {value : ℝ} (single : segments name = [name])
    (held : fields.lookup name = some (.number value)) :
    Cell.number value ∈ Cell.found (segments name) (.document fields) := by
  simp [single, Cell.found, held]

def getF64FromDoc (doc : Fields) (key : String) : Option ℝ :=
  match doc.lookup key with
  | some (.number value) => some value
  | _ => none

/-! ## Configuration -/

/-- The settings of a catalog, as they stand in the configuration. -/
structure XmatchValues where
  radius : Option ℝ
  projection : Option (List (String × Int))
  useDistance : Option Bool
  distanceKey : Option String
  distanceMax : Option ℝ
  distanceMaxNear : Option ℝ
  maxResults : Option Int
  angularSizeKey : Option String
  angularSizeScale : Option ℝ
  angularSizeRadiusMax : Option ℝ
  angularSizeRadiusMin : Option ℝ
  stellarTypes : Option (List String)
  collection : Option String
  typeKey : Option String

structure XmatchConfig extends CatalogXmatchConfig where
  /-- In radians. -/
  radius : ℝ
  projection : List (String × Int)
  useDistance : Bool
  distanceKey : Option String
  distanceMax : Option ℝ
  distanceMaxNear : Option ℝ
  /-- The column with a diameter. -/
  angularSizeKey : Option String
  angularSizeScale : ℝ
  angularSizeRadiusMax : Option ℝ
  angularSizeRadiusMin : ℝ

inductive ConfigError where
  | missingKey (key : String)
  | panics (message : String)

def arcsecToRadians (arcsec : ℝ) : ℝ := arcsec * π / 180 / 3600

def radiansToArcsec (radians : ℝ) : ℝ := radians * 180 / π * 3600

def required {α : Type} (key : String) (value : Option α) : Except ConfigError α :=
  value.elim (.error (.missingKey key)) .ok

def ensure (holds : Prop) [Decidable holds] (message : String) : Except ConfigError Unit :=
  if holds then .ok () else .error (.panics message)

def checkDistance (values : XmatchValues) : Except ConfigError Unit :=
  if values.useDistance.getD false then do
    ensure values.distanceKey.isSome "must provide a distance_key if use_distance is true"
    ensure values.distanceMax.isSome "must provide a distance_max if use_distance is true"
    ensure values.distanceMaxNear.isSome "must provide a distance_max_near if use_distance is true"
  else .ok ()

open Classical in
def checkSizes (values : XmatchValues) (radius : ℝ) : Except ConfigError Unit :=
  if values.angularSizeKey.isSome then
    match values.angularSizeRadiusMax with
    | none => .error (.panics "must provide an angular_size_radius_max if angular_size_key is set")
    | some radiusMax => do
      ensure (¬ values.angularSizeScale.getD 1 ≤ 0) "angular_size_scale must be greater than 0"
      ensure (¬ radiusMax < radius) "angular_size_radius_max must be at least as large as radius"
      ensure (¬ radiusMax < values.angularSizeRadiusMin.getD 0) "angular_size_radius_min must not exceed angular_size_radius_max"
  else .ok ()

def checkMaxResults : Option Int → Except ConfigError (Option Nat)
  | some value => do
    ensure (¬ value ≤ 0) "max_results must be greater than 0"
    return some value.toNat
  | none => .ok none

def fromConfig (catalog : String) (values : XmatchValues) : Except ConfigError XmatchConfig := do
  let radius ← required "radius" values.radius
  let projection ← required "projection" values.projection
  checkDistance values
  let maxResults ← checkMaxResults values.maxResults
  checkSizes values radius
  return {
    catalog := catalog
    collection := values.collection
    radius := arcsecToRadians radius
    projection := projection
    useDistance := values.useDistance.getD false
    distanceKey := values.distanceKey
    distanceMax := values.distanceMax
    distanceMaxNear := values.distanceMaxNear
    maxResults := maxResults
    angularSizeKey := values.angularSizeKey
    angularSizeScale := values.angularSizeScale.getD 1
    angularSizeRadiusMax := values.angularSizeRadiusMax.map arcsecToRadians
    angularSizeRadiusMin := arcsecToRadians (values.angularSizeRadiusMin.getD 0)
    typeKey := values.typeKey
    stellarTypes := values.stellarTypes.getD [] }

/-! ## Radii -/

open Classical in
def XmatchConfig.matchRadiusArcsec (config : XmatchConfig) (angularSizeArcsec : Option ℝ) : ℝ :=
  match config.angularSizeRadiusMax with
  | none => radiansToArcsec config.radius
  | some radiusMax =>
    let scaled := ((angularSizeArcsec.filter fun size => 0 < size).map fun size => config.angularSizeScale * size / 2).getD 0
    max (radiansToArcsec config.angularSizeRadiusMin) (min scaled (radiansToArcsec radiusMax))

def XmatchConfig.angularSizeThresholdArcsec (config : XmatchConfig) : ℝ :=
  2 * radiansToArcsec config.radius / config.angularSizeScale

def nearbyRedshift : ℝ := 0.005

def noProjectedDistance : ℝ := -1

open Classical in
def cmRadiusArcsec (z distanceMax distanceMaxNear : ℝ) : ℝ :=
  if z ≤ nearbyRedshift then distanceMaxNear else distanceMax * (0.05 / z)

open Classical in
def distanceKpcFromArcsec (distanceArcsec z : ℝ) : ℝ :=
  if nearbyRedshift < z then distanceArcsec * (z / 0.05) else noProjectedDistance

open Classical in
def rowRedshift (config : XmatchConfig) (doc : Fields) : Option ℝ :=
  config.distanceKey.bind fun key => (getF64FromDoc doc key).map fun z => if 0 ≤ z then z else 0

def rowMatchRadiusArcsec (config : XmatchConfig) (doc : Fields) : ℝ :=
  let base := radiansToArcsec config.radius
  let sized := config.angularSizeKey.map fun key => config.matchRadiusArcsec (getF64FromDoc doc key)
  let distance := if config.useDistance then
      some ((rowRedshift config doc).elim 0 fun z =>
        min (cmRadiusArcsec z (config.distanceMax.getD 0) (config.distanceMaxNear.getD 0)) base)
    else none
  match sized, distance with
  | none, none => base
  | first, second => max (first.getD 0) (second.getD 0)

/-! ## What is checked -/

structure XmatchConfig.Valid (config : XmatchConfig) : Prop where
  distance : config.useDistance = true →
    config.distanceKey.isSome = true ∧ config.distanceMax.isSome = true ∧ config.distanceMaxNear.isSome = true
  size : config.angularSizeKey.isSome = true → 0 < config.angularSizeScale ∧
    ∃ radiusMax, config.angularSizeRadiusMax = some radiusMax ∧ config.radius ≤ radiusMax ∧ config.angularSizeRadiusMin ≤ radiusMax

theorem radiansToArcsec_arcsecToRadians (arcsec : ℝ) : radiansToArcsec (arcsecToRadians arcsec) = arcsec := by
  have := pi_ne_zero
  simp only [radiansToArcsec, arcsecToRadians]
  field_simp

theorem arcsecToRadians_le {first second : ℝ} : arcsecToRadians first ≤ arcsecToRadians second ↔ first ≤ second := by
  have := pi_pos
  simp only [arcsecToRadians]
  constructor <;> intro le
  · have le := (div_le_div_iff_of_pos_right (by norm_num : (0 : ℝ) < 3600)).mp le
    have le := (div_le_div_iff_of_pos_right (by norm_num : (0 : ℝ) < 180)).mp le
    exact le_of_mul_le_mul_right le pi_pos
  · gcongr

theorem of_ensure {holds : Prop} [Decidable holds] {message : String} (passed : ensure holds message = .ok ()) : holds := by
  unfold ensure at passed
  split at passed
  next true_ => exact true_
  next => cases passed

theorem valid_of_fromConfig {catalog : String} {values : XmatchValues} {config : XmatchConfig}
    (accepted : fromConfig catalog values = .ok config) : config.Valid := by
  obtain ⟨radius, -, accepted⟩ := bind_eq_ok.mp accepted
  obtain ⟨projection, -, accepted⟩ := bind_eq_ok.mp accepted
  obtain ⟨⟨⟩, distances, accepted⟩ := bind_eq_ok.mp accepted
  obtain ⟨maxResults, -, accepted⟩ := bind_eq_ok.mp accepted
  obtain ⟨⟨⟩, sizes, accepted⟩ := bind_eq_ok.mp accepted
  obtain rfl := Except.ok.inj accepted
  refine ⟨fun uses => ?_, fun sized => ?_⟩
  · rw [checkDistance, if_pos uses] at distances
    obtain ⟨⟨⟩, hasKey, distances⟩ := bind_eq_ok.mp distances
    obtain ⟨⟨⟩, hasMax, hasNear⟩ := bind_eq_ok.mp distances
    exact ⟨of_ensure hasKey, of_ensure hasMax, of_ensure hasNear⟩
  · rw [checkSizes, if_pos sized] at sizes
    split at sizes
    next => cases sizes
    next radiusMax isMax =>
      obtain ⟨⟨⟩, scale, sizes⟩ := bind_eq_ok.mp sizes
      obtain ⟨⟨⟩, beyond, floor⟩ := bind_eq_ok.mp sizes
      refine ⟨not_le.mp (of_ensure scale), arcsecToRadians radiusMax, congrArg (Option.map arcsecToRadians) isMax, ?_, ?_⟩
      · exact arcsecToRadians_le.mpr (not_lt.mp (of_ensure beyond))
      · exact arcsecToRadians_le.mpr (not_lt.mp (of_ensure floor))

end

end Boom.Utils.Xmatch
