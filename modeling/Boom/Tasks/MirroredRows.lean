import Boom.Foundations.FieldReads
import Boom.Utils.XmatchRadius

/-! # Matching a row from either side

At ingestion the rows around an alert are fetched and each is tried by its own radius.  A catalog-driven run
fetches the alerts within the radius of a row instead.  What either knows of a row is what its projection shows,
and the cone around an alert is wider for rows above a certain size only. -/

namespace Boom.Tasks.RowMatches

open Boom.Foundations Boom.Foundations.Aggregation Boom.Utils.Xmatch Real

noncomputable section

structure Row where
  fields : Fields
  id : Cell
  ra : ℝ
  dec : ℝ
  hasId : fields.lookup "_id" = some id
  hasRa : fields.lookup "ra" = some (.number ra)
  hasDec : fields.lookup "dec" = some (.number dec)

/-- The record of an alert's object. -/
structure AuxRecord where
  id : String
  ra : ℝ
  dec : ℝ
  createdAt : ℝ

/-! ## Projections -/

def numberOf : Int → Number
  | .ofNat value => .posInt value
  | .negSucc value => .negInt (.negSucc value)

def readProjection (projection : List (String × Int)) : Option Rewrite :=
  -- The database takes no path with an empty part or one that begins with a dollar.
  if projection.all fun field => (segments field.1).all fun name => decide (IsName name) then
    Aggregation.projection (projection.map fun field => (field.1, .number (numberOf field.2)))
  else none

def shows (change : Rewrite) (name : String) : Bool :=
  match change.rules.lookup [name] with
  | some .keep => true
  | some _ => false
  | none => change.keepsOthers name

def shown (projection : List (String × Int)) (row : Row) : Option Fields :=
  (readProjection projection).map fun change => row.fields.filter fun field => shows change field.1

def catalogProjection (config : XmatchConfig) : List (String × Int) :=
  let projection := insertField "dec" 1 (insertField "ra" 1 (insertField "_id" 1 config.projection))
  config.distanceKey.elim projection fun key => insertField key 1 projection

/-! ## The two matchers -/

structure Stored where
  distanceArcsec : ℝ
  distanceKpc : Option Cell

def storedMatch (doc : Fields) (distanceArcsec : ℝ) (redshift : Option ℝ) : Stored where
  distanceArcsec := distanceArcsec
  -- Without a redshift no distance is written, and a column of that name stays.
  distanceKpc := redshift.elim (doc.lookup "distance_kpc") fun z => some (.number (distanceKpcFromArcsec distanceArcsec z))

section

-- In degrees.
variable (greatCircleDistance : ℝ → ℝ → ℝ → ℝ → ℝ)

def InSphere (centerRa centerDec radius ra dec : ℝ) : Prop :=
  greatCircleDistance centerRa centerDec ra dec * π / 180 ≤ radius

structure Cone where
  above : Option (String × ℝ)
  radius : ℝ

def coneMatchStage (config : XmatchConfig) : List Cone :=
  match config.angularSizeKey, config.angularSizeRadiusMax with
  | some sizeKey, some radiusMax =>
    [⟨none, config.radius⟩, ⟨some (sizeKey, config.angularSizeThresholdArcsec), radiusMax⟩]
  | _, _ => [⟨none, config.radius⟩]

def Cone.Passes (cone : Cone) (row : Row) : Prop :=
  ∀ gate ∈ cone.above, ∃ cell ∈ Cell.found (segments gate.1) (.document row.fields), cell.Exceeds gate.2

def Cone.Selects (cone : Cone) (record : AuxRecord) (row : Row) : Prop :=
  cone.Passes row ∧ InSphere greatCircleDistance record.ra record.dec cone.radius row.ra row.dec

open Classical in
def xmatchRow (config : XmatchConfig) (row : Row) (record : AuxRecord) : Option Stored :=
  if ∃ cone ∈ coneMatchStage config, cone.Selects greatCircleDistance record row then do
    let doc ← shown config.projection row
    let ra ← getF64FromDoc doc "ra"
    let dec ← getF64FromDoc doc "dec"
    let distanceArcsec := greatCircleDistance record.ra record.dec ra dec * 3600
    if rowMatchRadiusArcsec config doc < distanceArcsec then none
    else
      -- The redshift is read with the distance in place already.
      let doc := insertField "distance_arcsec" (.number distanceArcsec) doc
      some (storedMatch doc distanceArcsec (rowRedshift config doc))
  else none

def arcsecToRad : ℝ := π / 180 / 3600

open Classical in
def processCatDoc (config : XmatchConfig) (runStartJd : ℝ) (catDoc : Fields) (records : List AuxRecord) :
    List (String × Cell × Stored) :=
  match catDoc.lookup "_id", getF64FromDoc catDoc "ra", getF64FromDoc catDoc "dec" with
  | some catalogId, some catRa, some catDec =>
    let searchRadius := rowMatchRadiusArcsec config catDoc * arcsecToRad
    let rowZ := rowRedshift config catDoc
    -- A radius of zero finds nothing, not even what is at the row itself.
    if searchRadius ≤ 0 then []
    else
      let found := records.filter fun record => InSphere greatCircleDistance catRa catDec searchRadius record.ra record.dec
      (found.filter fun record => record.createdAt < runStartJd).map fun record =>
        let distanceArcsec := greatCircleDistance record.ra record.dec catRa catDec * 3600
        (record.id, catalogId, storedMatch catDoc distanceArcsec rowZ)
  | _, _, _ => []

def matchCatalog (config : XmatchConfig) (runStartJd : ℝ) (row : Row) (records : List AuxRecord) : List (String × Cell × Stored) :=
  (shown (catalogProjection config) row).elim [] fun catDoc => processCatDoc greatCircleDistance config runStartJd catDoc records

end

/-! ## What is shown -/

theorem lookup_filter_key {α : Type} (kept : String → Bool) (fields : List (String × α)) (key : String) :
    (fields.filter fun field => kept field.1).lookup key = if kept key then fields.lookup key else none := by
  induction fields with
  | nil => simp
  | cons field rest ih =>
    obtain ⟨other, value⟩ := field
    by_cases same : key = other
    · subst same
      by_cases isKept : kept key <;> simp [isKept, ih]
    · have differs : (key == other) = false := by simpa using same
      by_cases isKept : kept other <;> simp [isKept, List.lookup_cons, differs, ih]

section

variable {projection : List (String × Int)} {change : Rewrite} (read : readProjection projection = some change) {name : String}
include read

theorem keep_of_listed (listed : projection.lookup name = some 1) :
    (segments name, Rule.keep) ∈ change.rules ∧ apart (change.rules.map Prod.fst) = true := by
  obtain ⟨rules, separate, -⟩ := projection_spec (Option.ite_none_right_eq_some.mp read).2
  have asNumber : (name, Json.number (numberOf 1)) ∈ projection.map fun field => (field.1, Json.number (numberOf field.2)) :=
    List.mem_map_of_mem (f := fun field : String × Int => (field.1, Json.number (numberOf field.2)))
      (Collection.mem_of_lookup listed)
  have leaf := List.mem_map_of_mem (f := fun leaf : List String × Json => (leaf.1, Rule.ofProjection leaf.2))
    (leaf_of_number asNumber)
  exact ⟨by rwa [rules], separate⟩

theorem shows_of_listed (single : segments name = [name]) (listed : projection.lookup name = some 1) :
    shows change name = true := by
  obtain ⟨member, separate⟩ := keep_of_listed read listed
  rw [single] at member
  simp only [shows, (Collection.mem_iff_lookup (nodup_of_apart separate)).mp member]

/-- What includes a field shows no other than those it names, and `_id`. -/
theorem single_of_shows (listed : projection.lookup "ra" = some 1) (shown : shows change name = true) :
    segments name = [name] := by
  obtain ⟨member, -⟩ := keep_of_listed read listed
  -- A projection that keeps `ra` is not one that only drops fields.
  obtain ⟨rules, -, ⟨-, consistent, -⟩ | ⟨-, others⟩⟩ := projection_spec (Option.ite_none_right_eq_some.mp read).2
  · have isDrop := List.all_eq_true.mp consistent _ member
    rw [if_neg (by decide)] at isDrop
    cases isDrop
  · unfold shows at shown
    split at shown
    next found =>
      have named := Collection.mem_of_lookup found
      rw [rules] at named
      obtain ⟨⟨path, value⟩, isLeaf, same⟩ := List.mem_map.mp named
      obtain rfl : path = [name] := (Prod.mk.inj same).1
      exact (mem_of_leaf isLeaf).2
    next => cases shown
    next =>
      rw [others, beq_iff_eq] at shown
      subst shown
      decide

end

theorem catalogProjection_lists {config : XmatchConfig} {name : String} (isName : name ∈ ["_id", "ra", "dec"]) :
    (catalogProjection config).lookup name = some 1 := by
  have known : (insertField "dec" 1 (insertField "ra" 1 (insertField "_id" 1 config.projection))).lookup name = some 1 := by
    simp only [List.mem_cons, List.not_mem_nil, or_false] at isName
    rcases isName with rfl | rfl | rfl <;> simp [lookup_insertField_of_ne]
  unfold catalogProjection
  cases config.distanceKey with
  | none => exact known
  | some key =>
    by_cases same : name = key
    · subst same
      simp
    · simpa [lookup_insertField_of_ne same] using known

theorem shown_catalogProjection {config : XmatchConfig} {row : Row} {doc : Fields}
    (isShown : shown (catalogProjection config) row = some doc) :
    doc.lookup "_id" = some row.id ∧ getF64FromDoc doc "ra" = some row.ra ∧ getF64FromDoc doc "dec" = some row.dec := by
  obtain ⟨change, read, rfl⟩ := Option.map_eq_some_iff.mp isShown
  have shownAll : ∀ name ∈ ["_id", "ra", "dec"], shows change name = true := by
    intro name isName
    refine shows_of_listed read ?_ (catalogProjection_lists isName)
    simp only [List.mem_cons, List.not_mem_nil, or_false] at isName
    rcases isName with rfl | rfl | rfl <;> decide
  simp [getF64FromDoc, lookup_filter_key, shownAll, row.hasId, row.hasRa, row.hasDec]

theorem place_of_shown {projection : List (String × Int)} {row : Row} {doc : Fields} (isShown : shown projection row = some doc)
    {name : String} {value place : ℝ} (holds : row.fields.lookup name = some (.number place))
    (read : getF64FromDoc doc name = some value) : value = place := by
  obtain ⟨change, -, rfl⟩ := Option.map_eq_some_iff.mp isShown
  unfold getF64FromDoc at read
  rw [lookup_filter_key, holds] at read
  split_ifs at read
  exact (Option.some.inj read).symm

/-! ## What a row is known by -/

/-- What the matchers look at in a document. -/
structure Columns where
  ra : Option ℝ
  dec : Option ℝ
  redshift : Option ℝ
  size : Option ℝ
  /-- A column that stays where no distance is written. -/
  distanceKpc : Option Cell

def columns (config : XmatchConfig) (doc : Fields) : Columns where
  ra := getF64FromDoc doc "ra"
  dec := getF64FromDoc doc "dec"
  redshift := config.distanceKey.bind (getF64FromDoc doc)
  size := config.angularSizeKey.bind (getF64FromDoc doc)
  distanceKpc := if (config.distanceKey.bind (getF64FromDoc doc)).isSome then none else doc.lookup "distance_kpc"

/-- Both projections are accepted and show the same columns of a row. -/
def ShownAlike (config : XmatchConfig) (row : Row) : Prop :=
  ∃ seen, (shown config.projection row).map (columns config) = some seen ∧
    (shown (catalogProjection config) row).map (columns config) = some seen

section

variable {config : XmatchConfig} {doc doc' : Fields}

theorem rowRedshift_eq : rowRedshift config doc = (columns config doc).redshift.map fun z => if 0 ≤ z then z else 0 := by
  unfold rowRedshift columns
  cases config.distanceKey <;> rfl

section

variable (alike : columns config doc = columns config doc')
include alike

theorem rowRedshift_congr : rowRedshift config doc = rowRedshift config doc' := by
  rw [rowRedshift_eq, rowRedshift_eq, alike]

theorem rowMatchRadiusArcsec_congr : rowMatchRadiusArcsec config doc = rowMatchRadiusArcsec config doc' := by
  have size : config.angularSizeKey.bind (getF64FromDoc doc) = config.angularSizeKey.bind (getF64FromDoc doc') :=
    congrArg Columns.size alike
  unfold rowMatchRadiusArcsec
  rw [rowRedshift_congr alike]
  cases isKey : config.angularSizeKey with
  | none => rfl
  | some key =>
    rw [isKey, Option.bind_some, Option.bind_some] at size
    rw [Option.map_some, Option.map_some, size]

theorem storedMatch_congr (distanceArcsec : ℝ) : storedMatch doc distanceArcsec (rowRedshift config doc) =
    storedMatch doc' distanceArcsec (rowRedshift config doc') := by
  rw [rowRedshift_congr alike]
  have kept := congrArg Columns.distanceKpc alike
  have read : rowRedshift config doc' = _ := rowRedshift_eq
  have redshift := congrArg Columns.redshift alike
  unfold columns at kept read redshift
  simp only at kept read redshift
  unfold storedMatch
  -- Only without a redshift does the column of the row's own stay.
  cases isRedshift : config.distanceKey.bind (getF64FromDoc doc') with
  | none =>
    rw [isRedshift] at read redshift
    simpa [read, redshift, isRedshift] using kept
  | some z => simp [read, isRedshift]

end

/-- The distance is written before the redshift is read, and matters where it has the name of that column. -/
theorem storedMatch_insert (named : config.distanceKey ≠ some "distance_arcsec") (distanceArcsec : ℝ) (cell : Cell) :
    storedMatch (insertField "distance_arcsec" cell doc) distanceArcsec
        (rowRedshift config (insertField "distance_arcsec" cell doc)) =
      storedMatch doc distanceArcsec (rowRedshift config doc) := by
  have others : rowRedshift config (insertField "distance_arcsec" cell doc) = rowRedshift config doc := by
    unfold rowRedshift
    cases isKey : config.distanceKey with
    | none => rfl
    | some key =>
      have other : key ≠ "distance_arcsec" := fun same => named (isKey.trans (congrArg some same))
      simp only [Option.bind_some, getF64FromDoc, lookup_insertField_of_ne other]
  rw [others]
  unfold storedMatch
  rw [lookup_insertField_of_ne (by decide)]

end

/-! ## How far a row reaches -/

def Reaches (reach arcsec : ℝ) : Prop := 0 < reach ∧ arcsec ≤ reach

theorem reaches_max {first second arcsec : ℝ} (reaches : Reaches (max first second) arcsec) :
    Reaches first arcsec ∨ Reaches second arcsec := by
  rcases max_choice first second with same | same <;> rw [same] at reaches
  · exact .inl reaches
  · exact .inr reaches

theorem reaches_min {first second arcsec : ℝ} (reaches : Reaches (min first second) arcsec) :
    Reaches first arcsec ∧ Reaches second arcsec :=
  ⟨⟨(lt_min_iff.mp reaches.1).1, (le_min_iff.mp reaches.2).1⟩, ⟨(lt_min_iff.mp reaches.1).2, (le_min_iff.mp reaches.2).2⟩⟩

theorem not_reaches_zero {arcsec : ℝ} : ¬ Reaches 0 arcsec := fun reaches => lt_irrefl _ reaches.1

/-- A cone around an alert at this separation includes the row. -/
def Asked (config : XmatchConfig) (row : Row) (arcsec : ℝ) : Prop :=
  ∃ cone ∈ coneMatchStage config, cone.Passes row ∧ arcsec ≤ radiansToArcsec cone.radius

/-- The least radius of a row, in arcseconds, where rows have sizes. -/
def floorArcsec (config : XmatchConfig) : Option ℝ :=
  config.angularSizeKey.map fun _ => radiansToArcsec config.angularSizeRadiusMin

section

variable {config : XmatchConfig} {row : Row} {doc : Fields} {arcsec : ℝ}

theorem asked_of_base (reaches : Reaches (radiansToArcsec config.radius) arcsec) : Asked config row arcsec := by
  refine ⟨⟨none, config.radius⟩, ?_, nofun, reaches.2⟩
  unfold coneMatchStage
  split <;> exact List.mem_cons_self

theorem asked_of_size (valid : config.Valid) {sizeKey : String} {size : ℝ} (isKey : config.angularSizeKey = some sizeKey)
    (held : Cell.number size ∈ Cell.found (segments sizeKey) (.document row.fields))
    {radiusMax : ℝ} (isMax : config.angularSizeRadiusMax = some radiusMax)
    (scaled : Reaches (config.angularSizeScale * size / 2) arcsec) (cap : Reaches (radiansToArcsec radiusMax) arcsec) :
    Asked config row arcsec := by
  obtain ⟨scale, -⟩ := valid.size (by simp [isKey])
  by_cases large : config.angularSizeThresholdArcsec < size
  · refine ⟨⟨some (sizeKey, config.angularSizeThresholdArcsec), radiusMax⟩, ?_, ?_, cap.2⟩
    · simp [coneMatchStage, isKey, isMax]
    · intro gate isGate
      obtain rfl := Option.some.inj isGate
      exact ⟨_, held, large⟩
  -- A size up to the threshold reaches no further than the base cone.
  · have small := (le_div_iff₀ scale).mp (not_lt.mp large)
    have within : config.angularSizeScale * size / 2 ≤ radiansToArcsec config.radius := by linarith
    exact asked_of_base ⟨scaled.1.trans_le within, scaled.2.trans within⟩

/-- A row is asked for wherever it reaches, except by the floor. -/
theorem asked_of_reaches (valid : config.Valid)
    (held : ∀ sizeKey size, config.angularSizeKey = some sizeKey → getF64FromDoc doc sizeKey = some size →
      Cell.number size ∈ Cell.found (segments sizeKey) (.document row.fields))
    (reaches : Reaches (rowMatchRadiusArcsec config doc) arcsec) :
    Asked config row arcsec ∨ ∃ floor ∈ floorArcsec config, Reaches floor arcsec := by
  -- The size's radius is at most the cap, or the floor; the distance's at most the base radius.
  have sized (key : String) (isKey : config.angularSizeKey = some key)
      (reaches : Reaches (config.matchRadiusArcsec (getF64FromDoc doc key)) arcsec) :
      Asked config row arcsec ∨ ∃ floor ∈ floorArcsec config, Reaches floor arcsec := by
    obtain ⟨-, radiusMax, isMax, -⟩ := valid.size (by simp [isKey])
    simp only [XmatchConfig.matchRadiusArcsec, isMax] at reaches
    rcases reaches_max reaches with floor | capped
    · exact .inr ⟨_, by simp [floorArcsec, isKey], floor⟩
    · obtain ⟨scaled, cap⟩ := reaches_min capped
      cases isSize : getF64FromDoc doc key with
      | none => simp [isSize, not_reaches_zero] at scaled
      | some size =>
        by_cases positive : 0 < size
        · simp only [isSize, Option.filter_some, positive, decide_true, if_true, Option.map_some, Option.getD_some] at scaled
          exact .inl (asked_of_size valid isKey (held key size isKey isSize) isMax scaled cap)
        · simp only [isSize, Option.filter_some, positive, decide_false, Bool.false_eq_true, if_false, Option.map_none,
            Option.getD_none] at scaled
          exact absurd scaled not_reaches_zero
  have distant (reaches : Reaches ((if config.useDistance then some ((rowRedshift config doc).elim 0 fun z =>
      min (cmRadiusArcsec z (config.distanceMax.getD 0) (config.distanceMaxNear.getD 0)) (radiansToArcsec config.radius))
      else none : Option ℝ).getD 0) arcsec) : Asked config row arcsec := by
    split at reaches
    · cases isRedshift : rowRedshift config doc with
      | none => exact absurd (by simpa [isRedshift] using reaches) not_reaches_zero
      | some z =>
        rw [isRedshift] at reaches
        exact asked_of_base (reaches_min reaches).2
    · exact absurd reaches not_reaches_zero
  simp only [rowMatchRadiusArcsec] at reaches
  generalize (if config.useDistance then _ else _ : Option ℝ) = distance at distant reaches
  split at reaches
  next => exact .inl (asked_of_base reaches)
  next =>
    rcases reaches_max reaches with bySize | byDistance
    · cases isKey : config.angularSizeKey with
      | none => exact absurd (by simpa [isKey] using bySize) not_reaches_zero
      | some key => exact sized key isKey (by simpa [isKey] using bySize)
    · exact .inl (distant byDistance)

theorem floor_le_radius (valid : config.Valid) {floor : ℝ} (isFloor : floor ∈ floorArcsec config) :
    floor ≤ rowMatchRadiusArcsec config doc := by
  obtain ⟨key, isKey, rfl⟩ := Option.map_eq_some_iff.mp isFloor
  obtain ⟨-, radiusMax, isMax, -⟩ := valid.size (by simp [isKey])
  have sized : radiansToArcsec config.angularSizeRadiusMin ≤ config.matchRadiusArcsec (getF64FromDoc doc key) := by
    simp only [XmatchConfig.matchRadiusArcsec, isMax]
    exact le_max_left _ _
  simp only [rowMatchRadiusArcsec, isKey, Option.map_some]
  exact sized.trans (le_max_left _ _)

end

/-! ## What either keeps -/

section

variable (greatCircleDistance : ℝ → ℝ → ℝ → ℝ → ℝ)

def separationArcsec (row : Row) (record : AuxRecord) : ℝ :=
  greatCircleDistance record.ra record.dec row.ra row.dec * 3600

variable {greatCircleDistance} {config : XmatchConfig} {row : Row} {record : AuxRecord} {stored : Stored}

theorem inSphere_iff {centerRa centerDec radius ra dec : ℝ} : InSphere greatCircleDistance centerRa centerDec radius ra dec ↔
    greatCircleDistance centerRa centerDec ra dec * 3600 ≤ radiansToArcsec radius := by
  have positive := pi_pos
  unfold InSphere radiansToArcsec
  rw [div_le_iff₀ (by norm_num), mul_le_mul_iff_left₀ (by norm_num : (0 : ℝ) < 3600), le_div_iff₀ positive]

theorem fetched_iff : (∃ cone ∈ coneMatchStage config, cone.Selects greatCircleDistance record row) ↔
    Asked config row (separationArcsec greatCircleDistance row record) := by
  simp only [Cone.Selects, inSphere_iff, Asked, separationArcsec]

theorem xmatchRow_eq : xmatchRow greatCircleDistance config row record = some stored ↔
    Asked config row (separationArcsec greatCircleDistance row record) ∧
      ∃ doc, shown config.projection row = some doc ∧ (columns config doc).ra = some row.ra ∧
        (columns config doc).dec = some row.dec ∧
        separationArcsec greatCircleDistance row record ≤ rowMatchRadiusArcsec config doc ∧
        stored = storedMatch (insertField "distance_arcsec" (.number (separationArcsec greatCircleDistance row record)) doc)
          (separationArcsec greatCircleDistance row record) (rowRedshift config
            (insertField "distance_arcsec" (.number (separationArcsec greatCircleDistance row record)) doc)) := by
  unfold xmatchRow
  split
  next fetched =>
    have asked := fetched_iff.mp fetched
    cases isShown : shown config.projection row with
    | none => simp
    | some doc =>
      cases isRa : getF64FromDoc doc "ra" with
      | none => simp [columns, isRa]
      | some ra =>
        cases isDec : getF64FromDoc doc "dec" with
        | none => simp [columns, isRa, isDec]
        | some dec =>
          obtain rfl := place_of_shown isShown row.hasRa isRa
          obtain rfl := place_of_shown isShown row.hasDec isDec
          have refold : greatCircleDistance record.ra record.dec row.ra row.dec * 3600 =
            separationArcsec greatCircleDistance row record := rfl
          simp only [Option.bind_eq_bind, Option.bind_some, isRa, isDec, refold, columns, asked, true_and, Option.some.injEq,
            exists_eq_left']
          split
          next outside => simp [not_le.mpr outside]
          next inside => simp [not_lt.mp inside, eq_comm]
  next hidden => exact iff_of_false (by simp) fun kept => hidden (fetched_iff.mpr kept.1)

theorem matchCatalog_eq (symmetric : ∀ ra dec ra' dec', greatCircleDistance ra dec ra' dec' = greatCircleDistance ra' dec' ra dec)
    {runStartJd : ℝ} (created : record.createdAt < runStartJd) :
    (record.id, row.id, stored) ∈ matchCatalog greatCircleDistance config runStartJd row [record] ↔
      ∃ doc, shown (catalogProjection config) row = some doc ∧
        Reaches (rowMatchRadiusArcsec config doc) (separationArcsec greatCircleDistance row record) ∧
        stored = storedMatch doc (separationArcsec greatCircleDistance row record) (rowRedshift config doc) := by
  have unit : 0 < arcsecToRad := by
    have := pi_pos
    unfold arcsecToRad
    positivity
  unfold matchCatalog
  cases isShown : shown (catalogProjection config) row with
  | none => simp
  | some doc =>
    obtain ⟨isId, isRa, isDec⟩ := shown_catalogProjection isShown
    -- The same separation, around the row and not around the alert.
    have inside : InSphere greatCircleDistance row.ra row.dec (rowMatchRadiusArcsec config doc * arcsecToRad) record.ra record.dec ↔
        separationArcsec greatCircleDistance row record ≤ rowMatchRadiusArcsec config doc := by
      have back : radiansToArcsec (rowMatchRadiusArcsec config doc * arcsecToRad) = rowMatchRadiusArcsec config doc := by
        rw [← radiansToArcsec_arcsecToRadians (rowMatchRadiusArcsec config doc)]
        congr 1
        rw [radiansToArcsec_arcsecToRadians]
        simp only [arcsecToRad, arcsecToRadians]
        ring
      rw [inSphere_iff, back, symmetric, separationArcsec]
    have nonpos : rowMatchRadiusArcsec config doc * arcsecToRad ≤ 0 ↔ rowMatchRadiusArcsec config doc ≤ 0 :=
      ⟨fun le => nonpos_of_mul_nonpos_left le unit, fun le => mul_nonpos_of_nonpos_of_nonneg le unit.le⟩
    have refold : greatCircleDistance record.ra record.dec row.ra row.dec * 3600 =
      separationArcsec greatCircleDistance row record := rfl
    simp only [Option.elim_some, processCatDoc, isId, isRa, isDec, nonpos, Option.some.injEq, exists_eq_left', Reaches]
    by_cases positive : 0 < rowMatchRadiusArcsec config doc
    · by_cases near : separationArcsec greatCircleDistance row record ≤ rowMatchRadiusArcsec config doc
      · simp [positive, not_le.mpr positive, inside, near, created, refold]
      · simp [positive, not_le.mpr positive, inside, near]
    · simp [positive, not_lt.mp positive]

end

/-! ## Agreement -/

def Agree (greatCircleDistance : ℝ → ℝ → ℝ → ℝ → ℝ) (config : XmatchConfig) (runStartJd : ℝ) (row : Row)
    (record : AuxRecord) : Prop :=
  ∀ stored, xmatchRow greatCircleDistance config row record = some stored ↔
    (record.id, row.id, stored) ∈ matchCatalog greatCircleDistance config runStartJd row [record]

/-- No cone includes the row, and it is farther than the least radius. -/
structure Far (config : XmatchConfig) (row : Row) (arcsec : ℝ) : Prop where
  asked : ¬ Asked config row arcsec
  floor : ∀ floor ∈ floorArcsec config, ¬ Reaches floor arcsec

structure ReadAlike (config : XmatchConfig) (row : Row) (arcsec : ℝ) : Prop where
  seen : ShownAlike config row
  floor : ∀ floor ∈ floorArcsec config, Reaches floor arcsec → Asked config row arcsec
  /-- At the place of a row that has a radius of zero. -/
  extended : arcsec = 0 → Asked config row arcsec →
    ∀ doc, shown config.projection row = some doc → rowMatchRadiusArcsec config doc ≠ 0
  named : config.distanceKey = some "distance_arcsec" →
    ∀ doc, shown config.projection row = some doc → rowMatchRadiusArcsec config doc < arcsec

def Covered (config : XmatchConfig) (row : Row) (arcsec : ℝ) : Prop :=
  Far config row arcsec ∨ ReadAlike config row arcsec

theorem held_of_shown {config : XmatchConfig} {row : Row} {doc : Fields} (isShown : shown (catalogProjection config) row = some doc)
    {sizeKey : String} {size : ℝ} (read : getF64FromDoc doc sizeKey = some size) :
    Cell.number size ∈ Cell.found (segments sizeKey) (.document row.fields) := by
  obtain ⟨change, isChange, rfl⟩ := Option.map_eq_some_iff.mp isShown
  unfold getF64FromDoc at read
  rw [lookup_filter_key] at read
  split at read
  next value found =>
    obtain rfl := Option.some.inj read
    obtain ⟨shows, held⟩ := Option.ite_none_right_eq_some.mp found
    exact Cell.found_single (single_of_shows isChange (catalogProjection_lists (by simp)) shows) held
  next => cases read

section

variable {greatCircleDistance : ℝ → ℝ → ℝ → ℝ → ℝ} {config : XmatchConfig} {runStartJd : ℝ} {row : Row} {record : AuxRecord}
  (symmetric : ∀ ra dec ra' dec', greatCircleDistance ra dec ra' dec' = greatCircleDistance ra' dec' ra dec)
  (valid : config.Valid) (created : record.createdAt < runStartJd)
include symmetric valid created

theorem agree_of_far (far : Far config row (separationArcsec greatCircleDistance row record)) :
    Agree greatCircleDistance config runStartJd row record := by
  intro stored
  rw [xmatchRow_eq, matchCatalog_eq symmetric created]
  refine iff_of_false (fun kept => far.asked kept.1) ?_
  rintro ⟨doc, isShown, reaches, -⟩
  rcases asked_of_reaches valid (fun _ _ _ read => held_of_shown isShown read) reaches with asked | ⟨floor, isFloor, reaches⟩
  · exact far.asked asked
  · exact far.floor floor isFloor reaches

theorem agree_of_readAlike (away : 0 ≤ separationArcsec greatCircleDistance row record)
    (alike : ReadAlike config row (separationArcsec greatCircleDistance row record)) :
    Agree greatCircleDistance config runStartJd row record := by
  obtain ⟨seen, isSeen, isSeen'⟩ := alike.seen
  obtain ⟨doc, isShown, same⟩ := Option.map_eq_some_iff.mp isSeen
  obtain ⟨doc', isShown', same'⟩ := Option.map_eq_some_iff.mp isSeen'
  have columns_eq : columns config doc = columns config doc' := same.trans same'.symm
  have radius := rowMatchRadiusArcsec_congr columns_eq
  obtain ⟨-, isRa, isDec⟩ := shown_catalogProjection isShown'
  have ra : (columns config doc).ra = some row.ra := columns_eq ▸ isRa
  have dec : (columns config doc).dec = some row.dec := columns_eq ▸ isDec
  intro stored
  simp only [xmatchRow_eq, matchCatalog_eq symmetric created, isShown, isShown', Option.some.injEq, exists_eq_left', ra, dec,
    true_and, ← radius]
  -- The cone and the radius at ingestion select the separations that the run's radius does.
  have reach : Asked config row (separationArcsec greatCircleDistance row record) ∧
      separationArcsec greatCircleDistance row record ≤ rowMatchRadiusArcsec config doc ↔
        Reaches (rowMatchRadiusArcsec config doc) (separationArcsec greatCircleDistance row record) := by
    constructor
    · rintro ⟨asked, within⟩
      refine ⟨lt_of_le_of_ne (away.trans within) fun zero => ?_, within⟩
      exact alike.extended (le_antisymm (zero ▸ within) away) asked doc isShown zero.symm
    · intro reaches
      refine ⟨?_, reaches.2⟩
      have reaches' := radius ▸ reaches
      rcases asked_of_reaches valid (fun _ _ _ read => held_of_shown isShown' read) reaches' with asked | ⟨floor, isFloor, reaches⟩
      · exact asked
      · exact alike.floor floor isFloor reaches
  rw [← and_assoc, reach]
  refine and_congr_right fun reaches => ?_
  have named : config.distanceKey ≠ some "distance_arcsec" := fun named => not_lt.mpr reaches.2 (alike.named named doc isShown)
  rw [storedMatch_insert named, storedMatch_congr columns_eq]

theorem readAlike_of_agree (seen : ShownAlike config row) (named : config.distanceKey ≠ some "distance_arcsec")
    (agree : Agree greatCircleDistance config runStartJd row record) :
    ReadAlike config row (separationArcsec greatCircleDistance row record) := by
  refine ⟨seen, fun floor isFloor reaches => ?_, fun here asked doc isShown zero => ?_, fun isNamed => absurd isNamed named⟩
  all_goals
    obtain ⟨_, isSeen, isSeen'⟩ := seen
    obtain ⟨doc₁, isShown₁, same⟩ := Option.map_eq_some_iff.mp isSeen
    obtain ⟨doc', isShown', same'⟩ := Option.map_eq_some_iff.mp isSeen'
  -- What the floor reaches the run matches, so ingestion has asked for it.
  · have beyond := @floor_le_radius _ doc' valid _ isFloor
    exact (xmatchRow_eq.mp ((agree _).mpr ((matchCatalog_eq symmetric created).mpr
      ⟨doc', isShown', ⟨reaches.1.trans_le beyond, reaches.2.trans beyond⟩, rfl⟩))).1
  · obtain rfl : doc = doc₁ := Option.some.inj (isShown.symm.trans isShown₁)
    have columns_eq : columns config doc = columns config doc' := same.trans same'.symm
    obtain ⟨-, isRa, isDec⟩ := shown_catalogProjection isShown'
    -- At a row of radius zero ingestion keeps the pair and the run does not.
    have kept := xmatchRow_eq.mpr ⟨asked, doc, isShown, columns_eq ▸ isRa, columns_eq ▸ isDec, (here.trans zero.symm).le, rfl⟩
    obtain ⟨doc₂, isShown₂, reaches, -⟩ := (matchCatalog_eq symmetric created).mp ((agree _).mp kept)
    obtain rfl : doc' = doc₂ := Option.some.inj (isShown'.symm.trans isShown₂)
    rw [← rowMatchRadiusArcsec_congr columns_eq, zero] at reaches
    exact not_reaches_zero reaches

end

/-- The two matchers agree on a record that is far or reads alike, and on no other where the columns are the same. -/
theorem crossmatches_agree_of_covered (greatCircleDistance : ℝ → ℝ → ℝ → ℝ → ℝ)
    (nonneg : ∀ ra dec ra' dec', 0 ≤ greatCircleDistance ra dec ra' dec')
    (symmetric : ∀ ra dec ra' dec', greatCircleDistance ra dec ra' dec' = greatCircleDistance ra' dec' ra dec)
    (catalog : String) (values : XmatchValues) (config : XmatchConfig) (accepted : fromConfig catalog values = .ok config)
    (runStartJd : ℝ) (row : Row) (record : AuxRecord) (created : record.createdAt < runStartJd) :
    (Covered config row (separationArcsec greatCircleDistance row record) →
        Agree greatCircleDistance config runStartJd row record) ∧
      (ShownAlike config row → config.distanceKey ≠ some "distance_arcsec" →
        Agree greatCircleDistance config runStartJd row record →
          Covered config row (separationArcsec greatCircleDistance row record)) := by
  have valid := valid_of_fromConfig accepted
  have away : 0 ≤ separationArcsec greatCircleDistance row record := mul_nonneg (nonneg _ _ _ _) (by norm_num)
  refine ⟨?_, fun seen named agree => .inr (readAlike_of_agree symmetric valid created seen named agree)⟩
  rintro (far | alike)
  · exact agree_of_far symmetric valid created far
  · exact agree_of_readAlike symmetric valid created away alike

/-! ## A floor beyond the radius -/

def alongMeridian (_ dec _ dec' : ℝ) : ℝ := |dec - dec'|

def flooredValues : XmatchValues where
  radius := some 2
  projection := some [("_id", 1), ("ra", 1), ("dec", 1), ("diam", 1)]
  useDistance := none
  distanceKey := none
  distanceMax := none
  distanceMaxNear := none
  maxResults := none
  angularSizeKey := some "diam"
  angularSizeScale := none
  angularSizeRadiusMax := some 10
  angularSizeRadiusMin := some 5
  stellarTypes := none
  collection := none
  typeKey := none

def flooredConfig : XmatchConfig where
  catalog := "galaxies"
  collection := none
  maxResults := none
  typeKey := none
  stellarTypes := []
  radius := arcsecToRadians 2
  projection := [("_id", 1), ("ra", 1), ("dec", 1), ("diam", 1)]
  useDistance := false
  distanceKey := none
  distanceMax := none
  distanceMaxNear := none
  angularSizeKey := some "diam"
  angularSizeScale := 1
  angularSizeRadiusMax := some (arcsecToRadians 10)
  angularSizeRadiusMin := arcsecToRadians 5

theorem fromConfig_floored : fromConfig "galaxies" flooredValues = .ok flooredConfig := by
  have sizes : checkSizes flooredValues 2 = .ok () := by
    norm_num [checkSizes, flooredValues, ensure, bind, Except.bind]
  have run : fromConfig "galaxies" flooredValues = (checkSizes flooredValues 2 >>= fun _ => .ok flooredConfig) := rfl
  rw [run, sizes]
  rfl

def unsizedRow : Row where
  fields := [("_id", .other), ("ra", .number 0), ("dec", .number 0)]
  id := .other
  ra := 0
  dec := 0
  hasId := rfl
  hasRa := rfl
  hasDec := rfl

def closeRecord : AuxRecord := ⟨"alert", 0, 1 / 3600, 0⟩

def nearbyRecord : AuxRecord := ⟨"alert", 0, 3 / 3600, 0⟩

theorem symmetric_alongMeridian (ra dec ra' dec' : ℝ) : alongMeridian ra dec ra' dec' = alongMeridian ra' dec' ra dec :=
  abs_sub_comm _ _

theorem shownAlike_floored : ShownAlike flooredConfig unsizedRow := by
  obtain ⟨doc, isShown⟩ : ∃ doc, shown flooredConfig.projection unsizedRow = some doc :=
    Option.isSome_iff_exists.mp (by rw [shown, Option.isSome_map]; decide)
  have same : catalogProjection flooredConfig = flooredConfig.projection := by decide
  exact ⟨columns flooredConfig doc, by rw [isShown, Option.map_some], by rw [same, isShown, Option.map_some]⟩

theorem asked_closeRecord : Asked flooredConfig unsizedRow 1 := by
  refine ⟨⟨none, flooredConfig.radius⟩, List.mem_cons_self, nofun, ?_⟩
  have base : radiansToArcsec flooredConfig.radius = 2 := radiansToArcsec_arcsecToRadians 2
  norm_num [base]

theorem separation_closeRecord : separationArcsec alongMeridian unsizedRow closeRecord = 1 := by
  norm_num [separationArcsec, alongMeridian, unsizedRow, closeRecord]

/-- One arcsecond from the row. -/
theorem crossmatches_agree_of_covered_close : Agree alongMeridian flooredConfig 1 unsizedRow closeRecord := by
  refine (crossmatches_agree_of_covered alongMeridian (fun _ _ _ _ => abs_nonneg _) symmetric_alongMeridian "galaxies"
    flooredValues flooredConfig fromConfig_floored 1 unsizedRow closeRecord (by norm_num [closeRecord])).1 (.inr ?_)
  rw [separation_closeRecord]
  exact ⟨shownAlike_floored, fun _ _ _ => asked_closeRecord, fun zero => absurd zero one_ne_zero, nofun⟩

theorem separation_nearby : separationArcsec alongMeridian unsizedRow nearbyRecord = 3 := by
  norm_num [separationArcsec, alongMeridian, unsizedRow, nearbyRecord]

theorem not_asked_nearby : ¬ Asked flooredConfig unsizedRow 3 := by
  rintro ⟨cone, isCone, passes, within⟩
  simp only [coneMatchStage, flooredConfig, List.mem_cons, List.not_mem_nil, or_false] at isCone
  rcases isCone with rfl | rfl
  · rw [radiansToArcsec_arcsecToRadians] at within
    norm_num at within
  · obtain ⟨cell, found, -⟩ := passes _ rfl
    simp [show segments "diam" = ["diam"] by decide, Cell.found, unsizedRow, List.lookup_cons] at found

theorem floor_reaches : Reaches (radiansToArcsec flooredConfig.angularSizeRadiusMin) 3 := by
  have floor : radiansToArcsec flooredConfig.angularSizeRadiusMin = 5 := radiansToArcsec_arcsecToRadians 5
  constructor <;> norm_num [floor]

/-- The row is fetched within 2 arcseconds only, and matches within 5. -/
theorem floor_beyond_radius : ¬ Agree alongMeridian flooredConfig 1 unsizedRow nearbyRecord := by
  intro agree
  have valid := valid_of_fromConfig fromConfig_floored
  have created : nearbyRecord.createdAt < 1 := by norm_num [nearbyRecord]
  obtain ⟨doc, isShown⟩ : ∃ doc, shown (catalogProjection flooredConfig) unsizedRow = some doc :=
    Option.isSome_iff_exists.mp (by rw [shown, Option.isSome_map]; decide)
  have least := @floor_le_radius _ doc valid _ (show _ ∈ floorArcsec flooredConfig from rfl)
  have reaches : Reaches (rowMatchRadiusArcsec flooredConfig doc) (separationArcsec alongMeridian unsizedRow nearbyRecord) := by
    rw [separation_nearby]
    exact ⟨floor_reaches.1.trans_le least, floor_reaches.2.trans least⟩
  have matched := (matchCatalog_eq symmetric_alongMeridian created).mpr ⟨doc, isShown, reaches, rfl⟩
  have asked := (xmatchRow_eq.mp ((agree _).mpr matched)).1
  exact not_asked_nearby (separation_nearby ▸ asked)

end

end Boom.Tasks.RowMatches
