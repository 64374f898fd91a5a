import Boom.Enrichment.Outburst
import Boom.Foundations.Rows

/-! # What a batch reads about its moving objects

Orbits, phase curves and earlier photometry, each with one query for all objects of the
batch.  What an object's own entry is depends on the batch in one way: the earlier
photometry is read from the earliest epoch of the batch on, less one window. -/

namespace Boom.Enrichment

open Boom.Foundations

abbrev Fields := List (String × Bson)

structure Database (κ : Type) where
  /-- `ZTF_alerts`, in the order a query answers. -/
  alerts : Collection Int Fields
  /-- What the alert pipeline makes of a stored alert, from the auxiliary documents of its
      object; nothing where there is none. -/
  joined : Int → Option Fields
  /-- `MPC_orbits` and `ZTF_sso_baselines`. -/
  orbits : Collection String Fields
  baselines : Collection String Fields
  cutouts : Collection Int κ

variable {κ ρ : Type}

/-! ## Reading a stored document -/

def getF64 (fields : Fields) (key : String) : Option F64 := (fields.lookup key).bind Bson.asF64

def getDocument (fields : Fields) (key : String) : Option Fields := (fields.lookup key).bind Bson.asDocument

def getStr (fields : Fields) (key : String) : Option String := (fields.lookup key).bind Bson.asStr

def elementsFromDocument (numerics : Numerics) (fields : Fields) : Option OrbitalElements := do
  let elements : OrbitalElements := {
    epochJd := ← getF64 fields "epoch_jd"
    a := ← getF64 fields "a"
    e := ← getF64 fields "e"
    incl := ← getF64 fields "incl"
    node := ← getF64 fields "node"
    peri := ← getF64 fields "peri"
    meanAnomaly := ← getF64 fields "mean_anomaly"
    q := (getF64 fields "q").getD zero
    tp := (getF64 fields "tp").getD zero }
  return if elements.tp.eq zero then numerics.withPerihelion elements else elements

def parseByte (text : String) : Option Nat :=
  let digits := ((stripPrefix text "+").getD text).toList
  let value := digits.foldl (fun value digit => 10 * value + (digit.toNat - '0'.toNat)) 0
  if !digits.isEmpty && digits.all Char.isDigit && decide (value ≤ 255) then some value else none

def curveFromDocument (numerics : Numerics) (value : Bson) : Option PhaseCurve := do
  let entry ← value.asDocument
  let number (key : String) : Option F64 := (entry.lookup key).bind numerics.bsonNumber
  return {
    h := ← number "h"
    g12 := ← number "g12"
    scatter := ← number "scatter"
    n := numerics.toSize (← number "n") }

def curvesFromDocument (numerics : Numerics) (fields : Fields) : Nat → Option PhaseCurve :=
  match getDocument fields "bands" with
  | none => fun _ => none
  | some bands =>
    let curves := bands.filterMap fun entry => do
      return (← parseByte entry.1, ← curveFromDocument numerics entry.2)
    fun band => curves.reverse.lookup band

def historyPoint (numerics : Numerics) (fields : Fields) : Option (String × F64 × Point) := do
  let candidate ← getDocument fields "candidate"
  let sso ← (getDocument fields "properties").bind (getDocument · "sso")
  let number (fields : Fields) (key : String) : Option F64 := (fields.lookup key).bind numerics.bsonNumber
  return (← getStr candidate "ssnamenr", ← number candidate "jd", {
    rh := ← number sso "helio_dist"
    delta := ← number sso "topo_dist"
    phase := ← number sso "phase_angle"
    mag := ← number candidate "magpsf"
    magErr := ← number candidate "sigmapsf"
    band := numerics.toByte (← number candidate "fid") })

/-! ## One query per batch -/

variable (numerics : Numerics) (database : Database κ) (alerts : List (ZtfAlertForEnrichment ρ))

def ssoNames : List String := (alerts.filterMap fun alert => alert.candidate.ssnamenr).dedup

def fetchOrbits : List (String × OrbitalElements) :=
  let keyByName := (ssoNames alerts).filterMap fun name =>
    (numerics.normalizeZtfSsnamenr name).map fun key => (name, key)
  if keyByName.isEmpty then []
  else
    let keys := (keyByName.map Prod.snd).dedup
    let docs := database.orbits.find fun id _ => keys.contains id
    let byKey := docs.filterMap fun doc =>
      (elementsFromDocument numerics doc.2).map fun elements => (doc.1, elements)
    keyByName.filterMap fun entry => (byKey.lookup entry.2).map fun elements => (entry.1, elements)

def fetchBaselines : List (String × (Nat → Option PhaseCurve)) :=
  let names := ssoNames alerts
  if names.isEmpty then []
  else
    (database.baselines.find fun id _ => names.contains id).map fun doc =>
      (doc.1, curvesFromDocument numerics doc.2)

def earliest : F64 :=
  numerics.minus ((alerts.map fun alert => alert.candidate.jd).foldl minF64 F64.infinity)
    HISTORY_WINDOW_DAYS

def anyValue (test : Bson → Bool) : Bson → Bool
  | .array items => items.any test
  | value => test value

def candidateHolds (fields : Fields) (key : String) (test : Bson → Bool) : Bool :=
  ((getDocument fields "candidate").bind (·.lookup key)).any (anyValue test)

def nearPrediction (fields : Fields) : Bool :=
  candidateHolds fields "ssdistnr" (fun value => (numerics.bsonNumber value).any zero.le) &&
    candidateHolds fields "ssdistnr" fun value => (numerics.bsonNumber value).any (·.lt MAX_SEPARATION_ARCSEC)

def historyFilter (names : List String) (time : F64) (fields : Fields) : Bool :=
  candidateHolds fields "ssnamenr" (fun value => value.asStr.any names.contains) &&
    candidateHolds fields "jd" (fun value => (numerics.bsonNumber value).any time.le) &&
    nearPrediction numerics fields

def historyPoints (names : List String) (time : F64) (name : String) : List (F64 × Point) :=
  ((database.alerts.find fun _ fields => historyFilter numerics names time fields).filterMap
    fun doc => historyPoint numerics doc.2).filterMap fun entry =>
      if entry.1 = name then some entry.2 else none

def fetchSsoHistory (name : String) : Option (List (F64 × Point)) :=
  let names := ssoNames alerts
  if names.isEmpty then none
  else
    let points := historyPoints numerics database names (earliest numerics alerts) name
    if points.isEmpty then none
    else some (points.insertionSort fun first second => first.1.totalRank ≤ second.1.totalRank)

/-! ## What an object's entry depends on -/

def orbitOf (name : String) : Option OrbitalElements :=
  (numerics.normalizeZtfSsnamenr name).bind fun key =>
    (database.orbits.get key).bind (elementsFromDocument numerics)

variable {name : String}

theorem lookup_fetchOrbits (member : name ∈ ssoNames alerts) :
    (fetchOrbits numerics database alerts).lookup name = orbitOf numerics database name := by
  have unique : (ssoNames alerts).Nodup := List.nodup_dedup _
  have known := Aggregation.lookup_filterMap unique numerics.normalizeZtfSsnamenr name
  have distinct := nodup_keyed unique numerics.normalizeZtfSsnamenr
  rw [if_pos member] at known
  simp only [fetchOrbits]
  generalize (ssoNames alerts).filterMap (fun name =>
    (numerics.normalizeZtfSsnamenr name).map fun key => (name, key)) = keyByName at known distinct ⊢
  split
  next nothing =>
    rw [List.isEmpty_iff.mp nothing] at known
    simp [orbitOf, ← known]
  next =>
    refine (lookup_mapValues distinct (fun key => List.lookup key _) name).trans ?_
    rw [known, orbitOf]
    cases normalized : numerics.normalizeZtfSsnamenr name with
    | none => rfl
    | some key =>
      -- the name's key is among those asked for
      rw [normalized] at known
      have asked : (keyByName.map Prod.snd).dedup.contains key = true := by
        have entry := (Collection.mem_iff_lookup distinct).mpr known
        exact List.contains_iff_mem.mpr (List.mem_dedup.mpr (List.mem_map.mpr ⟨_, entry, rfl⟩))
      simp only [Option.bind_some, Collection.find]
      rw [lookup_read database.orbits.unique (fun id => (keyByName.map Prod.snd).dedup.contains id), if_pos asked]
      rfl

theorem lookup_fetchBaselines (member : name ∈ ssoNames alerts) :
    (fetchBaselines numerics database alerts).lookup name =
      (database.baselines.get name).map (curvesFromDocument numerics) := by
  simp only [fetchBaselines]
  split
  next nothing =>
    rw [List.isEmpty_iff.mp nothing] at member
    cases member
  next =>
    have read := lookup_read database.baselines.unique (fun id => (ssoNames alerts).contains id)
      (fun fields => some (curvesFromDocument numerics fields)) name
    rw [if_pos (List.contains_iff_mem.mpr member)] at read
    simp only [Option.map_some, List.filterMap_eq_map'] at read
    rw [Collection.find, read, Collection.get, Option.map_eq_bind]
    rfl

/-! ## The history of one object -/

structure Measures (fields : Fields) (name : String) (jd : F64) (point : Point) : Prop where
  point : historyPoint numerics fields = some (name, jd, point)
  near : nearPrediction numerics fields = true

def SameWindow (others : List (ZtfAlertForEnrichment ρ)) (name : String) (epoch : F64) : Prop :=
  ∀ id fields, database.alerts.get id = some fields → ∀ jd point, Measures numerics fields name jd point →
    jd.lt epoch = true →
      ((earliest numerics alerts).le jd = true ↔ (earliest numerics others).le jd = true)

theorem of_historyPoint {fields : Fields} {jd : F64} {point : Point}
    (found : historyPoint numerics fields = some (name, jd, point)) :
    ∃ candidate value, getDocument fields "candidate" = some candidate ∧
      candidate.lookup "ssnamenr" = some (.string name) ∧ candidate.lookup "jd" = some value ∧
      numerics.bsonNumber value = some jd := by
  simp only [historyPoint, Option.bind_eq_bind, Option.bind_eq_some_iff, Option.pure_def,
    Option.some.injEq, Prod.mk.injEq] at found
  obtain ⟨candidate, held, _, _, text, named, epoch, ⟨value, stored, read⟩, _, _, _, _, _, _, _, _, _, _, _, _,
    rfl, rfl, _⟩ := found
  refine ⟨candidate, value, held, ?_, stored, read⟩
  simp only [getStr, Option.bind_eq_some_iff] at named
  obtain ⟨bson, present, isText⟩ := named
  cases bson <;> simp_all [Bson.asStr]

theorem selected_point {names : List String} (member : name ∈ names) (time : F64) (fields : Fields) :
    (if historyFilter numerics names time fields then historyPoint numerics fields else none).bind
      (fun entry => if entry.1 = name then some entry.2 else none) =
    if nearPrediction numerics fields then (historyPoint numerics fields).bind fun entry =>
      if entry.1 = name ∧ time.le entry.2.1 = true then some entry.2 else none else none := by
  cases found : historyPoint numerics fields with
  | none => simp
  | some entry =>
    obtain ⟨held, jd, point⟩ := entry
    -- the filter reads the same name and epoch
    obtain ⟨named, timed⟩ : candidateHolds fields "ssnamenr" (fun value => value.asStr.any names.contains) =
        names.contains held ∧
        candidateHolds fields "jd" (fun value => (numerics.bsonNumber value).any time.le) = time.le jd := by
      obtain ⟨candidate, value, document, text, stored, read⟩ := of_historyPoint numerics found
      refine ⟨by simp [candidateHolds, document, text, anyValue, Bson.asStr], ?_⟩
      cases value <;> simp_all [candidateHolds, anyValue, Numerics.bsonNumber]
    simp only [historyFilter, named, timed]
    by_cases same : held = name
    · subst same
      cases nearPrediction numerics fields <;> cases since : time.le jd <;> simp [member, since]
    · cases nearPrediction numerics fields <;> simp [same]

theorem getD_fetchSsoHistory (member : name ∈ ssoNames alerts) (keep : F64 × Point → Bool) :
    ((fetchSsoHistory numerics database alerts name).map fun points => points.filter keep).getD [] =
      ((historyPoints numerics database (ssoNames alerts) (earliest numerics alerts) name).filter
        keep).insertionSort fun first second => first.1.totalRank ≤ second.1.totalRank := by
  have nonempty : ¬ (ssoNames alerts).isEmpty := by
    intro nothing
    rw [List.isEmpty_iff.mp nothing] at member
    cases member
  simp only [fetchSsoHistory, if_neg nonempty]
  split
  next nothing => rw [List.isEmpty_iff.mp nothing]; rfl
  next =>
    have total : Std.Total fun first second : F64 × Point => first.1.totalRank ≤ second.1.totalRank :=
      ⟨fun first second => le_total first.1.totalRank second.1.totalRank⟩
    have transitive : IsTrans _ fun first second : F64 × Point => first.1.totalRank ≤ second.1.totalRank :=
      ⟨fun _ _ _ => le_trans⟩
    rw [Option.map_some, Option.getD_some, filter_insertionSort]

theorem historyPoints_filter {names : List String} (member : name ∈ names) (time : F64) (keep : F64 × Point → Bool) :
    (historyPoints numerics database names time name).filter keep =
      database.alerts.entries.filterMap fun doc =>
        if nearPrediction numerics doc.2 then ((historyPoint numerics doc.2).bind fun entry =>
          if entry.1 = name ∧ time.le entry.2.1 = true then some entry.2 else none).filter keep else none := by
  rw [historyPoints, Collection.find, List.filterMap_filter, List.filterMap_filterMap, List.filter_filterMap]
  refine List.filterMap_congr fun doc _ => ?_
  rw [selected_point numerics member]
  cases nearPrediction numerics doc.2 <;> rfl

theorem history_congr {others : List (ZtfAlertForEnrichment ρ)} {epoch : F64}
    (member : name ∈ ssoNames alerts) (member' : name ∈ ssoNames others)
    (same : SameWindow numerics database alerts others name epoch) :
    ((fetchSsoHistory numerics database alerts name).map fun points =>
      points.filter fun entry => entry.1.lt epoch).getD [] =
    ((fetchSsoHistory numerics database others name).map fun points =>
      points.filter fun entry => entry.1.lt epoch).getD [] := by
  rw [getD_fetchSsoHistory _ _ _ member, getD_fetchSsoHistory _ _ _ member',
    historyPoints_filter _ _ member, historyPoints_filter _ _ member']
  congr 1
  refine List.filterMap_congr fun doc stored => ?_
  cases near : nearPrediction numerics doc.2 with
  | false => rfl
  | true =>
    cases found : historyPoint numerics doc.2 with
    | none => rfl
    | some entry =>
      obtain ⟨held, jd, point⟩ := entry
      by_cases mine : held = name
      · subst mine
        -- an earlier detection of the object lies in both windows or in neither
        cases earlier : jd.lt epoch with
        | false =>
          by_cases since : (earliest numerics alerts).le jd <;>
            by_cases since' : (earliest numerics others).le jd <;>
              simp [Option.filter, since, since', earlier]
        | true =>
          have windows := same doc.1 doc.2 (Collection.mem_entries_iff.mp stored) jd point ⟨found, near⟩ earlier
          simp [windows]
      · simp [mine]

end Boom.Enrichment
