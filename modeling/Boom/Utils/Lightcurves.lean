import Boom.Foundations.Extremes
import Boom.Foundations.Grouped
import Boom.Foundations.SingleArithmetic

/-! # Properties of a light curve

Each band's brightest and faintest points are found, and a line is fitted to either side of the
brightest.  The brightest and the faintest point of all are merged from those of the bands, which
are visited in whatever order a hash map has, and begin at the first point of the light curve. -/

namespace Boom.Utils.Lightcurves

open Boom.Foundations

inductive Band where
  | g
  | r
  | i
  | z
  | y
  | u
  | j
  | h
  | k
deriving DecidableEq, Repr

structure PhotometryMag where
  time : F64
  mag : F32
  magErr : F32
  band : Band
deriving DecidableEq, Repr

structure BandRateProperties where
  rate : F32
  rateError : F32
  chi2 : Option F32
  dof : Option Int
  redChi2 : Option F32
  nbData : Int
  dt : F32
deriving DecidableEq

structure RecentProperties where
  windowDays : F32
  nbData : Int
  peakJd : F64
  peakMag : F32
  rising : Option BandRateProperties
  fading : Option BandRateProperties
deriving DecidableEq

structure BandProperties where
  peakJd : F64
  peakMag : F32
  peakMagErr : F32
  dt : F32
  rising : Option BandRateProperties
  fading : Option BandRateProperties
  recent : Option RecentProperties
  lastDay : Option RecentProperties
  nbData : Int
deriving DecidableEq

structure PerBandProperties where
  g : Option BandProperties := none
  r : Option BandProperties := none
  i : Option BandProperties := none
  z : Option BandProperties := none
  y : Option BandProperties := none
  u : Option BandProperties := none
  j : Option BandProperties := none
  h : Option BandProperties := none
  k : Option BandProperties := none
deriving DecidableEq

structure AllBandsProperties where
  peakJd : F64
  peakMag : F32
  peakMagErr : F32
  peakBand : Band
  faintestJd : F64
  faintestMag : F32
  faintestMagErr : F32
  faintestBand : Band
  firstJd : F64
  lastJd : F64
  daysSincePeakG : Option F32
  daysToPeakG : Option F32
  peakmagG : Option F32
  maxmagG : Option F32
  daysSincePeakR : Option F32
  daysToPeakR : Option F32
  peakmagR : Option F32
  maxmagR : Option F32
  nPhotometryTotal : F32
  nPhotometryG : F32
  nPhotometryR : F32
deriving DecidableEq

/-! ## Lines fitted to a segment -/

def asI32 (length : Nat) : Int := Int.bmod length (2 ^ 32)

def weightedSums (rows : List (F32 × F32 × F32)) : Option (F32 × F32 × F32) :=
  rows.foldlM (fun (sumW, sumWx, sumWy) (x, y, sigma) =>
    if sigma.le .zero || !sigma.isFinite then none
    else
      let w := F32.one.div (sigma.mul sigma)
      if !w.isFinite then none else some (sumW.add w, sumWx.add (w.mul x), sumWy.add (w.mul y)))
    (F32.zero, F32.zero, F32.zero)

def weightedLeastSquaresCentered (x y sigma : List F32) : Option BandRateProperties := do
  let n := x.length
  if n < 2 ∨ y.length ≠ n ∨ sigma.length ≠ n then none
  let rows := x.zip (y.zip sigma)
  let (sumW, sumWx, sumWy) ← weightedSums rows
  let xMean := sumWx.div sumW
  let yMean := sumWy.div sumW
  let (sxx, sxy) := rows.foldl (fun (sxx, sxy) (x, y, sigma) =>
    let w := F32.one.div (sigma.mul sigma)
    let dx := x.sub xMean
    let dy := y.sub yMean
    (sxx.add ((w.mul dx).mul dx), sxy.add ((w.mul dx).mul dy))) (F32.zero, F32.zero)
  -- `1e-10`.
  if sxx.abs.lt (.ofBits 0x2edbe6ff) then none
  let a := sxy.div sxx
  let b := yMean.sub (a.mul xMean)
  let aErr := (F32.one.div sxx).sqrt
  let chi2 := rows.foldl (fun chi2 (x, y, sigma) =>
    let residual := y.sub ((a.mul x).add b)
    chi2.add (residual.div sigma).square) F32.zero
  let dof := n - 2
  some
    { rate := a
      rateError := aErr
      chi2 := some chi2
      dof := some (asI32 dof)
      redChi2 := if 0 < dof then some (chi2.div (.ofNat dof)) else none
      nbData := asI32 n
      dt := (x.getD (n - 1) .zero).sub (x.getD 0 .zero) }

def spread (segment : List PhotometryMag) : (F32 × F32) × (F32 × F32) :=
  segment.foldl (fun ((minMag, minMagErr), (maxMag, maxMagErr)) m =>
    (if m.mag.lt minMag then (m.mag, m.magErr) else (minMag, minMagErr),
      if maxMag.lt m.mag then (m.mag, m.magErr) else (maxMag, maxMagErr)))
    ((.infinite false, .infinite false), (.infinite true, .infinite true))

def fitSegment (segment : List PhotometryMag) : Option BandRateProperties := do
  if segment.length < 2 then none
  let first ← segment.head?
  let last ← segment.getLast?
  let t0 := first.time
  if (last.time.sub t0).le (.ofRat 0.01) then none
  let ((minMag, minMagErr), (maxMag, maxMagErr)) := spread segment
  if (maxMag.sub maxMagErr).le (minMag.add minMagErr) then none
  weightedLeastSquaresCentered (segment.map fun m => .ofF64 (m.time.sub t0)) (segment.map (·.mag)) (segment.map (·.magErr))

/-! ## Extreme points -/

def brighter (m held : PhotometryMag) : Bool := m.mag.lt held.mag

def fainter (m held : PhotometryMag) : Bool := held.mag.lt m.mag

def brightestIndex (mags : List PhotometryMag) : Option Nat :=
  if mags.isEmpty then none else some (mags.zipIdx.foldl (moveTo brighter mags) 0)

def fitRisingAndFading (mags : List PhotometryMag) : Option BandRateProperties × Option BandRateProperties :=
  match brightestIndex mags with
  | none => (none, none)
  | some peak => (fitSegment (mags.take (peak + 1)), fitSegment (mags.drop peak))

def extremeIndices (mags : List PhotometryMag) : Nat × Nat :=
  mags.zipIdx.foldl (fun (peak, faintest) (mag, i) =>
    if (mags[peak]?).any (brighter mag) then (i, faintest)
    else if (mags[faintest]?).any (fainter mag) then (peak, i)
    else (peak, faintest)) (0, 0)

/-- `30.0`. -/
def RECENT_WINDOW_DAYS : F64 := .ofRat 30

/-- `1.0`. -/
def LAST_DAY_WINDOW_DAYS : F64 := .ofRat 1

def windowProperties (mags : List PhotometryMag) (lastJd days : F64) : Option RecentProperties := do
  let cutoff := lastJd.sub days
  let window := mags.filter fun m => cutoff.le m.time
  let peak ← brightestIndex window
  let point ← window[peak]?
  let (rising, fading) := fitRisingAndFading window
  some
    { windowDays := .ofF64 days
      nbData := asI32 window.length
      peakJd := point.time
      peakMag := point.mag
      rising := rising
      fading := fading }

def minF64 (first second : F64) : F64 :=
  if first.isNan then second else if second.isNan || first.lt second then first else second

def isStationary (times : List F64) : Bool :=
  let (first, last) := times.foldl (fun (lo, hi) t => (minF64 lo t, hi.maximum t)) (.largest, F64.largest.neg)
  F64.lt (.ofRat 0.01) (last.sub first)

/-! ## The bands, one after the other -/

structure Extreme where
  jd : F64
  mag : F32
  magErr : F32
  band : Band
deriving DecidableEq

/-- What is kept of the g and the r band. -/
structure BandSummary where
  peakJd : Option F64 := none
  firstJd : Option F64 := none
  peakmag : Option F32 := none
  maxmag : Option F32 := none

/-- The variables the loop over the bands updates. -/
structure Loop where
  globalPeak : Extreme
  globalFaintest : Extreme
  g : BandSummary := {}
  r : BandSummary := {}
  results : PerBandProperties := {}

abbrev Entry := Band × List PhotometryMag

def PhotometryMag.extreme (point : PhotometryMag) (band : Band) : Extreme :=
  { jd := point.time, mag := point.mag, magErr := point.magErr, band := band }

def PerBandProperties.set (results : PerBandProperties) (band : Band) (properties : BandProperties) : PerBandProperties :=
  match band with
  | .g => { results with g := some properties }
  | .r => { results with r := some properties }
  | .i => { results with i := some properties }
  | .z => { results with z := some properties }
  | .y => { results with y := some properties }
  | .u => { results with u := some properties }
  | .j => { results with j := some properties }
  | .h => { results with h := some properties }
  | .k => { results with k := some properties }

def PerBandProperties.get (results : PerBandProperties) : Band → Option BandProperties
  | .g => results.g
  | .r => results.r
  | .i => results.i
  | .z => results.z
  | .y => results.y
  | .u => results.u
  | .j => results.j
  | .h => results.h
  | .k => results.k

def bandProperties (lastJd : F64) (peak first last : PhotometryMag) (mags : List PhotometryMag) : BandProperties :=
  let (rising, fading) := fitRisingAndFading mags
  { peakJd := peak.time
    peakMag := peak.mag
    peakMagErr := peak.magErr
    dt := .ofF64 (last.time.sub first.time)
    rising := rising
    fading := fading
    recent := windowProperties mags lastJd RECENT_WINDOW_DAYS
    lastDay := windowProperties mags lastJd LAST_DAY_WINDOW_DAYS
    nbData := asI32 mags.length }

def visit (lastJd : F64) (loop : Loop) (entry : Entry) : Loop :=
  let (band, mags) := entry
  match mags with
  | [] => loop
  | first :: rest =>
    let (peakIndex, faintestIndex) := extremeIndices mags
    let peak := mags.getD peakIndex first
    let faintest := mags.getD faintestIndex first
    let last := (first :: rest).getLast (List.cons_ne_nil _ _)
    let summary : BandSummary :=
      { peakJd := some peak.time, firstJd := some first.time, peakmag := some peak.mag, maxmag := some faintest.mag }
    { globalPeak := if peak.mag.lt loop.globalPeak.mag then peak.extreme band else loop.globalPeak
      globalFaintest := if loop.globalFaintest.mag.lt faintest.mag then faintest.extreme band else loop.globalFaintest
      g := if band = .g then summary else loop.g
      r := if band = .r then summary else loop.r
      results := loop.results.set band (bandProperties lastJd peak first last mags) }

def daysToPeak (summary : BandSummary) : Option F32 :=
  match summary.peakJd, summary.firstJd with
  | some peak, some first => some (.ofF64 (peak.sub first))
  | _, _ => none

def bands (points : List PhotometryMag) : List Entry := grouped (·.band) points

def countOf (points : List PhotometryMag) (band : Band) : F32 :=
  .ofNat (((bands points).find? (·.1 = band)).elim 0 (·.2.length))

/-- The result for a light curve, when the entries of `bands` are visited in some order. -/
def analyzePhotometry (visited : List Entry) (points : List PhotometryMag) :
    PerBandProperties × AllBandsProperties × Bool :=
  match points with
  | [] =>
    ({},
      { peakJd := .zero, peakMag := .zero, peakMagErr := .zero, peakBand := .g
        faintestJd := .zero, faintestMag := .zero, faintestMagErr := .zero, faintestBand := .g
        firstJd := .zero, lastJd := .zero
        daysSincePeakG := none, daysToPeakG := none, peakmagG := none, maxmagG := none
        daysSincePeakR := none, daysToPeakR := none, peakmagR := none, maxmagR := none
        nPhotometryTotal := .zero, nPhotometryG := .zero, nPhotometryR := .zero },
      false)
  | first :: rest =>
    let lastJd := ((first :: rest).getLast (List.cons_ne_nil _ _)).time
    let loop := visited.foldl (visit lastJd)
      { globalPeak := first.extreme first.band, globalFaintest := first.extreme first.band }
    (loop.results,
      { peakJd := loop.globalPeak.jd
        peakMag := loop.globalPeak.mag
        peakMagErr := loop.globalPeak.magErr
        peakBand := loop.globalPeak.band
        faintestJd := loop.globalFaintest.jd
        faintestMag := loop.globalFaintest.mag
        faintestMagErr := loop.globalFaintest.magErr
        faintestBand := loop.globalFaintest.band
        firstJd := first.time
        lastJd := lastJd
        daysSincePeakG := loop.g.peakJd.map fun peak => .ofF64 (lastJd.sub peak)
        daysToPeakG := daysToPeak loop.g
        peakmagG := loop.g.peakmag
        maxmagG := loop.g.maxmag
        daysSincePeakR := loop.r.peakJd.map fun peak => .ofF64 (lastJd.sub peak)
        daysToPeakR := daysToPeak loop.r
        peakmagR := loop.r.peakmag
        maxmagR := loop.r.maxmag
        nPhotometryTotal := .ofNat (first :: rest).length
        nPhotometryG := countOf (first :: rest) .g
        nPhotometryR := countOf (first :: rest) .r },
      isStationary ((first :: rest).map (·.time)))

/-! ## The extremes of a band -/

section

variable {mags : List PhotometryMag}

def magnitudeOf (point : PhotometryMag) : ℤ ×ₗ ℤ := point.mag.place

def faintnessOf (point : PhotometryMag) : (ℤ ×ₗ ℤ)ᵒᵈ := OrderDual.toDual point.mag.place

def Comparable (points : List PhotometryMag) : Prop := ∀ point ∈ points, point.mag.isNan = false

instance (points : List PhotometryMag) : Decidable (Comparable points) := List.decidableBAll _ _

variable (comparable : Comparable mags)
include comparable

theorem brighter_eq {m held : PhotometryMag} (there : m ∈ mags) (there' : held ∈ mags) :
    brighter m held = decide (magnitudeOf m < magnitudeOf held) :=
  F32.lt_eq (comparable m there) (comparable held there')

theorem fainter_eq {m held : PhotometryMag} (there : m ∈ mags) (there' : held ∈ mags) :
    fainter m held = decide (faintnessOf m < faintnessOf held) :=
  F32.lt_eq (comparable held there') (comparable m there)

theorem bestAt_extremeIndices :
    BestAt magnitudeOf mags mags (extremeIndices mags).1 ∧ BestAt faintnessOf mags mags (extremeIndices mags).2 := by
  unfold extremeIndices
  refine foldl_zipIdx (fun done (state : Nat × Nat) =>
    BestAt magnitudeOf mags done state.1 ∧ BestAt faintnessOf mags done state.2) ?_ ⟨bestAt_start, bestAt_start⟩
  rintro done item rest ⟨peak, faintest⟩ split ⟨bright, faint⟩
  have there : item ∈ mags := by simp [split]
  have bright' := bright.move split fun held isHeld => brighter_eq comparable there isHeld
  have faint' := faint.move split fun held isHeld => fainter_eq comparable there isHeld
  unfold moveTo at bright' faint'
  dsimp only at bright' faint' ⊢
  split
  next moves =>
    rw [if_pos moves] at bright'
    refine ⟨bright', ?_⟩
    have stays : (mags[faintest]?).any (fainter item) = false := by
      rcases bright with ⟨rfl, rfl⟩ | ⟨held, isHeld, least⟩
      · have own : mags[0]? = some item := by simp [split]
        rw [own, Option.any_some, brighter_eq comparable there there, decide_eq_true_eq] at moves
        exact absurd moves (lt_irrefl _)
      · rcases faint with ⟨rfl, -⟩ | ⟨last, isLast, greatest⟩
        · simp [Least] at least
        · rw [isHeld, Option.any_some, brighter_eq comparable there (List.mem_of_getElem? isHeld), decide_eq_true_eq] at moves
          rw [isLast, Option.any_some, fainter_eq comparable there (List.mem_of_getElem? isLast), decide_eq_false_iff_not]
          have below : magnitudeOf item < magnitudeOf last := lt_of_lt_of_le moves (least.2 last greatest.1)
          exact not_lt.mpr (OrderDual.toDual_le_toDual.mpr below.le)
    rw [if_neg (by rw [stays]; exact Bool.false_ne_true)] at faint'
    exact faint'
  next notBrighter =>
    rw [if_neg notBrighter] at bright'
    split
    next moves =>
      rw [if_pos moves] at faint'
      exact ⟨bright', faint'⟩
    next stays =>
      rw [if_neg stays] at faint'
      exact ⟨bright', faint'⟩

theorem least_peak {first : PhotometryMag} (some_ : mags ≠ []) :
    Least magnitudeOf mags (mags.getD (extremeIndices mags).1 first) ∧
      Least faintnessOf mags (mags.getD (extremeIndices mags).2 first) := by
  obtain ⟨bright, faint⟩ := bestAt_extremeIndices comparable
  obtain ⟨peak, isPeak, least⟩ := bright.least some_
  obtain ⟨faintest, isFaintest, greatest⟩ := faint.least some_
  rw [List.getD_eq_getElem?_getD, List.getD_eq_getElem?_getD, isPeak, isFaintest]
  exact ⟨least, greatest⟩

end

/-! ## The extremes of all bands -/

section

variable {points : List PhotometryMag} {visited visited' : List Entry} {entry : Entry} {loop : Loop} {lastJd : F64}

theorem mem_bands : entry ∈ bands points ↔
    (∃ point ∈ points, point.band = entry.1) ∧ entry.2 = points.filter (·.band = entry.1) := by
  obtain ⟨band, mags⟩ := entry
  exact mem_grouped

def pointAt (pick : Nat × Nat → Nat) (entry : Entry) : Option PhotometryMag :=
  entry.2.head?.map fun first => entry.2.getD (pick (extremeIndices entry.2)) first

def PhotometryMag.own (point : PhotometryMag) : Extreme := point.extreme point.band

def Picks {κ : Type} [LinearOrder κ] (pick : Nat × Nat → Nat) (key : PhotometryMag → κ) : Prop :=
  ∀ mags first, Comparable mags → mags ≠ [] → Least key mags (mags.getD (pick (extremeIndices mags)) first)

theorem picks_brightest : Picks Prod.fst magnitudeOf := fun _ _ comparable some_ => (least_peak comparable some_).1

theorem picks_faintest : Picks Prod.snd faintnessOf := fun _ _ comparable some_ => (least_peak comparable some_).2

def Sound (entry : Entry) : Prop := Comparable entry.2 ∧ ∀ point ∈ entry.2, point.band = entry.1

theorem sound_of_mem (comparable : Comparable points) (there : entry ∈ bands points) : Sound entry := by
  obtain ⟨-, isFilter⟩ := mem_bands.mp there
  unfold Sound
  rw [isFilter]
  exact ⟨fun point isPoint => comparable point (List.mem_filter.mp isPoint).1,
    fun point isPoint => of_decide_eq_true (List.mem_filter.mp isPoint).2⟩

variable {held : PhotometryMag}

theorem globalPeak_visit (sound : Sound entry) (isHeld : loop.globalPeak = held.own)
    (number : held.mag.isNan = false) : (visit lastJd loop entry).globalPeak =
      ((pointAt Prod.fst entry).toList.foldl (lesser magnitudeOf) held).own := by
  obtain ⟨band, mags⟩ := entry
  obtain ⟨comparable, own⟩ := sound
  cases mags with
  | nil => exact isHeld
  | cons first rest =>
    have least := picks_brightest (first :: rest) first comparable (List.cons_ne_nil _ _)
    simp only [visit, pointAt, List.head?_cons, Option.map_some, Option.toList_some, List.foldl_cons, List.foldl_nil]
    generalize (first :: rest).getD (extremeIndices (first :: rest)).1 first = peak at least
    have isBand : peak.band = band := own peak least.1
    have compared : peak.mag.lt held.mag = decide (magnitudeOf peak < magnitudeOf held) :=
      F32.lt_eq (comparable peak least.1) number
    rw [isHeld, show held.own.mag = held.mag from rfl, compared, lesser]
    by_cases less : magnitudeOf peak < magnitudeOf held
    · rw [if_pos (decide_eq_true less), if_pos less, ← isBand]
      rfl
    · rw [if_neg (by rw [decide_eq_false less]; exact Bool.false_ne_true), if_neg less]

theorem globalFaintest_visit (sound : Sound entry) (isHeld : loop.globalFaintest = held.own)
    (number : held.mag.isNan = false) : (visit lastJd loop entry).globalFaintest =
      ((pointAt Prod.snd entry).toList.foldl (lesser faintnessOf) held).own := by
  obtain ⟨band, mags⟩ := entry
  obtain ⟨comparable, own⟩ := sound
  cases mags with
  | nil => exact isHeld
  | cons first rest =>
    have least := picks_faintest (first :: rest) first comparable (List.cons_ne_nil _ _)
    simp only [visit, pointAt, List.head?_cons, Option.map_some, Option.toList_some, List.foldl_cons, List.foldl_nil]
    generalize (first :: rest).getD (extremeIndices (first :: rest)).2 first = faintest at least
    have isBand : faintest.band = band := own faintest least.1
    have compared : held.mag.lt faintest.mag = decide (faintnessOf faintest < faintnessOf held) :=
      F32.lt_eq number (comparable faintest least.1)
    rw [isHeld, show held.own.mag = held.mag from rfl, compared, lesser]
    by_cases less : faintnessOf faintest < faintnessOf held
    · rw [if_pos (decide_eq_true less), if_pos less, ← isBand]
      rfl
    · rw [if_neg (by rw [decide_eq_false less]; exact Bool.false_ne_true), if_neg less]

theorem comparable_foldl {κ : Type} [LinearOrder κ] {key : PhotometryMag → κ} {candidates : List PhotometryMag}
    (number : held.mag.isNan = false) (each : Comparable candidates) :
    (candidates.foldl (lesser key) held).mag.isNan = false := by
  rcases List.mem_cons.mp (least_foldl_lesser key held candidates).1 with same | later
  · rw [same]
    exact number
  · exact each _ later

variable {pick : Nat × Nat → Nat}

theorem mem_of_pointAt {point : PhotometryMag} (isPoint : pointAt pick entry = some point) :
    point ∈ entry.2 := by
  obtain ⟨first, isFirst, rfl⟩ := Option.map_eq_some_iff.mp isPoint
  rw [List.getD_eq_getElem?_getD]
  cases atPosition : entry.2[pick (extremeIndices entry.2)]? with
  | none => exact List.mem_of_mem_head? isFirst
  | some other => exact List.mem_of_getElem? atPosition

theorem foldl_visit {κ : Type} [LinearOrder κ] {key : PhotometryMag → κ} {extreme : Loop → Extreme}
    (step : ∀ entry loop held, Sound entry → extreme loop = held.own → held.mag.isNan = false →
      extreme (visit lastJd loop entry) = ((pointAt pick entry).toList.foldl (lesser key) held).own)
    (sound : ∀ entry ∈ visited, Sound entry) (isHeld : extreme loop = held.own) (number : held.mag.isNan = false) :
    extreme (visited.foldl (visit lastJd) loop) = ((visited.filterMap (pointAt pick)).foldl (lesser key) held).own := by
  induction visited generalizing loop held with
  | nil => exact isHeld
  | cons entry rest ih =>
    obtain ⟨first, later⟩ := List.forall_mem_cons.mp sound
    have stepped := step entry loop held first isHeld number
    have comparable : Comparable (pointAt pick entry).toList := fun point isPoint =>
      first.1 point (mem_of_pointAt (Option.mem_toList.mp isPoint))
    have ended := ih later stepped (comparable_foldl number comparable)
    rw [List.foldl_cons, ended, ← List.foldl_append]
    cases isPoint : pointAt pick entry with
    | none => simp [isPoint]
    | some point => simp [isPoint]

theorem representatives {κ : Type} [LinearOrder κ] {key : PhotometryMag → κ} (picks : Picks pick key)
    (comparable : Comparable points) :
    Representatives key (·.band) points ((bands points).filterMap (pointAt pick)) := by
  have least : ∀ {entry point}, entry ∈ bands points → pointAt pick entry = some point →
      Least key entry.2 point ∧ point.band = entry.1 := by
    intro entry point there isPoint
    have sound := sound_of_mem comparable there
    obtain ⟨first, isFirst, rfl⟩ := Option.map_eq_some_iff.mp isPoint
    have some_ : entry.2 ≠ [] := List.ne_nil_of_mem (List.mem_of_mem_head? isFirst)
    have least := picks entry.2 first sound.1 some_
    exact ⟨least, sound.2 _ least.1⟩
  constructor
  · intro candidate isCandidate
    obtain ⟨entry, there, isPoint⟩ := List.mem_filterMap.mp isCandidate
    obtain ⟨least, own⟩ := least there isPoint
    rw [own, ← (mem_bands.mp there).2]
    exact least
  · intro item isItem
    have there : (item.band, points.filter (·.band = item.band)) ∈ bands points := mem_bands.mpr ⟨⟨item, isItem, rfl⟩, rfl⟩
    have inGroup : item ∈ points.filter (·.band = item.band) := List.mem_filter.mpr ⟨isItem, decide_eq_true rfl⟩
    obtain ⟨first, rest, begins⟩ := List.exists_cons_of_ne_nil (List.ne_nil_of_mem inGroup)
    have isFirst : (points.filter (·.band = item.band)).head? = some first := by rw [begins, List.head?_cons]
    have isPoint : pointAt pick (item.band, points.filter (·.band = item.band)) = some _ :=
      Option.map_eq_some_iff.mpr ⟨first, isFirst, rfl⟩
    exact ⟨_, List.mem_filterMap.mpr ⟨_, there, isPoint⟩, (least there isPoint).2⟩
  · intro candidate isCandidate other isOther same
    obtain ⟨entry, there, isPoint⟩ := List.mem_filterMap.mp isCandidate
    obtain ⟨entry', there', isPoint'⟩ := List.mem_filterMap.mp isOther
    have sameBand : entry.1 = entry'.1 := by rw [← (least there isPoint).2, ← (least there' isPoint').2, same]
    have sameMags : entry.2 = entry'.2 := by rw [(mem_bands.mp there).2, (mem_bands.mp there').2, sameBand]
    obtain rfl : entry = entry' := Prod.ext sameBand sameMags
    exact Option.some.inj (isPoint.symm.trans isPoint')

/-! ## What does not depend on the order -/

def Loop.ofBands (loop : Loop) : BandSummary × BandSummary × PerBandProperties := (loop.g, loop.r, loop.results)

def entrySummary (first : PhotometryMag) (mags : List PhotometryMag) : BandSummary :=
  let (peakIndex, faintestIndex) := extremeIndices mags
  { peakJd := some (mags.getD peakIndex first).time
    firstJd := some first.time
    peakmag := some (mags.getD peakIndex first).mag
    maxmag := some (mags.getD faintestIndex first).mag }

def entryProperties (lastJd : F64) (first : PhotometryMag) (rest : List PhotometryMag) : BandProperties :=
  bandProperties lastJd ((first :: rest).getD (extremeIndices (first :: rest)).1 first) first
    ((first :: rest).getLast (List.cons_ne_nil _ _)) (first :: rest)

def visitBands (lastJd : F64) (state : BandSummary × BandSummary × PerBandProperties) (entry : Entry) :
    BandSummary × BandSummary × PerBandProperties :=
  match entry with
  | (_, []) => state
  | (band, first :: rest) =>
    (if band = .g then entrySummary first (first :: rest) else state.1,
      if band = .r then entrySummary first (first :: rest) else state.2.1,
      state.2.2.set band (entryProperties lastJd first rest))

theorem ofBands_visit (loop : Loop) (entry : Entry) :
    (visit lastJd loop entry).ofBands = visitBands lastJd loop.ofBands entry := by
  obtain ⟨band, mags⟩ := entry
  cases mags <;> rfl

theorem ofBands_foldl (loop : Loop) (visited : List Entry) :
    (visited.foldl (visit lastJd) loop).ofBands = visited.foldl (visitBands lastJd) loop.ofBands :=
  (List.foldl_hom Loop.ofBands fun loop entry => (ofBands_visit loop entry).symm).symm

theorem PerBandProperties.get_set (results : PerBandProperties) (band other : Band) (properties : BandProperties) :
    (results.set band properties).get other = if band = other then some properties else results.get other := by
  cases band <;> cases other <;> rfl

theorem PerBandProperties.set_set (results : PerBandProperties) {band other : Band} (different : band ≠ other)
    (properties properties' : BandProperties) :
    (results.set band properties).set other properties' = (results.set other properties').set band properties := by
  cases band <;> cases other <;> first | rfl | exact absurd rfl different

theorem visitBands_comm {entry entry' : Entry} (different : entry.1 ≠ entry'.1)
    (state : BandSummary × BandSummary × PerBandProperties) :
    visitBands lastJd (visitBands lastJd state entry) entry' = visitBands lastJd (visitBands lastJd state entry') entry := by
  obtain ⟨band, mags⟩ := entry
  obtain ⟨band', mags'⟩ := entry'
  cases mags with
  | nil => rfl
  | cons first rest =>
    cases mags' with
    | nil => rfl
    | cons first' rest' =>
      have swap : ∀ (only : Band) (one other kept : BandSummary),
          (if band' = only then other else if band = only then one else kept) =
            if band = only then one else if band' = only then other else kept := by
        intro only one other kept
        by_cases isBand : band = only
        · rw [if_pos isBand, if_pos isBand, if_neg (fun isBand' => different (isBand.trans isBand'.symm))]
        · rw [if_neg isBand, if_neg isBand]
      simp only [visitBands, swap, state.2.2.set_set different]

theorem ofBands_perm (lastJd : F64) (perm : visited.Perm (bands points)) (loop : Loop) :
    (visited.foldl (visit lastJd) loop).ofBands = ((bands points).foldl (visit lastJd) loop).ofBands := by
  rw [ofBands_foldl, ofBands_foldl]
  refine perm.foldl_eq' (fun entry there entry' there' state => ?_) _
  by_cases same : entry.1 = entry'.1
  · have isMags := (mem_bands.mp (perm.mem_iff.mp there)).2
    have isMags' := (mem_bands.mp (perm.mem_iff.mp there')).2
    obtain rfl : entry = entry' := Prod.ext same (by rw [isMags, isMags', same])
    rfl
  · exact visitBands_comm same state

/-! ## The properties of each band -/

def ofBand (points : List PhotometryMag) (band : Band) : List PhotometryMag := points.filter (·.band = band)

theorem distinct_of_perm (perm : visited.Perm (bands points)) : (visited.map Prod.fst).Nodup :=
  (perm.map Prod.fst).nodup_iff.mpr (nodup_keys_grouped _ points)

section

variable (perm : visited.Perm (bands points)) {band : Band}
include perm

theorem mem_visited {first : PhotometryMag} {rest : List PhotometryMag} (isBand : ofBand points band = first :: rest) :
    (band, first :: rest) ∈ visited := by
  have there : first ∈ ofBand points band := isBand ▸ List.mem_cons_self
  obtain ⟨isPoint, own⟩ := List.mem_filter.mp there
  exact perm.mem_iff.mpr (mem_bands.mpr ⟨⟨first, isPoint, of_decide_eq_true own⟩, isBand.symm⟩)

theorem not_mem_visited (none_ : ofBand points band = []) : ∀ entry ∈ visited, entry.1 ≠ band := by
  rintro entry there rfl
  obtain ⟨⟨point, isPoint, own⟩, -⟩ := mem_bands.mp (perm.mem_iff.mp there)
  have inBand : point ∈ ofBand points entry.1 := List.mem_filter.mpr ⟨isPoint, decide_eq_true own⟩
  simp [none_] at inBand

theorem read_foldl {β : Type} (read : Loop → β) {value : PhotometryMag → List PhotometryMag → β}
    (others : ∀ loop other mags, other ≠ band → read (visit lastJd loop (other, mags)) = read loop)
    (own : ∀ loop first rest, read (visit lastJd loop (band, first :: rest)) = value first rest) (loop : Loop) :
    read (visited.foldl (visit lastJd) loop) =
      match ofBand points band with
      | [] => read loop
      | first :: rest => value first rest := by
  have steps : ∀ entry ∈ visited, ∀ loop : Loop, entry.1 ≠ band → read (visit lastJd loop entry) = read loop :=
    fun entry _ loop different => others loop entry.1 entry.2 different
  split
  next none_ => exact foldl_of_notMem (visit lastJd) read steps (not_mem_visited perm none_) loop
  next first rest isBand =>
    exact foldl_of_mem (visit lastJd) read steps (fun loop => own loop first rest) rfl (distinct_of_perm perm)
      (mem_visited perm isBand) loop

theorem results_get (band : Band) (lastJd : F64) (loop : Loop) : (visited.foldl (visit lastJd) loop).results.get band =
    match ofBand points band with
    | [] => loop.results.get band
    | first :: rest => some (entryProperties lastJd first rest) := by
  refine read_foldl perm (·.results.get band) (fun loop other mags different => ?_) (fun loop first rest => ?_) loop
  · cases mags with
    | nil => rfl
    | cons first rest => exact (loop.results.get_set other band _).trans (if_neg different)
  · exact (loop.results.get_set band band _).trans (if_pos rfl)

theorem g_foldl (lastJd : F64) (loop : Loop) : (visited.foldl (visit lastJd) loop).g =
    match ofBand points .g with
    | [] => loop.g
    | first :: rest => entrySummary first (first :: rest) := by
  refine read_foldl perm Loop.g (fun loop other mags different => ?_) (fun _ _ _ => rfl) loop
  cases mags with
  | nil => rfl
  | cons first rest => exact if_neg different

theorem r_foldl (lastJd : F64) (loop : Loop) : (visited.foldl (visit lastJd) loop).r =
    match ofBand points .r with
    | [] => loop.r
    | first :: rest => entrySummary first (first :: rest) := by
  refine read_foldl perm Loop.r (fun loop other mags different => ?_) (fun _ _ _ => rfl) loop
  cases mags with
  | nil => rfl
  | cons first rest => exact if_neg different

end

/-! ## One answer -/

def AllBandsProperties.peak (all : AllBandsProperties) : Extreme :=
  { jd := all.peakJd, mag := all.peakMag, magErr := all.peakMagErr, band := all.peakBand }

def AllBandsProperties.faintest (all : AllBandsProperties) : Extreme :=
  { jd := all.faintestJd, mag := all.faintestMag, magErr := all.faintestMagErr, band := all.faintestBand }

/-- A result that has the extremes of all points and of each band. -/
structure Extremal (points : List PhotometryMag) (result : PerBandProperties × AllBandsProperties × Bool) : Prop where
  peak : ∃ point, Least magnitudeOf points point ∧ result.2.1.peak = point.own
  faintest : ∃ point, Least faintnessOf points point ∧ result.2.1.faintest = point.own
  present : ∀ band, ofBand points band ≠ [] → ∃ peak properties, Least magnitudeOf (ofBand points band) peak ∧
    result.1.get band = some properties ∧
    properties.peakJd = peak.time ∧ properties.peakMag = peak.mag ∧ properties.peakMagErr = peak.magErr
  absent : ∀ band, ofBand points band = [] → result.1.get band = none
  g : ofBand points .g ≠ [] → ∃ peak faintest, Least magnitudeOf (ofBand points .g) peak ∧
    Least faintnessOf (ofBand points .g) faintest ∧
    result.2.1.peakmagG = some peak.mag ∧ result.2.1.maxmagG = some faintest.mag
  r : ofBand points .r ≠ [] → ∃ peak faintest, Least magnitudeOf (ofBand points .r) peak ∧
    Least faintnessOf (ofBand points .r) faintest ∧
    result.2.1.peakmagR = some peak.mag ∧ result.2.1.maxmagR = some faintest.mag

def begun (first : PhotometryMag) : Loop := { globalPeak := first.own, globalFaintest := first.own }

section

variable {first : PhotometryMag} {rest : List PhotometryMag} (comparable : Comparable points)
include comparable

theorem comparable_ofBand (band : Band) : Comparable (ofBand points band) :=
  fun point there => comparable point (List.mem_filter.mp there).1

theorem settled_of_one {κ : Type} [LinearOrder κ] {key : PhotometryMag → κ} (picks : Picks pick key)
    (isFirst : points.head? = some first)
    (one : ∀ visited visited' : List Entry, visited.Perm (bands points) → visited'.Perm (bands points) →
      ((visited.filterMap (pointAt pick)).foldl (lesser key) first).band =
        ((visited'.filterMap (pointAt pick)).foldl (lesser key) first).band) :
    OneBest key (·.band) points := by
  have there : first ∈ points := List.mem_of_mem_head? isFirst
  have represent := representatives picks comparable
  by_cases leastFirst : Least key points first
  · left
    intro other isOther
    rwa [← Option.some.inj (isFirst.symm.trans isOther)]
  · -- A band with a least point that is visited first keeps the last word.
    have reached : ∀ item, Least key points item → ∃ visited : List Entry, visited.Perm (bands points) ∧
        ((visited.filterMap (pointAt pick)).foldl (lesser key) first).band = item.band := by
      intro item least
      obtain ⟨candidate, isCandidate, sameBand, leastCandidate⟩ := represent.least_of_least least
      obtain ⟨entry, isEntry, isPoint⟩ := List.mem_filterMap.mp isCandidate
      obtain ⟨before, after, split⟩ := List.append_of_mem isEntry
      refine ⟨entry :: (before ++ after), split ▸ List.perm_middle.symm, ?_⟩
      have each : ∀ other ∈ (before ++ after).filterMap (pointAt pick), other ∈ points := by
        intro other isOther
        obtain ⟨entry', isEntry', isPoint'⟩ := List.mem_filterMap.mp isOther
        refine represent.mem (List.mem_filterMap.mpr ⟨entry', ?_, isPoint'⟩)
        rw [split]
        exact List.perm_middle.mem_iff.mpr (List.mem_cons_of_mem _ isEntry')
      rw [List.filterMap_cons_some isPoint, foldl_lesser_of_first leastCandidate leastFirst there each]
      exact sameBand
    right
    intro item other least least'
    obtain ⟨visited, perm, ends⟩ := reached item least
    obtain ⟨visited', perm', ends'⟩ := reached other least'
    exact ends.symm.trans ((one visited visited' perm perm').trans ends')

section

variable (perm : visited.Perm (bands points)) (there : first ∈ points)
include perm there

theorem globalPeak_foldl (lastJd : F64) : (visited.foldl (visit lastJd) (begun first)).globalPeak =
    ((visited.filterMap (pointAt Prod.fst)).foldl (lesser magnitudeOf) first).own :=
  foldl_visit (fun _ _ _ sound isHeld number => globalPeak_visit sound isHeld number)
    (fun _ isEntry => sound_of_mem comparable (perm.mem_iff.mp isEntry)) rfl (comparable first there)

theorem globalFaintest_foldl (lastJd : F64) : (visited.foldl (visit lastJd) (begun first)).globalFaintest =
    ((visited.filterMap (pointAt Prod.snd)).foldl (lesser faintnessOf) first).own :=
  foldl_visit (fun _ _ _ sound isHeld number => globalFaintest_visit sound isHeld number)
    (fun _ isEntry => sound_of_mem comparable (perm.mem_iff.mp isEntry)) rfl (comparable first there)

end

theorem extremal (isFirst : points.head? = some first) (perm : visited.Perm (bands points)) :
    Extremal points (analyzePhotometry visited points) := by
  obtain ⟨rest, rfl⟩ : ∃ rest, points = first :: rest := by
    cases points with
    | nil => cases isFirst
    | cons head rest => exact ⟨rest, by rw [Option.some.inj isFirst]⟩
  have there : first ∈ first :: rest := List.mem_cons_self
  generalize isLast : ((first :: rest).getLast (List.cons_ne_nil _ _)).time = lastJd
  have ofBandLeast : ∀ {band head tail}, ofBand (first :: rest) band = head :: tail →
      Least magnitudeOf (head :: tail) ((head :: tail).getD (extremeIndices (head :: tail)).1 head) ∧
        Least faintnessOf (head :: tail) ((head :: tail).getD (extremeIndices (head :: tail)).2 head) := by
    intro band head tail isBand
    exact least_peak (isBand ▸ comparable_ofBand comparable band) (List.cons_ne_nil _ _)
  have gOf := g_foldl perm lastJd (begun first)
  have rOf := r_foldl perm lastJd (begun first)
  constructor
  · have represent := (representatives picks_brightest comparable).perm (perm.filterMap (pointAt Prod.fst))
    refine ⟨_, represent.least_merged there, ?_⟩
    exact globalPeak_foldl comparable perm there _
  · have represent := (representatives picks_faintest comparable).perm (perm.filterMap (pointAt Prod.snd))
    refine ⟨_, represent.least_merged there, ?_⟩
    exact globalFaintest_foldl comparable perm there _
  · intro band some_
    have isProperties := results_get perm band lastJd (begun first)
    cases isBand : ofBand (first :: rest) band with
    | nil => exact absurd isBand some_
    | cons head tail =>
      rw [isBand] at isProperties
      rw [← isLast] at isProperties
      exact ⟨_, _, (ofBandLeast isBand).1, isProperties, rfl, rfl, rfl⟩
  · intro band none_
    have isProperties := results_get perm band lastJd (begun first)
    rw [none_] at isProperties
    rw [← isLast] at isProperties
    refine isProperties.trans ?_
    cases band <;> rfl
  · intro some_
    cases isBand : ofBand (first :: rest) .g with
    | nil => exact absurd isBand some_
    | cons head tail =>
      rw [isBand] at gOf
      rw [← isLast] at gOf
      refine ⟨_, _, (ofBandLeast isBand).1, (ofBandLeast isBand).2, ?_, ?_⟩
      · exact congrArg BandSummary.peakmag gOf
      · exact congrArg BandSummary.maxmag gOf
  · intro some_
    cases isBand : ofBand (first :: rest) .r with
    | nil => exact absurd isBand some_
    | cons head tail =>
      rw [isBand] at rOf
      rw [← isLast] at rOf
      refine ⟨_, _, (ofBandLeast isBand).1, (ofBandLeast isBand).2, ?_, ?_⟩
      · exact congrArg BandSummary.peakmag rOf
      · exact congrArg BandSummary.maxmag rOf

theorem analyzePhotometry_eq (isFirst : points.head? = some first) (peaks : OneBest magnitudeOf (·.band) points)
    (faints : OneBest faintnessOf (·.band) points) (perm : visited.Perm (bands points)) (perm' : visited'.Perm (bands points)) :
    analyzePhotometry visited points = analyzePhotometry visited' points := by
  have there := List.mem_of_mem_head? isFirst
  have loops : ∀ lastJd, visited.foldl (visit lastJd) (begun first) = visited'.foldl (visit lastJd) (begun first) := by
    intro lastJd
    have others := (ofBands_perm lastJd perm (begun first)).trans (ofBands_perm lastJd perm' (begun first)).symm
    have peak : (visited.foldl (visit lastJd) (begun first)).globalPeak = (visited'.foldl (visit lastJd) (begun first)).globalPeak := by
      rw [globalPeak_foldl comparable perm there, globalPeak_foldl comparable perm' there]
      have represent := representatives picks_brightest comparable
      rw [represent.merged_eq isFirst peaks (perm.filterMap _), represent.merged_eq isFirst peaks (perm'.filterMap _)]
    have faintest : (visited.foldl (visit lastJd) (begun first)).globalFaintest =
        (visited'.foldl (visit lastJd) (begun first)).globalFaintest := by
      rw [globalFaintest_foldl comparable perm there, globalFaintest_foldl comparable perm' there]
      have represent := representatives picks_faintest comparable
      rw [represent.merged_eq isFirst faints (perm.filterMap _), represent.merged_eq isFirst faints (perm'.filterMap _)]
    generalize visited.foldl (visit lastJd) (begun first) = loop at others peak faintest ⊢
    generalize visited'.foldl (visit lastJd) (begun first) = loop' at others peak faintest ⊢
    cases loop
    cases loop'
    simp only [Loop.ofBands, Prod.mk.injEq] at others
    obtain ⟨isG, isR, isResults⟩ := others
    simp only at peak faintest
    rw [isG, isR, isResults, peak, faintest]
  cases points with
  | nil => rfl
  | cons head rest =>
    obtain rfl : head = first := Option.some.inj isFirst
    have same := loops ((head :: rest).getLast (List.cons_ne_nil _ _)).time
    unfold begun PhotometryMag.own at same
    simp only [analyzePhotometry, same]

end

/-- The result is one and the same, with the extremes of all points and of each band, exactly where
    the first point is an extreme or all points that share the extreme are of one band. -/
theorem one_answer_iff (points : List PhotometryMag) (some_ : points ≠ []) (comparable : Comparable points) :
    ((∀ visited visited' : List Entry, visited.Perm (bands points) → visited'.Perm (bands points) →
        analyzePhotometry visited points = analyzePhotometry visited' points) ∧
      ∀ visited : List Entry, visited.Perm (bands points) → Extremal points (analyzePhotometry visited points)) ↔
    OneBest magnitudeOf (·.band) points ∧ OneBest faintnessOf (·.band) points := by
  obtain ⟨first, rest, rfl⟩ := List.exists_cons_of_ne_nil some_
  have isFirst : (first :: rest).head? = some first := rfl
  have there : first ∈ first :: rest := List.mem_cons_self
  constructor
  · rintro ⟨one, -⟩
    constructor
    · refine settled_of_one comparable picks_brightest isFirst fun visited visited' perm perm' => ?_
      have same := congrArg (fun result => result.2.1.peak.band) (one visited visited' perm perm')
      have ends := congrArg Extreme.band (globalPeak_foldl comparable perm there ((first :: rest).getLast some_).time)
      have ends' := congrArg Extreme.band (globalPeak_foldl comparable perm' there ((first :: rest).getLast some_).time)
      exact ends.symm.trans (same.trans ends')
    · refine settled_of_one comparable picks_faintest isFirst fun visited visited' perm perm' => ?_
      have same := congrArg (fun result => result.2.1.faintest.band) (one visited visited' perm perm')
      have ends := congrArg Extreme.band (globalFaintest_foldl comparable perm there ((first :: rest).getLast some_).time)
      have ends' := congrArg Extreme.band (globalFaintest_foldl comparable perm' there ((first :: rest).getLast some_).time)
      exact ends.symm.trans (same.trans ends')
  · rintro ⟨peaks, faints⟩
    exact ⟨fun visited visited' perm perm' => analyzePhotometry_eq comparable isFirst peaks faints perm perm',
      fun visited perm => extremal comparable isFirst perm⟩

end

/-! ## Two bands as bright -/

def detection (day : Nat) (mag : Nat) (band : Band) : PhotometryMag :=
  { time := .ofInt day, mag := .ofNat mag, magErr := .ofF64 (.ofRat 0.1), band := band }

def equallyBright : List PhotometryMag := [detection 0 20 .g, detection 1 18 .r, detection 2 18 .g]

/-- Whichever band the map yields first is the one of the peak. -/
theorem peak_follows_the_map :
    equallyBright.Pairwise (fun point later => point.time.le later.time = true) ∧ Comparable equallyBright ∧
      ∃ visited visited' : List Entry, visited.Perm (bands equallyBright) ∧ visited'.Perm (bands equallyBright) ∧
        analyzePhotometry visited equallyBright ≠ analyzePhotometry visited' equallyBright := by
  refine ⟨by decide +kernel, by decide +kernel, bands equallyBright, (bands equallyBright).reverse, .refl _,
    List.reverse_perm _, fun same => ?_⟩
  have green : (analyzePhotometry (bands equallyBright) equallyBright).2.1.peakBand = .g := by decide +kernel
  have red : (analyzePhotometry (bands equallyBright).reverse equallyBright).2.1.peakBand = .r := by decide +kernel
  rw [same, red] at green
  exact absurd green (by decide)

/-- A light curve that begins at its faintest and has one brightest point. -/
theorem one_answer_of_rising :
    (∀ visited visited' : List Entry, visited.Perm (bands [detection 0 20 .g, detection 1 18 .r]) →
        visited'.Perm (bands [detection 0 20 .g, detection 1 18 .r]) →
        analyzePhotometry visited [detection 0 20 .g, detection 1 18 .r] =
          analyzePhotometry visited' [detection 0 20 .g, detection 1 18 .r]) ∧
      ∀ visited : List Entry, visited.Perm (bands [detection 0 20 .g, detection 1 18 .r]) →
        Extremal [detection 0 20 .g, detection 1 18 .r] (analyzePhotometry visited [detection 0 20 .g, detection 1 18 .r]) := by
  have less : magnitudeOf (detection 1 18 .r) < magnitudeOf (detection 0 20 .g) := by decide +kernel
  refine (one_answer_iff _ (List.cons_ne_nil _ _) (by decide +kernel)).mpr ⟨.inr ?_, .inl ?_⟩
  · -- Only the second point has the least magnitude.
    have only : ∀ item, Least magnitudeOf [detection 0 20 .g, detection 1 18 .r] item → item = detection 1 18 .r := by
      rintro item ⟨there, least⟩
      rcases List.mem_cons.mp there with rfl | later
      · exact absurd (least _ (List.mem_cons_of_mem _ List.mem_cons_self)) (not_le.mpr less)
      · exact List.mem_singleton.mp later
    intro item other least least'
    rw [only item least, only other least']
  · intro first isFirst
    obtain rfl : detection 0 20 .g = first := Option.some.inj isFirst
    refine ⟨List.mem_cons_self, fun other there => ?_⟩
    rcases List.mem_cons.mp there with rfl | later
    · exact le_refl _
    · rw [List.mem_singleton.mp later]
      exact OrderDual.toDual_le_toDual.mpr less.le

end Boom.Utils.Lightcurves
