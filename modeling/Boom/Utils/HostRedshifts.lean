import Boom.Foundations.Firsts
import Boom.Foundations.SortOrder
import Boom.Utils.SkyAngles
import Boom.Utils.Spatial
import Mathlib.Analysis.Real.Pi.Bounds

/-! # The redshifts of the host galaxies

The rows of four catalogs that matched an alert are ranked by how good their redshifts are,
and of the rows of one galaxy only the best is kept.  Whether two rows are of one galaxy is
tested on a plane: the right ascensions are subtracted as they stand, and scaled at the row
that comes later. -/

namespace Boom.Utils

open Boom.Foundations Real

/-! ## Rows -/

structure HostRow where
  priority : Nat
  ra : F64
  dec : F64
  z : F64
  deriving DecidableEq

def HostRow.place (row : HostRow) : F64 × F64 :=
  (row.ra, row.dec)

def extractCatalogZs (crossMatches : Option Match) (catalog zField : String) (priority : Match → Option Nat) : List HostRow :=
  (((crossMatches.bind (·.lookup catalog)).bind Bson.asArray).getD []).filterMap fun v => do
    let m ← v.asDocument
    let p ← priority m
    let z ← (getF64FromDoc m zField).filter F64.zero.lt
    let ra ← getF64FromDoc m "ra"
    let dec ← getF64FromDoc m "dec"
    some ⟨p, ra, dec, z⟩

def hasStr (m : Match) (key text : String) : Bool :=
  ((m.lookup key).bind Bson.asStr).any (· == text)

def desiPriority (m : Match) : Option Nat :=
  if hasStr m "spectype" "STAR" then none
  else some (if ((getF64FromDoc m "zwarn").getD F64.one).eq F64.zero then 0 else 2)

def nedPriority (m : Match) : Option Nat :=
  some (if hasStr m "z_tech" "SPEC" then 1 else 3)

def hostRows (crossMatches : Option Match) : List HostRow :=
  extractCatalogZs crossMatches "DESI_DR1" "z" desiPriority ++
    extractCatalogZs crossMatches "NED" "z" nedPriority ++
    extractCatalogZs crossMatches "LSDR10" "z_spec" (fun _ => some 2) ++
    extractCatalogZs crossMatches "LSDR10" "z_phot_median" (fun _ => some 4)

def rankedRows (crossMatches : Option Match) : List HostRow :=
  (hostRows crossMatches).mergeSort fun first second => decide (first.priority ≤ second.priority)

noncomputable section

def degrees (value : F64) : ℝ :=
  value.toRat

def dedupArcsec : ℝ := 3

def planarArcsec (kept row : F64 × F64) : ℝ :=
  let dra := (degrees row.1 - degrees kept.1) * cos (toRadians (degrees row.2))
  let ddec := degrees row.2 - degrees kept.2
  √(dra * dra + ddec * ddec) * 3600

open Classical in
def isDup (kept row : HostRow) : Bool :=
  decide (planarArcsec kept.place row.place < dedupArcsec)

def extractHostRedshifts (crossMatches : Option Match) : List F64 :=
  (firsts isDup [] (rankedRows crossMatches)).map HostRow.z

/-! ## One row for each galaxy -/

def sphereArcsec (first second : F64 × F64) : ℝ :=
  angularSeparationDeg (degrees first.1) (degrees first.2) (degrees second.1) (degrees second.2) * 3600

structure KeptOnce (slack : ℝ) (rows kept : List HostRow) : Prop where
  among : kept.Subperm rows
  apart : kept.Pairwise fun first second => dedupArcsec - slack ≤ sphereArcsec first.place second.place
  covering : ∀ row ∈ rows, ∃ held ∈ kept, held.priority ≤ row.priority ∧ sphereArcsec held.place row.place < dedupArcsec + slack
  ordered : kept.Pairwise fun first second => first.priority ≤ second.priority

def CountedOnce (slack : ℝ) (crossMatches : Option Match) : Prop :=
  ∃ kept, KeptOnce slack (hostRows crossMatches) kept ∧ extractHostRedshifts crossMatches = kept.map HostRow.z

def PlaneAgrees (slack : ℝ) (first second : F64 × F64) : Prop :=
  (planarArcsec first second < dedupArcsec → sphereArcsec first second < dedupArcsec + slack) ∧
    (dedupArcsec ≤ planarArcsec first second → dedupArcsec - slack ≤ sphereArcsec first second)

end

theorem sphereArcsec_comm (first second : F64 × F64) : sphereArcsec first second = sphereArcsec second first := by
  rw [sphereArcsec, angularSeparationDeg_comm, sphereArcsec]

theorem isDup_eq_true_iff {kept row : HostRow} :
    isDup kept row = true ↔ planarArcsec kept.place row.place < dedupArcsec := by
  rw [isDup, decide_eq_true_eq]

theorem isDup_eq_false_iff {kept row : HostRow} :
    isDup kept row = false ↔ dedupArcsec ≤ planarArcsec kept.place row.place := by
  rw [isDup, decide_eq_false_iff_not, not_lt]

theorem planarArcsec_self (place : F64 × F64) : planarArcsec place place < dedupArcsec := by
  simp [planarArcsec, dedupArcsec]

theorem rankedRows_perm (crossMatches : Option Match) : (rankedRows crossMatches).Perm (hostRows crossMatches) :=
  List.mergeSort_perm _ _

theorem rankedRows_sorted (crossMatches : Option Match) :
    (rankedRows crossMatches).Pairwise fun first second => first.priority ≤ second.priority := by
  refine (List.pairwise_mergeSort ?_ ?_ _).imp fun {_ _} ordered => of_decide_eq_true ordered
  · intro first second third before after
    simp only [decide_eq_true_eq] at *
    omega
  · intro first second
    simp only [Bool.or_eq_true, decide_eq_true_eq]
    omega

def IsPlace (place : F64 × F64) : Prop :=
  place.1.isFinite = true ∧ place.2.isFinite = true

theorem isPlace_of_mem {crossMatches : Option Match} {row : HostRow} (isRow : row ∈ hostRows crossMatches) :
    IsPlace row.place := by
  have extracted {catalog zField : String} {priority : Match → Option Nat}
      (isRow : row ∈ extractCatalogZs crossMatches catalog zField priority) : IsPlace row.place := by
    obtain ⟨v, -, read⟩ := List.mem_filterMap.mp isRow
    simp only [Option.bind_eq_bind, Option.bind_eq_some_iff, Option.some.injEq] at read
    obtain ⟨m, -, p, -, z, -, ra, hasRa, dec, hasDec, rfl⟩ := read
    exact ⟨(Option.filter_eq_some_iff.mp hasRa).2, (Option.filter_eq_some_iff.mp hasDec).2⟩
  simp only [hostRows, List.mem_append] at isRow
  rcases isRow with ((desi | ned) | spec) | phot
  · exact extracted desi
  · exact extracted ned
  · exact extracted spec
  · exact extracted phot

theorem keptOnce_of_agrees {slack : ℝ} {crossMatches : Option Match}
    (agrees : ∀ first ∈ hostRows crossMatches, ∀ second ∈ hostRows crossMatches, PlaneAgrees slack first.place second.place) :
    KeptOnce slack (hostRows crossMatches) (firsts isDup [] (rankedRows crossMatches)) := by
  have perm := rankedRows_perm crossMatches
  have sorted := rankedRows_sorted crossMatches
  have sub : (firsts isDup [] (rankedRows crossMatches)).Sublist (rankedRows crossMatches) := firsts_sublist _
  have isRow : ∀ row ∈ firsts isDup [] (rankedRows crossMatches), row ∈ hostRows crossMatches :=
    fun row held => perm.mem_iff.mp (sub.subset held)
  constructor
  case among => exact sub.subperm.trans perm.subperm
  case ordered => exact sorted.sublist sub
  case apart =>
    have distinct : Distinct isDup (firsts isDup [] (rankedRows crossMatches)) := distinct_firsts List.Pairwise.nil _
    refine List.Pairwise.imp_of_mem (fun {first second} held held' differ => ?_) distinct
    exact (agrees first (isRow first held) second (isRow second held')).2 (isDup_eq_false_iff.mp differ)
  case covering =>
    intro row valid
    rcases @mem_firsts_or_exists_repeated _ isDup (fun first second => first.priority ≤ second.priority) [] _ sorted
      row (perm.mem_iff.mpr valid) with kept | ⟨held, there, better, dropped⟩
    · exact ⟨row, kept, le_rfl, (agrees row valid row valid).1 (planarArcsec_self _)⟩
    · exact ⟨held, there, better, (agrees held (isRow held there) row valid).1 (isDup_eq_true_iff.mp dropped)⟩

/-! ## Two rows of one catalog -/

def nedMatches (places : List (F64 × F64)) : Match :=
  [("NED", .array (places.map fun place => .document [("z", .double F64.one), ("ra", .double place.1), ("dec", .double place.2)]))]

def nedRow (place : F64 × F64) : HostRow :=
  ⟨3, place.1, place.2, F64.one⟩

theorem place_nedRow (place : F64 × F64) : (nedRow place).place = place := rfl

theorem hostRows_nedMatches {places : List (F64 × F64)} (finite : ∀ place ∈ places, IsPlace place) :
    hostRows (some (nedMatches places)) = places.map nedRow := by
  have unnamed (catalog zField : String) (priority : Match → Option Nat) (other : (catalog == "NED") = false) :
      extractCatalogZs (some (nedMatches places)) catalog zField priority = [] := by
    simp [extractCatalogZs, nedMatches, List.lookup_cons, List.lookup_nil, other]
  have rows : extractCatalogZs (some (nedMatches places)) "NED" "z" nedPriority = places.map nedRow := by
    change ((places.map _).filterMap _ : List HostRow) = _
    rw [List.filterMap_map, ← List.filterMap_eq_map]
    refine List.filterMap_congr fun place there => ?_
    obtain ⟨ra, dec⟩ := finite place there
    have one : F64.one.isFinite = true ∧ F64.zero.lt F64.one = true := by decide
    simp [Bson.asDocument, nedPriority, hasStr, getF64FromDoc, bsonF64, List.lookup_cons, List.lookup_nil, nedRow,
      Option.filter, ra, dec, one]
  rw [hostRows, unnamed "DESI_DR1" "z" _ (by decide), unnamed "LSDR10" "z_spec" _ (by decide),
    unnamed "LSDR10" "z_phot_median" _ (by decide), rows, List.nil_append, List.append_nil, List.append_nil]

theorem extractHostRedshifts_two {first second : F64 × F64} (finite : IsPlace first) (finite' : IsPlace second) :
    firsts isDup [] (rankedRows (some (nedMatches [first, second]))) =
      if isDup (nedRow first) (nedRow second) then [nedRow first] else [nedRow first, nedRow second] := by
  have rows : hostRows (some (nedMatches [first, second])) = [nedRow first, nedRow second] :=
    hostRows_nedMatches (by simp [finite, finite'])
  have ranked : rankedRows (some (nedMatches [first, second])) = [nedRow first, nedRow second] := by
    rw [rankedRows, rows]
    exact List.mergeSort_of_pairwise (by simp [nedRow])
  rw [ranked, firsts, if_neg (by simp), List.nil_append, firsts]
  simp only [List.any_cons, List.any_nil, Bool.or_false, List.singleton_append, firsts]

theorem agrees_of_countedOnce {slack : ℝ} {first second : F64 × F64} (finite : IsPlace first) (finite' : IsPlace second)
    (once : CountedOnce slack (some (nedMatches [first, second]))) : PlaneAgrees slack first second := by
  obtain ⟨kept, ⟨among, apart, covering, -⟩, returned⟩ := once
  rw [hostRows_nedMatches (by simp [finite, finite'])] at among covering
  rw [extractHostRedshifts, extractHostRedshifts_two finite finite'] at returned
  constructor
  · intro dropped
    have same : isDup (nedRow first) (nedRow second) = true := isDup_eq_true_iff.mpr dropped
    rw [same, if_pos rfl, List.map_singleton] at returned
    obtain ⟨held, rfl, -⟩ := List.map_eq_singleton_iff.mp returned.symm
    have near : ∀ row ∈ [nedRow first, nedRow second], sphereArcsec held.place row.place < dedupArcsec + slack := by
      intro row isRow
      obtain ⟨held', there, -, near⟩ := covering row isRow
      rwa [List.mem_singleton.mp there] at near
    -- The row that is left is one of the two, and near the other.
    have isRow := among.subset List.mem_cons_self
    rcases List.mem_pair.mp isRow with rfl | rfl
    · exact near (nedRow second) (by simp)
    · rw [sphereArcsec_comm]
      exact near (nedRow first) (by simp)
  · intro both
    have differ : isDup (nedRow first) (nedRow second) = false := isDup_eq_false_iff.mpr both
    rw [differ, if_neg Bool.false_ne_true] at returned
    have all : kept.Perm [nedRow first, nedRow second] :=
      among.perm_of_length_le (by simpa using (congrArg List.length returned).le)
    have far := (all.pairwise_iff fun {one other} far => by rwa [sphereArcsec_comm]).mp apart
    have two := List.rel_of_pairwise_cons far (List.mem_singleton_self (nedRow second))
    rwa [place_nedRow, place_nedRow] at two

/-- On any set of positions each galaxy counts once, at its best redshift, in every document with
    rows there, if and only if the plane agrees with the sphere on every two of them. -/
theorem hosts_counted_once_iff (slack : ℝ) (region : Set (F64 × F64)) :
    (∀ crossMatches, (∀ row ∈ hostRows crossMatches, row.place ∈ region) → CountedOnce slack crossMatches) ↔
      ∀ first ∈ region, ∀ second ∈ region, IsPlace first → IsPlace second → PlaneAgrees slack first second := by
  constructor
  · intro counted first there second there' finite finite'
    refine agrees_of_countedOnce finite finite' (counted _ ?_)
    rw [hostRows_nedMatches (by simp [finite, finite'])]
    simp [nedRow, HostRow.place, there, there']
  · intro agrees crossMatches inside
    refine ⟨_, keptOnce_of_agrees fun first isRow second isRow' => ?_, rfl⟩
    exact agrees _ (inside first isRow) _ (inside second isRow') (isPlace_of_mem isRow) (isPlace_of_mem isRow')

/-- Two rows less than two arcseconds apart, on the two sides of right ascension zero, are counted twice. -/
theorem counted_twice_across_zero : ¬ ∃ slack ≤ 1, CountedOnce slack
    (some (nedMatches [(F64.zero, F64.zero), (⟨0x40767ffe00000000⟩, F64.zero)])) := by
  rintro ⟨slack, small, once⟩
  have ras : degrees ⟨0x40767ffe00000000⟩ = 360 - 1 / 2048 := by
    rw [degrees, show (⟨0x40767ffe00000000⟩ : F64).toRat = 360 - 1 / 2048 by decide +kernel]
    norm_num
  have zeros : degrees F64.zero = 0 := by
    rw [degrees, show F64.zero.toRat = 0 by decide +kernel, Rat.cast_zero]
  have agrees := agrees_of_countedOnce (by constructor <;> decide) (by constructor <;> decide) once
  have plane : dedupArcsec ≤ planarArcsec (F64.zero, F64.zero) (⟨0x40767ffe00000000⟩, F64.zero) := by
    have side : √((360 - 1 / 2048) * (360 - 1 / 2048)) = (360 - 1 / 2048 : ℝ) := sqrt_mul_self (by norm_num)
    simp only [planarArcsec, dedupArcsec, ras, zeros, sub_zero, toRadians, zero_mul, cos_zero, mul_one, add_zero, side]
    norm_num
  have apart := agrees.2 plane
  have close : sphereArcsec (F64.zero, F64.zero) (⟨0x40767ffe00000000⟩, F64.zero) ≤ 1 / 2048 * 3600 := by
    refine mul_le_mul_of_nonneg_right ?_ (by norm_num)
    simp only [ras, zeros]
    have isDec : IsDec 0 := by norm_num [IsDec]
    rw [angularSeparationDeg_le_iff isDec isDec (by norm_num) (by norm_num)]
    -- The turn is a whole one, less the separation.
    have turn : toRadians (360 - 1 / 2048 - 0) / 2 = π - toRadians (1 / 2048) / 2 := by
      rw [toRadians, toRadians]
      ring
    rw [separationHav, turn, sin_pi_sub]
    simp [toRadians]
  unfold dedupArcsec at apart
  linarith

/-! ## Where the plane agrees -/

end Boom.Utils
