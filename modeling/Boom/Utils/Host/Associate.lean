import Boom.Foundations.StableRanks
import Boom.Utils.Host.Ellipse
import Mathlib.Analysis.SpecialFunctions.Pow.Real

/-! # Hosts of transients

The galaxies around a transient are ranked by how far out of each it lies, and one unit is shared out
between them and there being no host. -/

namespace Boom.Utils.Host

open Boom.Foundations Real

noncomputable section

structure AssociationConfig where
  maxFractionalOffset : ℝ
  minBArcsec : ℝ
  maxCandidates : Nat
  useAbsmag : Bool

def AssociationConfig.default : AssociationConfig where
  maxFractionalOffset := 10
  minBArcsec := 0.05
  maxCandidates := 10
  useAbsmag := false

structure HostCandidate where
  galaxy : GalaxyCandidate
  separationArcsec : ℝ
  dlr : ℝ
  fractionalOffset : ℝ
  dlrRank : Nat
  posterior : ℝ
  posteriorOffset : ℝ
  posteriorAbsmag : ℝ

structure AssociationResult where
  candidates : List HostCandidate
  pNone : ℝ
  nConsidered : Nat
  nPassedDlr : Nat

structure Scored where
  galaxy : GalaxyCandidate
  dlr : DlrResult
  dlrRank : Nat
  posteriorOffset : ℝ
  posteriorAbsmag : ℝ
  posterior : ℝ

/-! ## Likelihoods and priors -/

def GAMMA_0_75 : ℝ := 1.2254167024651776

def OFFSET_LIKELIHOOD_AT_ZERO : ℝ := 1e6

def offsetLikelihood (fractionalOffset : ℝ) : ℝ :=
  if fractionalOffset < 0 then 0
  else if fractionalOffset = 0 then OFFSET_LIKELIHOOD_AT_ZERO
  else fractionalOffset ^ (-0.25 : ℝ) * exp (-fractionalOffset) / GAMMA_0_75

def absmagLikelihood (_mag _magErr _redshift : Option Number) : ℝ := 1

def offsetPrior (fractionalOffset maxOffset : ℝ) : ℝ :=
  if maxOffset ≤ 0 then 0
  else if 0 ≤ fractionalOffset ∧ fractionalOffset ≤ maxOffset then 1 / maxOffset
  else 0

def pOutside (nCandidates : Nat) : ℝ := if nCandidates = 0 then 0.5 else 0.01

def pUnobserved : ℝ := 0.01

def pHostless : ℝ := 0.005

/-! ## The association -/

section

variable (transient : Transient) (config : AssociationConfig)

def consider (galaxy : GalaxyCandidate) : Option (GalaxyCandidate × DlrResult) :=
  match Ellipse.fromCandidate galaxy config.minBArcsec with
  | .error _ => none
  | .ok ellipse =>
    match computeDlr transient.ra transient.dec galaxy.ra galaxy.dec ellipse with
    | none => none
    | some dlr => if dlr.fractionalOffset ≤ config.maxFractionalOffset then some (galaxy, dlr) else none

def score (entry : (GalaxyCandidate × DlrResult) × Nat) : Scored :=
  let ((galaxy, dlr), rank) := entry
  let posteriorOffset := offsetLikelihood dlr.fractionalOffset * offsetPrior dlr.fractionalOffset config.maxFractionalOffset
  let posteriorAbsmag := if config.useAbsmag then absmagLikelihood galaxy.mag galaxy.magErr galaxy.redshift else 1
  { galaxy := galaxy, dlr := dlr, dlrRank := (rank + 1) % 2 ^ 32, posteriorOffset := posteriorOffset,
    posteriorAbsmag := posteriorAbsmag, posterior := posteriorOffset * posteriorAbsmag }

def Scored.host (total : ℝ) (scored : Scored) : HostCandidate where
  galaxy := scored.galaxy
  separationArcsec := scored.dlr.separationArcsec
  dlr := scored.dlr.directionalRadius
  fractionalOffset := scored.dlr.fractionalOffset
  dlrRank := scored.dlrRank
  posterior := if 0 < total then scored.posterior / total else 0
  posteriorOffset := scored.posteriorOffset
  posteriorAbsmag := scored.posteriorAbsmag

def associateHost (candidates : List GalaxyCandidate) : Except HostError AssociationResult :=
  if candidates.isEmpty then .error .noCandidates
  else
    let offsets := candidates.filterMap (consider transient config)
    if offsets.isEmpty then .ok { candidates := [], pNone := 1, nConsidered := candidates.length, nPassedDlr := 0 }
    else
      let ranked := rising (fun entry => entry.2.fractionalOffset) offsets
      let scored := ranked.zipIdx.map (score config)
      let pNull := pOutside scored.length + pUnobserved + pHostless
      let total := (scored.map Scored.posterior).sum + pNull
      .ok {
        candidates := ((falling Scored.posterior scored).take config.maxCandidates).map (Scored.host total)
        pNone := if 0 < total then max 0 (min 1 (pNull / total)) else 1
        nConsidered := candidates.length
        nPassedDlr := scored.length }

end

/-! ## Densities -/

section

variable {x y : ℝ}

theorem offsetLikelihood_of_pos (positive : 0 < x) : offsetLikelihood x = x ^ (-0.25 : ℝ) * exp (-x) / GAMMA_0_75 := by
  rw [offsetLikelihood, if_neg (not_lt.mpr positive.le), if_neg positive.ne']

theorem gamma_pos : 0 < GAMMA_0_75 := by norm_num [GAMMA_0_75]

theorem offsetLikelihood_zero : offsetLikelihood 0 = 1e6 := by
  rw [offsetLikelihood, if_neg (lt_irrefl _), if_pos rfl, OFFSET_LIKELIHOOD_AT_ZERO]

theorem offsetLikelihood_pos (nonneg : 0 ≤ x) : 0 < offsetLikelihood x := by
  rcases nonneg.eq_or_lt with rfl | positive
  · rw [offsetLikelihood_zero]
    norm_num
  · rw [offsetLikelihood_of_pos positive]
    exact div_pos (mul_pos (rpow_pos_of_pos positive _) (exp_pos _)) gamma_pos

theorem offsetLikelihood_anti (positive : 0 < x) (le : x ≤ y) : offsetLikelihood y ≤ offsetLikelihood x := by
  rw [offsetLikelihood_of_pos positive, offsetLikelihood_of_pos (positive.trans_le le)]
  have power : y ^ (-0.25 : ℝ) ≤ x ^ (-0.25 : ℝ) := rpow_le_rpow_of_nonpos positive le (by norm_num)
  have decay : exp (-y) ≤ exp (-x) := exp_le_exp.mpr (neg_le_neg le)
  exact div_le_div_of_nonneg_right (mul_le_mul power decay (exp_pos _).le (rpow_nonneg positive.le _)) gamma_pos.le

theorem rpow_tenth (digits : ℝ) : ((10 : ℝ) ^ (-digits)) ^ (-0.25 : ℝ) = 10 ^ (digits / 4) := by
  rw [← rpow_mul (by norm_num)]
  congr 1
  ring

theorem offsetLikelihood_le_at_zero (far : 1e-24 ≤ x) : offsetLikelihood x ≤ offsetLikelihood 0 := by
  have least : (1e-24 : ℝ) = 10 ^ (-24 : ℝ) := by
    rw [rpow_neg (by norm_num), show (24 : ℝ) = ((24 : ℕ) : ℝ) by norm_num, rpow_natCast]
    norm_num
  refine (offsetLikelihood_anti (by norm_num) far).trans ?_
  rw [offsetLikelihood_of_pos (by norm_num), offsetLikelihood_zero, least, rpow_tenth]
  have power : (10 : ℝ) ^ ((24 : ℝ) / 4) = 1e6 := by
    rw [show (24 : ℝ) / 4 = ((6 : ℕ) : ℝ) by norm_num, rpow_natCast]
    norm_num
  rw [power, div_le_iff₀ gamma_pos]
  have decay : exp (-(10 : ℝ) ^ (-24 : ℝ)) ≤ 1 := exp_le_one_iff.mpr (neg_nonpos.mpr (rpow_nonneg (by norm_num) _))
  have wide : (1 : ℝ) ≤ GAMMA_0_75 := by norm_num [GAMMA_0_75]
  exact mul_le_mul_of_nonneg_left (decay.trans wide) (by norm_num)

end

/-! ## What an association is -/

def LiesAt (transient : Transient) (galaxy : GalaxyCandidate) (east north : ℝ) : Prop :=
  ∃ ra dec ra' dec', transient.ra = .finite ra ∧ transient.dec = .finite dec ∧ galaxy.ra = .finite ra' ∧
    galaxy.dec = .finite dec' ∧ eastOf ra ra' dec' = east ∧ northOf dec dec' = north

def IsOffset (transient : Transient) (minBArcsec : ℝ) (galaxy : GalaxyCandidate) (offset : ℝ) : Prop :=
  ∃ a b pa major minor east north, HasShape galaxy a b pa ∧ 0 < a ∧ major = max a (max b minBArcsec) ∧
    minor = min a (max b minBArcsec) ∧ minBArcsec ≤ minor ∧ LiesAt transient galaxy east north ∧
    offset = offsetIn major minor (toRadians pa) east north

structure Ordinary (minBArcsec : ℝ) (galaxy : GalaxyCandidate) : Prop where
  known : galaxy.bArcsec ≠ .nan ∧ galaxy.bArcsec ≠ .infinite true
  large : ∀ a, galaxy.aArcsec = .finite a → 0 < a → minBArcsec ≤ a

section

variable {transient : Transient} {config : AssociationConfig} {galaxy : GalaxyCandidate} {ellipse : Ellipse} {dlr : DlrResult}

theorem computeDlr_eq_some_iff : computeDlr transient.ra transient.dec galaxy.ra galaxy.dec ellipse = some dlr ↔
    ∃ east north, LiesAt transient galaxy east north ∧ dlrAt east north ellipse = dlr := by
  constructor
  · intro computed
    unfold computeDlr at computed
    split at computed
    next ra dec ra' dec' isRa isDec isRa' isDec' =>
      exact ⟨_, _, ⟨ra, dec, ra', dec', isRa, isDec, isRa', isDec', rfl, rfl⟩, Option.some.inj computed⟩
    next => cases computed
  · rintro ⟨east, north, ⟨ra, dec, ra', dec', isRa, isDec, isRa', isDec', rfl, rfl⟩, rfl⟩
    rw [isRa, isDec, isRa', isDec']
    rfl

variable {entry : GalaxyCandidate × DlrResult}

theorem consider_eq_some_iff : consider transient config galaxy = some entry ↔
    entry.1 = galaxy ∧ entry.2.fractionalOffset ≤ config.maxFractionalOffset ∧
      ∃ ellipse, Ellipse.fromCandidate galaxy config.minBArcsec = .ok ellipse ∧
        ∃ east north, LiesAt transient galaxy east north ∧ dlrAt east north ellipse = entry.2 := by
  unfold consider
  cases shaped : Ellipse.fromCandidate galaxy config.minBArcsec with
  | error fault => simp
  | ok ellipse =>
    simp only [Except.ok.injEq, exists_eq_left']
    cases computed : computeDlr transient.ra transient.dec galaxy.ra galaxy.dec ellipse with
    | none =>
      refine iff_of_false nofun ?_
      rintro ⟨-, -, placed⟩
      have some_ := computeDlr_eq_some_iff.mpr placed
      rw [computed] at some_
      cases some_
    | some dlr =>
      rw [← computeDlr_eq_some_iff, computed, Option.some.injEq, Option.ite_none_right_eq_some, Option.some.injEq]
      constructor
      · rintro ⟨near, rfl⟩
        exact ⟨rfl, near, rfl⟩
      · rintro ⟨rfl, near, rfl⟩
        exact ⟨near, rfl⟩

theorem offset_of_consider (admitted : consider transient config galaxy = some entry) :
    0 ≤ entry.2.fractionalOffset ∧ entry.2.fractionalOffset ≤ config.maxFractionalOffset := by
  obtain ⟨-, near, ellipse, shaped, east, north, -, same⟩ := consider_eq_some_iff.mp admitted
  obtain ⟨positive, positive'⟩ := ellipse_pos shaped
  refine ⟨?_, near⟩
  rw [← same, fractionalOffset_dlrAt positive positive']
  exact offsetIn_nonneg positive _

theorem isOffset_of_consider (floor : 0 < config.minBArcsec)
    (ordinary : Ordinary config.minBArcsec galaxy) (admitted : consider transient config galaxy = some entry) :
    IsOffset transient config.minBArcsec galaxy entry.2.fractionalOffset := by
  obtain ⟨-, -, ellipse, shaped, east, north, placed, same⟩ := consider_eq_some_iff.mp admitted
  obtain ⟨positive, positive'⟩ := ellipse_pos shaped
  obtain ⟨a, b, pa, shape, some_⟩ := shape_of_fromCandidate shaped ordinary.known
  obtain ⟨_, shaped', isMajor, isMinor, isAngle⟩ := fromCandidate_of_shape shape some_ floor
  obtain rfl := Except.ok.inj (shaped.symm.trans shaped')
  refine ⟨a, b, pa, _, _, east, north, shape, some_, isMajor, isMinor, ?_, placed, ?_⟩
  · rw [isMinor]
    exact le_min (ordinary.large a shape.major some_) (le_max_right _ _)
  · rw [← same, fractionalOffset_dlrAt positive positive', isAngle]

theorem isSome_consider_iff (floor : 0 < config.minBArcsec) (ordinary : Ordinary config.minBArcsec galaxy) :
    (consider transient config galaxy).isSome = true ↔
      ∃ offset, IsOffset transient config.minBArcsec galaxy offset ∧ offset ≤ config.maxFractionalOffset := by
  rw [Option.isSome_iff_exists]
  constructor
  · rintro ⟨entry, admitted⟩
    exact ⟨_, isOffset_of_consider floor ordinary admitted, (offset_of_consider admitted).2⟩
  · rintro ⟨_, ⟨a, b, pa, major, minor, east, north, shape, some_, isMajor, isMinor, -, placed, rfl⟩, near⟩
    obtain ⟨ellipse, shaped, isMajor', isMinor', isAngle⟩ := fromCandidate_of_shape shape some_ floor
    obtain ⟨positive, positive'⟩ := ellipse_pos shaped
    refine ⟨(galaxy, dlrAt east north ellipse), consider_eq_some_iff.mpr ⟨rfl, ?_, ellipse, shaped, east, north, placed, rfl⟩⟩
    rw [fractionalOffset_dlrAt positive positive', isMajor', isMinor', isAngle, ← isMajor, ← isMinor]
    exact near

end

/-! ## Shares of one unit -/

section

variable (transient : Transient) (config : AssociationConfig) (candidates : List GalaxyCandidate)

def offsets : List (GalaxyCandidate × DlrResult) := candidates.filterMap (consider transient config)

def scoredOf : List Scored :=
  (rising (fun entry => entry.2.fractionalOffset) (offsets transient config candidates)).zipIdx.map (score config)

def pNullOf : ℝ := pOutside (scoredOf transient config candidates).length + pUnobserved + pHostless

def totalOf : ℝ := ((scoredOf transient config candidates).map Scored.posterior).sum + pNullOf transient config candidates

def hostsOf : List HostCandidate :=
  (falling Scored.posterior (scoredOf transient config candidates)).map (Scored.host (totalOf transient config candidates))

variable {transient config candidates}

theorem length_scoredOf : (scoredOf transient config candidates).length = (offsets transient config candidates).length := by
  rw [scoredOf, List.length_map, List.length_zipIdx, (rising_perm _ _).length_eq]

theorem mem_scoredOf {scored : Scored} (there : scored ∈ scoredOf transient config candidates) :
    ∃ galaxy ∈ candidates, ∃ dlr rank, consider transient config galaxy = some (galaxy, dlr) ∧ score config ((galaxy, dlr), rank) = scored := by
  obtain ⟨⟨⟨galaxy, dlr⟩, rank⟩, isEntry, rfl⟩ := List.mem_map.mp there
  have isOffset := (rising_perm _ _).mem_iff.mp (List.fst_mem_of_mem_zipIdx isEntry)
  obtain ⟨galaxy', there', admitted⟩ := List.mem_filterMap.mp isOffset
  obtain rfl : galaxy = galaxy' := (consider_eq_some_iff.mp admitted).1
  exact ⟨galaxy, there', dlr, rank, admitted, rfl⟩

theorem posterior_score {galaxy : GalaxyCandidate} {dlr : DlrResult} (admitted : consider transient config galaxy = some (galaxy, dlr))
    (positive : 0 < config.maxFractionalOffset) (rank : Nat) :
    (score config ((galaxy, dlr), rank)).posterior = offsetLikelihood dlr.fractionalOffset / config.maxFractionalOffset := by
  have within := offset_of_consider admitted
  simp only [score, offsetPrior, if_neg (not_le.mpr positive), if_pos within, absmagLikelihood, ite_self, mul_one, mul_one_div]

section

variable (positive : 0 < config.maxFractionalOffset)
include positive

theorem posterior_of_mem {scored : Scored} (there : scored ∈ scoredOf transient config candidates) :
    0 ≤ scored.dlr.fractionalOffset ∧
      scored.posterior = offsetLikelihood scored.dlr.fractionalOffset / config.maxFractionalOffset := by
  obtain ⟨galaxy, -, dlr, rank, admitted, rfl⟩ := mem_scoredOf there
  exact ⟨(offset_of_consider admitted).1, posterior_score admitted positive rank⟩

theorem posterior_pos {scored : Scored} (there : scored ∈ scoredOf transient config candidates) : 0 < scored.posterior := by
  obtain ⟨nonneg, same⟩ := posterior_of_mem positive there
  rw [same]
  exact div_pos (offsetLikelihood_pos nonneg) positive

end

theorem pNullOf_pos : 0 < pNullOf transient config candidates := by
  unfold pNullOf pOutside pUnobserved pHostless
  split <;> norm_num

theorem pNullOf_le_totalOf (positive : 0 < config.maxFractionalOffset) :
    pNullOf transient config candidates ≤ totalOf transient config candidates := by
  refine le_add_of_nonneg_left (List.sum_nonneg ?_)
  intro posterior there
  obtain ⟨scored, isScored, rfl⟩ := List.mem_map.mp there
  exact (posterior_pos positive isScored).le

theorem totalOf_pos (positive : 0 < config.maxFractionalOffset) : 0 < totalOf transient config candidates :=
  pNullOf_pos.trans_le (pNullOf_le_totalOf positive)

theorem associateHost_eq (some_ : candidates ≠ []) (positive : 0 < config.maxFractionalOffset) :
    associateHost transient config candidates = .ok {
      candidates := (hostsOf transient config candidates).take config.maxCandidates
      pNone := if offsets transient config candidates = [] then 1 else pNullOf transient config candidates / totalOf transient config candidates
      nConsidered := candidates.length
      nPassedDlr := (hostsOf transient config candidates).length } := by
  have total : 0 < totalOf transient config candidates := totalOf_pos positive
  have share : pNullOf transient config candidates / totalOf transient config candidates ≤ 1 :=
    (div_le_one total).mpr (pNullOf_le_totalOf positive)
  have share' : 0 ≤ pNullOf transient config candidates / totalOf transient config candidates := div_nonneg pNullOf_pos.le total.le
  have count : (hostsOf transient config candidates).length = (scoredOf transient config candidates).length := by
    rw [hostsOf, List.length_map, (falling_perm _ _).length_eq]
  rw [associateHost, if_neg (by simpa using some_)]
  by_cases none_ : offsets transient config candidates = []
  · have noScored : scoredOf transient config candidates = [] := List.eq_nil_of_length_eq_zero (by rw [length_scoredOf, none_]; rfl)
    have noHosts : hostsOf transient config candidates = [] := List.eq_nil_of_length_eq_zero (by rw [count, noScored]; rfl)
    have isEmpty : (candidates.filterMap (consider transient config)).isEmpty = true := List.isEmpty_iff.mpr none_
    simp only [isEmpty, if_true, none_, noHosts, List.take_nil, List.length_nil]
  · have isEmpty : (candidates.filterMap (consider transient config)).isEmpty = false := List.isEmpty_eq_false_iff.mpr none_
    simp only [isEmpty, none_, if_false, Bool.false_eq_true]
    rw [count]
    have clamped : max 0 (min 1 (pNullOf transient config candidates / totalOf transient config candidates)) =
        pNullOf transient config candidates / totalOf transient config candidates := by
      rw [min_eq_right share, max_eq_right share']
    have whole : (if 0 < totalOf transient config candidates then
        max 0 (min 1 (pNullOf transient config candidates / totalOf transient config candidates)) else 1) =
          pNullOf transient config candidates / totalOf transient config candidates := by
      rw [if_pos total, clamped]
    rw [hostsOf, ← List.map_take, ← whole]
    rfl

end

/-! ## Hosts and their ranks -/

section

variable {transient : Transient} {config : AssociationConfig} {candidates others : List GalaxyCandidate} {host other : HostCandidate}

theorem mem_hostsOf (there : host ∈ hostsOf transient config candidates) :
    ∃ scored ∈ scoredOf transient config candidates, scored.host (totalOf transient config candidates) = host := by
  obtain ⟨scored, isScored, same⟩ := List.mem_map.mp there
  exact ⟨scored, (falling_perm _ _).mem_iff.mp isScored, same⟩

theorem hostsOf_perm : (hostsOf transient config candidates).Perm
    ((scoredOf transient config candidates).map (Scored.host (totalOf transient config candidates))) :=
  (falling_perm _ _).map _

theorem length_hostsOf : (hostsOf transient config candidates).length = (scoredOf transient config candidates).length := by
  rw [hostsOf_perm.length_eq, List.length_map]

theorem posterior_host (total : ℝ) (positive : 0 < total) (scored : Scored) : (scored.host total).posterior = scored.posterior / total :=
  if_pos positive

theorem galaxies_hostsOf : ((hostsOf transient config candidates).map HostCandidate.galaxy).Perm
    (candidates.filter fun galaxy => (consider transient config galaxy).isSome) := by
  have scored : (scoredOf transient config candidates).map Scored.galaxy =
      (rising (fun entry => entry.2.fractionalOffset) (offsets transient config candidates)).map Prod.fst := by
    rw [scoredOf, List.map_map]
    have seen : Scored.galaxy ∘ score config = Prod.fst ∘ Prod.fst := rfl
    rw [seen, ← List.map_map, List.zipIdx_map_fst]
  have admitted : (offsets transient config candidates).map Prod.fst =
      candidates.filter fun galaxy => (consider transient config galaxy).isSome := by
    rw [offsets, List.map_filterMap, ← List.filterMap_eq_filter]
    refine List.filterMap_congr fun galaxy _ => ?_
    cases found : consider transient config galaxy with
    | none => simp [Option.guard, found]
    | some entry => simp [Option.guard, found, (consider_eq_some_iff.mp found).1]
  have moved : ((hostsOf transient config candidates).map HostCandidate.galaxy).Perm _ := hostsOf_perm.map _
  rw [List.map_map] at moved
  refine moved.trans ?_
  have kept : HostCandidate.galaxy ∘ Scored.host (totalOf transient config candidates) = Scored.galaxy := rfl
  rw [kept, scored, ← admitted]
  exact (rising_perm _ _).map _

theorem sum_div (weights : List ℝ) (total : ℝ) : (weights.map fun weight => weight / total).sum = weights.sum / total := by
  simp only [div_eq_mul_inv, List.sum_map_mul_right, List.map_id']

section

variable (positive : 0 < config.maxFractionalOffset)
include positive

theorem posterior_hostsOf (there : host ∈ hostsOf transient config candidates) : 0 ≤ host.fractionalOffset ∧
    host.posterior = offsetLikelihood host.fractionalOffset / config.maxFractionalOffset / totalOf transient config candidates := by
  obtain ⟨scored, isScored, rfl⟩ := mem_hostsOf there
  obtain ⟨nonneg, same⟩ := posterior_of_mem positive isScored
  refine ⟨nonneg, ?_⟩
  rw [posterior_host _ (totalOf_pos positive), same]
  rfl

theorem posterior_le (there : host ∈ hostsOf transient config candidates) (there' : other ∈ hostsOf transient config candidates)
    (le : offsetLikelihood other.fractionalOffset ≤ offsetLikelihood host.fractionalOffset) : other.posterior ≤ host.posterior := by
  rw [(posterior_hostsOf positive there).2, (posterior_hostsOf positive there').2]
  exact div_le_div_of_nonneg_right (div_le_div_of_nonneg_right le positive.le) (totalOf_pos positive).le

theorem sum_posteriors : ((hostsOf transient config candidates).map HostCandidate.posterior).sum =
    ((scoredOf transient config candidates).map Scored.posterior).sum / totalOf transient config candidates := by
  have seen : HostCandidate.posterior ∘ Scored.host (totalOf transient config candidates) =
      fun scored => scored.posterior / totalOf transient config candidates :=
    funext (posterior_host _ (totalOf_pos positive))
  rw [(hostsOf_perm.map _).sum_eq, List.map_map, seen, ← sum_div, List.map_map]
  rfl

theorem hostsOf_descending :
    (hostsOf transient config candidates).Pairwise fun first second => second.posterior ≤ first.posterior := by
  refine List.pairwise_map.mpr ((falling_sorted Scored.posterior _).imp fun le => ?_)
  rw [posterior_host _ (totalOf_pos positive), posterior_host _ (totalOf_pos positive)]
  exact div_le_div_of_nonneg_right le (totalOf_pos positive).le

end

theorem ranks_hostsOf (few : (hostsOf transient config candidates).length < 2 ^ 32) :
    ((hostsOf transient config candidates).map HostCandidate.dlrRank).Perm
      (List.range' 1 (hostsOf transient config candidates).length) := by
  have ranks : (scoredOf transient config candidates).map Scored.dlrRank =
      List.range' 1 (scoredOf transient config candidates).length := by
    rw [length_hostsOf, length_scoredOf] at few
    rw [length_scoredOf, scoredOf, List.map_map]
    have seen : Scored.dlrRank ∘ score config = (fun rank => (rank + 1) % 2 ^ 32) ∘ Prod.snd := rfl
    have shifted : List.range' 1 (offsets transient config candidates).length =
        (List.range' 0 (offsets transient config candidates).length).map fun rank => 1 + rank :=
      (List.map_add_range' 0 _ 1).symm
    rw [seen, ← List.map_map, List.zipIdx_map_snd, (rising_perm _ _).length_eq, shifted]
    refine List.map_congr_left fun rank inside => ?_
    have below := (List.mem_range'_1.mp inside).2
    rw [Nat.mod_eq_of_lt (by omega), Nat.add_comm]
  refine (hostsOf_perm.map _).trans ?_
  rw [List.map_map, length_hostsOf, ← ranks]
  exact List.Perm.refl _

theorem offset_le_of_rank (few : (hostsOf transient config candidates).length < 2 ^ 32)
    (there : host ∈ hostsOf transient config candidates) (there' : other ∈ hostsOf transient config candidates)
    (before : host.dlrRank < other.dlrRank) : host.fractionalOffset ≤ other.fractionalOffset := by
  rw [length_hostsOf, length_scoredOf, ← (rising_perm (fun entry => entry.2.fractionalOffset) _).length_eq] at few
  obtain ⟨scored, isScored, rfl⟩ := mem_hostsOf there
  obtain ⟨scored', isScored', rfl⟩ := mem_hostsOf there'
  obtain ⟨⟨entry, rank⟩, isEntry, rfl⟩ := List.mem_map.mp isScored
  obtain ⟨⟨entry', rank'⟩, isEntry', rfl⟩ := List.mem_map.mp isScored'
  obtain ⟨inside, isPlace⟩ := List.mem_zipIdx' isEntry
  obtain ⟨inside', isPlace'⟩ := List.mem_zipIdx' isEntry'
  have earlier : (rank + 1) % 2 ^ 32 < (rank' + 1) % 2 ^ 32 := before
  rw [Nat.mod_eq_of_lt (by omega), Nat.mod_eq_of_lt (by omega)] at earlier
  have ordered := List.pairwise_iff_getElem.mp (rising_sorted _ _) rank rank' inside inside' (by omega)
  rwa [← isPlace, ← isPlace'] at ordered

/-! ## The galaxies in another order -/

def HostCandidate.standing (host : HostCandidate) : ℝ × Nat × ℝ × ℝ × ℝ :=
  (host.fractionalOffset, host.dlrRank, host.posterior, host.posteriorOffset, host.posteriorAbsmag)

def HostCandidate.placed (host : HostCandidate) : GalaxyCandidate × ℝ × ℝ × ℝ :=
  (host.galaxy, host.separationArcsec, host.dlr, host.fractionalOffset)

def Scored.standing (scored : Scored) : ℝ × Nat × ℝ × ℝ × ℝ :=
  (scored.dlr.fractionalOffset, scored.dlrRank, scored.posterior, scored.posteriorOffset, scored.posteriorAbsmag)

theorem standing_score (entry : (GalaxyCandidate × DlrResult) × Nat) (nobody : GalaxyCandidate) :
    (score config entry).standing =
      (score config ((nobody, { separationArcsec := 0, directionalRadius := 0, fractionalOffset := entry.1.2.fractionalOffset }), entry.2)).standing := by
  simp [Scored.standing, score, absmagLikelihood]

section

variable (same : candidates.Perm others)
include same

theorem standings_scoredOf :
    (scoredOf transient config candidates).map Scored.standing = (scoredOf transient config others).map Scored.standing := by
  let nobody : GalaxyCandidate := ⟨.nan, .nan, .nan, .nan, .nan, none, none, none⟩
  let standing (place : ℝ × Nat) :=
    (score config ((nobody, { separationArcsec := 0, directionalRadius := 0, fractionalOffset := place.1 }), place.2)).standing
  have seen : Scored.standing ∘ score config = standing ∘ Prod.map (fun entry => entry.2.fractionalOffset) id :=
    funext fun entry => standing_score entry nobody
  have keys : (rising (fun entry => entry.2.fractionalOffset) (offsets transient config candidates)).map (fun entry => entry.2.fractionalOffset) =
      (rising (fun entry => entry.2.fractionalOffset) (offsets transient config others)).map fun entry => entry.2.fractionalOffset :=
    map_rising_of_perm (same.filterMap (consider transient config))
  rw [scoredOf, scoredOf, List.map_map, List.map_map, seen, ← List.map_map, ← List.map_map, ← List.zipIdx_map, ← List.zipIdx_map]
  exact congrArg (fun keys => (List.zipIdx keys).map standing) keys

theorem totalOf_of_perm : totalOf transient config candidates = totalOf transient config others := by
  have standings : (scoredOf transient config candidates).map Scored.standing = (scoredOf transient config others).map Scored.standing :=
    standings_scoredOf same
  have posteriors := congrArg (List.map fun standing => standing.2.2.1) standings
  have count := congrArg List.length standings
  rw [List.map_map, List.map_map] at posteriors
  rw [List.length_map, List.length_map] at count
  rw [totalOf, totalOf, pNullOf, pNullOf, count]
  exact congrArg (·.sum + _) posteriors

theorem standings_hostsOf :
    (hostsOf transient config candidates).map HostCandidate.standing = (hostsOf transient config others).map HostCandidate.standing := by
  have standings : (scoredOf transient config candidates).map Scored.standing = (scoredOf transient config others).map Scored.standing :=
    standings_scoredOf same
  let share (standing : ℝ × Nat × ℝ × ℝ × ℝ) : ℝ × Nat × ℝ × ℝ × ℝ :=
    (standing.1, standing.2.1, if 0 < totalOf transient config candidates then standing.2.2.1 / totalOf transient config candidates else 0,
      standing.2.2.2)
  have shared : HostCandidate.standing ∘ Scored.host (totalOf transient config candidates) = share ∘ Scored.standing := rfl
  have sorted (galaxies : List GalaxyCandidate) : (falling Scored.posterior (scoredOf transient config galaxies)).map Scored.standing =
      falling (fun standing => standing.2.2.1) ((scoredOf transient config galaxies).map Scored.standing) :=
    map_falling fun _ _ => rfl
  rw [hostsOf, hostsOf, ← totalOf_of_perm same, List.map_map, List.map_map, shared, ← List.map_map, ← List.map_map, sorted, sorted,
    standings]

theorem placed_hostsOf : ((hostsOf transient config candidates).map HostCandidate.placed).Perm
    ((hostsOf transient config others).map HostCandidate.placed) := by
  let placed (entry : GalaxyCandidate × DlrResult) : GalaxyCandidate × ℝ × ℝ × ℝ :=
    (entry.1, entry.2.separationArcsec, entry.2.directionalRadius, entry.2.fractionalOffset)
  have entries (galaxies : List GalaxyCandidate) : ((hostsOf transient config galaxies).map HostCandidate.placed).Perm
      ((offsets transient config galaxies).map placed) := by
    have seen : (HostCandidate.placed ∘ Scored.host (totalOf transient config galaxies)) ∘ score config = placed ∘ Prod.fst := rfl
    refine (hostsOf_perm.map _).trans ?_
    rw [scoredOf, List.map_map, List.map_map, seen, ← List.map_map, List.zipIdx_map_fst]
    exact (rising_perm _ _).map _
  exact (entries candidates).trans (((same.filterMap _).map placed).trans (entries others).symm)

end

end

/-! ## What an association comes to -/

/-- An association of which nothing is left out. -/
structure IsAssociation (transient : Transient) (config : AssociationConfig) (candidates : List GalaxyCandidate)
    (result : AssociationResult) : Prop where
  /-- Of the galaxies that are ordinary the ones that pass have an offset that is not too large. -/
  passing : ∃ passes : GalaxyCandidate → Bool, (result.candidates.map HostCandidate.galaxy).Perm (candidates.filter passes) ∧
    ∀ galaxy, Ordinary config.minBArcsec galaxy → (passes galaxy = true ↔
      ∃ offset, IsOffset transient config.minBArcsec galaxy offset ∧ offset ≤ config.maxFractionalOffset)
  offset : ∀ host ∈ result.candidates, Ordinary config.minBArcsec host.galaxy →
    IsOffset transient config.minBArcsec host.galaxy host.fractionalOffset
  positive : ∀ host ∈ result.candidates, 0 < host.posterior
  descending : result.candidates.Pairwise fun first second => second.posterior ≤ first.posterior
  unit : (result.candidates.map HostCandidate.posterior).sum + result.pNone = 1
  /-- Next to nothing may be more likely than nothing. -/
  nearer : ∀ host ∈ result.candidates, ∀ other ∈ result.candidates, host.fractionalOffset < other.fractionalOffset →
    (host.fractionalOffset = 0 → 1e-24 ≤ other.fractionalOffset) → other.posterior ≤ host.posterior
  considered : result.nConsidered = candidates.length
  passed : result.nPassedDlr = result.candidates.length
  ranks : result.nPassedDlr < 2 ^ 32 → (result.candidates.map HostCandidate.dlrRank).Perm (List.range' 1 result.nPassedDlr)
  ranked : result.nPassedDlr < 2 ^ 32 → ∀ host ∈ result.candidates, ∀ other ∈ result.candidates,
    host.dlrRank < other.dlrRank → host.fractionalOffset ≤ other.fractionalOffset

def resultOf (transient : Transient) (config : AssociationConfig) (candidates : List GalaxyCandidate) : AssociationResult where
  candidates := hostsOf transient config candidates
  pNone := if offsets transient config candidates = [] then 1 else pNullOf transient config candidates / totalOf transient config candidates
  nConsidered := candidates.length
  nPassedDlr := (hostsOf transient config candidates).length

section

variable {transient : Transient} {config : AssociationConfig} {candidates others : List GalaxyCandidate}

theorem unit_resultOf (positive : 0 < config.maxFractionalOffset) :
    ((resultOf transient config candidates).candidates.map HostCandidate.posterior).sum + (resultOf transient config candidates).pNone = 1 := by
  have total : 0 < totalOf transient config candidates := totalOf_pos positive
  unfold resultOf
  dsimp only
  split
  next none_ =>
    have noHosts : hostsOf transient config candidates = [] :=
      List.eq_nil_of_length_eq_zero (by rw [length_hostsOf, length_scoredOf, none_]; rfl)
    rw [noHosts, List.map_nil, List.sum_nil, zero_add]
  next =>
    rw [sum_posteriors positive, ← add_div]
    exact div_self total.ne'

theorem isAssociation_resultOf (positive : 0 < config.maxFractionalOffset) (floor : 0 < config.minBArcsec) :
    IsAssociation transient config candidates (resultOf transient config candidates) where
  passing := ⟨_, galaxies_hostsOf, fun _ ordinary => isSome_consider_iff floor ordinary⟩
  offset host there ordinary := by
    obtain ⟨scored, isScored, rfl⟩ := mem_hostsOf there
    obtain ⟨galaxy, -, dlr, rank, admitted, rfl⟩ := mem_scoredOf isScored
    exact isOffset_of_consider floor ordinary admitted
  positive host there := by
    obtain ⟨nonneg, same⟩ := posterior_hostsOf positive there
    rw [same]
    exact div_pos (div_pos (offsetLikelihood_pos nonneg) positive) (totalOf_pos positive)
  descending := hostsOf_descending positive
  unit := unit_resultOf positive
  nearer host there other there' less far := by
    refine posterior_le positive there there' ?_
    rcases (posterior_hostsOf positive there).1.eq_or_lt with zero | some_
    · rw [← zero]
      exact offsetLikelihood_le_at_zero (far zero.symm)
    · exact offsetLikelihood_anti some_ less.le
  considered := rfl
  passed := rfl
  ranks := ranks_hostsOf
  ranked few _ there _ there' before := offset_le_of_rank few there there' before

theorem associateHost_eq_take (some_ : candidates ≠ []) (positive : 0 < config.maxFractionalOffset) (most : Nat) :
    associateHost transient { config with maxCandidates := most } candidates =
      .ok { resultOf transient config candidates with candidates := (resultOf transient config candidates).candidates.take most } :=
  associateHost_eq some_ positive

/-- One unit is shared out between the galaxies that pass and there being no host: what is returned are the first
hosts of an association, and the galaxies in another order have the same one up to galaxies that stand equally. -/
theorem associateHost_shares (transient : Transient) (config : AssociationConfig) (candidates : List GalaxyCandidate)
    (positive : 0 < config.maxFractionalOffset) (floor : 0 < config.minBArcsec) :
    (candidates = [] → associateHost transient config candidates = .error .noCandidates) ∧
    (candidates ≠ [] → ∃ result, IsAssociation transient config candidates result ∧
      (∀ most, associateHost transient { config with maxCandidates := most } candidates =
        .ok { result with candidates := result.candidates.take most }) ∧
      ∀ others, candidates.Perm others → ∃ result', IsAssociation transient config others result' ∧
        (∀ most, associateHost transient { config with maxCandidates := most } others =
          .ok { result' with candidates := result'.candidates.take most }) ∧
        result'.candidates.map HostCandidate.standing = result.candidates.map HostCandidate.standing ∧
        (result'.candidates.map HostCandidate.placed).Perm (result.candidates.map HostCandidate.placed) ∧
        result'.pNone = result.pNone ∧ result'.nConsidered = result.nConsidered ∧ result'.nPassedDlr = result.nPassedDlr) := by
  refine ⟨fun none_ => by rw [none_]; rfl, fun some_ => ?_⟩
  refine ⟨_, isAssociation_resultOf positive floor, associateHost_eq_take some_ positive, fun others same => ?_⟩
  have some' : others ≠ [] := by
    rintro rfl
    exact some_ same.eq_nil
  have standings : (hostsOf transient config candidates).map HostCandidate.standing =
      (hostsOf transient config others).map HostCandidate.standing := standings_hostsOf same
  have count : (hostsOf transient config candidates).length = (hostsOf transient config others).length := by
    rw [← List.length_map HostCandidate.standing, standings, List.length_map]
  have rest : pNullOf transient config others = pNullOf transient config candidates := by
    rw [pNullOf, pNullOf, ← length_hostsOf, ← length_hostsOf, count]
  have admitted : offsets transient config others = [] ↔ offsets transient config candidates = [] := by
    rw [← List.length_eq_zero_iff, ← List.length_eq_zero_iff, ← length_scoredOf, ← length_scoredOf, ← length_hostsOf,
      ← length_hostsOf, count]
  refine ⟨_, isAssociation_resultOf positive floor, associateHost_eq_take some' positive, standings.symm,
    (placed_hostsOf same).symm, ?_, same.length_eq.symm, count.symm⟩
  simp only [resultOf, admitted, rest, totalOf_of_perm same]

end

/-! ## A small galaxy and a large one -/

def roundGalaxy (dec radius : ℝ) : GalaxyCandidate where
  ra := .finite 0
  dec := .finite dec
  aArcsec := .finite radius
  bArcsec := .finite radius
  paDeg := .finite 0
  redshift := none
  mag := none
  magErr := none

def origin : Transient := ⟨.finite 0, .finite 0⟩

section

variable {config : AssociationConfig} {dec radius offset : ℝ}

theorem eastOf_meridian (dec : ℝ) : eastOf 0 0 dec = 0 := by
  norm_num [eastOf]

theorem offsetIn_round (positive : 0 < radius) (north : ℝ) :
    ellipseOffset radius radius (toRadians 0) 0 north = |north| / radius := by
  have straight : toRadians 0 = 0 := zero_mul _
  have along : (0 * sin 0 + north * cos 0) / radius = north / radius := by rw [zero_mul, zero_add, cos_zero, mul_one]
  have across : (0 * cos 0 - north * sin 0) / radius = 0 := by rw [zero_mul, sin_zero, mul_zero, sub_zero, zero_div]
  rw [straight, ellipseOffset, hypot, along, across, zero_pow two_ne_zero, add_zero, sqrt_sq_eq_abs, abs_div, abs_of_pos positive]

theorem isOffset_round (large : config.minBArcsec ≤ radius) (positive : 0 < radius) :
    IsOffset origin config.minBArcsec (roundGalaxy dec radius) (offsetIn radius radius (toRadians 0) 0 (northOf 0 dec)) := by
  have placed : LiesAt origin (roundGalaxy dec radius) 0 (northOf 0 dec) :=
    ⟨0, 0, 0, dec, rfl, rfl, rfl, rfl, eastOf_meridian dec, rfl⟩
  refine ⟨radius, radius, 0, radius, radius, 0, _, ⟨rfl, rfl, rfl⟩, positive, ?_, ?_, large, placed, rfl⟩
  · rw [max_eq_left large, max_self]
  · rw [max_eq_left large, min_self]

theorem ordinary_round (large : config.minBArcsec ≤ radius) : Ordinary config.minBArcsec (roundGalaxy dec radius) where
  known := ⟨nofun, nofun⟩
  large _ same _ := by
    obtain rfl := Number.finite.inj same
    exact large

theorem exists_host_round {candidates : List GalaxyCandidate} (there : roundGalaxy dec radius ∈ candidates)
    (floor : 0 < config.minBArcsec) (large : config.minBArcsec ≤ radius) (near : offset ≤ config.maxFractionalOffset)
    (same : offsetIn radius radius (toRadians 0) 0 (northOf 0 dec) = offset) :
    ∃ host ∈ hostsOf origin config candidates, host.fractionalOffset = offset := by
  have some_ : 0 < radius := floor.trans_le large
  obtain ⟨ellipse, shaped, isMajor, isMinor, isAngle⟩ :=
    fromCandidate_of_shape (⟨rfl, rfl, rfl⟩ : HasShape (roundGalaxy dec radius) radius radius 0) some_ floor
  rw [max_eq_left large, max_self] at isMajor
  rw [max_eq_left large, min_self] at isMinor
  have isOffset : (dlrAt 0 (northOf 0 dec) ellipse).fractionalOffset = offset := by
    obtain ⟨positive, positive'⟩ := ellipse_pos shaped
    rw [fractionalOffset_dlrAt positive positive', isMajor, isMinor, isAngle, same]
  have placed : LiesAt origin (roundGalaxy dec radius) 0 (northOf 0 dec) :=
    ⟨0, 0, 0, dec, rfl, rfl, rfl, rfl, eastOf_meridian dec, rfl⟩
  have admitted : consider origin config (roundGalaxy dec radius) = some (roundGalaxy dec radius, dlrAt 0 (northOf 0 dec) ellipse) :=
    consider_eq_some_iff.mpr ⟨rfl, isOffset ▸ near, ellipse, shaped, 0, _, placed, rfl⟩
  have isEntry := (rising_perm (fun entry => entry.2.fractionalOffset) _).mem_iff.mpr (List.mem_filterMap.mpr ⟨_, there, admitted⟩)
  obtain ⟨rank, isRank⟩ := List.mem_iff_getElem?.mp isEntry
  have isScored : score config (_, rank) ∈ scoredOf origin config candidates :=
    List.mem_map_of_mem (List.mk_mem_zipIdx_iff_getElem?.mpr isRank)
  exact ⟨_, hostsOf_perm.mem_iff.mpr (List.mem_map_of_mem isScored), isOffset⟩

end

/-- A galaxy an arcsecond away, of two arcseconds, and one that the transient is at the centre of. -/
def awayAndCentred : List GalaxyCandidate := [roundGalaxy (-1 / 3600) 2, roundGalaxy 0 1]

theorem associateHost_shares_two : ∃ result, IsAssociation origin .default awayAndCentred result ∧
    (result.candidates.map HostCandidate.galaxy).Perm awayAndCentred ∧ (result.candidates.map HostCandidate.dlrRank).Perm [1, 2] ∧
    associateHost origin { AssociationConfig.default with maxCandidates := 1 } awayAndCentred =
      .ok { result with candidates := result.candidates.take 1 } := by
  obtain ⟨result, isAssociation, truncated, -⟩ := (associateHost_shares origin .default awayAndCentred
    (by norm_num [AssociationConfig.default]) (by norm_num [AssociationConfig.default])).2 (List.cons_ne_nil _ _)
  obtain ⟨passes, passed, exact_⟩ := isAssociation.passing
  have least : AssociationConfig.default.minBArcsec ≤ 1 ∧ AssociationConfig.default.minBArcsec ≤ 2 := by
    norm_num [AssociationConfig.default]
  have centred : offsetIn 1 1 (toRadians 0) 0 (northOf 0 0) = 0 := by
    norm_num [offsetIn, northOf, hypot]
  have far : hypot 0 (northOf 0 (-1 / 3600)) = 1 := by
    norm_num [northOf, hypot]
  have away : offsetIn 2 2 (toRadians 0) 0 (northOf 0 (-1 / 3600)) = 1 / 2 := by
    rw [offsetIn_eq (by norm_num) (by norm_num) _ (by rw [far]; norm_num), offsetIn_round (by norm_num)]
    norm_num [northOf]
  have both : awayAndCentred.filter passes = awayAndCentred := by
    refine List.filter_eq_self.mpr fun galaxy there => ?_
    rcases List.mem_pair.mp there with rfl | rfl
    · refine (exact_ _ (ordinary_round least.2)).mpr ⟨_, isOffset_round least.2 zero_lt_two, ?_⟩
      rw [away]
      norm_num [AssociationConfig.default]
    · refine (exact_ _ (ordinary_round least.1)).mpr ⟨_, isOffset_round least.1 zero_lt_one, ?_⟩
      rw [centred]
      norm_num [AssociationConfig.default]
  rw [both] at passed
  have two : result.nPassedDlr = 2 := isAssociation.passed.trans ((List.length_map _).symm.trans passed.length_eq)
  have ranks := isAssociation.ranks (by rw [two]; norm_num)
  rw [two] at ranks
  exact ⟨result, isAssociation, passed, ranks, truncated 1⟩

theorem offsetLikelihood_zero_lt : offsetLikelihood 0 < offsetLikelihood 1e-30 := by
  have small : (1e-30 : ℝ) = 10 ^ (-30 : ℝ) := by
    rw [rpow_neg (by norm_num), show (30 : ℝ) = ((30 : ℕ) : ℝ) by norm_num, rpow_natCast]
    norm_num
  have power : (1e7 : ℝ) ≤ 1e-30 ^ (-0.25 : ℝ) := by
    rw [small, rpow_tenth]
    calc (1e7 : ℝ) = 10 ^ (7 : ℝ) := by rw [show (7 : ℝ) = ((7 : ℕ) : ℝ) by norm_num, rpow_natCast]; norm_num
      _ ≤ 10 ^ ((30 : ℝ) / 4) := rpow_le_rpow_of_exponent_le (by norm_num) (by norm_num)
  have decay : (1 / 2 : ℝ) ≤ exp (-1e-30) := by
    refine le_trans ?_ (add_one_le_exp _)
    norm_num
  rw [offsetLikelihood_zero, offsetLikelihood_of_pos (by norm_num), lt_div_iff₀ gamma_pos]
  calc (1e6 : ℝ) * GAMMA_0_75 < 1e7 * (1 / 2) := by norm_num [GAMMA_0_75]
    _ ≤ 1e-30 ^ (-0.25 : ℝ) * exp (-1e-30) := mul_le_mul power decay (by norm_num) (by positivity)

def smallAndLarge : List GalaxyCandidate := [roundGalaxy 0 1, roundGalaxy (-1 / 3600) 1e30]

/-- A transient at the centre of a small galaxy, and an arcsecond from the centre of a very large one. -/
theorem large_galaxy_before_centre : ∃ result, associateHost origin .default smallAndLarge = .ok result ∧
    ∃ host ∈ result.candidates, ∃ other ∈ result.candidates,
      host.fractionalOffset < other.fractionalOffset ∧ host.posterior < other.posterior := by
  have positive : 0 < AssociationConfig.default.maxFractionalOffset := by norm_num [AssociationConfig.default]
  have floor : 0 < AssociationConfig.default.minBArcsec := by norm_num [AssociationConfig.default]
  have centred : offsetIn 1 1 (toRadians 0) 0 (northOf 0 0) = 0 := by
    norm_num [offsetIn, northOf, hypot]
  have far : hypot 0 (northOf 0 (-1 / 3600)) = 1 := by
    norm_num [northOf, hypot]
  have outside : offsetIn 1e30 1e30 (toRadians 0) 0 (northOf 0 (-1 / 3600)) = 1e-30 := by
    rw [offsetIn_eq (by norm_num) (by norm_num) _ (by rw [far]; norm_num), offsetIn_round (by norm_num)]
    norm_num [northOf]
  obtain ⟨host, isHost, isCentred⟩ : ∃ host ∈ hostsOf origin .default smallAndLarge, host.fractionalOffset = 0 :=
    exists_host_round List.mem_cons_self floor (by norm_num [AssociationConfig.default]) positive.le centred
  obtain ⟨other, isOther, isOutside⟩ : ∃ host ∈ hostsOf origin .default smallAndLarge, host.fractionalOffset = 1e-30 :=
    exists_host_round (List.mem_cons_of_mem _ List.mem_cons_self) floor (by norm_num [AssociationConfig.default])
      (by norm_num [AssociationConfig.default]) outside
  have few : (hostsOf origin .default smallAndLarge).length ≤ AssociationConfig.default.maxCandidates := by
    rw [length_hostsOf, length_scoredOf]
    exact (List.length_filterMap_le _ _).trans (by decide)
  refine ⟨_, associateHost_eq (List.cons_ne_nil _ _) positive, ?_⟩
  rw [List.take_of_length_le few]
  refine ⟨host, isHost, other, isOther, ?_, ?_⟩
  · rw [isCentred, isOutside]
    norm_num
  · rw [(posterior_hostsOf positive isHost).2, (posterior_hostsOf positive isOther).2, isCentred, isOutside]
    exact div_lt_div_of_pos_right (div_lt_div_of_pos_right offsetLikelihood_zero_lt positive) (totalOf_pos positive)

end

end Boom.Utils.Host
