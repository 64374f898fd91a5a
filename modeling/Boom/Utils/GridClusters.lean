import Boom.Foundations.Components
import Boom.Utils.SkyAngles
import Mathlib.Analysis.SpecialFunctions.Pow.NNReal

/-! # Clustering on a grid

Propagated states that agree, and shifted detections that coincide, belong to one object.
Both searches look only at the cells of a grid around an item; what they find are the connected
components all the same.

Numbers are real, and cells are numbered with the integers of a machine. -/

namespace Boom.Utils

open Boom.Foundations

/-! ## Cells -/

noncomputable def cellOf (value size : ℝ) : Int :=
  toI64 ⌊value / size⌋

def steps : List Int := [-1, 0, 1]

theorem cellOf_step {value other size : ℝ} (positive : 0 < size) (close : |other - value| ≤ size) :
    ∃ step ∈ steps, addI64 (cellOf value size) step = cellOf other size := by
  have bounds := abs_le.mp close
  have upper : other / size ≤ value / size + 1 := by
    rw [div_add_one positive.ne']
    exact div_le_div_of_nonneg_right (by linarith) positive.le
  have lower : value / size ≤ other / size + 1 := by
    rw [div_add_one positive.ne']
    exact div_le_div_of_nonneg_right (by linarith) positive.le
  have above : ⌊other / size⌋ ≤ ⌊value / size⌋ + 1 := by
    rw [← Int.floor_add_one]
    exact Int.floor_le_floor upper
  have below : ⌊value / size⌋ ≤ ⌊other / size⌋ + 1 := by
    rw [← Int.floor_add_one]
    exact Int.floor_le_floor lower
  refine ⟨cellOf other size - cellOf value size, ?_, ?_⟩
  · simp only [steps, cellOf, toI64, List.mem_cons, List.not_mem_nil, or_false]
    omega
  · -- The sum is a cell again, so it does not wrap.
    rw [addI64, add_sub_cancel, cellOf]
    generalize ⌊other / size⌋ = index
    unfold toI64
    exact Int.bmod_eq_of_le (by omega) (by omega)

/-! ## States of one hypothesis -/

structure Vec3 where
  x : ℝ
  y : ℝ
  z : ℝ

namespace Vec3

def sub (first second : Vec3) : Vec3 :=
  ⟨first.x - second.x, first.y - second.y, first.z - second.z⟩

noncomputable def norm (vector : Vec3) : ℝ :=
  Real.sqrt (vector.x * vector.x + vector.y * vector.y + vector.z * vector.z)

theorem abs_le_norm (vector : Vec3) : |vector.x| ≤ vector.norm ∧ |vector.y| ≤ vector.norm ∧ |vector.z| ≤ vector.norm := by
  have x := mul_self_nonneg vector.x
  have y := mul_self_nonneg vector.y
  have z := mul_self_nonneg vector.z
  refine ⟨Real.abs_le_sqrt ?_, Real.abs_le_sqrt ?_, Real.abs_le_sqrt ?_⟩ <;> nlinarith

theorem norm_sub_comm (first second : Vec3) : (first.sub second).norm = (second.sub first).norm := by
  unfold norm sub
  congr 1
  ring

end Vec3

structure State where
  pos : Vec3
  vel : Vec3

structure LinkTolerances where
  positionTolAu : ℝ
  velocityTolAuPerDay : ℝ

noncomputable def cell (pos : Vec3) (tol : ℝ) : Int × Int × Int :=
  (cellOf pos.x tol, cellOf pos.y tol, cellOf pos.z tol)

open Classical in
noncomputable def agree (first second : State) (cfg : LinkTolerances) : Bool :=
  decide ((second.pos.sub first.pos).norm ≤ cfg.positionTolAu) &&
    decide ((second.vel.sub first.vel).norm ≤ cfg.velocityTolAuPerDay)

section Hypothesis

variable (cfg : LinkTolerances) (states : List (Nat × State))

noncomputable def bucket (key : Int × Int × Int) : List Nat :=
  (List.range states.length).filter fun k => (states[k]?.map fun entry => cell entry.2.pos cfg.positionTolAu) = some key

noncomputable def agreeing (first second : Nat) : Bool :=
  match states[first]?, states[second]? with
  | some first, some second => agree first.2 second.2 cfg
  | _, _ => false

noncomputable def around (current : Nat) : List Nat :=
  match states[current]? with
  | none => []
  | some entry =>
    let base := cell entry.2.pos cfg.positionTolAu
    steps.flatMap fun dx => steps.flatMap fun dy => steps.flatMap fun dz =>
      bucket cfg states (addI64 base.1 dx, addI64 base.2.1 dy, addI64 base.2.2 dz)

noncomputable def connectedGroups : Option (List (List Nat)) :=
  groupsFrom (agreeing cfg states) (around cfg states) states.length (List.range states.length) []

variable {cfg states}

theorem mem_bucket {k : Nat} {entry : Nat × State} (isState : states[k]? = some entry) :
    k ∈ bucket cfg states (cell entry.2.pos cfg.positionTolAu) := by
  obtain ⟨inside, -⟩ := List.getElem?_eq_some_iff.mp isState
  rw [bucket, List.mem_filter, List.mem_range, isState]
  exact ⟨inside, by simp⟩

theorem agree_symm (first second : State) (agrees : agree first second cfg = true) : agree second first cfg = true := by
  rw [agree, Vec3.norm_sub_comm first.pos, Vec3.norm_sub_comm first.vel]
  exact agrees

theorem shortlisted_around (positive : 0 < cfg.positionTolAu) :
    Shortlisted (agreeing cfg states) (around cfg states) states.length where
  symm first second := by
    unfold agreeing
    cases states[first]? <;> cases states[second]? <;> simp only [Bool.false_eq_true, imp_self]
    exact agree_symm _ _
  listed first second inside inside' agrees := by
    unfold agreeing at agrees
    rw [List.getElem?_eq_getElem inside, List.getElem?_eq_getElem inside'] at agrees
    simp only [agree, Bool.and_eq_true, decide_eq_true_eq] at agrees
    obtain ⟨x, y, z⟩ := (states[second].2.pos.sub states[first].2.pos).abs_le_norm
    obtain ⟨dx, isStep, sameX⟩ := cellOf_step positive (x.trans agrees.1)
    obtain ⟨dy, isStep', sameY⟩ := cellOf_step positive (y.trans agrees.1)
    obtain ⟨dz, isStep'', sameZ⟩ := cellOf_step positive (z.trans agrees.1)
    rw [around, List.getElem?_eq_getElem inside]
    refine List.mem_flatMap.mpr ⟨dx, isStep, List.mem_flatMap.mpr ⟨dy, isStep', List.mem_flatMap.mpr ⟨dz, isStep'', ?_⟩⟩⟩
    simp only [cell, sameX, sameY, sameZ]
    exact mem_bucket (List.getElem?_eq_getElem inside')
  bounded first second listed := by
    unfold around at listed
    split at listed
    · cases listed
    · simp only [List.mem_flatMap] at listed
      obtain ⟨_, _, _, _, _, _, inBucket⟩ := listed
      exact List.mem_range.mp (List.mem_filter.mp inBucket).1

end Hypothesis

/-! ## Detections at a trial drift -/

structure Projected where
  id : Int
  jd : ℝ
  x : ℝ
  y : ℝ

section Drift

variable (clusterRadiusArcsec vx vy : ℝ) (projected : List Projected)

noncomputable def meanJd : ℝ :=
  (projected.map (·.jd)).sum / projected.length

noncomputable def shifted : List (ℝ × ℝ) :=
  projected.map fun p =>
    let dt := p.jd - meanJd projected
    (p.x - vx * dt, p.y - vy * dt)

noncomputable def cellSize : ℝ :=
  clusterRadiusArcsec / 3600

noncomputable def planeCell (at_ : ℝ × ℝ) : Int × Int :=
  (cellOf at_.1 (cellSize clusterRadiusArcsec), cellOf at_.2 (cellSize clusterRadiusArcsec))

noncomputable def planeBucket (key : Int × Int) : List Nat :=
  (List.range projected.length).filter fun k =>
    ((shifted vx vy projected)[k]?.map (planeCell clusterRadiusArcsec)) = some key

open Classical in
noncomputable def coinciding (current m : Nat) : Bool :=
  match (shifted vx vy projected)[current]?, (shifted vx vy projected)[m]? with
  | some (cx, cy), some (mx, my) => decide (hypot (mx - cx) (my - cy) ≤ cellSize clusterRadiusArcsec)
  | _, _ => false

noncomputable def planeAround (current : Nat) : List Nat :=
  match (shifted vx vy projected)[current]? with
  | none => []
  | some at_ =>
    let base := planeCell clusterRadiusArcsec at_
    steps.flatMap fun dx => steps.flatMap fun dy =>
      planeBucket clusterRadiusArcsec vx vy projected (addI64 base.1 dx, addI64 base.2 dy)

noncomputable def driftGroups : Option (List (List Nat)) :=
  (groupsFrom (coinciding clusterRadiusArcsec vx vy projected) (planeAround clusterRadiusArcsec vx vy projected)
    projected.length (List.range projected.length) []).map fun groups => groups.map fun members => members.mergeSort (· ≤ ·)

variable {clusterRadiusArcsec vx vy projected}

theorem length_shifted : (shifted vx vy projected).length = projected.length :=
  List.length_map _

theorem mem_planeBucket {k : Nat} {at_ : ℝ × ℝ} (isShifted : (shifted vx vy projected)[k]? = some at_) :
    k ∈ planeBucket clusterRadiusArcsec vx vy projected (planeCell clusterRadiusArcsec at_) := by
  obtain ⟨inside, -⟩ := List.getElem?_eq_some_iff.mp isShifted
  rw [length_shifted] at inside
  rw [planeBucket, List.mem_filter, List.mem_range, isShifted]
  exact ⟨inside, by simp⟩

theorem shortlisted_planeAround (positive : 0 < clusterRadiusArcsec) :
    Shortlisted (coinciding clusterRadiusArcsec vx vy projected) (planeAround clusterRadiusArcsec vx vy projected)
      projected.length where
  symm first second := by
    unfold coinciding
    cases (shifted vx vy projected)[first]? <;> cases (shifted vx vy projected)[second]? <;>
      simp only [Bool.false_eq_true, imp_self]
    rw [hypot_sub_comm]
    exact id
  listed first second inside inside' coincides := by
    have size : 0 < cellSize clusterRadiusArcsec := div_pos positive (by norm_num)
    rw [← @length_shifted vx vy projected] at inside inside'
    unfold coinciding at coincides
    rw [List.getElem?_eq_getElem inside, List.getElem?_eq_getElem inside'] at coincides
    have close := of_decide_eq_true coincides
    obtain ⟨x, y⟩ := abs_le_hypot ((shifted vx vy projected)[second].1 - (shifted vx vy projected)[first].1)
      ((shifted vx vy projected)[second].2 - (shifted vx vy projected)[first].2)
    obtain ⟨dx, isStep, sameX⟩ := cellOf_step size (x.trans close)
    obtain ⟨dy, isStep', sameY⟩ := cellOf_step size (y.trans close)
    rw [planeAround, List.getElem?_eq_getElem inside]
    refine List.mem_flatMap.mpr ⟨dx, isStep, List.mem_flatMap.mpr ⟨dy, isStep', ?_⟩⟩
    simp only [planeCell, sameX, sameY]
    exact mem_planeBucket (List.getElem?_eq_getElem inside')
  bounded first second listed := by
    unfold planeAround at listed
    split at listed
    · cases listed
    · simp only [List.mem_flatMap] at listed
      obtain ⟨_, _, _, _, inBucket⟩ := listed
      exact List.mem_range.mp (List.mem_filter.mp inBucket).1

end Drift

/-! ## The groups -/

def reorder {α : Type} (items : List α) (rename : Fin items.length ≃ Fin items.length) : List α :=
  List.ofFn fun k => items.get (rename k)

theorem length_reorder {α : Type} (items : List α) (rename : Fin items.length ≃ Fin items.length) :
    (reorder items rename).length = items.length := List.length_ofFn

theorem getElem?_reorder {α : Type} (items : List α) (rename : Fin items.length ≃ Fin items.length)
    (k : Fin items.length) : (reorder items rename)[k.val]? = items[(rename k).val]? := by
  rw [reorder, List.getElem?_ofFn, dif_pos k.isLt, List.getElem?_eq_getElem (rename k).isLt]
  rfl

theorem connectedGroups_spec {cfg : LinkTolerances} (positive : 0 < cfg.positionTolAu) (states : List (Nat × State)) :
    ∃ groups, connectedGroups cfg states = some groups ∧ Components (agreeing cfg states) states.length groups :=
  groups_components (shortlisted_around positive)

theorem driftGroups_spec {clusterRadiusArcsec : ℝ} (positive : 0 < clusterRadiusArcsec) (vx vy : ℝ)
    (projected : List Projected) : ∃ groups, driftGroups clusterRadiusArcsec vx vy projected = some groups ∧
      Components (coinciding clusterRadiusArcsec vx vy projected) projected.length groups := by
  obtain ⟨groups, found, grouped⟩ := groups_components (@shortlisted_planeAround _ vx vy projected positive)
  refine ⟨_, by rw [driftGroups, found, Option.map_some], grouped.map fun members => List.mergeSort_perm _ _⟩

theorem reorder_perm {α : Type} (items : List α) (rename : Fin items.length ≃ Fin items.length) :
    (reorder items rename).Perm items := by
  have arranged := Equiv.Perm.ofFn_comp_perm rename items.get
  rwa [List.ofFn_get] at arranged

theorem meanJd_reorder (projected : List Projected) (rename : Fin projected.length ≃ Fin projected.length) :
    meanJd (reorder projected rename) = meanJd projected := by
  rw [meanJd, meanJd, ((reorder_perm projected rename).map _).sum_eq, length_reorder]

/-- The groups of either search are the connected components, each item in one of them, and
    the same ones whatever the order of the items: of the states of a hypothesis, where those
    that agree are joined, and of the detections without a trial drift, where those within the
    cluster radius are joined. -/
theorem groups_are_components :
    (∀ (cfg : LinkTolerances) (states : List (Nat × State)), 0 < cfg.positionTolAu →
      ∃ groups, connectedGroups cfg states = some groups ∧ Components (agreeing cfg states) states.length groups ∧
        ∀ rename : Fin states.length ≃ Fin states.length, ∃ groups', connectedGroups cfg (reorder states rename) = some groups' ∧
          ∀ first second : Fin states.length,
            Together groups' first second ↔ Together groups (rename first) (rename second)) ∧
      ∀ (clusterRadiusArcsec vx vy : ℝ) (projected : List Projected), 0 < clusterRadiusArcsec →
        ∃ groups, driftGroups clusterRadiusArcsec vx vy projected = some groups ∧
          Components (coinciding clusterRadiusArcsec vx vy projected) projected.length groups ∧
          ∀ rename : Fin projected.length ≃ Fin projected.length,
            ∃ groups', driftGroups clusterRadiusArcsec vx vy (reorder projected rename) = some groups' ∧
              ∀ first second : Fin projected.length,
                Together groups' first second ↔ Together groups (rename first) (rename second) := by
  constructor
  · intro cfg states positive
    obtain ⟨groups, found, grouped⟩ := connectedGroups_spec positive states
    refine ⟨groups, found, grouped, fun rename => ?_⟩
    obtain ⟨groups', found', grouped'⟩ := connectedGroups_spec positive (reorder states rename)
    rw [length_reorder] at grouped'
    refine ⟨groups', found', grouped.together_renumbered grouped' rename fun first second => ?_⟩
    rw [agreeing, agreeing, getElem?_reorder, getElem?_reorder]
  · intro clusterRadiusArcsec vx vy projected positive
    obtain ⟨groups, found, grouped⟩ := driftGroups_spec positive vx vy projected
    refine ⟨groups, found, grouped, fun rename => ?_⟩
    obtain ⟨groups', found', grouped'⟩ := driftGroups_spec positive vx vy (reorder projected rename)
    rw [length_reorder] at grouped'
    refine ⟨groups', found', grouped.together_renumbered grouped' rename fun first second => ?_⟩
    have same (k : Fin projected.length) :
        (shifted vx vy (reorder projected rename))[k.val]? = (shifted vx vy projected)[(rename k).val]? := by
      simp only [shifted, meanJd_reorder, List.getElem?_map, getElem?_reorder]
    rw [coinciding, coinciding, same, same]

/-- Three states a tolerance of one apart, and three detections that drift. -/
theorem groups_are_components_threes :
    (∃ groups, connectedGroups ⟨1, 1⟩ [(4, ⟨⟨0, 0, 0⟩, ⟨0, 0, 0⟩⟩), (7, ⟨⟨1, 0, 0⟩, ⟨0, 1, 0⟩⟩), (9, ⟨⟨5, 0, 0⟩, ⟨0, 0, 0⟩⟩)] =
        some groups ∧
      Components (agreeing ⟨1, 1⟩ [(4, ⟨⟨0, 0, 0⟩, ⟨0, 0, 0⟩⟩), (7, ⟨⟨1, 0, 0⟩, ⟨0, 1, 0⟩⟩), (9, ⟨⟨5, 0, 0⟩, ⟨0, 0, 0⟩⟩)]) 3
        groups) ∧
      ∃ groups, driftGroups 3600 1 0 [⟨1, 0, 0, 0⟩, ⟨2, 1, 1, 0⟩, ⟨3, 2, 9, 0⟩] = some groups ∧
        Components (coinciding 3600 1 0 [⟨1, 0, 0, 0⟩, ⟨2, 1, 1, 0⟩, ⟨3, 2, 9, 0⟩]) 3 groups := by
  obtain ⟨groups, found, grouped, -⟩ := groups_are_components.1 ⟨1, 1⟩
    [(4, ⟨⟨0, 0, 0⟩, ⟨0, 0, 0⟩⟩), (7, ⟨⟨1, 0, 0⟩, ⟨0, 1, 0⟩⟩), (9, ⟨⟨5, 0, 0⟩, ⟨0, 0, 0⟩⟩)] one_pos
  obtain ⟨groups', found', grouped', -⟩ := groups_are_components.2 3600 1 0
    [⟨1, 0, 0, 0⟩, ⟨2, 1, 1, 0⟩, ⟨3, 2, 9, 0⟩] (by norm_num)
  exact ⟨⟨groups, found, grouped⟩, groups', found', grouped'⟩

end Boom.Utils
