import Mathlib.Data.List.Nodup
import Mathlib.Data.List.Perm.Subperm

/-! # Union-find with path halving

Items are numbered and each has a parent, a root being its own.  Looking up a root makes items
on the way children of their grandparents; linking two items gives the root of the first the
root of the second for a parent.

`none` stands for a number that is not an item, or for a lookup that does not end. -/

namespace Boom.Foundations

def rootOf : Nat → List Nat → Nat → Option (Nat × List Nat)
  | fuel, parent, item => do
    let up ← parent[item]?
    if up = item then return (item, parent)
    let grand ← parent[up]?
    match fuel with
    | 0 => none
    | fuel + 1 => rootOf fuel (parent.set item grand) grand

def link (parent : List Nat) (first second : Nat) : Option (List Nat) := do
  let (root, parent) ← rootOf parent.length parent first
  let (root', parent) ← rootOf parent.length parent second
  return if root = root' then parent else parent.set root root'

def linkAll (parent : List Nat) : List (Nat × Nat) → Option (List Nat)
  | [] => some parent
  | edge :: edges => do linkAll (← link parent edge.1 edge.2) edges

def rootsOf (parent : List Nat) : List Nat → Option (List Nat)
  | [] => some []
  | item :: items => do
    let (root, parent) ← rootOf parent.length parent item
    return root :: (← rootsOf parent items)

/-! ## Following parents -/

/-- So many parents up is the root. -/
inductive Reaches (parent : List Nat) : Nat → Nat → Nat → Prop where
  | root {root : Nat} : parent[root]? = some root → Reaches parent 0 root root
  | step {steps item up root : Nat} : parent[item]? = some up → up ≠ item → Reaches parent steps up root →
      Reaches parent (steps + 1) item root

section Reaches

variable {parent : List Nat} {steps steps' item root root' : Nat}

section

variable (reaches : Reaches parent steps item root)
include reaches

theorem Reaches.unique (reaches' : Reaches parent steps' item root') :
    steps = steps' ∧ root = root' := by
  induction reaches generalizing steps' with
  | root own =>
    cases reaches' with
    | root _ => exact ⟨rfl, rfl⟩
    | step up moved _ => exact absurd (Option.some.inj (up.symm.trans own)) moved
  | step up moved _ ih =>
    cases reaches' with
    | root own => exact absurd (Option.some.inj (up.symm.trans own)) moved
    | step up' _ later =>
      obtain rfl := Option.some.inj (up.symm.trans up')
      obtain ⟨rfl, same⟩ := ih later
      exact ⟨rfl, same⟩

theorem Reaches.isRoot : parent[root]? = some root := by
  induction reaches with
  | root own => exact own
  | step _ _ _ ih => exact ih

theorem Reaches.exists_way : ∃ way : List Nat,
    way.length = steps + 1 ∧ way.Nodup ∧
      ∀ other ∈ way, other < parent.length ∧ ∃ left ≤ steps, Reaches parent left other root := by
  induction reaches with
  | @root root own =>
    refine ⟨[root], rfl, List.nodup_singleton root, fun other there => ?_⟩
    obtain rfl := List.mem_singleton.mp there
    exact ⟨(List.getElem?_eq_some_iff.mp own).1, 0, Nat.le_refl 0, .root own⟩
  | @step steps item up root isUp moved later ih =>
    obtain ⟨way, long, nodup, each⟩ := ih
    have whole : Reaches parent (steps + 1) item root := .step isUp moved later
    refine ⟨item :: way, by simp [long], List.nodup_cons.mpr ⟨fun there => ?_, nodup⟩, fun other there => ?_⟩
    · -- the item itself is farther from the root than what follows it
      obtain ⟨_, left, bounded, reaches⟩ := each item there
      have same := (reaches.unique whole).1
      omega
    · rcases List.mem_cons.mp there with rfl | later
      · exact ⟨(List.getElem?_eq_some_iff.mp isUp).1, steps + 1, Nat.le_refl _, whole⟩
      · obtain ⟨inside, left, bounded, reaches⟩ := each other later
        exact ⟨inside, left, by omega, reaches⟩

theorem Reaches.lt_length : steps < parent.length := by
  obtain ⟨way, long, nodup, each⟩ := reaches.exists_way
  have inRange : way ⊆ List.range parent.length := fun other there => List.mem_range.mpr (each other there).1
  have bounded := (nodup.subperm inRange).length_le
  rw [List.length_range] at bounded
  omega

end

theorem Reaches.halve {at_ up grand : Nat} (isUp : parent[at_]? = some up) (moved : up ≠ at_)
    (isGrand : parent[up]? = some grand) (reaches : Reaches parent steps item root) :
    ∃ fewer ≤ steps, Reaches (parent.set at_ grand) fewer item root := by
  have inside : at_ < parent.length := (List.getElem?_eq_some_iff.mp isUp).1
  induction steps using Nat.strongRecOn generalizing item with
  | ind steps ih =>
    cases reaches with
    | root own =>
      have elsewhere : at_ ≠ root := by
        rintro rfl
        exact moved (Option.some.inj (isUp.symm.trans own))
      exact ⟨0, Nat.le_refl 0, .root (by rw [List.getElem?_set_ne elsewhere, own])⟩
    | @step left _ next _ isNext goes later =>
      by_cases here : item = at_
      · subst here
        obtain rfl := Option.some.inj (isUp.symm.trans isNext)
        have halved : (parent.set item grand)[item]? = some grand := List.getElem?_set_self inside
        cases later with
        | root own =>
          -- the parent is the root already
          obtain rfl := Option.some.inj (isGrand.symm.trans own)
          refine ⟨1, by omega, .step halved goes (.root ?_)⟩
          rw [List.getElem?_set_ne (Ne.symm goes), own]
        | @step fewer _ next' _ isNext' goes' later =>
          obtain rfl := Option.some.inj (isGrand.symm.trans isNext')
          obtain ⟨least, bounded, reaches⟩ := ih fewer (by omega) later
          have elsewhere : grand ≠ item := by
            rintro rfl
            have same := (later.unique (.step isUp moved (.step isGrand goes' later))).1
            omega
          exact ⟨least + 1, by omega, .step halved elsewhere reaches⟩
      · obtain ⟨fewer, bounded, reaches⟩ := ih left (by omega) later
        exact ⟨fewer + 1, by omega, .step (by rw [List.getElem?_set_ne (Ne.symm here), isNext]) goes reaches⟩

end Reaches

/-! ## Representatives -/

def Represents (parent : List Nat) (representative : Nat → Nat) : Prop :=
  ∀ item < parent.length, ∃ steps, Reaches parent steps item (representative item)

section Represents

variable {parent : List Nat} {representative : Nat → Nat} {item : Nat}

section

variable (represents : Represents parent representative)
include represents

theorem rootOf_of_reaches {fuel steps root : Nat} (reaches : Reaches parent steps item root) (enough : steps ≤ fuel) :
    ∃ parent', rootOf fuel parent item = some (root, parent') ∧ parent'.length = parent.length ∧
      Represents parent' representative := by
  induction fuel generalizing parent item steps with
  | zero =>
    obtain rfl : steps = 0 := by omega
    cases reaches with
    | root own => exact ⟨parent, by rw [rootOf]; simp [own], rfl, represents⟩
  | succ fuel ih =>
    cases reaches with
    | root own => exact ⟨parent, by rw [rootOf]; simp [own], rfl, represents⟩
    | @step left _ up _ isUp goes later =>
      obtain ⟨grand, isGrand⟩ : ∃ grand, parent[up]? = some grand := by
        cases later with
        | root own => exact ⟨_, own⟩
        | step isNext _ _ => exact ⟨_, isNext⟩
      have halved : Represents (parent.set item grand) representative := by
        intro other there
        rw [List.length_set] at there
        obtain ⟨_, reaches⟩ := represents other there
        obtain ⟨fewer, _, reaches⟩ := reaches.halve isUp goes isGrand
        exact ⟨fewer, reaches⟩
      -- the grandparent is nearer to the root than the item
      obtain ⟨nearer, closer, toGrand⟩ : ∃ nearer ≤ left, Reaches (parent.set item grand) nearer grand root := by
        cases later with
        | root own =>
          obtain rfl := Option.some.inj (isGrand.symm.trans own)
          exact (Reaches.root own).halve isUp goes isGrand
        | step isNext _ later =>
          obtain rfl := Option.some.inj (isGrand.symm.trans isNext)
          obtain ⟨fewer, bounded, reaches⟩ := later.halve isUp goes isGrand
          exact ⟨fewer, by omega, reaches⟩
      obtain ⟨parent', found, sameLength, represents'⟩ := ih halved toGrand (by omega)
      refine ⟨parent', ?_, by rw [sameLength, List.length_set], represents'⟩
      rw [rootOf]
      simp [isUp, goes, isGrand, found]

theorem rootOf_eq (inside : item < parent.length) :
    ∃ parent', rootOf parent.length parent item = some (representative item, parent') ∧
      parent'.length = parent.length ∧ Represents parent' representative := by
  obtain ⟨steps, reaches⟩ := represents item inside
  exact rootOf_of_reaches represents reaches (Nat.le_of_lt reaches.lt_length)

end

theorem Reaches.set {root root' steps found : Nat} (own : parent[root]? = some root) (own' : parent[root']? = some root')
    (apart : root ≠ root') (reaches : Reaches parent steps item found) :
    ∃ further, Reaches (parent.set root root') further item (if found = root then root' else found) := by
  have inside : root < parent.length := (List.getElem?_eq_some_iff.mp own).1
  have still : (parent.set root root')[root']? = some root' := by rw [List.getElem?_set_ne apart, own']
  induction reaches with
  | @root found isRoot =>
    split
    next here =>
      subst here
      exact ⟨1, .step (List.getElem?_set_self inside) (Ne.symm apart) (.root still)⟩
    next elsewhere => exact ⟨0, .root (by rw [List.getElem?_set_ne (Ne.symm elsewhere), isRoot])⟩
  | @step steps item up found isUp goes _ ih =>
    obtain ⟨further, reaches⟩ := ih
    have elsewhere : root ≠ item := by
      rintro rfl
      exact goes (Option.some.inj (isUp.symm.trans own))
    exact ⟨further + 1, .step (by rw [List.getElem?_set_ne elsewhere, isUp]) goes reaches⟩

theorem Represents.set {root root' : Nat} (represents : Represents parent representative)
    (own : parent[root]? = some root) (own' : parent[root']? = some root') (apart : root ≠ root') :
    Represents (parent.set root root') fun item => if representative item = root then root' else representative item := by
  intro item there
  rw [List.length_set] at there
  obtain ⟨_, reaches⟩ := represents item there
  exact reaches.set own own' apart

theorem link_eq {first second : Nat} (represents : Represents parent representative) (inside : first < parent.length)
    (inside' : second < parent.length) : ∃ parent', link parent first second = some parent' ∧
      parent'.length = parent.length ∧ Represents parent' fun item =>
        if representative item = representative first then representative second else representative item := by
  obtain ⟨looked, found, sameLength, represents'⟩ := rootOf_eq represents inside
  obtain ⟨looked', found', sameLength', represents''⟩ := rootOf_eq represents' (sameLength ▸ inside')
  have linked : link parent first second = some (if representative first = representative second then looked'
      else looked'.set (representative first) (representative second)) := by
    simp [link, found, found']
  obtain ⟨_, reaches⟩ := represents'' first (by omega)
  obtain ⟨_, reaches'⟩ := represents'' second (by omega)
  refine ⟨_, linked, ?_⟩
  split
  next same =>
    refine ⟨by omega, ?_⟩
    have redirected : (fun item => if representative item = representative first then representative second
        else representative item) = representative := by
      funext item
      split
      next here => rw [here, same]
      next => rfl
    rwa [redirected]
  next apart => exact ⟨by rw [List.length_set]; omega, represents''.set reaches.isRoot reaches'.isRoot apart⟩

end Represents

/-! ## All links -/

def Connected (edges : List (Nat × Nat)) : Nat → Nat → Prop :=
  Relation.EqvGen fun first second => (first, second) ∈ edges

theorem Connected.mono {edges more : List (Nat × Nat)} {first second : Nat} (within : edges ⊆ more)
    (connected : Connected edges first second) : Connected more first second :=
  Relation.EqvGen.mono (fun _ _ there => within there) _ _ connected

theorem linkAll_eq {count : Nat} (edges : List (Nat × Nat)) (inside : ∀ edge ∈ edges, edge.1 < count ∧ edge.2 < count) :
    ∃ parent representative, linkAll (List.range count) edges = some parent ∧ parent.length = count ∧
      Represents parent representative ∧
      ∀ first second, representative first = representative second ↔ Connected edges first second := by
  -- the links made so far, and those to come
  have run (made coming : List (Nat × Nat)) (inside : ∀ edge ∈ coming, edge.1 < count ∧ edge.2 < count)
      (parent : List Nat) (representative : Nat → Nat) (sameLength : parent.length = count)
      (represents : Represents parent representative)
      (same : ∀ first second, representative first = representative second ↔ Connected made first second) :
      ∃ parent' representative', linkAll parent coming = some parent' ∧ parent'.length = count ∧
        Represents parent' representative' ∧
        ∀ first second, representative' first = representative' second ↔ Connected (made ++ coming) first second := by
    induction coming generalizing made parent representative with
    | nil => exact ⟨parent, representative, rfl, sameLength, represents, by simpa using same⟩
    | cons edge coming ih =>
      obtain ⟨first, later⟩ := List.forall_mem_cons.mp inside
      obtain ⟨parent', linked, sameLength', represents'⟩ :=
        link_eq represents (sameLength ▸ first.1) (sameLength ▸ first.2)
      have grownSame : ∀ one other, (if representative one = representative edge.1 then representative edge.2
          else representative one) = (if representative other = representative edge.1 then representative edge.2
          else representative other) ↔ Connected (made ++ [edge]) one other := by
        have grown {one other : Nat} (connected : Connected made one other) : Connected (made ++ [edge]) one other :=
          connected.mono (List.subset_append_left _ _)
        have joins : Connected (made ++ [edge]) edge.1 edge.2 := .rel _ _ (by simp)
        intro one other
        constructor
        · intro equal
          split at equal <;> split at equal
          next here here' => exact grown ((same one other).mp (here.trans here'.symm))
          next here _ => exact (grown ((same _ _).mp here)).trans _ _ _ (joins.trans _ _ _ (grown ((same _ _).mp equal)))
          next _ here =>
            exact (grown ((same _ _).mp equal)).trans _ _ _ ((joins.symm _ _).trans _ _ _ (grown ((same _ _).mp here.symm)))
          next => exact grown ((same one other).mp equal)
        · intro connected
          induction connected with
          | rel one other there =>
            rcases List.mem_append.mp there with old | new
            · have equal := (same one other).mpr (.rel _ _ old)
              simp only [equal]
            · obtain rfl := List.mem_singleton.mp new
              by_cases together : representative other = representative one
              · simp [together]
              · simp [together]
          | refl _ => rfl
          | symm _ _ _ equal => exact equal.symm
          | trans _ _ _ _ _ equal equal' => exact equal.trans equal'
      obtain ⟨parent'', representative'', all, sameLength'', represents'', same''⟩ :=
        ih (made ++ [edge]) later parent' _ (sameLength'.trans sameLength) represents' grownSame
      refine ⟨parent'', representative'', ?_, sameLength'', represents'', by simpa using same''⟩
      rw [linkAll, linked, Option.bind_eq_bind, Option.bind_some, all]
  refine (run [] edges inside (List.range count) id List.length_range ?_ ?_)
  · intro item there
    rw [List.length_range] at there
    exact ⟨0, .root (by simp [there])⟩
  · intro first second
    constructor
    · rintro rfl
      exact .refl _
    · intro connected
      induction connected with
      | rel _ _ there => cases there
      | refl _ => rfl
      | symm _ _ _ equal => exact equal.symm
      | trans _ _ _ _ _ equal equal' => exact equal.trans equal'

theorem rootsOf_eq {parent : List Nat} {representative : Nat → Nat} (represents : Represents parent representative)
    {items : List Nat} (inside : ∀ item ∈ items, item < parent.length) :
    rootsOf parent items = some (items.map representative) := by
  induction items generalizing parent with
  | nil => rfl
  | cons item rest ih =>
    obtain ⟨first, later⟩ := List.forall_mem_cons.mp inside
    obtain ⟨parent', found, sameLength, represents'⟩ := rootOf_eq represents first
    have others := ih represents' fun other there => sameLength ▸ later other there
    simp [rootsOf, found, others]

end Boom.Foundations
