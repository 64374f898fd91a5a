import Mathlib.Data.List.Chain
import Mathlib.Data.List.Perm.Subperm

/-! # Longest paths by relaxation

The items of a graph are taken up one after the other, and each lengthens the paths to the items
that continue it.  Going back from an item along the predecessors gives a path to it. -/

namespace Boom.Foundations

variable {α : Type}

structure Lengths (α : Type) where
  length : α → Option Nat
  previous : α → Option α

section Relaxation

variable [DecidableEq α] (next : α → List α)

def relax (current : α) (lengths : Lengths α) (item : α) : Option (Lengths α) := do
  let here ← lengths.length current
  let there ← lengths.length item
  return if there < here + 1 then
    { length := Function.update lengths.length item (some (here + 1))
      previous := Function.update lengths.previous item (some current) }
  else lengths

def relaxAll : List α → Lengths α → Option (Lengths α)
  | [], lengths => some lengths
  | current :: later, lengths => do relaxAll later (← (next current).foldlM (relax current) lengths)

def Lengths.start (items : List α) : Lengths α where
  length item := if item ∈ items then some 1 else none
  previous _ := none

end Relaxation

def traceBack (previous : α → Option α) : Nat → α → List α → Option (List α)
  | fuel, at_, path =>
    match previous at_, fuel with
    | none, _ => some path
    | some _, 0 => none
    | some before, fuel + 1 => traceBack previous fuel before (before :: path)

/-! ## Paths -/

/-- A path inside the items. -/
structure IsPath (next : α → List α) (items path : List α) : Prop where
  nonempty : path ≠ []
  linked : path.IsChain fun first second => second ∈ next first
  inside : ∀ item ∈ path, item ∈ items

structure Forward (next : α → List α) (items : List α) (rank : α → Int) : Prop where
  closed : ∀ item ∈ items, ∀ other ∈ next item, other ∈ items
  rises : ∀ item ∈ items, ∀ other ∈ next item, rank item < rank other

section Paths

variable {next : α → List α} {items path : List α} {rank : α → Int}

theorem IsPath.rising (forward : Forward next items rank) (isPath : IsPath next items path) :
    path.Pairwise fun first second => rank first < rank second := by
  have steps : path.IsChain fun first second => rank first < rank second := by
    obtain ⟨_, linked, inside⟩ := isPath
    refine linked.imp_of_mem_imp fun first second isFirst _ step => forward.rises first (inside first isFirst) second step
  have trans : IsTrans α fun first second => rank first < rank second := ⟨fun _ _ _ => Int.lt_trans⟩
  exact List.isChain_iff_pairwise.mp steps

theorem IsPath.length_le (forward : Forward next items rank) (isPath : IsPath next items path) :
    path.length ≤ items.length := by
  have distinct : path.Nodup := (isPath.rising forward).imp fun {first second} rises same => by
    rw [same] at rises
    exact Int.lt_irrefl _ rises
  exact (distinct.subperm isPath.inside).length_le

end Paths

/-! ## What a run of relaxations keeps -/

variable [DecidableEq α] {next : α → List α} {items : List α} {rank : α → Int} {lengths : Lengths α}

def Lengths.count (lengths : Lengths α) (item : α) : Nat :=
  (lengths.length item).getD 0

/-- A predecessor may be lengthened after it was gone from, so an item is at most one longer. -/
structure Tracing (next : α → List α) (items : List α) (lengths : Lengths α) : Prop where
  total : ∀ item ∈ items, ∃ count, lengths.length item = some count
  linked : ∀ item before, lengths.previous item = some before → before ∈ items ∧ item ∈ next before
  alone : ∀ item, lengths.previous item = none → lengths.count item ≤ 1
  longer : ∀ item before, lengths.previous item = some before → lengths.count item ≤ lengths.count before + 1

theorem Lengths.count_start {item : α} (inside : item ∈ items) : (Lengths.start items).count item = 1 := by
  simp [count, start, inside]

theorem Tracing.start (next : α → List α) (items : List α) : Tracing next items (Lengths.start items) where
  total item there := ⟨1, if_pos there⟩
  linked _ _ none_ := by cases none_
  alone item _ := by
    simp only [Lengths.count, Lengths.start]
    split <;> simp
  longer _ _ none_ := by cases none_

structure Lengthened (lengths lengths' : Lengths α) : Prop where
  grows : ∀ item, lengths.count item ≤ lengths'.count item

theorem Tracing.relax (forward : Forward next items rank) (tracing : Tracing next items lengths) {current item : α}
    (inside : current ∈ items) (step : item ∈ next current) :
    ∃ lengths', relax current lengths item = some lengths' ∧ Tracing next items lengths' ∧
      Lengthened lengths lengths' ∧ lengths.count current + 1 ≤ lengths'.count item := by
  obtain ⟨here, isHere⟩ := tracing.total current inside
  obtain ⟨there, isThere⟩ := tracing.total item (forward.closed current inside item step)
  have hereCount : lengths.count current = here := by simp [Lengths.count, isHere]
  have thereCount : lengths.count item = there := by simp [Lengths.count, isThere]
  refine ⟨_, by rw [Foundations.relax, isHere, isThere]; rfl, ?_⟩
  split
  next better =>
    let lengths' : Lengths α :=
      { length := Function.update lengths.length item (some (here + 1))
        previous := Function.update lengths.previous item (some current) }
    change Tracing next items lengths' ∧ Lengthened lengths lengths' ∧ lengths.count current + 1 ≤ lengths'.count item
    have atItem : lengths'.count item = here + 1 := by simp [lengths', Lengths.count]
    have elsewhere {other : α} (apart : other ≠ item) : lengths'.count other = lengths.count other := by
      simp [lengths', Lengths.count, apart]
    have grows : ∀ other, lengths.count other ≤ lengths'.count other := by
      intro other
      by_cases same : other = item
      · subst same
        omega
      · exact (elsewhere same).ge
    refine ⟨⟨?_, ?_, ?_, ?_⟩, ⟨grows⟩, by omega⟩
    · intro other isOther
      by_cases same : other = item
      · exact ⟨here + 1, by simp [lengths', same]⟩
      · simpa [lengths', same] using tracing.total other isOther
    · intro other before isBefore
      by_cases same : other = item
      · subst same
        obtain rfl : current = before := by simpa [lengths'] using isBefore
        exact ⟨inside, step⟩
      · exact tracing.linked other before (by simpa [lengths', same] using isBefore)
    · intro other isFirst
      have same : other ≠ item := by
        rintro rfl
        simp [lengths'] at isFirst
      rw [elsewhere same]
      exact tracing.alone other (by simpa [lengths', same] using isFirst)
    · intro other before isBefore
      by_cases same : other = item
      · subst same
        obtain rfl : current = before := by simpa [lengths'] using isBefore
        -- The predecessor itself is no shorter than when it was gone from.
        have := grows current
        omega
      · have bounded := tracing.longer other before (by simpa [lengths', same] using isBefore)
        have := grows before
        rw [elsewhere same]
        omega
  next => exact ⟨tracing, ⟨fun _ => le_rfl⟩, by omega⟩

theorem Tracing.foldlM_relax (forward : Forward next items rank) (tracing : Tracing next items lengths) {current : α}
    (inside : current ∈ items) {continuations : List α} (steps : ∀ item ∈ continuations, item ∈ next current) :
    ∃ lengths', continuations.foldlM (Foundations.relax current) lengths = some lengths' ∧ Tracing next items lengths' ∧
      Lengthened lengths lengths' ∧ ∀ item ∈ continuations, lengths.count current + 1 ≤ lengths'.count item := by
  induction continuations generalizing lengths with
  | nil => exact ⟨lengths, rfl, tracing, ⟨fun _ => le_rfl⟩, fun _ none_ => by cases none_⟩
  | cons item rest ih =>
    obtain ⟨step, steps⟩ := List.forall_mem_cons.mp steps
    obtain ⟨lengths', relaxed, tracing', lengthened, reached⟩ := tracing.relax forward inside step
    obtain ⟨lengths'', all, tracing'', lengthened', reached'⟩ := ih tracing' steps
    refine ⟨lengths'', by simp [relaxed, all], tracing'', ⟨fun other => (lengthened.grows other).trans (lengthened'.grows other)⟩,
      List.forall_mem_cons.mpr ⟨reached.trans (lengthened'.grows item), fun other there => ?_⟩⟩
    exact (Nat.succ_le_succ (lengthened.grows current)).trans (reached' other there)

/-- A path whose items but for the last are taken up in turn is not longer than what is
    recorded at its end. -/
theorem Tracing.relaxAll (forward : Forward next items rank) (tracing : Tracing next items lengths) {order : List α}
    (within : ∀ item ∈ order, item ∈ items) :
    ∃ lengths', relaxAll next order lengths = some lengths' ∧ Tracing next items lengths' ∧ Lengthened lengths lengths' ∧
      ∀ first rest, (first :: rest).IsChain (fun before after => after ∈ next before) →
        (first :: rest).dropLast.Sublist order →
        lengths.count first + rest.length ≤ lengths'.count ((first :: rest).getLast (List.cons_ne_nil _ _)) := by
  induction order generalizing lengths with
  | nil =>
    refine ⟨lengths, rfl, tracing, ⟨fun _ => le_rfl⟩, fun first rest _ sub => ?_⟩
    cases rest with
    | nil => simp
    | cons second rest =>
      rw [List.dropLast_cons_cons] at sub
      cases List.sublist_nil.mp sub
  | cons current later ih =>
    obtain ⟨inside, within⟩ := List.forall_mem_cons.mp within
    obtain ⟨lengths', taken, tracing', lengthened, reached⟩ := tracing.foldlM_relax forward inside fun _ there => there
    obtain ⟨lengths'', all, tracing'', lengthened', along⟩ := ih tracing' within
    refine ⟨lengths'', by simp [Foundations.relaxAll, taken, all], tracing'',
      ⟨fun other => (lengthened.grows other).trans (lengthened'.grows other)⟩, fun first rest steps sub => ?_⟩
    cases rest with
    | nil => exact (lengthened.grows first).trans (lengthened'.grows first)
    | cons second rest =>
      rw [List.dropLast_cons_cons] at sub
      cases sub with
      | cons _ sub =>
        have ahead := along first (second :: rest) steps (by rwa [List.dropLast_cons_cons])
        have := lengthened.grows first
        omega
      | cons_cons _ sub =>
        -- The first item is the one that is gone from here.
        obtain ⟨step, steps⟩ := List.isChain_cons_cons.mp steps
        have ahead := along second rest steps sub
        have := reached second step
        rw [List.getLast_cons (List.cons_ne_nil second rest), List.length_cons]
        omega

/-! ## Going back -/

omit [DecidableEq α] in
theorem traceBack_isPath (forward : Forward next items rank) (tracing : Tracing next items lengths) {fuel : Nat}
    {at_ : α} {rest : List α} (isPath : IsPath next items (at_ :: rest)) (lasts : items.length ≤ fuel + rest.length) :
    ∃ path, traceBack lengths.previous fuel at_ (at_ :: rest) = some path ∧ IsPath next items path ∧
      lengths.count at_ + rest.length ≤ path.length := by
  induction fuel generalizing at_ rest with
  | zero =>
    cases isPrevious : lengths.previous at_ with
    | none =>
      have := tracing.alone at_ isPrevious
      exact ⟨at_ :: rest, by unfold traceBack; simp [isPrevious], isPath, by simp only [List.length_cons]; omega⟩
    | some before =>
      -- No path is longer than the items are many, so the fuel lasts.
      have tooLong := isPath.length_le forward
      simp only [List.length_cons] at tooLong
      omega
  | succ fuel ih =>
    cases isPrevious : lengths.previous at_ with
    | none =>
      have := tracing.alone at_ isPrevious
      exact ⟨at_ :: rest, by unfold traceBack; simp [isPrevious], isPath, by simp only [List.length_cons]; omega⟩
    | some before =>
      obtain ⟨inside, step⟩ := tracing.linked at_ before isPrevious
      have longer : IsPath next items (before :: at_ :: rest) :=
        ⟨by simp, .cons_cons step isPath.linked, List.forall_mem_cons.mpr ⟨inside, isPath.inside⟩⟩
      obtain ⟨path, traced, isPath', long⟩ := ih longer (by simp only [List.length_cons]; omega)
      have := tracing.longer at_ before isPrevious
      simp only [List.length_cons] at long
      exact ⟨path, by unfold traceBack; simpa [isPrevious] using traced, isPath', by omega⟩

end Boom.Foundations
