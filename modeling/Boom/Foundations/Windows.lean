import Mathlib.Data.List.Induction
import Mathlib.Data.List.Sort

/-! # Keeping what still fits

Items are taken in order, and each is kept if it fits with what is kept before it. What is
left out clashes with something kept that came earlier, and only one selection has that
property. -/

namespace Boom.Foundations

variable {α : Type}

/-! ## Sorting -/

/-- By key, and as the base lists them where keys tie. -/
def Before (le : α → α → Prop) (base : List α) (first second : α) : Prop :=
  le first second ∧ (le second first → [first, second].Sublist base)

theorem Before.asymm {le : α → α → Prop} {base : List α} (distinct : base.Nodup) {first second : α}
    (before : Before le base first second) (after : Before le base second first) : False := by
  have earlier := before.2 after.1
  have later := after.2 before.1
  clear before after
  induction base with
  | nil => cases earlier
  | cons item rest ih =>
    obtain ⟨fresh, distinct⟩ := List.nodup_cons.mp distinct
    cases earlier with
    | cons _ earlier =>
      cases later with
      | cons _ later => exact ih distinct earlier later
      | cons_cons _ _ => exact fresh (earlier.subset (List.mem_cons_of_mem _ List.mem_cons_self))
    | cons_cons _ earlier =>
      cases later with
      | cons _ later => exact fresh (later.subset (List.mem_cons_of_mem _ List.mem_cons_self))
      | cons_cons _ _ => exact fresh (List.singleton_sublist.mp earlier)

section Sorting

variable {le : α → α → Prop} [DecidableRel le] [Std.Total le] [IsTrans α le] {follows : α → α → Prop}

theorem pairwise_orderedInsert_of_tie {item : α} {sorted : List α}
    (ordered : sorted.Pairwise fun first second => le first second ∧ (le second first → follows first second))
    (leads : ∀ other ∈ sorted, follows item other) :
    (sorted.orderedInsert le item).Pairwise fun first second => le first second ∧ (le second first → follows first second) := by
  induction sorted with
  | nil => exact List.pairwise_singleton _ _
  | cons next rest ih =>
    obtain ⟨least, ordered'⟩ := List.pairwise_cons.mp ordered
    by_cases below : le item next
    · rw [List.orderedInsert_cons_of_le _ _ below]
      refine List.pairwise_cons.mpr ⟨fun other there => ⟨?_, fun _ => leads other there⟩, ordered⟩
      rcases List.mem_cons.mp there with rfl | there
      · exact below
      · exact IsTrans.trans _ _ _ below (least other there).1
    · rw [List.orderedInsert_of_not_le _ _ below]
      have above : le next item := (Std.Total.total item next).resolve_left below
      refine List.pairwise_cons.mpr ⟨fun other there => ?_, ih ordered' fun other there => leads other (List.mem_cons_of_mem _ there)⟩
      rcases (List.mem_orderedInsert _).mp there with rfl | there
      · exact ⟨above, fun tie => absurd tie below⟩
      · exact least other there

/-- Items with equal keys stay in the order they were in. -/
theorem pairwise_insertionSort_of_tie {items : List α} (ordered : items.Pairwise follows) :
    (items.insertionSort le).Pairwise fun first second => le first second ∧ (le second first → follows first second) := by
  induction items with
  | nil => exact List.Pairwise.nil
  | cons item rest ih =>
    obtain ⟨leads, ordered'⟩ := List.pairwise_cons.mp ordered
    exact pairwise_orderedInsert_of_tie (ih ordered') fun other there => leads other ((List.mem_insertionSort le).mp there)

variable (le) in
theorem pairwise_before_insertionSort (base : List α) : (base.insertionSort le).Pairwise (Before le base) :=
  pairwise_insertionSort_of_tie (List.pairwise_iff_forall_sublist.mpr id)

end Sorting

/-! ## What is kept -/

/-- No two that are chosen clash, and what is not chosen clashes with a chosen one that is
    given from the start or comes before it. -/
structure Settled (clash before : α → α → Prop) (given items chosen : List α) : Prop where
  apart : ∀ first ∈ chosen, ∀ second ∈ chosen, ¬ clash first second
  full : ∀ item ∈ items, item ∉ chosen → ∃ other ∈ chosen, (other ∈ given ∨ before other item) ∧ clash other item

section Settled

variable {clash before : α → α → Prop} {given items chosen chosen' : List α}

/-- What is chosen is settled by the order alone. -/
theorem Settled.mem_iff (asymm : ∀ {first second}, before first second → before second first → False)
    (ordered : items.Pairwise before) (settled : Settled clash before given items chosen)
    (settled' : Settled clash before given items chosen') (among : ∀ item ∈ chosen, item ∈ items)
    (among' : ∀ item ∈ chosen', item ∈ items) (start : ∀ item ∈ given, item ∈ chosen ∧ item ∈ chosen') :
    ∀ item, item ∈ chosen ↔ item ∈ chosen' := by
  -- The first item on which two selections differ clashes with an earlier one that both have.
  have step {one other : List α} (settled : Settled clash before given items one) (settled' : Settled clash before given items other)
      (among' : ∀ item ∈ other, item ∈ items) (start : ∀ item ∈ given, item ∈ one) {front back : List α} {last : α}
      (split : items = front ++ last :: back) (agree : ∀ item ∈ front, item ∈ other → item ∈ one) (isOne : last ∈ one) :
      last ∈ other := by
    by_contra missing
    obtain ⟨earlier, isOther, first, clashes⟩ := settled'.full last (by rw [split]; simp) missing
    have shared : earlier ∈ one := by
      rcases first with isGiven | isBefore
      · exact start earlier isGiven
      · have there := among' earlier isOther
        rw [split] at there ordered
        obtain ⟨-, later, -⟩ := List.pairwise_append.mp ordered
        rcases List.mem_append.mp there with there | there
        · exact agree earlier there isOther
        · rcases List.mem_cons.mp there with rfl | there
          · exact (asymm isBefore isBefore).elim
          · exact (asymm isBefore ((List.pairwise_cons.mp later).1 earlier there)).elim
    exact settled.apart earlier shared last isOne clashes
  have agree : ∀ front back : List α, items = front ++ back → ∀ item ∈ front, (item ∈ chosen ↔ item ∈ chosen') := by
    intro front
    induction front using List.reverseRecOn with
    | nil => exact fun _ _ _ none_ => absurd none_ List.not_mem_nil
    | append_singleton front last ih =>
      intro back split item there
      rw [List.append_assoc, List.singleton_append] at split
      have earlier := ih (last :: back) split
      rcases List.mem_append.mp there with there | isLast
      · exact earlier item there
      · obtain rfl := List.mem_singleton.mp isLast
        exact ⟨step settled settled' among' (fun other isGiven => (start other isGiven).1) split fun other there => (earlier other there).mpr,
          step settled' settled among (fun other isGiven => (start other isGiven).2) split fun other there => (earlier other there).mp⟩
  intro item
  have whole := agree items [] (List.append_nil items).symm item
  exact ⟨fun isOne => (whole (among item isOne)).mp isOne, fun isOther => (whole (among' item isOther)).mpr isOther⟩

end Settled

section Retain

variable {ω : Type}

def retain (widen : ω → α → ω) (narrow : ω → Bool) : ω → List α → List α
  | _, [] => []
  | window, item :: rest =>
    if narrow (widen window item) then item :: retain widen narrow (widen window item) rest
    else retain widen narrow window rest

variable {widen : ω → α → ω} {narrow : ω → Bool} {clash before : α → α → Prop} {Holds : List α → ω → Prop}

theorem retain_sublist (window : ω) (items : List α) : (retain widen narrow window items).Sublist items := by
  induction items generalizing window with
  | nil => exact .slnil
  | cons item rest ih =>
    simp only [retain]
    split
    · exact (ih _).cons_cons _
    · exact (ih _).cons _

theorem retain_eq_nil {window : ω} (stuck : ∀ item, narrow (widen window item) = false) (items : List α) :
    retain widen narrow window items = [] := by
  induction items with
  | nil => rfl
  | cons item rest ih => rw [retain, stuck item, if_neg Bool.false_ne_true, ih]

/-- What a window says about the items kept so far. -/
structure Keeps (widen : ω → α → ω) (narrow : ω → Bool) (clash : α → α → Prop) (Holds : List α → ω → Prop) : Prop where
  grow : ∀ {kept window item}, Holds kept window → narrow (widen window item) = true →
    Holds (kept ++ [item]) (widen window item)
  refuse : ∀ {kept window item}, Holds kept window → narrow (widen window item) = false → ∃ other ∈ kept, clash other item
  apart : ∀ {kept window}, Holds kept window → ∀ first ∈ kept, ∀ second ∈ kept, ¬ clash first second

theorem Keeps.settled_append (keeps : Keeps widen narrow clash Holds) {kept : List α} {window : ω} (holds : Holds kept window)
    {items : List α} (ordered : items.Pairwise before) :
    Settled clash before kept items (kept ++ retain widen narrow window items) := by
  induction items generalizing kept window with
  | nil =>
    rw [retain, List.append_nil]
    exact ⟨keeps.apart holds, fun _ none_ => absurd none_ List.not_mem_nil⟩
  | cons item rest ih =>
    obtain ⟨first, ordered'⟩ := List.pairwise_cons.mp ordered
    rw [retain]
    split
    next fits =>
      have later := ih (keeps.grow holds fits) ordered'
      rw [List.append_assoc, List.singleton_append] at later
      refine ⟨later.apart, fun other there missing => ?_⟩
      rcases List.mem_cons.mp there with rfl | there
      · exact absurd (by simp) missing
      · obtain ⟨earlier, isChosen, early, clashes⟩ := later.full other there missing
        refine ⟨earlier, isChosen, ?_, clashes⟩
        rcases early with isKept | isBefore
        · rcases List.mem_append.mp isKept with isKept | isItem
          · exact .inl isKept
          · exact .inr (List.mem_singleton.mp isItem ▸ first other there)
        · exact .inr isBefore
    next wide =>
      have later := ih holds ordered'
      refine ⟨later.apart, fun other there missing => ?_⟩
      rcases List.mem_cons.mp there with rfl | there
      · obtain ⟨earlier, isKept, clashes⟩ := keeps.refuse holds (Bool.not_eq_true _ ▸ wide)
        exact ⟨earlier, List.mem_append_left _ isKept, .inl isKept, clashes⟩
      · exact later.full other there missing

theorem Keeps.mem_retain (keeps : Keeps widen narrow clash Holds) {kept : List α} {window : ω} (holds : Holds kept window)
    {items : List α} : ∀ item ∈ kept, item ∈ items → item ∈ retain widen narrow window items := by
  induction items generalizing kept window with
  | nil => exact fun _ _ none_ => absurd none_ List.not_mem_nil
  | cons first rest ih =>
    intro item isKept there
    rw [retain]
    split
    next fits =>
      rcases List.mem_cons.mp there with rfl | there
      · exact List.mem_cons_self
      · exact List.mem_cons_of_mem _ (ih (keeps.grow holds fits) item (List.mem_append_left _ isKept) there)
    next wide =>
      rcases List.mem_cons.mp there with rfl | there
      · obtain ⟨other, isKept', clashes⟩ := keeps.refuse holds (Bool.not_eq_true _ ▸ wide)
        exact absurd clashes (keeps.apart holds other isKept' item isKept)
      · exact ih holds item isKept there

theorem Keeps.settled (keeps : Keeps widen narrow clash Holds) {given : List α} {window : ω} (holds : Holds given window)
    {items : List α} (among : ∀ item ∈ given, item ∈ items) (ordered : items.Pairwise before) :
    Settled clash before given items (retain widen narrow window items) := by
  have later := keeps.settled_append holds ordered
  have same (item : α) : item ∈ given ++ retain widen narrow window items ↔ item ∈ retain widen narrow window items := by
    rw [List.mem_append]
    exact ⟨fun either => either.elim (fun isGiven => keeps.mem_retain holds item isGiven (among item isGiven)) id, .inr⟩
  refine ⟨fun first isChosen second isChosen' => later.apart first ((same _).mpr isChosen) second ((same _).mpr isChosen'), ?_⟩
  intro item there missing
  obtain ⟨other, isChosen, early, clashes⟩ := later.full item there fun isChosen => missing ((same item).mp isChosen)
  exact ⟨other, (same other).mp isChosen, early, clashes⟩

end Retain

end Boom.Foundations
