import Mathlib.Data.List.SplitBy

/-! # Runs of items close to one another

A list is split where an item lies apart from the one before it.  A scan that keeps the first and
the last item of each run, and extends the last run or begins a new one, finds these runs. -/

namespace Boom.Foundations

variable {τ : Type} {apart : τ → τ → Bool} {items : List τ} {item : τ}

def runs (apart : τ → τ → Bool) (items : List τ) : List (List τ) := items.splitBy fun item next => !apart item next

def extendSpan (apart : τ → τ → Bool) (spans : List (τ × τ)) (item : τ) : List (τ × τ) :=
  match spans.getLast? with
  | none => spans
  | some last => if apart last.2 item then spans ++ [(item, item)] else spans.dropLast ++ [(last.1, item)]

def spans (apart : τ → τ → Bool) : List τ → List (τ × τ)
  | [] => []
  | first :: rest => rest.foldl (extendSpan apart) [(first, first)]

def ends (run : List τ) : Option (τ × τ) := run.head?.bind fun first => run.getLast?.map fun last => (first, last)

variable {run : List τ}

theorem ends_eq_some_iff {span : τ × τ} :
    ends run = some span ↔ run.head? = some span.1 ∧ run.getLast? = some span.2 := by
  obtain ⟨first, last⟩ := span
  simp [ends, Option.bind_eq_some_iff]

theorem ends_concat {span : τ × τ} (isSpan : ends run = some span) (item : τ) :
    ends (run ++ [item]) = some (span.1, item) := by
  refine ends_eq_some_iff.mpr ⟨?_, List.getLast?_concat⟩
  rw [List.head?_append, (ends_eq_some_iff.mp isSpan).1]
  rfl

/-! ## One more item -/

theorem runs_concat_of_apart (isApart : ∀ last ∈ items.getLast?, apart last item = true) :
    runs apart (items ++ [item]) = runs apart items ++ [[item]] := by
  unfold runs
  rw [List.splitBy_append_cons [] fun last isLast => by rw [isApart last isLast]; rfl]
  rfl

theorem runs_concat_of_close {before : List (List τ)} {last : τ} (isRuns : runs apart items = before ++ [run])
    (isLast : run.getLast? = some last) (close : apart last item = false) :
    runs apart (items ++ [item]) = before ++ [run ++ [item]] := by
  obtain ⟨flat, noNil, chains, breaks⟩ := List.splitBy_eq_iff.mp isRuns
  have some_ : run ≠ [] := by
    rintro rfl
    cases isLast
  refine List.splitBy_eq_iff.mpr ⟨?_, ?_, ?_, ?_⟩
  · simp [flat]
  · intro isNil
    rcases List.mem_append.mp isNil with old | new
    · exact noNil (List.mem_append_left _ old)
    · simp at new
  · intro part there
    rcases List.mem_append.mp there with old | new
    · exact chains part (List.mem_append_left _ old)
    · rw [List.mem_singleton.mp new]
      refine List.isChain_append.mpr ⟨chains run (List.mem_append_right _ List.mem_cons_self), List.isChain_singleton _, ?_⟩
      intro other isOther next isNext
      obtain rfl : last = other := Option.some.inj (isLast.symm.trans isOther)
      obtain rfl : item = next := Option.some.inj isNext
      rw [close]
      rfl
  · -- The last run begins where it began.
    obtain ⟨old, -, joint⟩ := List.isChain_append.mp breaks
    refine List.isChain_append.mpr ⟨old, List.isChain_singleton _, ?_⟩
    intro earlier isEarlier later isLater
    obtain rfl : run ++ [item] = later := Option.some.inj isLater
    obtain ⟨someEarlier, _, isBreak⟩ := joint earlier isEarlier run rfl
    exact ⟨someEarlier, by simp, by rwa [List.head_append_of_ne_nil some_]⟩

theorem runs_eq_concat (apart : τ → τ → Bool) {last : τ} (isLast : items.getLast? = some last) :
    ∃ before run, runs apart items = before ++ [run] ∧ run.getLast? = some last := by
  have some_ : items ≠ [] := List.ne_nil_of_mem (List.mem_of_getLast? isLast)
  have someRun : runs apart items ≠ [] := List.splitBy_ne_nil.mpr some_
  refine ⟨_, _, (List.dropLast_append_getLast someRun).symm, ?_⟩
  rw [List.getLast?_eq_some_getLast some_] at isLast
  rw [← isLast, ← List.getLast_getLast_splitBy (fun item next => !apart item next) some_]
  exact List.getLast?_eq_some_getLast _

theorem extendSpan_runs (apart : τ → τ → Bool) (some_ : items ≠ []) (item : τ) :
    extendSpan apart ((runs apart items).filterMap ends) item = (runs apart (items ++ [item])).filterMap ends := by
  have isLast := List.getLast?_eq_some_getLast some_
  generalize items.getLast some_ = last at isLast
  obtain ⟨before, run, isRuns, isEnd⟩ := runs_eq_concat apart isLast
  obtain ⟨first, isFirst⟩ : ∃ first, run.head? = some first := by
    cases run with
    | nil => cases isEnd
    | cons first rest => exact ⟨first, rfl⟩
  have isSpan : ends run = some (first, last) := ends_eq_some_iff.mpr ⟨isFirst, isEnd⟩
  have kept : (runs apart items).filterMap ends = before.filterMap ends ++ [(first, last)] := by
    rw [isRuns, List.filterMap_append, List.filterMap_cons_some isSpan, List.filterMap_nil]
  rw [kept, extendSpan, List.getLast?_concat]
  dsimp only
  split
  next isApart =>
    have breaks : ∀ other ∈ items.getLast?, apart other item = true := by
      intro other isOther
      rwa [← Option.some.inj (isLast.symm.trans isOther)]
    rw [runs_concat_of_apart breaks, List.filterMap_append, kept]
    rfl
  next close =>
    have extended := runs_concat_of_close isRuns isEnd (Bool.eq_false_iff.mpr close)
    rw [extended, List.dropLast_concat, List.filterMap_append, List.filterMap_cons_some (ends_concat isSpan item)]
    rfl

theorem spans_eq (apart : τ → τ → Bool) (items : List τ) : spans apart items = (runs apart items).filterMap ends := by
  cases items with
  | nil => rfl
  | cons first rest =>
    have general : ∀ rest, rest.foldl (extendSpan apart) [(first, first)] = (runs apart (first :: rest)).filterMap ends := by
      intro rest
      induction rest using List.reverseRecOn with
      | nil => rfl
      | append_singleton rest item ih =>
        rw [List.foldl_append, List.foldl_cons, List.foldl_nil, ih,
          extendSpan_runs apart (List.cons_ne_nil _ _), List.cons_append]
    exact general rest

/-! ## Parts of runs -/

theorem ne_nil_of_mem_runs (there : run ∈ runs apart items) : run ≠ [] := List.ne_nil_of_mem_splitBy there

theorem mem_of_mem_runs (there : run ∈ runs apart items) (isItem : item ∈ run) : item ∈ items := by
  rw [← List.flatten_splitBy (fun item next => !apart item next) items]
  exact List.mem_flatten.mpr ⟨run, there, isItem⟩

theorem exists_ends (some_ : run ≠ []) : ∃ span, ends run = some span := by
  obtain ⟨first, rest, rfl⟩ := List.exists_cons_of_ne_nil some_
  exact ⟨(first, (first :: rest).getLast some_), ends_eq_some_iff.mpr ⟨rfl, List.getLast?_eq_some_getLast some_⟩⟩

theorem length_filterMap_ends {parts : List (List τ)} (some_ : ∀ run ∈ parts, run ≠ []) :
    (parts.filterMap ends).length = parts.length := by
  induction parts with
  | nil => rfl
  | cons run rest ih =>
    obtain ⟨first, later⟩ := List.forall_mem_cons.mp some_
    obtain ⟨span, isSpan⟩ := exists_ends first
    rw [List.filterMap_cons_some isSpan, List.length_cons, List.length_cons, ih later]

theorem mem_of_mem_spans {span : τ × τ} (there : span ∈ spans apart items) : span.1 ∈ items ∧ span.2 ∈ items := by
  rw [spans_eq] at there
  obtain ⟨run, isRun, isSpan⟩ := List.mem_filterMap.mp there
  obtain ⟨isFirst, isLast⟩ := ends_eq_some_iff.mp isSpan
  exact ⟨mem_of_mem_runs isRun (List.mem_of_mem_head? isFirst), mem_of_mem_runs isRun (List.mem_of_getLast? isLast)⟩

/-! ## Items read in another way -/

theorem snd_of_mem_extendSpan {kept : List (τ × τ)} {span : τ × τ} (there : span ∈ extendSpan apart kept item) :
    (∃ old ∈ kept, old.2 = span.2) ∨ item = span.2 := by
  unfold extendSpan at there
  split at there
  · exact .inl ⟨span, there, rfl⟩
  · split at there
    · rcases List.mem_append.mp there with old | new
      · exact .inl ⟨span, old, rfl⟩
      · exact .inr (by rw [List.mem_singleton.mp new])
    · rcases List.mem_append.mp there with old | new
      · exact .inl ⟨span, (List.dropLast_sublist _).subset old, rfl⟩
      · exact .inr (by rw [List.mem_singleton.mp new])

theorem spans_map {σ : Type} {apart' : σ → σ → Bool} (read : τ → σ)
    (keeps : ∀ item ∈ items, ∀ next ∈ items, apart' (read item) (read next) = apart item next) :
    spans apart' (items.map read) = (spans apart items).map (Prod.map read read) := by
  cases items with
  | nil => rfl
  | cons first rest =>
    -- All that the scan keeps are items of the list.
    have general : ∀ (later : List τ) (kept : List (τ × τ)), (∀ item ∈ later, item ∈ first :: rest) → (∀ span ∈ kept, span.2 ∈ first :: rest) →
        (later.map read).foldl (extendSpan apart') (kept.map (Prod.map read read)) =
          (later.foldl (extendSpan apart) kept).map (Prod.map read read) := by
      intro later
      induction later with
      | nil => exact fun _ _ _ => rfl
      | cons item later ih =>
        intro kept within keptWithin
        obtain ⟨isItem, within⟩ := List.forall_mem_cons.mp within
        have step : extendSpan apart' (kept.map (Prod.map read read)) (read item) =
            (extendSpan apart kept item).map (Prod.map read read) := by
          unfold extendSpan
          rw [List.getLast?_map]
          cases isLast : kept.getLast? with
          | none => rfl
          | some last =>
            have same := keeps last.2 (keptWithin last (List.mem_of_getLast? isLast)) item isItem
            simp only [Option.map_some, Prod.map_snd, Prod.map_fst, same]
            split
            · simp
            · simp [List.map_dropLast]
        rw [List.map_cons, List.foldl_cons, List.foldl_cons, step]
        refine ih _ within fun span there => ?_
        rcases snd_of_mem_extendSpan there with ⟨old, isOld, same⟩ | same
        · exact same ▸ keptWithin old isOld
        · exact same ▸ isItem
    exact general rest [(first, first)] (fun _ there => List.mem_cons_of_mem _ there) (by simp)

end Boom.Foundations
