import Boom.Foundations.Slots
import Boom.Tasks.ExportCatalog

/-! # What the manifest vouches for

From the moment a run has listed the directory there is no manifest, and when its shards
are cut there is no part.  Then what the parts done, the part being written, and the shards
to come hold together is the whole collection, so a run that gets to its manifest vouches
for all of it.  Shards cut on a field of several types hold less than the collection. -/

namespace Boom.Tasks.Export

open Boom.Foundations Boom.Utils

variable {V Doc : Type}

/-! ## Writing parts -/

variable {params : ExportCatalogParams}

namespace Directory

variable {state after : Directory V Doc}

structure Intact (state : Directory V Doc) : Prop where
  made : ∀ name file, state.parts name = some file → file < state.files.length
  apart : ∀ first second file, state.parts first = some file → state.parts second = some file → first = second

structure Done (state : Directory V Doc) (pass : Pass V) : Prop where
  names : pass.files.map Prod.fst = List.range pass.files.length
  parts : ∀ entry ∈ pass.files, state.HasPart entry.1 entry.2

def doneLines (state : Directory V Doc) (pass : Pass V) : List String :=
  pass.files.flatMap fun entry => state.lines entry.1

def Untouched (state after : Directory V Doc) (name : Nat) : Prop :=
  after.parts name = state.parts name ∧
  ∀ file, state.parts name = some file → after.files[file]? = state.files[file]?

theorem Untouched.hasPart {name rows : Nat} (same : state.Untouched after name) (held : state.HasPart name rows) :
    after.HasPart name rows := by
  obtain ⟨file, part, named, found, complete⟩ := held
  exact ⟨file, part, same.1.trans named, (same.2 file named).trans found, complete⟩

theorem Untouched.lines {name : Nat} (same : state.Untouched after name) : after.lines name = state.lines name := by
  unfold Directory.lines
  rw [same.1]
  cases named : state.parts name with
  | none => rfl
  | some file => simp only [same.2 file named]

theorem Done.lt {pass : Pass V} (done : state.Done pass) : ∀ entry ∈ pass.files, entry.1 < pass.files.length := by
  intro entry member
  have named : entry.1 ∈ pass.files.map Prod.fst := List.mem_map_of_mem member
  rw [done.names] at named
  exact List.mem_range.mp named

theorem Done.untouched {pass : Pass V} (done : state.Done pass)
    (same : ∀ name < pass.files.length, state.Untouched after name) : after.Done pass :=
  ⟨done.names, fun entry member => (same entry.1 (done.lt entry member)).hasPart (done.parts entry member)⟩

theorem Done.doneLines {pass : Pass V} (done : state.Done pass)
    (same : ∀ name < pass.files.length, state.Untouched after name) :
    after.doneLines pass = state.doneLines pass :=
  List.flatMap_congr fun entry member => (same entry.1 (done.lt entry member)).lines

section Write

variable {name file index : Nat} {part : Part} {change : Part → Part}

theorem untouched_write (intact : state.Intact) (named : state.parts name = some file) {other : Nat}
    (differs : other ≠ name) : state.Untouched (state.write file index change) other := by
  refine ⟨rfl, fun otherFile otherNamed => ?_⟩
  have apart : file ≠ otherFile := fun same => differs (intact.apart other name file (same ▸ otherNamed) named)
  exact List.getElem?_modify_ne _ _ apart

theorem files_write (found : state.files[file]? = some part) : (state.write file index change).files[file]? =
      some { change part with mixed := part.mixed || part.writer != index } := by
  simp [Directory.write, found]

theorem lines_write (named : state.parts name = some file) (found : state.files[file]? = some part) :
    (state.write file index change).lines name = (change part).lines := by
  have written := @files_write _ _ state file index part change found
  have stillNamed : (state.write file index change).parts name = some file := named
  simp [Directory.lines, stillNamed, written]

theorem intact_write (intact : state.Intact) : (state.write file index change).Intact := by
  refine ⟨fun name file named => ?_, intact.apart⟩
  have made := intact.made name file named
  simpa [Directory.write] using made

end Write

def withPart (state : Directory V Doc) (name writer : Nat) : Directory V Doc :=
  { state with
    parts := Function.update state.parts name (some state.files.length)
    files := state.files ++ [{ lines := [], finished := false, writer, mixed := false }] }

theorem runs_through {handle : Option Nat} {index : Nat} {change : Part → Part} :
    (state.through handle index change).runs = state.runs := by
  cases handle <;> rfl

theorem runs_openPart {name index : Nat} : (state.openPart params name index).1.runs = state.runs := by
  cases dryness : params.dryRun <;> cases named : state.parts name <;> simp [openPart, create, dryness, named]

section Create

variable {name index : Nat}

theorem withPart_self : (state.withPart name index).parts name = some state.files.length :=
  Function.update_self ..

theorem withPart_of_ne {other : Nat} (differs : other ≠ name) :
    (state.withPart name index).parts other = state.parts other :=
  Function.update_of_ne differs ..

theorem length_withPart : (state.withPart name index).files.length = state.files.length + 1 :=
  List.length_append

theorem untouched_withPart (intact : state.Intact) {other : Nat} (differs : other ≠ name) :
    state.Untouched (state.withPart name index) other :=
  ⟨withPart_of_ne differs, fun file found => List.getElem?_append_left (intact.made other file found)⟩

theorem intact_withPart (intact : state.Intact) : (state.withPart name index).Intact := by
  -- the new file is none of those made before
  have new : ∀ other file, (state.withPart name index).parts other = some file →
      (other = name ∧ file = state.files.length) ∨ (state.parts other = some file ∧ file < state.files.length) := by
    intro other file found
    by_cases same : other = name
    · subst same
      rw [withPart_self] at found
      exact .inl ⟨rfl, (Option.some.inj found).symm⟩
    · rw [withPart_of_ne same] at found
      exact .inr ⟨found, intact.made other file found⟩
  refine ⟨fun other file found => ?_, fun first second file isFirst isSecond => ?_⟩
  · rw [length_withPart]
    rcases new other file found with ⟨_, last⟩ | ⟨_, made⟩ <;> omega
  · rcases new first file isFirst with ⟨firstNew, firstLast⟩ | ⟨firstOld, firstMade⟩ <;>
      rcases new second file isSecond with ⟨secondNew, secondLast⟩ | ⟨secondOld, secondMade⟩
    · rw [firstNew, secondNew]
    · omega
    · omega
    · exact intact.apart first second file firstOld secondOld

theorem openPart_new (full : params.dryRun = false) (free : state.parts name = none) :
    state.openPart params name index = (state.withPart name index, some state.files.length) := by
  simp [openPart, create, withPart, full, free]

end Create

end Directory

variable [LinearOrder V] {catalog : Catalog V Doc} {may : Fault → Prop}

/-! ## The shards of a pass -/

def Pass.pending (catalog : Catalog V Doc) (fields : List String) (pass : Pass V) : List String :=
  pass.shards.flatMap fun shard =>
    (catalog.docs.filter fun doc => shard.matches_ catalog.comparison (catalog.held pass.field doc)).map
      (catalog.line fields)

theorem pending_all (field : String) (files : List (Nat × Nat)) (fields : List String) :
    Pass.pending catalog fields ⟨field, [.all], files⟩ = catalog.docs.map (catalog.line fields) := by
  simp [Pass.pending, ShardFilter.matches_]

theorem pending_rangeShards {field : String} {parts : Nat} {bounds : List V}
    (sampled : Sampled catalog field parts bounds) (oneType : OneType catalog field) (fields : List String) :
    (Pass.pending catalog fields ⟨field, rangeShards parts bounds, []⟩).Perm
      (catalog.docs.map (catalog.line fields)) := by
  obtain ⟨own, typed⟩ := oneType
  obtain ⟨_, held, ordered⟩ := sampled
  have kinds : ∀ bound ∈ bounds, catalog.comparison.kind bound = some own := by
    intro bound member
    obtain ⟨doc, inDocs, holds⟩ := held bound member
    exact typed doc inDocs bound holds
  have inOrder : bounds.Pairwise (· ≤ ·) :=
    ordered.imp_of_mem fun {first second} isFirst isSecond le => le own (kinds first isFirst) (kinds second isSecond)
  have once : ∀ doc ∈ catalog.docs,
      (rangeShards parts bounds).countP (·.matches_ catalog.comparison (catalog.held field doc)) = 1 :=
    fun doc member => countP_rangeShards parts kinds inOrder (typed doc member)
  have pieces := (pieces_perm once).map (catalog.line fields)
  rwa [List.map_flatMap] at pieces

/-! ## The invariant -/

namespace Directory

def AtStage (catalog : Catalog V Doc) (state : Directory V Doc) (index : Nat) (params : ExportCatalogParams) :
    Stage V Doc → Prop
  | .submitted | .unlinking | .ended => True
  | .listing => state.manifest = none
  | .clearing names => state.manifest = none ∧ ∀ name file, state.parts name = some file → name ∈ names
  | .sampling => state.manifest = none ∧ ∀ name, state.parts name = none
  | .opening pass =>
    state.manifest = none ∧ (∀ name, (state.parts name).isSome ↔ name < pass.files.length) ∧ state.Done pass ∧
    (state.doneLines pass ++ pass.pending catalog params.fields).Perm
      (catalog.docs.map (catalog.line params.fields))
  | .writing pass handle rows cursor =>
    state.manifest = none ∧ (∀ name, (state.parts name).isSome ↔ name < pass.files.length + 1) ∧
    state.Done pass ∧ ∃ file part, handle = some file ∧ state.parts pass.files.length = some file ∧
      state.files[file]? = some part ∧ part.mixed = false ∧ part.writer = index ∧ part.lines.length = rows ∧
      (state.doneLines pass ++ (part.lines ++ (cursor.map (catalog.line params.fields) ++
        pass.pending catalog params.fields))).Perm (catalog.docs.map (catalog.line params.fields))

def AtDryStage : Stage V Doc → Prop
  | .submitted | .sampling | .opening _ | .ended => True
  | .writing _ handle _ _ => handle = none
  | .unlinking | .listing | .clearing _ => False

structure Kept (catalog : Catalog V Doc) (state : Directory V Doc) : Prop where
  intact : state.Intact
  alone : ∀ (first second : Nat) (one other : Run V Doc), state.runs[first]? = some one → one.writes →
    state.runs[second]? = some other → other.writes → first = second
  atStage : ∀ (index : Nat) (run : Run V Doc), state.runs[index]? = some run → run.params.dryRun = false →
    state.AtStage catalog index run.params run.stage
  dry : ∀ run ∈ state.runs, run.params.dryRun = true → AtDryStage run.stage
  vouches : Vouches catalog state

variable {state after : Directory V Doc}

/-! ## What the steps keep -/

theorem atStage_runs {place : Nat} {stage : Stage V Doc}
    (at_ : state.AtStage catalog place params stage) (runs : List (Run V Doc)) :
    AtStage catalog { state with runs } place params stage := by
  cases stage with
  | opening pass =>
    obtain ⟨absent, names, done, covers⟩ := at_
    exact ⟨absent, names, ⟨done.names, done.parts⟩, covers⟩
  | writing pass handle rows cursor =>
    obtain ⟨absent, names, done, covers⟩ := at_
    exact ⟨absent, names, ⟨done.names, done.parts⟩, covers⟩
  | submitted | unlinking | listing | clearing _ | sampling | ended => exact at_

theorem vouches_runs (vouches : Vouches catalog state) (runs : List (Run V Doc)) :
    Vouches catalog { state with runs } := by
  intro manifest present
  obtain ⟨fields, files, rows, complete, holds⟩ := vouches manifest present
  exact ⟨fields, files, rows, complete, holds.distinct, holds.listed, holds.parts, holds.total, holds.documents⟩

theorem kept_writes (kept : state.Kept catalog) {index : Nat}
    {stage next : Stage V Doc} (at_ : state.runs[index]? = some { params, stage })
    (writes : params.dryRun = false) (going : stage ≠ .ended)
    (runs : after.runs = state.runs.set index { params, stage := next }) (intact : after.Intact)
    (atStage : after.AtStage catalog index params next) (vouches : Vouches catalog after) :
    after.Kept catalog := by
  refine ⟨intact, ?_, ?_, ?_, vouches⟩
  · intro first second one other atFirst firstWrites atSecond secondWrites
    rw [runs] at atFirst atSecond
    have unique : ∀ place (run : Run V Doc), (state.runs.set index { params, stage := next })[place]? = some run →
        run.writes → place = index := by
      intro place run found isWriting
      rcases getElem?_set_cases found with ⟨same, _⟩ | ⟨_, before⟩
      · exact same
      · exact kept.alone place index run _ before isWriting at_ ⟨writes, going⟩
    rw [unique first one atFirst firstWrites, unique second other atSecond secondWrites]
  · intro place run found full
    rw [runs] at found
    rcases getElem?_set_cases found with ⟨rfl, rfl⟩ | ⟨differs, before⟩
    · exact atStage
    · by_cases isOver : run.stage = .ended
      · rw [isOver]
        trivial
      · exact absurd (kept.alone place index run _ before ⟨full, isOver⟩ at_ ⟨writes, going⟩) differs
  · intro run member isDry
    rw [runs] at member
    rcases List.mem_or_eq_of_mem_set member with before | rfl
    · exact kept.dry run before isDry
    · rw [writes] at isDry
      cases isDry

theorem kept_setStage (kept : state.Kept catalog) {index : Nat}
    {stage next : Stage V Doc} (at_ : state.runs[index]? = some { params, stage })
    (rest : next = .ended ∨ (params.dryRun = true ∧ AtDryStage next)) :
    (state.setStage index params next).Kept catalog := by
  have silent : ∀ (place : Nat) (run : Run V Doc), (state.runs.set index { params, stage := next })[place]? = some run →
      run.writes → state.runs[place]? = some run := by
    intro place run found isWriting
    rcases getElem?_set_cases found with ⟨rfl, rfl⟩ | ⟨_, before⟩
    · rcases rest with isOver | ⟨isDry, _⟩
      · exact absurd isOver isWriting.2
      · exact absurd (isWriting.1.symm.trans isDry) (by decide)
    · exact before
  refine ⟨⟨kept.intact.made, kept.intact.apart⟩, ?_, ?_, ?_, vouches_runs kept.vouches _⟩
  · intro first second one other atFirst firstWrites atSecond secondWrites
    exact kept.alone first second one other (silent first one atFirst firstWrites) firstWrites
      (silent second other atSecond secondWrites) secondWrites
  · intro place run found full
    by_cases isOver : run.stage = .ended
    · rw [isOver]
      trivial
    · have before := kept.atStage place run (silent place run found ⟨full, isOver⟩) full
      exact atStage_runs before _
  · intro run member isDry
    rcases List.mem_or_eq_of_mem_set member with before | rfl
    · exact kept.dry run before isDry
    · rcases rest with isOver | ⟨_, dryStage⟩
      · change AtDryStage next
        rw [isOver]
        trivial
      · exact dryStage

theorem vouches_none (absent : state.manifest = none) : Vouches catalog state := by
  intro manifest present
  rw [absent] at present
  cases present

/-! ## The steps of a pass -/

section Pass

variable {index rows : Nat} {params : ExportCatalogParams} {pass : Pass V}

theorem atStage_open {shard : ShardFilter V} {rest : List (ShardFilter V)} {cursor : List Doc}
    (intact : state.Intact) (full : params.dryRun = false)
    (at_ : state.AtStage catalog index params (.opening pass)) (shards : pass.shards = shard :: rest)
    (isCursor : Cursor catalog pass.field shard cursor) : (state.openPart params pass.files.length index).1.Intact ∧
    (state.openPart params pass.files.length index).1.AtStage catalog index params
      (.writing { pass with shards := rest } (state.openPart params pass.files.length index).2 0 cursor) := by
  obtain ⟨absent, names, done, covers⟩ := at_
  have free : state.parts pass.files.length = none := by
    have unnamed := (names pass.files.length).not.mpr (Nat.lt_irrefl _)
    exact Option.not_isSome_iff_eq_none.mp unnamed
  rw [openPart_new full free]
  have untouched : ∀ name < pass.files.length, state.Untouched (state.withPart pass.files.length index) name :=
    fun name isLess => untouched_withPart intact (Nat.ne_of_lt isLess)
  have doneAfter := done.untouched untouched
  refine ⟨intact_withPart intact, absent, fun name => ?_, ⟨doneAfter.names, doneAfter.parts⟩, _, _, rfl,
    withPart_self, List.getElem?_concat_length, rfl, rfl, rfl, ?_⟩
  · by_cases new : name = pass.files.length
    · subst new
      simp [withPart_self]
    · have before := names name
      simp only [withPart_of_ne new, before]
      omega
  · refine List.Perm.trans ?_ covers
    change ((state.withPart pass.files.length index).doneLines pass ++ _).Perm _
    rw [done.doneLines untouched]
    refine List.Perm.append_left _ ?_
    simp only [List.nil_append, Pass.pending, shards, List.flatMap_cons]
    exact (isCursor.map (catalog.line params.fields)).append_right _

theorem atStage_row {handle : Option Nat} {doc : Doc} {cursor : List Doc} (intact : state.Intact)
    (at_ : state.AtStage catalog index params (.writing pass handle rows (doc :: cursor))) :
    (state.through handle index fun part =>
      { part with lines := part.lines ++ [catalog.line params.fields doc] }).Intact ∧
    (state.through handle index fun part =>
      { part with lines := part.lines ++ [catalog.line params.fields doc] }).AtStage catalog index params
        (.writing pass handle (rows + 1) cursor) := by
  obtain ⟨absent, names, done, file, part, rfl, named, found, unmixed, own, count, covers⟩ := at_
  have untouched : ∀ name < pass.files.length, state.Untouched (state.write file index fun part =>
      { part with lines := part.lines ++ [catalog.line params.fields doc] }) name :=
    fun name isLess => untouched_write intact named (Nat.ne_of_lt isLess)
  refine ⟨intact_write intact, absent, names, done.untouched untouched, file, _, rfl, named, files_write found,
    ?_, own, ?_, ?_⟩
  · simp [unmixed, own]
  · simp [count]
  · change ((state.write file index _).doneLines pass ++ _).Perm _
    rw [done.doneLines untouched]
    simpa using covers

theorem atStage_finish {handle : Option Nat} (intact : state.Intact)
    (at_ : state.AtStage catalog index params (.writing pass handle rows [])) :
    (state.through handle index fun part => { part with finished := true }).Intact ∧
    (state.through handle index fun part => { part with finished := true }).AtStage catalog index params
      (.opening { pass with files := pass.files ++ [(pass.files.length, rows)] }) := by
  obtain ⟨absent, names, done, file, part, rfl, named, found, unmixed, own, count, covers⟩ := at_
  have untouched : ∀ name < pass.files.length,
      state.Untouched (state.write file index fun part => { part with finished := true }) name :=
    fun name isLess => untouched_write intact named (Nat.ne_of_lt isLess)
  have doneAfter := done.untouched untouched
  refine ⟨intact_write intact, absent, ?_, ⟨?_, ?_⟩, ?_⟩
  · intro name
    rw [List.length_append]
    exact names name
  · simp [done.names, List.range_succ]
  · intro entry member
    rcases List.mem_append.mp member with before | last
    · exact doneAfter.parts entry before
    · obtain rfl := List.mem_singleton.mp last
      exact ⟨file, _, named, files_write found, rfl, by simp [unmixed, own], count⟩
  · have lines : (state.write file index fun part => { part with finished := true }).lines pass.files.length =
        part.lines := lines_write named found
    have sameLines := done.doneLines untouched
    change ((pass.files ++ [(pass.files.length, rows)]).flatMap (fun entry =>
      (state.write file index fun part => { part with finished := true }).lines entry.1) ++ _).Perm _
    rw [List.flatMap_append, List.flatMap_singleton, lines]
    change (Directory.doneLines _ pass ++ part.lines ++ _).Perm _
    rw [sameLines, List.append_assoc]
    exact covers

theorem holds_opening (at_ : state.AtStage catalog index params (.opening pass)) (isOver : pass.shards = []) :
    state.Holds catalog params.fields pass.files (pass.files.map Prod.snd).sum := by
  obtain ⟨_, names, done, covers⟩ := at_
  refine ⟨done.names ▸ List.nodup_range, fun name => ?_, done.parts, rfl, ?_⟩
  · rw [names, done.names, List.mem_range]
  · rwa [Pass.pending, isOver, List.flatMap_nil, List.append_nil] at covers

end Pass

/-! ## Runs -/

theorem kept_submit (kept : state.Kept catalog) (params : ExportCatalogParams)
    (quiet : params.dryRun = false → ∀ run ∈ state.runs, ¬ run.writes) :
    Kept catalog { state with runs := state.runs ++ [{ params, stage := .submitted }] } := by
  have found : ∀ (place : Nat) (run : Run V Doc), (state.runs ++ [⟨params, .submitted⟩])[place]? = some run →
      state.runs[place]? = some run ∨ (place = state.runs.length ∧ run = ⟨params, .submitted⟩) := by
    intro place run at_
    rcases Nat.lt_trichotomy place state.runs.length with before | rfl | beyond
    · rw [List.getElem?_append_left before] at at_
      exact .inl at_
    · rw [List.getElem?_concat_length] at at_
      exact .inr ⟨rfl, (Option.some.inj at_).symm⟩
    · rw [List.getElem?_eq_none (by simp; omega)] at at_
      cases at_
  refine ⟨⟨kept.intact.made, kept.intact.apart⟩, ?_, ?_, ?_, vouches_runs kept.vouches _⟩
  · intro first second one other atFirst firstWrites atSecond secondWrites
    rcases found first one atFirst with oldFirst | ⟨isFirst, rfl⟩ <;>
      rcases found second other atSecond with oldSecond | ⟨isSecond, rfl⟩
    · exact kept.alone first second one other oldFirst firstWrites oldSecond secondWrites
    · exact absurd firstWrites (quiet secondWrites.1 one (List.mem_of_getElem? oldFirst))
    · exact absurd secondWrites (quiet firstWrites.1 other (List.mem_of_getElem? oldSecond))
    · rw [isFirst, isSecond]
  · intro place run at_ full
    rcases found place run at_ with old | ⟨_, rfl⟩
    · exact atStage_runs (kept.atStage place run old full) _
    · trivial
  · intro run member isDry
    rcases List.mem_append.mp member with old | new
    · exact kept.dry run old isDry
    · obtain rfl := List.mem_singleton.mp new
      trivial

/-- What a step of a system without faults does to the invariant. -/
theorem kept_step (kept : state.Kept catalog) (step : Step catalog (fun _ => False) state after) :
    after.Kept catalog := by
  -- only a run that writes is ever at one of the first stages
  have full : ∀ {index : Nat} {params : ExportCatalogParams} {stage : Stage V Doc},
      state.runs[index]? = some { params, stage } → ¬ AtDryStage stage → params.dryRun = false := by
    intro index params stage at_ unreached
    refine Bool.eq_false_iff.mpr fun isDry => unreached ?_
    exact kept.dry _ (List.mem_of_getElem? at_) isDry
  cases step with
  | submit apart => exact kept_submit kept _ fun full run member writes => apart full ⟨run, member, writes⟩
  | @begin_ index params at_ =>
    cases dryness : params.dryRun with
    | true =>
      rw [if_pos rfl]
      exact kept_setStage kept at_ (.inr ⟨dryness, trivial⟩)
    | false =>
      rw [if_neg Bool.false_ne_true]
      exact kept_writes kept at_ dryness nofun rfl ⟨kept.intact.made, kept.intact.apart⟩ trivial
        (vouches_runs kept.vouches _)
  | @unlink index params at_ =>
    exact kept_writes kept at_ (full at_ id) nofun rfl ⟨kept.intact.made, kept.intact.apart⟩ rfl (vouches_none rfl)
  | @list_ index params names at_ listed =>
    have absent := kept.atStage _ _ at_ (full at_ id)
    rcases listed with all | impossible
    · exact kept_writes kept at_ (full at_ id) nofun rfl ⟨kept.intact.made, kept.intact.apart⟩ ⟨absent, all⟩
        (vouches_none absent)
    · exact impossible.elim
  | @clear index name params names at_ =>
    obtain ⟨absent, listed⟩ := kept.atStage _ _ at_ (full at_ id)
    have shrinks : ∀ other file, Function.update state.parts name none other = some file →
        other ≠ name ∧ state.parts other = some file := by
      intro other file found
      by_cases same : other = name
      · subst same
        rw [Function.update_self] at found
        cases found
      · rw [Function.update_of_ne same] at found
        exact ⟨same, found⟩
    refine kept_writes kept at_ (full at_ id) nofun rfl ⟨fun other file found => ?_, fun first second file
      isFirst isSecond => ?_⟩ ⟨absent, fun other file found => ?_⟩ (vouches_none absent)
    · exact kept.intact.made other file (shrinks other file found).2
    · exact kept.intact.apart first second file (shrinks first file isFirst).2 (shrinks second file isSecond).2
    · obtain ⟨differs, before⟩ := shrinks other file found
      exact List.mem_of_ne_of_mem differs (listed other file before)
  | @cleared index params at_ =>
    obtain ⟨absent, listed⟩ := kept.atStage _ _ at_ (full at_ id)
    refine kept_writes kept at_ (full at_ id) nofun rfl ⟨kept.intact.made, kept.intact.apart⟩
      ⟨absent, fun name => ?_⟩ (vouches_none absent)
    cases named : state.parts name with
    | none => exact named
    | some file => cases listed name file named
  | @sample index params field bounds at_ _ sampled types =>
    cases dryness : params.dryRun with
    | true => exact kept_setStage kept at_ (.inr ⟨dryness, trivial⟩)
    | false =>
      obtain ⟨absent, empty⟩ := kept.atStage _ _ at_ dryness
      have covers : (Pass.pending catalog params.fields ⟨field, rangeShards params.shards bounds, []⟩).Perm
          (catalog.docs.map (catalog.line params.fields)) := by
        rcases types with one | oneType | impossible
        · rw [one, pending_all]
        · exact pending_rangeShards sampled oneType params.fields
        · exact impossible.elim
      refine kept_writes kept at_ dryness nofun rfl ⟨kept.intact.made, kept.intact.apart⟩
        ⟨absent, fun name => ?_, ⟨rfl, nofun⟩, covers⟩ (vouches_none absent)
      simp [setStage, empty name]
  | @open_ index params pass shard rest cursor at_ shards isCursor =>
    cases dryness : params.dryRun with
    | true =>
      have nothing : state.openPart params pass.files.length index = (state, none) := by simp [openPart, dryness]
      rw [nothing]
      exact kept_setStage kept at_ (.inr ⟨dryness, rfl⟩)
    | false =>
      have before := kept.atStage _ _ at_ dryness
      obtain ⟨intact, opened⟩ := atStage_open kept.intact dryness before shards isCursor
      exact kept_writes kept at_ dryness nofun (congrArg (List.set · index _) runs_openPart) ⟨intact.made, intact.apart⟩ (atStage_runs opened _)
        (vouches_none opened.1)
  | @row index rows params pass handle doc cursor at_ =>
    cases dryness : params.dryRun with
    | true =>
      obtain rfl : handle = none := kept.dry _ (List.mem_of_getElem? at_) dryness
      exact kept_setStage kept at_ (.inr ⟨dryness, rfl⟩)
    | false =>
      obtain ⟨intact, written⟩ := atStage_row kept.intact (kept.atStage _ _ at_ dryness)
      exact kept_writes kept at_ dryness nofun (congrArg (List.set · index _) runs_through) ⟨intact.made, intact.apart⟩ (atStage_runs written _)
        (vouches_none written.1)
  | @finish index rows params pass handle at_ =>
    cases dryness : params.dryRun with
    | true =>
      obtain rfl : handle = none := kept.dry _ (List.mem_of_getElem? at_) dryness
      exact kept_setStage kept at_ (.inr ⟨dryness, trivial⟩)
    | false =>
      obtain ⟨intact, finished⟩ := atStage_finish kept.intact (kept.atStage _ _ at_ dryness)
      exact kept_writes kept at_ dryness nofun (congrArg (List.set · index _) runs_through) ⟨intact.made, intact.apart⟩ (atStage_runs finished _)
        (vouches_none finished.1)
  | @vouch index params pass at_ isOver dryness =>
    have holds := holds_opening (kept.atStage _ _ at_ dryness) isOver
    refine kept_writes kept at_ dryness nofun rfl ⟨kept.intact.made, kept.intact.apart⟩ trivial ?_
    intro manifest present
    obtain rfl := Option.some.inj present
    exact ⟨_, _, _, rfl, holds.distinct, holds.listed, holds.parts, holds.total, holds.documents⟩
  | tally at_ => exact kept_setStage kept at_ (.inl rfl)
  | stop at_ => exact kept_setStage kept at_ (.inl rfl)
  | @drop index rows params pass handle cursor at_ =>
    cases dryness : params.dryRun with
    | true =>
      obtain rfl : handle = none := kept.dry _ (List.mem_of_getElem? at_) dryness
      exact kept_setStage kept at_ (.inl rfl)
    | false =>
      obtain ⟨absent, _, _, file, _, rfl, _⟩ := kept.atStage _ _ at_ dryness
      have intact : (state.write file index fun part => { part with finished := true }).Intact :=
        intact_write kept.intact
      exact kept_writes kept at_ dryness nofun rfl ⟨intact.made, intact.apart⟩ trivial (vouches_none absent)
  | unlinkFails _ impossible | clearFails _ impossible | vouchCut _ _ _ impossible => exact impossible.elim

omit [LinearOrder V] in
theorem starts_empty {name file : Nat} (starts : Starts state) : state.parts name ≠ some file := by
  simp [starts.parts name]

theorem kept_starts (starts : Starts state) : state.Kept catalog where
  intact := ⟨fun _ _ named => absurd named (starts_empty starts), fun _ _ _ named => absurd named (starts_empty starts)⟩
  alone := by simp [starts.runs]
  atStage := by simp [starts.runs]
  dry := by simp [starts.runs]
  vouches := vouches_none starts.manifest

/-- Where no run that writes overlaps another, every old file is removed, no write of the
    manifest is cut short, and shards are cut on a field of one type only, a manifest in the
    directory vouches for its parts. -/
theorem vouches_of_sound {state : Directory V Doc}
    (reachable : Reachable Starts (Step catalog fun _ => False) state) : Vouches catalog state :=
  (reachable.invariant (Kept catalog) (fun _ => kept_starts) fun _ _ _ kept step => kept_step kept step).vouches

end Directory

/-! ## Values of two types -/

section Examples

def numbersAndStrings : Comparison Nat where
  kind value := some (value / 10)
  lt value cut := value.any fun held => held / 10 == cut / 10 && decide (held < cut)
  gte value cut := value.any fun held => held / 10 == cut / 10 && decide (cut ≤ held)
  lt_value := by
    intro value cut own first second
    have same : value / 10 = cut / 10 := Option.some.inj (first.trans second.symm)
    simp [same]
  gte_value := by
    intro value cut own first second
    have same : value / 10 = cut / 10 := Option.some.inj (first.trans second.symm)
    simp [same]
  lt_missing _ := rfl
  gte_missing _ := rfl

def withOthers (others : List Nat) : Catalog Nat Nat where
  docs := 1 :: 2 :: others
  held _ doc := some doc
  comparison := numbersAndStrings
  line _ doc := toString doc

def twoShards : ExportCatalogParams where
  fields := []
  shards := 2
  dryRun := false
  validShards := by decide

def exported : Directory Nat Nat where
  manifest := some (.complete [] [(0, 1), (1, 1)] 2)
  parts := Function.update (Function.update (fun _ => none) 0 (some 0)) 1 (some 1)
  files := [⟨[toString 1], true, 0, false⟩, ⟨[toString 2], true, 0, false⟩]
  runs := [⟨twoShards, .ended⟩]

theorem cursor_withOthers {others : List Nat} {shard : ShardFilter Nat} {doc : Nat}
    (own : [1, 2].filter (fun doc => shard.matches_ numbersAndStrings (some doc)) = [doc])
    (rest : ∀ other ∈ others, shard.matches_ numbersAndStrings (some other) = false) :
    Cursor (withOthers others) "_id" shard [doc] := by
  have none : others.filter (fun doc => shard.matches_ numbersAndStrings (some doc)) = [] :=
    List.filter_eq_nil_iff.mpr fun other member => by simp [rest other member]
  change List.Perm [doc] (([1, 2] ++ others).filter fun doc => shard.matches_ numbersAndStrings (some doc))
  rw [List.filter_append, own, none, List.append_nil]

theorem reachable_exported {others bounds : List Nat} {may : Fault → Prop}
    (sampled : Sampled (withOthers others) "_id" 2 bounds) (cut : rangeShards 2 bounds = [.below 2, .from_ 2])
    (below : ∀ other ∈ others, (ShardFilter.below 2).matches_ numbersAndStrings (some other) = false)
    (above : ∀ other ∈ others, (ShardFilter.from_ 2).matches_ numbersAndStrings (some other) = false)
    (types : OneType (withOthers others) "_id" ∨ may .mixedTypes) :
    Reachable Starts (Directory.Step (withOthers others) may) exported := by
  let empty : Directory Nat Nat := { manifest := none, parts := fun _ => none, files := [], runs := [] }
  have start : Reachable Starts (Directory.Step (withOthers others) may) empty := .start ⟨rfl, fun _ => rfl, rfl⟩
  have submitted := start.next (@Directory.Step.submit _ _ _ _ _ _ twoShards fun _ busy => by
    obtain ⟨_, member, _⟩ := busy
    cases member)
  have begun := submitted.next (@Directory.Step.begin_ _ _ _ _ _ _ 0 _ rfl)
  have unlinked := begun.next (@Directory.Step.unlink _ _ _ _ _ _ 0 _ rfl)
  have listed := unlinked.next (@Directory.Step.list_ _ _ _ _ _ _ 0 _ [] rfl (.inl nofun))
  have cleared := listed.next (@Directory.Step.cleared _ _ _ _ _ _ 0 _ rfl)
  have sampling := cleared.next (@Directory.Step.sample _ _ _ _ _ _ 0 _ "_id" bounds rfl (.inr rfl) sampled (.inr types))
  change Reachable _ _ (Directory.setStage _ 0 _ (.opening ⟨"_id", rangeShards 2 bounds, []⟩)) at sampling
  rw [cut] at sampling
  have opened := sampling.next
    (@Directory.Step.open_ _ _ _ _ _ _ 0 _ _ _ _ [1] rfl rfl (cursor_withOthers rfl below))
  have first := opened.next (@Directory.Step.row _ _ _ _ _ _ 0 _ _ _ _ _ _ rfl)
  have finished := first.next (@Directory.Step.finish _ _ _ _ _ _ 0 _ _ _ _ rfl)
  have reopened := finished.next
    (@Directory.Step.open_ _ _ _ _ _ _ 0 _ _ _ _ [2] rfl rfl (cursor_withOthers rfl above))
  have second := reopened.next (@Directory.Step.row _ _ _ _ _ _ 0 _ _ _ _ _ _ rfl)
  have done := second.next (@Directory.Step.finish _ _ _ _ _ _ 0 _ _ _ _ rfl)
  have vouched := done.next (@Directory.Step.vouch _ _ _ _ _ _ 0 _ _ rfl rfl rfl)
  exact vouched

theorem vouches_of_sound_exported : exported.manifest.isSome = true ∧ Vouches (withOthers []) exported := by
  have sampled : Sampled (withOthers []) "_id" 2 [1, 2] := by
    refine ⟨by decide, fun bound member => ⟨bound, member, rfl⟩, ?_⟩
    simp
  have oneType : OneType (withOthers []) "_id" := by
    refine ⟨0, fun doc member value held => ?_⟩
    obtain rfl := Option.some.inj held
    rcases List.mem_pair.mp member with rfl | rfl <;> rfl
  exact ⟨rfl, Directory.vouches_of_sound (reachable_exported sampled rfl nofun nofun (.inl oneType))⟩

/-! ## Two workers -/

def oneShard : ExportCatalogParams where
  fields := []
  shards := 1
  dryRun := false
  validShards := by decide

/-- The second worker clears the directory under the first one, which goes on to its manifest. -/
theorem manifest_without_part :
    ¬ ∀ (catalog : Catalog Nat Nat) (state : Directory Nat Nat),
      Reachable Starts (Directory.Step catalog fun _ => True) state → Vouches catalog state := by
  intro holds
  let empty : Directory Nat Nat := { manifest := none, parts := fun _ => none, files := [], runs := [] }
  have start : Reachable Starts (Directory.Step (withOthers []) fun _ => True) empty :=
    .start ⟨rfl, fun _ => rfl, rfl⟩
  have submitted := start.next (@Directory.Step.submit _ _ _ _ _ _ oneShard fun _ _ => trivial)
  have begun := submitted.next (@Directory.Step.begin_ _ _ _ _ _ _ 0 _ rfl)
  have unlinked := begun.next (@Directory.Step.unlink _ _ _ _ _ _ 0 _ rfl)
  have listed := unlinked.next (@Directory.Step.list_ _ _ _ _ _ _ 0 _ [] rfl (.inl nofun))
  have cleared := listed.next (@Directory.Step.cleared _ _ _ _ _ _ 0 _ rfl)
  have sampling := cleared.next (@Directory.Step.sample _ _ _ _ _ _ 0 _ "_id" [] rfl (.inr rfl)
    ⟨Nat.zero_le _, nofun, .nil⟩ (.inl rfl))
  have opened := sampling.next (@Directory.Step.open_ _ _ _ _ _ _ 0 _ _ .all [] [1, 2] rfl rfl (.refl _))
  -- the lease is lost here, and the run is handed to a second worker
  have resubmitted := opened.next (@Directory.Step.submit _ _ _ _ _ _ oneShard fun _ _ => trivial)
  have rebegun := resubmitted.next (@Directory.Step.begin_ _ _ _ _ _ _ 1 _ rfl)
  have reunlinked := rebegun.next (@Directory.Step.unlink _ _ _ _ _ _ 1 _ rfl)
  have relisted := reunlinked.next (@Directory.Step.list_ _ _ _ _ _ _ 1 _ [0] rfl (.inl fun name file named => by
    by_cases same : name = 0
    · exact List.mem_singleton.mpr same
    · change Function.update (fun _ => none) 0 (some 0) name = some file at named
      rw [Function.update_of_ne same] at named
      cases named))
  have removed := relisted.next (@Directory.Step.clear _ _ _ _ _ _ 1 0 _ _ rfl)
  have first := removed.next (@Directory.Step.row _ _ _ _ _ _ 0 _ _ _ _ _ _ rfl)
  have second := first.next (@Directory.Step.row _ _ _ _ _ _ 0 _ _ _ _ _ _ rfl)
  have finished := second.next (@Directory.Step.finish _ _ _ _ _ _ 0 _ _ _ _ rfl)
  have vouched := finished.next (@Directory.Step.vouch _ _ _ _ _ _ 0 _ _ rfl rfl rfl)
  obtain ⟨fields, files, rows, complete, held⟩ := holds _ _ vouched _ rfl
  cases complete
  have present := (held.listed 0).mpr (List.mem_singleton.mpr rfl)
  exact absurd present Bool.false_ne_true

end Examples

end Boom.Tasks.Export
