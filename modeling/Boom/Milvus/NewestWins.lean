import Boom.Foundations.Slots
import Boom.Milvus.Sink

/-! # The newest embedding wins

Every row that was handed over is outdone by a row that is stored, queued or held by a
worker.  A write keeps this as long as the dates it was decided on are still the stored
ones.  Two workers that read before either writes may leave the older row. -/

namespace Boom.Milvus

open Boom.Foundations

/-! ## What a batch leaves out -/

def Older (first second : EmbeddingRow) : Prop :=
  first.jd.rank ≤ second.jd.rank

theorem Older.refl (row : EmbeddingRow) : Older row row :=
  Int.le_refl _

theorem Older.trans (first second third : EmbeddingRow) (below : Older first second)
    (above : Older second third) : Older first third :=
  Int.le_trans below above

theorem rank_le_of_isNewerJd {jd storedJd : F64} (newer : isNewerJd jd storedJd = true) :
    storedJd.rank ≤ jd.rank :=
  F64.rank_le_of_totalRank_le (Int.le_of_lt (of_decide_eq_true newer))

theorem rank_le_of_not_isNewerJd {jd storedJd : F64} (older : isNewerJd jd storedJd = false) :
    jd.rank ≤ storedJd.rank :=
  F64.rank_le_of_totalRank_le (Int.not_lt.mp (of_decide_eq_false older))

theorem outdone_latestPerObject {rows : List EmbeddingRow} {row : EmbeddingRow} (member : row ∈ rows) :
    Outdone EmbeddingRow.objectId Older (latestPerObject rows) row := by
  unfold latestPerObject
  refine outdone_foldl_putNewest Older.refl Older.trans ?_ ?_ (.inr member)
  · exact fun first second newer => rank_le_of_isNewerJd newer
  · exact fun first second older => rank_le_of_not_isNewerJd older

theorem mem_of_mem_latestPerObject {rows : List EmbeddingRow} {row : EmbeddingRow}
    (member : row ∈ latestPerObject rows) : row ∈ rows := by
  rcases mem_of_mem_foldl_putNewest member with absurdly | inRows
  · cases absurdly
  · exact inRows

theorem outdone_putAll {queue rows : List EmbeddingRow} {row : EmbeddingRow}
    (was : row ∈ queue ∨ (row ∈ rows ∧ row.jd.isNan = false)) :
    Outdone EmbeddingRow.objectId Older (putAll queue rows) row := by
  unfold putAll
  refine outdone_foldl_putNewest Older.refl Older.trans ?_ ?_ ?_
  · exact fun first second raises => Int.le_of_lt (of_decide_eq_true raises)
  · exact fun first second stays => Int.not_lt.mp (of_decide_eq_false stays)
  · refine was.imp id fun inRows => List.mem_filter.mpr ⟨inRows.1, ?_⟩
    simp [inRows.2]

theorem mem_of_mem_putAll {queue rows : List EmbeddingRow} {row : EmbeddingRow}
    (member : row ∈ putAll queue rows) : row ∈ queue ∨ row ∈ rows :=
  (mem_of_mem_foldl_putNewest member).imp id fun inRows => (List.mem_filter.mp inRows).1

theorem decode_storable {row : EmbeddingRow} (storable : row.Storable) : decode row = some row :=
  if_neg (not_or.mpr ⟨storable.1, storable.2.1⟩)

theorem mem_take_or {max : Nat} {queue : List EmbeddingRow} {row : EmbeddingRow} (storable : row.Storable)
    (member : row ∈ queue) : row ∈ (take max queue).1 ∨ row ∈ (take max queue).2 := by
  have sorted : row ∈ queue.insertionSort before := List.mem_insertionSort before |>.mpr member
  rw [← List.take_append_drop max (queue.insertionSort before)] at sorted
  refine (List.mem_append.mp sorted).imp (fun taken => ?_) id
  exact List.mem_filterMap.mpr ⟨row, taken, decode_storable storable⟩

theorem mem_of_mem_take {max : Nat} {queue : List EmbeddingRow} {row : EmbeddingRow}
    (member : row ∈ (take max queue).1 ∨ row ∈ (take max queue).2) : row ∈ queue := by
  refine (List.mem_insertionSort before).mp ?_
  rcases member with taken | left
  · obtain ⟨stored, isTaken, decoded⟩ := List.mem_filterMap.mp taken
    unfold decode at decoded
    split at decoded
    next => cases decoded
    next =>
      obtain rfl := Option.some.inj decoded
      exact List.mem_of_mem_take isTaken
  · exact List.mem_of_mem_drop left

/-! ## The write -/

theorem upsertRows_of_not_mem {collection : String → Option EmbeddingRow} {rows : List EmbeddingRow}
    {objectId : String} (absent : objectId ∉ rows.map (·.objectId)) :
    upsertRows collection rows objectId = collection objectId := by
  induction rows generalizing collection with
  | nil => rfl
  | cons row rest ih =>
    rw [List.map_cons, List.mem_cons, not_or] at absent
    exact (ih absent.2).trans (Function.update_of_ne absent.1 _ _)

theorem upsertRows_of_mem {collection : String → Option EmbeddingRow} {rows : List EmbeddingRow}
    {row : EmbeddingRow} (apart : (rows.map (·.objectId)).Nodup) (member : row ∈ rows) :
    upsertRows collection rows row.objectId = some row := by
  induction rows generalizing collection with
  | nil => cases member
  | cons first rest ih =>
    rw [List.map_cons, List.nodup_cons] at apart
    rcases List.mem_cons.mp member with rfl | later
    · exact (upsertRows_of_not_mem apart.1).trans (Function.update_self ..)
    · exact ih apart.2 later

theorem nodup_dropStale (rows : List EmbeddingRow) (stored : String → Option F64) :
    ((dropStale (latestPerObject rows) stored).map (·.objectId)).Nodup := by
  have apart : ((latestPerObject rows).map (·.objectId)).Nodup := nodup_foldl_putNewest List.nodup_nil
  exact apart.sublist (List.filter_sublist.map _)

theorem mem_dropStale_or {rows : List EmbeddingRow} {stored : String → Option F64} {row : EmbeddingRow}
    (member : row ∈ rows) :
    row ∈ dropStale rows stored ∨ ∃ storedJd, stored row.objectId = some storedJd ∧ row.jd.rank ≤ storedJd.rank := by
  cases known : stored row.objectId with
  | none => exact .inl (List.mem_filter.mpr ⟨member, by simp [known]⟩)
  | some storedJd =>
    cases newer : isNewerJd row.jd storedJd with
    | true => exact .inl (List.mem_filter.mpr ⟨member, by simp [known, newer]⟩)
    | false => exact .inr ⟨storedJd, rfl, rank_le_of_not_isNewerJd newer⟩

theorem rank_le_of_mem_dropStale {rows : List EmbeddingRow} {stored : String → Option F64} {row : EmbeddingRow}
    {storedJd : F64} (fresh : row ∈ dropStale rows stored) (known : stored row.objectId = some storedJd) :
    storedJd.rank ≤ row.jd.rank := by
  have newer := (List.mem_filter.mp fresh).2
  simp only [known] at newer
  exact rank_le_of_isNewerJd newer

/-! ## The invariant -/

def Stage.rows : Stage → List EmbeddingRow
  | .reading rows _ | .upserting rows _ _ _ | .buffering rows => rows
  | .idle | .draining => []

theorem rows_succeed (live : Bool) : (Stage.succeed live).rows = [] := by
  cases live <;> rfl

namespace Sinks

def Covered (state : Sinks) (row : EmbeddingRow) : Prop :=
  (∃ held, state.collection row.objectId = some held ∧ Older row held) ∨
  Outdone EmbeddingRow.objectId Older state.queue row ∨
  ∃ stage ∈ state.workers, Outdone EmbeddingRow.objectId Older stage.rows row

def Raised (state later : Sinks) : Prop :=
  ∀ objectId held, state.collection objectId = some held →
    ∃ now, later.collection objectId = some now ∧ Older held now

def Sound (state : Sinks) : Stage → Prop
  | .upserting rows fresh read _ => fresh = dropStale (latestPerObject rows) read ∧
    ∀ objectId jd, read objectId = some jd →
      ∃ held, state.collection objectId = some held ∧ jd.rank ≤ held.jd.rank
  | .idle | .reading .. | .buffering _ | .draining => True

structure Kept (state : Sinks) : Prop where
  storable : ∀ row ∈ state.handed, row.Storable
  known : ∀ objectId held, state.collection objectId = some held →
    held ∈ state.handed ∧ held.objectId = objectId
  queued : ∀ row ∈ state.queue, row ∈ state.handed
  carried : ∀ stage ∈ state.workers, ∀ row ∈ stage.rows, row ∈ state.handed
  sound : ∀ stage ∈ state.workers, state.Sound stage
  covered : ∀ row ∈ state.handed, state.Covered row

variable {state after : Sinks}

theorem Raised.refl (state : Sinks) : state.Raised state :=
  fun _ held found => ⟨held, found, Older.refl held⟩

theorem Raised.trans (first second third : Sinks) (lower : first.Raised second) (upper : second.Raised third) :
    first.Raised third := by
  intro objectId held found
  obtain ⟨middle, inMiddle, below⟩ := lower objectId held found
  obtain ⟨now, isNow, above⟩ := upper objectId middle inMiddle
  exact ⟨now, isNow, below.trans _ _ _ above⟩

theorem Covered.of_outdone {rows : List EmbeddingRow} {row : EmbeddingRow}
    (outdone : Outdone EmbeddingRow.objectId Older rows row) (each : ∀ found ∈ rows, state.Covered found) :
    state.Covered row := by
  obtain ⟨found, member, sameObject, older⟩ := outdone
  rcases each found member with ⟨held, stored, above⟩ | ⟨next, inQueue, same, above⟩ |
    ⟨stage, inWorkers, next, inRows, same, above⟩
  · exact .inl ⟨held, sameObject ▸ stored, older.trans _ _ _ above⟩
  · exact .inr (.inl ⟨next, inQueue, same.trans sameObject, older.trans _ _ _ above⟩)
  · exact .inr (.inr ⟨stage, inWorkers, next, inRows, same.trans sameObject, older.trans _ _ _ above⟩)

theorem covered_held {stage : Stage} (member : stage ∈ state.workers) : ∀ row ∈ stage.rows, state.Covered row :=
  fun row inRows => .inr (.inr ⟨stage, member, row, inRows, rfl, Older.refl row⟩)

theorem covered_queued (row : EmbeddingRow) (member : row ∈ state.queue) : state.Covered row :=
  .inr (.inl ⟨row, member, rfl, Older.refl row⟩)

section

variable (kept : state.Kept)
include kept

theorem kept_worker {index : Nat} {stage next : Stage}
    (at_ : state.workers[index]? = some stage) (workers : after.workers = state.workers.set index next)
    (raised : state.Raised after) (storable : ∀ row ∈ after.handed, row.Storable)
    (handed : ∀ row ∈ state.handed, row ∈ after.handed)
    (known : ∀ objectId held, after.collection objectId = some held →
      held ∈ after.handed ∧ held.objectId = objectId) (queued : ∀ row ∈ after.queue, row ∈ after.handed)
    (carried : ∀ row ∈ next.rows, row ∈ after.handed) (sound : after.Sound next)
    (queue : ∀ row ∈ state.queue, after.Covered row) (own : ∀ row ∈ stage.rows, after.Covered row)
    (new : ∀ row ∈ after.handed, row ∈ state.handed ∨ after.Covered row) : after.Kept := by
  refine ⟨storable, known, queued, ?_, ?_, ?_⟩
  · intro other member row inRows
    rw [workers] at member
    rcases List.mem_or_eq_of_mem_set member with before | rfl
    · exact handed row (kept.carried other before row inRows)
    · exact carried row inRows
  · intro other member
    rw [workers] at member
    rcases List.mem_or_eq_of_mem_set member with before | rfl
    · have soundBefore := kept.sound other before
      cases other with
      | upserting rows fresh read live =>
        obtain ⟨decided, below⟩ := soundBefore
        refine ⟨decided, fun objectId jd isRead => ?_⟩
        obtain ⟨held, stored, le⟩ := below objectId jd isRead
        obtain ⟨now, isNow, above⟩ := raised objectId held stored
        exact ⟨now, isNow, Int.le_trans le above⟩
      | idle | reading _ _ | buffering _ | draining => trivial
    · exact sound
  · intro row member
    rcases new row member with before | covered
    · rcases kept.covered row before with ⟨held, stored, older⟩ | outdone | ⟨other, inWorkers, outdone⟩
      · obtain ⟨now, isNow, above⟩ := raised row.objectId held stored
        exact .inl ⟨now, isNow, older.trans _ _ _ above⟩
      · exact .of_outdone outdone queue
      · rcases mem_set_or_eq at_ inWorkers with rfl | still
        · exact .of_outdone outdone own
        · exact .inr (.inr ⟨other, workers ▸ still, outdone⟩)
    · exact covered

theorem kept_setStage {index : Nat} {stage next : Stage}
    (at_ : state.workers[index]? = some stage) (carried : ∀ row ∈ next.rows, row ∈ state.handed)
    (sound : state.Sound next) (own : ∀ row ∈ stage.rows, row ∈ next.rows ∨
      ∃ held, state.collection row.objectId = some held ∧ Older row held) : (state.setStage index next).Kept := by
  refine kept_worker kept at_ rfl (Raised.refl state) kept.storable (fun _ member => member) kept.known kept.queued
    carried ?_ (fun row member => covered_queued row member) (fun row member => ?_) (fun _ member => .inl member)
  · cases next <;> exact sound
  · rcases own row member with held | stored
    · exact covered_held (mem_set_of_getElem? at_) row held
    · exact .inl stored

theorem kept_handed {index : Nat} {next : Stage} (at_ : state.workers[index]? = some .idle)
    (storable : ∀ row ∈ state.handed ++ next.rows, row.Storable) (sound : ∀ later, Sound later next) :
    Kept { state.setStage index next with handed := state.handed ++ next.rows } := by
  have grows : ∀ row ∈ state.handed, row ∈ state.handed ++ next.rows :=
    fun row member => List.mem_append_left _ member
  refine kept_worker kept at_ rfl (Raised.refl state) storable grows ?_ (fun row member => grows row (kept.queued row member))
    (fun row member => List.mem_append_right _ member) (sound _)
    (fun row member => covered_queued row member) (fun row member => ?_)
    (fun row member => ?_)
  · intro objectId held stored
    exact ⟨grows held (kept.known objectId held stored).1, (kept.known objectId held stored).2⟩
  · cases member
  · refine (List.mem_append.mp member).imp id fun inRows => ?_
    exact covered_held (mem_set_of_getElem? at_) row inRows

theorem kept_take {index max : Nat} (at_ : state.workers[index]? = some .draining) :
    Kept { state.setStage index (if (take max state.queue).1 = [] then .idle
        else .reading (take max state.queue).1 false) with queue := (take max state.queue).2 } := by
  have rows : (if (take max state.queue).1 = [] then Stage.idle else .reading (take max state.queue).1 false).rows =
      (take max state.queue).1 := by
    split
    next empty => exact empty.symm
    next => rfl
  refine kept_worker kept at_ rfl (Raised.refl state) kept.storable (fun _ member => member) kept.known
    (fun row member => kept.queued row (mem_of_mem_take (.inr member))) (fun row member => ?_) ?_
    (fun row member => ?_) (fun row member => ?_) (fun _ member => .inl member)
  · rw [rows] at member
    exact kept.queued row (mem_of_mem_take (.inl member))
  · split <;> trivial
  · rcases mem_take_or (kept.storable row (kept.queued row member)) member with taken | left
    · refine covered_held (mem_set_of_getElem? at_) row ?_
      rw [rows]
      exact taken
    · exact covered_queued row left
  · cases member

theorem kept_read {index : Nat} {rows : List EmbeddingRow} {live : Bool}
    (config : MilvusConfig) (at_ : state.workers[index]? = some (.reading rows live)) :
    (state.setStage index (state.afterRead config rows live)).Kept := by
  have inHanded : ∀ row ∈ rows, row ∈ state.handed := kept.carried _ (List.mem_of_getElem? at_)
  unfold afterRead
  dsimp only
  split
  next none =>
    refine kept_setStage kept at_ (by simp [rows_succeed]) (by cases live <;> trivial) fun row member => .inr ?_
    -- nothing is fresh: what outdoes the row is not above what is stored
    obtain ⟨found, isLatest, sameObject, older⟩ := @outdone_latestPerObject rows row member
    rcases @mem_dropStale_or _ state.storedJd _ isLatest with fresh | ⟨storedJd, known, le⟩
    · rw [none] at fresh
      cases fresh
    · obtain ⟨held, stored, rfl⟩ := Option.map_eq_some_iff.mp known
      exact ⟨held, sameObject ▸ stored, older.trans _ _ _ le⟩
  next =>
    split
    next =>
      refine kept_setStage kept at_ inHanded ⟨rfl, fun objectId jd isRead => ?_⟩ fun _ member => .inl member
      obtain ⟨held, stored, rfl⟩ := Option.map_eq_some_iff.mp isRead
      exact ⟨held, stored, Int.le_refl _⟩
    next => exact kept_setStage kept at_ inHanded trivial fun _ member => .inl member

end

/-! ## A write over the dates that were read -/

section Write

variable {index : Nat} {rows fresh : List EmbeddingRow} {read : String → Option F64} {live : Bool}

theorem raised_write (undisturbed : state.Undisturbed) (kept : state.Kept)
    (member : Stage.upserting rows fresh read live ∈ state.workers) :
    state.Raised { state with collection := upsertRows state.collection fresh } := by
  obtain ⟨rfl, _⟩ := kept.sound _ member
  intro objectId held stored
  by_cases written : objectId ∈ (dropStale (latestPerObject rows) read).map (·.objectId)
  · obtain ⟨row, isFresh, rfl⟩ := List.mem_map.mp written
    refine ⟨row, upsertRows_of_mem (nodup_dropStale rows read) isFresh, ?_⟩
    have same := undisturbed _ _ _ _ member row isFresh
    rw [storedJd, stored] at same
    exact rank_le_of_mem_dropStale isFresh same.symm
  · exact ⟨held, (upsertRows_of_not_mem written).trans stored, Older.refl held⟩

theorem covered_write (raised : state.Raised { state with collection := upsertRows state.collection fresh })
    (sound : state.Sound (.upserting rows fresh read live)) :
    ∀ row ∈ rows, ∃ held, upsertRows state.collection fresh row.objectId = some held ∧ Older row held := by
  obtain ⟨rfl, below⟩ := sound
  intro row member
  obtain ⟨found, isLatest, sameObject, older⟩ := outdone_latestPerObject member
  rcases mem_dropStale_or isLatest with isFresh | ⟨storedJd, known, le⟩
  · refine ⟨found, ?_, older⟩
    have stored := @upsertRows_of_mem state.collection _ _ (nodup_dropStale rows read) isFresh
    rwa [sameObject] at stored
  · obtain ⟨held, stored, above⟩ := below _ _ known
    obtain ⟨now, isNow, isOver⟩ := raised _ held stored
    rw [sameObject] at isNow
    exact ⟨now, isNow, older.trans _ _ _ (Int.le_trans le (Int.le_trans above isOver))⟩

theorem kept_write (undisturbed : state.Undisturbed) (kept : state.Kept) {next : Stage}
    (at_ : state.workers[index]? = some (.upserting rows fresh read live))
    (carried : ∀ row ∈ next.rows, row ∈ rows) (sound : ∀ later, Sound later next) :
    Kept { state.setStage index next with collection := upsertRows state.collection fresh } := by
  have member := List.mem_of_getElem? at_
  have raised := raised_write undisturbed kept member
  have wasSound := kept.sound _ member
  have inHanded := kept.carried _ member
  refine kept_worker kept at_ rfl raised kept.storable (fun _ was => was) ?_ kept.queued
    (fun row inRows => inHanded row (carried row inRows)) (sound _) (fun row member => covered_queued row member)
    (fun row inRows => .inl (covered_write raised wasSound row inRows)) (fun _ was => .inl was)
  intro objectId held stored
  by_cases written : objectId ∈ fresh.map (·.objectId)
  · obtain ⟨row, isFresh, rfl⟩ := List.mem_map.mp written
    obtain ⟨rfl, _⟩ := wasSound
    have now := stored.symm.trans (upsertRows_of_mem (nodup_dropStale rows read) isFresh)
    obtain rfl := Option.some.inj now
    have inRows : held ∈ rows := mem_of_mem_latestPerObject (List.mem_of_mem_filter isFresh)
    exact ⟨inHanded held inRows, rfl⟩
  · exact kept.known objectId held ((upsertRows_of_not_mem written).symm.trans stored)

end Write

theorem kept_buffer (kept : state.Kept) {index maxRows : Nat} {rows : List EmbeddingRow}
    (at_ : state.workers[index]? = some (.buffering rows)) (fits : (putAll state.queue rows).length ≤ maxRows) :
    Kept { state.setStage index .idle with queue := push maxRows state.queue rows } := by
  have inHanded : ∀ row ∈ rows, row ∈ state.handed := kept.carried _ (List.mem_of_getElem? at_)
  rw [push, if_pos fits]
  have queues : ∀ row, row ∈ state.queue ∨ row ∈ rows →
      Covered { state.setStage index .idle with queue := putAll state.queue rows } row := by
    intro row was
    refine .inr (.inl (outdone_putAll (was.imp id fun inRows => ⟨inRows, ?_⟩)))
    exact (kept.storable row (inHanded row inRows)).2.2
  refine kept_worker kept at_ rfl (Raised.refl state) kept.storable (fun _ member => member) kept.known ?_
    nofun trivial (fun row member => queues row (.inl member)) (fun row member => queues row (.inr member))
    (fun _ member => .inl member)
  intro row member
  exact (mem_of_mem_putAll member).elim (kept.queued row) (inHanded row)

/-! ## Runs -/

variable {config : MilvusConfig}

theorem kept_step (kept : state.Kept) (step : SerialStep config state after) : after.Kept := by
  obtain ⟨step, undisturbed, storable⟩ := step
  cases step with
  | upsert at_ => exact kept_handed kept at_ storable fun _ => trivial
  | turnAway at_ => exact kept_handed kept at_ storable fun _ => trivial
  | drainWhenIdle at_ => exact kept_setStage kept at_ nofun trivial nofun
  | take at_ => exact kept_take kept at_
  | read at_ => exact kept_read kept config at_
  | readFails at_ =>
    have inHanded := kept.carried _ (List.mem_of_getElem? at_)
    exact kept_setStage kept at_ inHanded trivial fun _ member => .inl member
  | @write index rows fresh read live at_ =>
    exact kept_write undisturbed kept at_ (by simp [rows_succeed]) fun _ => by cases live <;> trivial
  | writeFails at_ =>
    have inHanded := kept.carried _ (List.mem_of_getElem? at_)
    exact kept_setStage kept at_ inHanded trivial fun _ member => .inl member
  | writeUnanswered at_ => exact kept_write undisturbed kept at_ (fun _ member => member) fun _ => trivial
  | buffer at_ fits => exact kept_buffer kept at_ fits

theorem raised_step (kept : state.Kept) (step : SerialStep config state after) : state.Raised after := by
  obtain ⟨step, undisturbed, _⟩ := step
  cases step with
  | write at_ => exact raised_write undisturbed kept (List.mem_of_getElem? at_)
  | writeUnanswered at_ => exact raised_write undisturbed kept (List.mem_of_getElem? at_)
  | upsert | turnAway | drainWhenIdle | take | read | readFails | writeFails | buffer => exact Raised.refl state

theorem kept_starts (starts : Starts state) : state.Kept where
  storable := by simp [starts.handed]
  known := by simp [starts.collection]
  queued := by simp [starts.queue]
  carried stage member := by simp [starts.workers stage member, Stage.rows]
  sound stage member := by
    rw [starts.workers stage member]
    trivial
  covered := by simp [starts.handed]

theorem kept_reachable (reachable : Reachable Starts (SerialStep config) state) : state.Kept :=
  reachable.invariant Kept (fun _ => kept_starts) fun _ _ _ kept step => kept_step kept step

theorem le_of_older {first second : EmbeddingRow} (storable : first.Storable) (storableToo : second.Storable)
    (older : Older first second) : first.jd.le second.jd = true := by
  have ranks : first.jd.rank ≤ second.jd.rank := older
  simp [F64.le, storable.2.2, storableToo.2.2, ranks]

theorem newest_of_atRest (kept : state.Kept) (atRest : state.AtRest) : state.Newest := by
  obtain ⟨idle, empty⟩ := atRest
  have stored : ∀ row ∈ state.handed, ∃ held, state.collection row.objectId = some held ∧ Older row held := by
    intro row member
    rcases kept.covered row member with isStored | ⟨found, inQueue, _⟩ | ⟨stage, inWorkers, found, inRows, _⟩
    · exact isStored
    · rw [empty] at inQueue
      cases inQueue
    · rw [idle stage inWorkers] at inRows
      cases inRows
  intro row member
  obtain ⟨held, isStored, _⟩ := stored row member
  obtain ⟨wasHanded, sameObject⟩ := kept.known _ held isStored
  refine ⟨held, wasHanded, isStored, sameObject, fun other isOther same => ?_⟩
  obtain ⟨own, isOwn, older⟩ := stored other isOther
  rw [same, isStored] at isOwn
  obtain rfl := Option.some.inj isOwn
  exact le_of_older (kept.storable other isOther) (kept.storable held wasHanded) older

/-- While no call writes over dates that changed since it read them, of rows that can be
    stored, no stored date gets lower, and at rest the newest row of each object is there. -/
theorem newest_of_serial {config : MilvusConfig} {state after : Sinks}
    (reachable : Reachable Starts (SerialStep config) state)
    (run : Relation.ReflTransGen (SerialStep config) state after) :
    state.NoneLower after ∧ (after.AtRest → after.Newest) := by
  have keptAfter := kept_reachable (reachable.trans run)
  have raised := reachable.grows Raised Raised.refl Raised.trans
    (fun _ _ reached step => raised_step (kept_reachable reached) step) run
  refine ⟨fun objectId held stored => ?_, newest_of_atRest keptAfter⟩
  obtain ⟨now, isNow, older⟩ := raised objectId held stored
  have kept := kept_reachable reachable
  have storable := kept.storable held (kept.known objectId held stored).1
  have storableNow := keptAfter.storable now (keptAfter.known objectId now isNow).1
  exact ⟨now, isNow, le_of_older storable storableNow older⟩

/-! ## Two workers -/

section Examples

def oneConfig : MilvusConfig where
  dim := 1
  drainRows := 1
  maxRows := 1

def firstDay : EmbeddingRow := ⟨"ZTF1", [1], 1, ⟨0x3ff0000000000000⟩⟩

def secondDay : EmbeddingRow := ⟨"ZTF1", [2], 2, ⟨0x4000000000000000⟩⟩

def idle (workers : Nat) : Sinks where
  collection _ := none
  queue := []
  workers := List.replicate workers .idle
  handed := []

theorem starts_idle (workers : Nat) : Starts (idle workers) where
  collection _ := rfl
  queue := rfl
  workers _ member := List.eq_of_mem_replicate member
  handed := rfl

/-- The second day is stored, and the first one came before it and again after it. -/
def stored : Sinks where
  collection := Function.update (Function.update (fun _ => none) "ZTF1" (some firstDay)) "ZTF1" (some secondDay)
  queue := []
  workers := [.idle, .idle]
  handed := [firstDay, secondDay, firstDay]

theorem storable_days : ∀ row ∈ [firstDay, secondDay], row.Storable := by
  intro row member
  rcases List.mem_pair.mp member with rfl | rfl <;> exact ⟨by decide, by decide, by decide⟩

theorem undisturbed_of_two {first second : Stage} (workers : state.workers = [first, second])
    (same : ∀ rows fresh read live, first = .upserting rows fresh read live → read = state.storedJd)
    (same' : ∀ rows fresh read live, second = .upserting rows fresh read live → read = state.storedJd) :
    state.Undisturbed := by
  intro rows fresh read live member row _
  rw [workers] at member
  rcases List.mem_pair.mp member with isFirst | isSecond
  · rw [same rows fresh read live isFirst.symm]
  · rw [same' rows fresh read live isSecond.symm]

theorem newest_of_serial_stored : (idle 2).NoneLower stored ∧ stored.Newest := by
  have start : Reachable Starts (SerialStep oneConfig) (idle 2) := .start (starts_idle 2)
  have first : ∀ row ∈ [firstDay], row.Storable := fun row member => storable_days row (List.mem_cons.mpr (.inl (by simpa using member)))
  have again : ∀ row ∈ [firstDay, secondDay, firstDay], row.Storable :=
    fun row member => storable_days row (by simpa [or_comm] using member)
  have handed := Relation.ReflTransGen.single (r := SerialStep oneConfig)
    ⟨@Step.upsert _ (idle 2) 0 [firstDay] rfl (by simp), undisturbed_of_two rfl nofun nofun, first⟩
  have read := handed.tail ⟨@Step.read _ _ 0 _ _ rfl, undisturbed_of_two rfl nofun nofun, first⟩
  have wrote := read.tail ⟨@Step.write _ _ 0 _ _ _ _ rfl, undisturbed_of_two rfl (by rintro _ _ _ _ ⟨⟩; rfl) nofun, first⟩
  have drained := wrote.tail ⟨@Step.take _ _ 0 rfl, undisturbed_of_two rfl nofun nofun, first⟩
  -- The second worker has the newer row.
  have handedNew := drained.tail ⟨@Step.upsert _ _ 1 [secondDay] rfl (by simp), undisturbed_of_two rfl nofun nofun, storable_days⟩
  have readNew := handedNew.tail ⟨@Step.read _ _ 1 _ _ rfl, undisturbed_of_two rfl nofun nofun, storable_days⟩
  have wroteNew := readNew.tail
    ⟨@Step.write _ _ 1 _ _ _ _ rfl, undisturbed_of_two rfl nofun (by rintro _ _ _ _ ⟨⟩; rfl), storable_days⟩
  have drainedNew := wroteNew.tail ⟨@Step.take _ _ 1 rfl, undisturbed_of_two rfl nofun nofun, storable_days⟩
  -- The older one is handed over once more, and dropped.
  have handedAgain := drainedNew.tail ⟨@Step.upsert _ _ 0 [firstDay] rfl (by simp), undisturbed_of_two rfl nofun nofun, again⟩
  have readAgain := handedAgain.tail ⟨@Step.read _ _ 0 _ _ rfl, undisturbed_of_two rfl nofun nofun, again⟩
  have drainedAgain : Relation.ReflTransGen (SerialStep oneConfig) (idle 2) stored :=
    readAgain.tail ⟨@Step.take _ _ 0 rfl, undisturbed_of_two rfl nofun nofun, again⟩
  obtain ⟨noneLower, newest⟩ := newest_of_serial start drainedAgain
  refine ⟨noneLower, newest ⟨fun stage member => ?_, rfl⟩⟩
  rcases List.mem_pair.mp member with rfl | rfl <;> rfl

/-- The first worker reads, the second one reads and writes, and the first one writes. -/
theorem older_left_behind :
    ¬ ∀ config state after, Reachable Starts (Step config) state →
      Relation.ReflTransGen (Step config) state after →
      state.NoneLower after ∧ (after.AtRest → after.Newest) := by
  intro holds
  have start : Reachable Starts (Step oneConfig) (idle 2) := .start (starts_idle 2)
  have handed := start.next (@Step.upsert _ _ 0 [firstDay] rfl (by simp))
  have read := handed.next (@Step.read _ _ 0 _ _ rfl)
  have handedToo := read.next (@Step.upsert _ _ 1 [secondDay] rfl (by simp))
  have readToo := handedToo.next (@Step.read _ _ 1 _ _ rfl)
  have wroteToo := readToo.next (@Step.write _ _ 1 _ _ _ _ rfl)
  have drainedToo := wroteToo.next (@Step.take _ _ 1 rfl)
  have wrote := drainedToo.next (@Step.write _ _ 0 _ _ _ _ rfl)
  have drained := wrote.next (@Step.take _ _ 0 rfl)
  have inHanded : secondDay ∈ [firstDay, secondDay] := List.mem_cons_of_mem _ List.mem_cons_self
  obtain ⟨_, newest⟩ := holds _ _ _ drained .refl
  have atRest : ∀ stage ∈ List.replicate 2 Stage.idle, stage = .idle := fun _ => List.eq_of_mem_replicate
  obtain ⟨held, _, isHeld, _, largest⟩ := newest ⟨atRest, rfl⟩ secondDay inHanded
  have isFirst : held = firstDay := (Option.some.inj isHeld).symm
  have older := largest secondDay inHanded rfl
  rw [isFirst] at older
  exact absurd older (by decide)

end Examples

end Sinks

end Boom.Milvus
