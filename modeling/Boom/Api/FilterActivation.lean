import Boom.Api.Filters

/-! # Only validated versions run

An update writes some of `active`, `active_fid` and `permissions` and leaves the others as
they are by then.  If these are what the request read, then the filter runs what the
request had validated, or what ran already (`Prepared.sound_applied`).  If another request
came between, it may run a pair that nobody validated
(`onlyValidated_fails_of_late_permissions`). -/

namespace Boom.Api

open Boom.Foundations

/-! ## What an update depends on -/

namespace FilterBody

def active? : FilterBody → Option Bool
  | .version _ => none
  | .patch change => change.active

def setsFid : FilterBody → Bool
  | .version post => post.setsActive
  | .patch change => change.activeFid.isSome

def setsPermissions : FilterBody → Bool
  | .version _ => false
  | .patch change => change.permissions.isSome

def setsRunning (body : FilterBody) (current : Filter) : Bool :=
  body.active?.getD current.active && (!current.active || body.setsFid || body.setsPermissions)

structure AsRead (body : FilterBody) (read current : Filter) : Prop where
  active : body.active? = none → current.active = read.active
  fid : body.setsFid = false → current.activeFid = read.activeFid
  permissions : body.setsPermissions = false → current.permissions = read.permissions

def executes (body : FilterBody) (read : Filter) : Option Validation :=
  match body with
  | .version post => some ⟨read.survey, post.pipeline, read.permissions⟩
  | .patch change => change.executes read

def needsValidation (body : FilterBody) (read : Filter) : Bool :=
  match body with
  | .version post => post.setsActive && read.active
  | .patch change => change.willBeActive read && change.execChanged read

end FilterBody

def FilterRequest.Undisturbed (store : FilterStore) (request : FilterRequest) : Prop :=
  ∀ read current, request.phase = .updating read → store.filters.get request.filterId = some current →
    request.body.setsRunning current = true → request.body.AsRead read current

def undisturbedRules : Requests.Rules FilterStore FilterRequest where
  starts := filterRules.starts
  acts slot store request store' after := filterRules.acts slot store request store' after ∧ request.Undisturbed store
  outside := filterRules.outside

/-! ## Filters over time -/

/-- Versions are only added. -/
structure Filter.Older (read current : Filter) : Prop where
  survey : read.survey = current.survey
  fv : read.fv <+: current.fv

namespace Filter

theorem Older.refl (filter : Filter) : filter.Older filter := ⟨rfl, List.prefix_refl _⟩

theorem Older.trans {first second third : Filter} (before : first.Older second) (after : second.Older third) :
    first.Older third :=
  ⟨before.survey.trans after.survey, before.fv.trans after.fv⟩

theorem Older.version {read current : Filter} (older : read.Older current) {fid : String} {version : FilterVersion}
    (found : read.version fid = some version) : current.version fid = some version := by
  obtain ⟨added, whole⟩ := older.fv
  have found : read.fv.find? (fun version => version.fid = fid) = some version := found
  simp [Filter.version, ← whole, List.find?_append, found]

theorem older_applied (body : FilterBody) (fid : String) (filter : Filter) : filter.Older (body.applied fid filter) := by
  cases body with
  | version post => exact ⟨rfl, List.prefix_append _ _⟩
  | patch change => exact ⟨rfl, List.prefix_refl _⟩

theorem Sound.mono {validated later : List Validation} {filter : Filter} (sound : filter.Sound validated)
    (grows : validated ⊆ later) : filter.Sound later := by
  intro active
  obtain ⟨validation, member, runs⟩ := sound active
  exact ⟨validation, grows member, runs⟩

end Filter

/-! ## A request and what it validated -/

structure Prepared (validated : List Validation) (body : FilterBody) (read : Filter) : Prop where
  sound : read.Sound validated
  known : ∀ change, body = .patch change → ∀ fid ∈ change.activeFid, ∃ version, read.version fid = some version
  validation : body.needsValidation read = true → ∃ validation ∈ validated, body.executes read = some validation

theorem version_appended {filter : Filter} {fid : String} (unused : ∀ version ∈ filter.fv, version.fid ≠ fid)
    (post : FilterVersionPost) : (post.applied fid filter).version fid = some ⟨fid, post.pipeline⟩ := by
  have none : filter.fv.find? (fun version => version.fid = fid) = none := by
    rw [List.find?_eq_none]
    intro version member
    simpa using unused version member
  simp [Filter.version, FilterVersionPost.applied, List.find?_append, none]

theorem Filter.Sound.applied_version {validated : List Validation} {read current : Filter} {fid : String}
    {post : FilterVersionPost} (sound : current.Sound validated) (prepared : Prepared validated (.version post) read)
    (older : read.Older current) (unused : ∀ version ∈ current.fv, version.fid ≠ fid)
    (undisturbed : (FilterBody.version post).setsRunning current = true → (FilterBody.version post).AsRead read current) :
     (post.applied fid current).Sound validated := by
  intro active
  have active : current.active = true := active
  cases sets : post.setsActive with
  | false =>
    -- the version that runs is still the same
    obtain ⟨validation, member, runs⟩ := sound active
    refine ⟨validation, member, ?_⟩
    obtain ⟨version, found, rfl⟩ := Option.map_eq_some_iff.mp runs
    have still := (Filter.older_applied (.version post) fid current).version found
    simp only [FilterBody.applied] at still
    simp only [Filter.runs, FilterVersionPost.applied, sets, Bool.false_eq_true, if_false, Option.map_eq_some_iff]
    refine ⟨version, ?_, rfl⟩
    simpa [FilterVersionPost.applied, sets] using still
  | true =>
    have asRead := undisturbed (by simp [FilterBody.setsRunning, FilterBody.active?, FilterBody.setsFid, active, sets])
    have wasActive : read.active = true := by rw [← asRead.active rfl, active]
    obtain ⟨validation, member, executes⟩ := prepared.validation (by simp [FilterBody.needsValidation, sets, wasActive])
    refine ⟨validation, member, ?_⟩
    rw [← executes, Filter.runs]
    have fidAfter : (post.applied fid current).activeFid = fid := by simp [FilterVersionPost.applied, sets]
    rw [fidAfter, version_appended unused post]
    simp [FilterBody.executes, FilterVersionPost.applied, older.survey, asRead.permissions rfl]

theorem Filter.Sound.applied_patch {validated : List Validation} {read current : Filter} {change : FilterPatch}
    (sound : current.Sound validated) (prepared : Prepared validated (.patch change) read) (older : read.Older current)
    (undisturbed : (FilterBody.patch change).setsRunning current = true → (FilterBody.patch change).AsRead read current) :
     (change.applied current).Sound validated := by
  intro active
  have active : change.active.getD current.active = true := active
  cases sets : (FilterBody.patch change).setsRunning current with
  | false =>
    simp only [FilterBody.setsRunning, FilterBody.active?, FilterBody.setsFid, FilterBody.setsPermissions, active,
      Bool.true_and, Bool.or_eq_false_iff, Bool.not_eq_false', Option.isSome_eq_false_iff, Option.isNone_iff_eq_none] at sets
    obtain ⟨⟨isActive, noFid⟩, noPermissions⟩ := sets
    obtain ⟨validation, member, runs⟩ := sound isActive
    refine ⟨validation, member, ?_⟩
    simpa [Filter.runs, FilterPatch.applied, Filter.version, noFid, noPermissions] using runs
  | true =>
    have asRead := undisturbed sets
    have fid : change.activeFid.getD current.activeFid = change.activeFid.getD read.activeFid := by
      cases given : change.activeFid with
      | none => simpa using asRead.fid (by simp [FilterBody.setsFid, given])
      | some fid => rfl
    have permissions : change.permissions.getD current.permissions = change.permissions.getD read.permissions := by
      cases given : change.permissions with
      | none => simpa using asRead.permissions (by simp [FilterBody.setsPermissions, given])
      | some permissions => rfl
    have willBeActive : change.willBeActive read = true := by
      cases given : change.active with
      | none =>
        rw [given] at active
        rw [FilterPatch.willBeActive, given, ← active]
        exact (asRead.active given).symm
      | some isActive =>
        rw [given] at active
        simpa [FilterPatch.willBeActive, given] using active
    -- what the filter runs now is what it was going to run by what was read
    have runs : ∀ validation, change.executes read = some validation → (change.applied current).runs = some validation := by
      intro validation executes
      obtain ⟨version, found, rfl⟩ := Option.map_eq_some_iff.mp executes
      have found := older.version found
      simp only [Filter.runs, FilterPatch.applied, Filter.version, fid, permissions, ← older.survey] at found ⊢
      simp [found]
    cases changed : change.execChanged read with
    | true =>
      obtain ⟨validation, member, executes⟩ :=
        prepared.validation (by simp [FilterBody.needsValidation, willBeActive, changed])
      exact ⟨validation, member, runs validation executes⟩
    | false =>
      -- nothing was validated: the filter was active, and ran this already
      simp only [FilterPatch.execChanged, Bool.or_eq_false_iff, Option.isSome_eq_false_iff,
        Option.isNone_iff_eq_none] at changed
      obtain ⟨⟨noActivation, noFid⟩, noPermissions⟩ := changed
      have wasActive : read.active = true := by
        cases given : change.active with
        | none => simpa [FilterPatch.willBeActive, given] using willBeActive
        | some isActive =>
          obtain rfl : isActive = true := by simpa [FilterPatch.willBeActive, given] using willBeActive
          simpa [given] using noActivation
      obtain ⟨validation, member, ran⟩ := prepared.sound wasActive
      refine ⟨validation, member, runs validation ?_⟩
      simpa [FilterPatch.executes, Filter.runs, noFid, noPermissions] using ran

/-! ## The store over time -/

structure FilterStore.Earlier (before after : FilterStore) : Prop where
  validated : before.validated ⊆ after.validated
  filters : ∀ id later, after.filters.get id = some later → ∃ filter, before.filters.get id = some filter ∧ filter.Older later

theorem FilterStore.Earlier.refl (store : FilterStore) : store.Earlier store :=
  ⟨List.Subset.refl _, fun _ later stored => ⟨later, stored, .refl later⟩⟩

theorem earlier_act (outcome : FilterOutcome) (store : FilterStore) (request : FilterRequest) :
    store.Earlier (request.act outcome store).1 := by
  unfold FilterRequest.act
  cases request.phase with
  | reading => simp only; split <;> exact .refl store
  | testing read post => simp only; split <;> exact .refl store
  | validating read validation =>
    simp only
    split
    · exact .refl store
    · exact ⟨List.subset_append_left _ _, fun _ later stored => ⟨later, stored, .refl later⟩⟩
  | updating read =>
    refine ⟨List.Subset.refl _, ?_⟩
    intro id later stored
    obtain ⟨rfl, filter, before, rfl⟩ | ⟨-, before⟩ := Collection.cases_updateOne stored
    · exact ⟨filter, before, Filter.older_applied _ _ _⟩
    · exact ⟨later, before, .refl later⟩
  | answered answer => exact .refl store

def FilterPhase.read? : FilterPhase → Option Filter
  | .testing read _ | .validating read _ | .updating read => some read
  | .reading | .answered _ => none

/-- The invariant of a request. -/
structure Ready (store : FilterStore) (request : FilterRequest) : Prop where
  checks : request.skips = false
  older : ∀ read, request.phase.read? = some read → ∀ current, store.filters.get request.filterId = some current →
    read.Older current
  sound : ∀ read, request.phase.read? = some read → read.Sound store.validated
  testing : ∀ read post, request.phase = .testing read post → request.body = .version post
  /-- With the validation it waits for, it is prepared. -/
  validating : ∀ read validation, request.phase = .validating read validation →
    Prepared (store.validated ++ [validation]) request.body read
  updating : ∀ read, request.phase = .updating read → Prepared store.validated request.body read

variable {read : Filter}

theorem Prepared.mono {validated later : List Validation} {body : FilterBody}
    (prepared : Prepared validated body read) (grows : validated ⊆ later) : Prepared later body read where
  sound := prepared.sound.mono grows
  known := prepared.known
  validation := fun needs => by
    obtain ⟨validation, member, executes⟩ := prepared.validation needs
    exact ⟨validation, grows member, executes⟩

namespace Ready

variable {store : FilterStore} {request : FilterRequest}

theorem frame (ready : Ready store request) {after : FilterStore} (earlier : store.Earlier after) : Ready after request where
  checks := ready.checks
  older := fun read phase later stored => by
    obtain ⟨current, before, older⟩ := earlier.filters _ _ stored
    exact (ready.older read phase current before).trans older
  sound := fun read phase => (ready.sound read phase).mono earlier.validated
  testing := ready.testing
  validating := fun read validation phase =>
    (ready.validating read validation phase).mono (List.append_subset.mpr
      ⟨List.subset_append_of_subset_left _ earlier.validated, List.subset_append_right _ _⟩)
  updating := fun read phase => (ready.updating read phase).mono earlier.validated

theorem answer (ready : Ready store request) (answer : FilterAnswer) : Ready store (request.go (.answered answer)) where
  checks := ready.checks
  older := fun _ impossible => by cases impossible
  sound := fun _ impossible => by cases impossible
  testing := fun _ _ impossible => by cases impossible
  validating := fun _ _ impossible => by cases impossible
  updating := fun _ impossible => by cases impossible

theorem update (checks : request.skips = false)
    (older : ∀ current, store.filters.get request.filterId = some current → read.Older current)
    (prepared : Prepared store.validated request.body read) : Ready store (request.go (.updating read)) where
  checks := checks
  older := fun _ same => by
    cases same
    exact older
  sound := fun _ same => by
    cases same
    exact prepared.sound
  testing := fun _ _ impossible => by cases impossible
  validating := fun _ _ impossible => by cases impossible
  updating := fun _ same => by
    cases same
    exact prepared

theorem validate {validation : Validation} (checks : request.skips = false)
    (older : ∀ current, store.filters.get request.filterId = some current → read.Older current)
    (sound : read.Sound store.validated)
    (known : ∀ change, request.body = .patch change → ∀ fid ∈ change.activeFid, ∃ version, read.version fid = some version)
    (executes : request.body.executes read = some validation) :
    Ready store (request.go (.validating read validation)) where
  checks := checks
  older := fun _ same => by
    cases same
    exact older
  sound := fun _ same => by
    cases same
    exact sound
  testing := fun _ _ impossible => by cases impossible
  validating := fun _ _ same => by
    cases same
    exact ⟨sound.mono (List.subset_append_left _ _), known, fun _ => ⟨validation, by simp, executes⟩⟩
  updating := fun _ impossible => by cases impossible

end Ready

/-! ## Steps -/

variable {store : FilterStore} {request : FilterRequest}

theorem ready_decides_version {post : FilterVersionPost}
    (ready : Ready store request) (testing : request.phase = .testing read post) :
    Ready store (request.go (post.decides store.configured read)) := by
  have body := ready.testing read post testing
  have older := ready.older read (by rw [testing]; rfl)
  have sound := ready.sound read (by rw [testing]; rfl)
  have known : ∀ change, request.body = .patch change → ∀ fid ∈ change.activeFid, ∃ version, read.version fid = some version := by
    intro change isPatch
    rw [body] at isPatch
    cases isPatch
  unfold FilterVersionPost.decides
  split
  · split
    · exact .validate ready.checks older sound known (by rw [body]; rfl)
    · exact ready.answer _
  next noNeed =>
    refine .update ready.checks older ⟨sound, known, fun needs => ?_⟩
    rw [body] at needs
    exact absurd needs noNeed

theorem ready_decides_patch {change : FilterPatch} (ready : Ready store request) (body : request.body = .patch change)
    (stored : store.filters.get request.filterId = some read) (sound : read.Sound store.validated) :
    Ready store (request.go (change.decides store.configured read)) := by
  have older : ∀ current, store.filters.get request.filterId = some current → read.Older current := by
    intro current same
    rw [stored] at same
    exact Option.some.inj same ▸ .refl read
  have checks : change.skipValidation = false := by
    have checks := ready.checks
    rw [FilterRequest.skips, body] at checks
    exact checks
  unfold FilterPatch.decides
  split
  · exact ready.answer _
  next knownFid =>
    have known : ∀ asked, request.body = .patch asked → ∀ fid ∈ asked.activeFid, ∃ version, read.version fid = some version := by
      rw [body]
      rintro _ ⟨⟩ fid given
      simp only [Option.any_eq_true, not_exists, not_and, Option.isNone_iff_eq_none] at knownFid
      exact Option.ne_none_iff_exists'.mp (knownFid fid given)
    split
    · exact ready.answer _
    split
    · exact ready.answer _
    split
    · split
      · exact ready.answer _
      next validation executes =>
        split
        · exact .validate ready.checks older sound known (by rw [body]; exact executes)
        · exact ready.answer _
    next noNeed =>
      refine .update ready.checks older ⟨sound, known, fun needs => ?_⟩
      rw [body] at needs
      have needs : (change.willBeActive read && change.execChanged read) = true := needs
      simp [needs, checks] at noNeed

theorem ready_act {outcome : FilterOutcome} (valid : store.OnlyValidated) (ready : Ready store request) :
    Ready (request.act outcome store).1 (request.act outcome store).2 := by
  have earlier := earlier_act outcome store request
  revert earlier
  unfold FilterRequest.act
  cases phase : request.phase with
  | reading =>
    simp only
    split
    · exact fun _ => ready.answer _
    next filter stored =>
      intro _
      unfold FilterRequest.receives
      split
      · exact ready.answer _
      cases body : request.body with
      | version post =>
        constructor
        · exact ready.checks
        · rintro _ ⟨⟩ current same
          obtain rfl := Option.some.inj (stored.symm.trans same)
          exact .refl filter
        · rintro _ ⟨⟩
          exact valid _ _ stored
        · rintro _ _ ⟨⟩
          exact body
        · exact fun _ _ impossible => by cases impossible
        · exact fun _ impossible => by cases impossible
      | patch change => exact ready_decides_patch ready body stored (valid _ _ stored)
  | testing read post =>
    simp only
    split
    · exact fun _ => ready.answer _
    · exact fun _ => ready_decides_version ready phase
  | validating read validation =>
    simp only
    split
    · exact fun _ => ready.answer _
    · intro earlier
      have older := (ready.frame earlier).older read (by rw [phase]; rfl)
      exact .update ready.checks older (ready.validating read validation phase)
  | updating read => exact fun earlier => (ready.frame earlier).answer _
  | answered answer => exact fun _ => ready

theorem onlyValidated_act {outcome : FilterOutcome}
    (valid : store.OnlyValidated) (ready : Ready store request) (undisturbed : request.Undisturbed store)
    (unused : store.Unused outcome.fid) : (request.act outcome store).1.OnlyValidated := by
  unfold FilterRequest.act
  cases phase : request.phase with
  | reading => simp only; split <;> exact valid
  | testing read post => simp only; split <;> exact valid
  | validating read validation =>
    simp only
    split
    · exact valid
    · exact fun id filter stored => (valid id filter stored).mono (List.subset_append_left _ _)
  | updating read =>
    intro id filter stored
    obtain ⟨rfl, current, before, rfl⟩ | ⟨-, before⟩ := Collection.cases_updateOne stored
    · have prepared := ready.updating read phase
      have older := ready.older read (by rw [phase]; rfl) current before
      have asRead := undisturbed read current phase before
      cases body : request.body with
      | version post =>
        rw [body] at prepared asRead
        have fresh : ∀ version ∈ current.fv, version.fid ≠ outcome.fid :=
          unused (request.filterId, current) (Collection.mem_entries_iff.mpr before)
        exact (valid _ _ before).applied_version prepared older fresh asRead
      | patch change =>
        rw [body] at prepared asRead
        exact (valid _ _ before).applied_patch prepared older asRead
    · exact valid id filter before
  | answered answer => exact valid

/-! ## Runs -/

def ReadySlot (_ : Nat) (store : FilterStore) (request : Option FilterRequest) : Prop :=
  ∀ running ∈ request, Ready store running

theorem filters_kept : Requests.Kept undisturbedRules FilterStore.OnlyValidated ReadySlot where
  starts := by
    rintro slot store request valid _ ⟨reading, checks⟩ _ ⟨⟩
    have none : request.phase.read? = none := by rw [reading]; rfl
    constructor
    · exact checks
    · exact fun read impossible => by rw [none] at impossible; cases impossible
    · exact fun read impossible => by rw [none] at impossible; cases impossible
    · exact fun _ _ impossible => by rw [reading] at impossible; cases impossible
    · exact fun _ _ impossible => by rw [reading] at impossible; cases impossible
    · exact fun _ impossible => by rw [reading] at impossible; cases impossible
  acts := by
    rintro slot store request store' after valid own ⟨acted, undisturbed⟩
    have ready := own request rfl
    cases acted with
    | proceed outcome unused =>
      refine ⟨onlyValidated_act valid ready undisturbed unused, ?_⟩
      rintro _ ⟨⟩
      exact ready_act valid ready
    | fail =>
      refine ⟨valid, ?_⟩
      rintro _ ⟨⟩
      exact ready.answer _
  others := by
    rintro slot store request store' after valid _ ⟨acted, _⟩ other bystander _ before running isRunning
    cases acted with
    | proceed outcome _ => exact (before running isRunning).frame (earlier_act outcome store request)
    | fail => exact before running isRunning
  outside := fun _ _ _ impossible => impossible.elim

/-- In every state of every run of requests that are not disturbed, every active filter
    runs what validation succeeded for. -/
theorem only_validated_runs {system : Requests FilterStore FilterRequest}
    (run : Requests.Run undisturbedRules FilterStore.OnlyValidated system) : system.store.OnlyValidated :=
  (Requests.invariant filters_kept (fun _ valid => ⟨valid, fun _ _ absent => by cases absent⟩) run).store

def succeeding : FilterOutcome := ⟨.ok (), .ok (), "v2"⟩

def filterTurn (_ : Nat) (store : FilterStore) (request : FilterRequest) : Option (FilterStore × FilterRequest) :=
  if store.Unused succeeding.fid then some (request.act succeeding store) else none

theorem acts_of_filterTurn (slot : Nat) (store : FilterStore) (request : FilterRequest) (store' : FilterStore)
    (after : FilterRequest) (turned : filterTurn slot store request = some (store', after)) :
    filterRules.acts slot store request store' after := by
  unfold filterTurn at turned
  split at turned
  next unused =>
    have acted := Option.some.inj turned
    rw [show store' = (request.act succeeding store).1 by rw [acted],
      show after = (request.act succeeding store).2 by rw [acted]]
    exact .proceed succeeding unused
  next => cases turned

def publicOnly : Permissions := [(.ztf, [1])]

def everything : Permissions := [(.ztf, [1, 2, 3])]

def created : Filter := ⟨"nova", none, "ada", .ztf, publicOnly, false, "v1", [⟨"v1", []⟩]⟩

def oneFilter : FilterStore := ⟨⟨[("nova", created)], by decide⟩, [.ztf], []⟩

def activate : FilterRequest := ⟨"nova", ⟨"ada", false⟩, .patch ⟨none, none, some true, none, none, false⟩, .reading⟩

theorem oneFilter_valid : oneFilter.OnlyValidated := by
  intro id filter stored active
  obtain ⟨_, rfl⟩ : id = "nova" ∧ filter = created := by
    simpa [oneFilter] using Collection.mem_entries_iff.mpr stored
  cases active

theorem only_validated_runs_activate : ∃ system, Requests.Run undisturbedRules FilterStore.OnlyValidated system ∧
    (system.store.filters.get "nova").map Filter.active = some true ∧ system.store.OnlyValidated := by
  have nobody : Requests.Run undisturbedRules FilterStore.OnlyValidated ⟨oneFilter, fun _ => none⟩ :=
    Reachable.start ⟨oneFilter_valid, fun _ => rfl⟩
  have arrived := nobody.start 0 activate rfl ⟨rfl, rfl⟩
  have hasRead := @Requests.Run.act _ _ _ _ _ arrived 0 activate _ _ rfl
    ⟨.proceed succeeding (by decide), fun _ _ impossible => by cases impossible⟩
  have validated := @Requests.Run.act _ _ _ _ _ hasRead 0 (activate.act succeeding oneFilter).2 _ _ rfl
    ⟨.proceed succeeding (by decide), fun _ _ impossible => by cases impossible⟩
  have updated := @Requests.Run.act _ _ _ _ _ validated 0 (.go activate (.updating created)) _ _ rfl
    ⟨.proceed succeeding (by decide), ?_⟩
  · exact ⟨_, updated, rfl, only_validated_runs updated⟩
  · rintro _ _ ⟨⟩ same _
    obtain rfl := Option.some.inj same
    exact ⟨fun _ => rfl, fun _ => rfl, fun _ => rfl⟩

def changePermissions : FilterRequest :=
  ⟨"nova", ⟨"ada", false⟩, .patch ⟨none, none, none, none, some everything, false⟩, .reading⟩

def bothArrived : Requests FilterStore FilterRequest :=
  ((⟨oneFilter, fun _ => none⟩ : Requests FilterStore FilterRequest).put 0 oneFilter changePermissions).put 1 oneFilter activate

theorem bothArrived_run : Requests.Run filterRules FilterStore.OnlyValidated bothArrived := by
  have nobody : Requests.Run filterRules FilterStore.OnlyValidated ⟨oneFilter, fun _ => none⟩ :=
    Reachable.start ⟨oneFilter_valid, fun _ => rfl⟩
  exact (nobody.start 0 changePermissions rfl ⟨rfl, rfl⟩).start 1 activate rfl ⟨rfl, rfl⟩

/-- The permissions are changed while the filter is read as inactive, so nothing is
    validated; the filter is activated, with the old permissions validated; and then the
    new ones are written. -/
theorem onlyValidated_fails_of_late_permissions :
    ¬ ∀ system, Requests.Run filterRules FilterStore.OnlyValidated system → system.store.OnlyValidated := by
  intro always
  have valid := always _ (bothArrived_run.schedule acts_of_filterTurn [0, 1, 1, 1, 0])
  obtain ⟨validation, member, runs⟩ := valid "nova" { created with active := true, permissions := everything } rfl rfl
  have only : (bothArrived.schedule filterTurn [0, 1, 1, 1, 0]).store.validated = [⟨.ztf, [], publicOnly⟩] := rfl
  rw [only, List.mem_singleton] at member
  subst member
  have permissions : everything = publicOnly := congrArg Validation.permissions (Option.some.inj runs)
  exact absurd permissions (by decide)

end Boom.Api
