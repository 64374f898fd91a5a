import Boom.Filter.Base
import Boom.Foundations.Except
import Boom.Foundations.FieldReads
import Boom.Utils.Conf

/-! # Fields that a filter names

A field of the candidate that does not exist reads as null, which is below any bound, and so does whatever is
below a join that is emptied.  A filter that names one is refused: its texts are searched for paths, among the
keys and after a `$`. -/

namespace Boom.Filter

open Boom.Foundations Boom.Foundations.Aggregation
open Boom.Utils (Survey)

/-! ## The schemas of candidates -/

def ztfPacketCandidate : List String :=
  ["jd", "fid", "pid", "diffmaglim", "programpi", "programid", "tooflag", "candid", "isdiffpos", "nid", "rcid",
   "field", "ra", "dec", "magpsf", "sigmapsf", "chipsf", "magap", "sigmagap", "distnr", "magnr", "sigmagnr",
   "chinr", "sharpnr", "sky", "fwhm", "classtar", "mindtoedge", "seeratio", "aimage", "bimage", "elong", "nneg",
   "nbad", "rb", "ssdistnr", "ssmagnr", "ssnamenr", "ranr", "decnr", "sgmag1", "srmag1", "simag1", "szmag1",
   "sgscore1", "distpsnr1", "ndethist", "ncovhist", "jdstarthist", "scorr", "sgmag2", "srmag2", "simag2", "szmag2",
   "sgscore2", "distpsnr2", "sgmag3", "srmag3", "simag3", "szmag3", "sgscore3", "distpsnr3", "nmtchps", "rfid",
   "jdstartref", "jdendref", "nframesref", "dsnrms", "ssnrms", "dsdiff", "magzpsci", "magzpsciunc", "magzpscirms",
   "zpmed", "exptime", "drb", "clrcoeff", "clrcounc", "neargaia", "maggaia", "neargaiabright", "maggaiabright"]

def lsstDiaSource : List String :=
  ["diaSourceId", "visit", "detector", "diaObjectId", "ssObjectId", "parentDiaSourceId", "midpointMjdTai",
   "exposureTime", "ra", "raErr", "dec", "decErr", "centroid_flag", "apFlux", "apFluxErr", "apFlux_flag",
   "apFlux_flag_apertureTruncated", "isNegative", "snr", "psfFlux", "psfFluxErr", "psfChi2", "psfNdata",
   "psfFlux_flag", "psfFlux_flag_edge", "psfFlux_flag_noGoodPixels", "trailFlux", "trailFluxErr", "trailRa",
   "trailRaErr", "trailDec", "trailDecErr", "trailLength", "trailLengthErr", "trailAngle", "trailAngleErr",
   "trailChi2", "trailNdata", "trail_flag_edge", "trail_flag", "trailAlgorithm", "scienceFlux", "scienceFluxErr",
   "forced_PsfFlux_flag", "forced_PsfFlux_flag_edge", "forced_PsfFlux_flag_noGoodPixels", "templateFlux",
   "templateFluxErr", "shape_flag", "shape_flag_no_pixels", "shape_flag_not_contained", "shape_flag_parent_source",
   "extendedness", "reliability", "reliabilityVersion", "band", "isDipole", "pixelFlags", "pixelFlags_bad",
   "pixelFlags_cr", "pixelFlags_crCenter", "pixelFlags_edge", "pixelFlags_nodata", "pixelFlags_nodataCenter",
   "pixelFlags_interpolated", "pixelFlags_interpolatedCenter", "pixelFlags_offimage", "pixelFlags_saturated",
   "pixelFlags_saturatedCenter", "pixelFlags_suspect", "pixelFlags_suspectCenter", "pixelFlags_streak",
   "pixelFlags_streakCenter", "pixelFlags_injected", "pixelFlags_injectedCenter", "pixelFlags_injected_template",
   "pixelFlags_injected_templateCenter", "glint_trail"]

def decamPacketCandidate : List String :=
  ["mjd", "forcediffimflux", "forcediffimfluxunc", "magap", "sigmagap", "band", "diffmaglim", "ra", "dec",
   "reliability"]

def winterCandidate : List String :=
  ["candid", "deprecated", "jd", "fid", "exptime", "ndethist", "jdstarthist", "jdendhist", "progname", "programid",
   "isdiffpos", "field", "boardid", "ra", "dec", "magzpsci", "magzpsciunc", "magzpscirms", "diffmaglim", "magpsf",
   "sigmapsf", "chipsf", "magap", "sigmagap", "magapbig", "sigmagapbig", "magdiff", "magfromlim", "distnr",
   "magnr", "sigmagnr", "xpos", "ypos", "sky", "fwhm", "classtar", "mindtoedge", "seeratio", "aimage", "bimage",
   "aimagerat", "bimagerat", "elong", "nneg", "nbad", "sumrat", "dsnrms", "ssnrms", "dsdiff", "scorr", "clrcoeff",
   "clrcounc", "zpclrcov", "zpmed", "clrmed", "clrrms", "rb", "rbversion", "xrb", "xrbversion", "ssdistnr",
   "ssmagnr", "ssnamenr", "tooflag", "nmtchps", "psra1", "psdec1", "psobjectid1", "sgmag1", "srmag1", "simag1",
   "szmag1", "sgscore1", "distpsnr1", "ps1class1", "ps1strmprobstar1", "ps1strmprobqso1", "ps1strmprobgalaxy1",
   "ps1strmphotoz1", "ps1strmphotozerr1", "psobjectid2", "sgmag2", "srmag2", "simag2", "szmag2", "sgscore2",
   "distpsnr2", "ps1strmclass2", "ps1strmprobstar2", "ps1strmprobqso2", "ps1strmprobgalaxy2", "ps1strmphotoz2",
   "ps1strmphotozerr2", "psobjectid3", "sgmag3", "srmag3", "simag3", "szmag3", "sgscore3", "distpsnr3",
   "ps1strmclass3", "ps1strmprobstar3", "ps1strmprobqso3", "ps1strmprobgalaxy3", "ps1strmphotoz3",
   "ps1strmphotozerr3", "nmtchtm", "tmjmag1", "tmhmag1", "tmkmag1", "tmobjectid1", "tmjmag2", "tmhmag2", "tmkmag2",
   "tmobjectid2", "tmjmag3", "tmhmag3", "tmkmag3", "tmobjectid3", "neargaia", "neargaiabright", "maggaia",
   "maggaiabright", "distgaia", "plxgaia", "ruwegaia", "distgaiabright", "plxgaiabright", "ruwegaiabright",
   "ztfname", "distztf", "band"]

def candidateFields : Survey → List String
  | .ztf => ztfPacketCandidate ++
      ["psfFlux", "psfFluxErr", "snr_psf", "apFlux", "apFluxErr", "snr_ap", "band"]
  | .lsst => lsstDiaSource ++
      ["objectId", "jd", "magpsf", "sigmapsf", "snr_psf", "chipsf", "diffmaglim", "isdiffpos", "magap",
       "sigmagap", "snr_ap", "jdstarthist", "ndethist", "observation_reason", "target_name"]
  | .decam => decamPacketCandidate ++ ["jd", "snr"]
  | .winter => winterCandidate

/-! ## The search -/

def checkCandidatePath (known : List String) (path : String) : Option String :=
  (stripPrefix path "candidate.").bind fun rest => (segments rest).head?.bind fun field =>
    if !field.isEmpty && !known.contains field then some path else none

mutual

def findUnknownCandidateField (known : List String) : Json → Option String
  | .string text => (stripPrefix text "$").bind (checkCandidatePath known)
  | .array items => findUnknownCandidateItems known items
  | .object fields => findUnknownCandidateFields known fields
  | _ => none

def findUnknownCandidateItems (known : List String) : List Json → Option String
  | [] => none
  | item :: rest => (findUnknownCandidateField known item).or (findUnknownCandidateItems known rest)

def findUnknownCandidateFields (known : List String) : List (String × Json) → Option String
  | [] => none
  | (key, nested) :: rest =>
    ((checkCandidatePath known key).or (findUnknownCandidateField known nested)).or (findUnknownCandidateFields known rest)

end

def checkCandidateFields (survey : Survey) (stage : Json) : Except FilterError Unit :=
  match findUnknownCandidateField (candidateFields survey) stage with
  | some path => invalid ("`" ++ path ++ "` is not a field of the " ++ survey.asStr ++
      " candidate schema: it reads as null, and null compares below any bound, so the cut would admit every alert.")
  | none => .ok ()

def rejectUnknownCandidateFields (filterPipeline : List Json) (survey : Survey) : Except FilterError Unit :=
  filterPipeline.forM (checkCandidateFields survey)

/-! ## What is found -/

theorem or_eq_none {α : Type} {first second : Option α} : first.or second = none ↔ first = none ∧ second = none := by
  cases first <;> simp

section

variable {known : List String}

theorem unknown_items {items : List Json} (nothing : findUnknownCandidateItems known items = none) :
    ∀ item ∈ items, findUnknownCandidateField known item = none := by
  induction items with
  | nil => nofun
  | cons first rest ih =>
    obtain ⟨here, later⟩ := or_eq_none.mp nothing
    exact List.forall_mem_cons.mpr ⟨here, ih later⟩

theorem unknown_fields {fields : List (String × Json)} (nothing : findUnknownCandidateFields known fields = none) :
    ∀ field ∈ fields, checkCandidatePath known field.1 = none ∧ findUnknownCandidateField known field.2 = none := by
  induction fields with
  | nil => nofun
  | cons first rest ih =>
    obtain ⟨here, later⟩ := or_eq_none.mp nothing
    exact List.forall_mem_cons.mpr ⟨or_eq_none.mp here, ih later⟩

theorem unknown_of_occurs {text : String} {value : Json} (nothing : findUnknownCandidateField known value = none)
    (occurs : Occurs text value) : checkCandidatePath known text = none := by
  refine occurs.of_search (fun value => findUnknownCandidateField known value = none)
    (fun text => checkCandidatePath known text = none) ?_ ?_ ?_ nothing
  · intro text nothing
    simpa [findUnknownCandidateField] using nothing
  · exact fun items => unknown_items
  · exact fun fields => unknown_fields

theorem known_of_check {text field : String} {rest : List String} (nothing : checkCandidatePath known text = none)
    (below : segments text = "candidate" :: field :: rest) (isName : field ≠ "") : field ∈ known := by
  obtain ⟨later, rfl, parts⟩ := segments_parted below
  -- The search takes off the prefix with its dot and looks at the first part of what is left.
  have split : stripPrefix ("candidate" ++ ("." ++ later)) "candidate." = some later := by
    rw [← String.append_assoc]
    exact stripPrefix_append "candidate." later
  simp only [checkCandidatePath, split, Option.bind_some, parts, List.head?_cons] at nothing
  by_contra unknown
  simp [isName, unknown] at nothing

end

theorem nulled_items {items : List Json} (nothing : findNulledJoinItems items = none) :
    ∀ item ∈ items, findNulledJoin item = none := by
  induction items with
  | nil => nofun
  | cons first rest ih =>
    obtain ⟨here, later⟩ := or_eq_none.mp nothing
    exact List.forall_mem_cons.mpr ⟨here, ih later⟩

theorem nulled_fields {fields : List (String × Json)} (nothing : findNulledJoinFields fields = none) :
    ∀ field ∈ fields, flattenedName field.1 = none ∧ findNulledJoin field.2 = none := by
  induction fields with
  | nil => nofun
  | cons first rest ih =>
    obtain ⟨here, later⟩ := or_eq_none.mp nothing
    obtain ⟨ofKey, ofNested⟩ := or_eq_none.mp here
    exact List.forall_mem_cons.mpr ⟨⟨Option.map_eq_none_iff.mp ofKey, ofNested⟩, ih later⟩

theorem nulled_of_occurs {text : String} {value : Json} (nothing : findNulledJoin value = none) (occurs : Occurs text value) :
    flattenedName text = none := by
  refine occurs.of_search (fun value => findNulledJoin value = none) (fun text => flattenedName text = none) ?_ ?_ ?_ nothing
  · intro text nothing
    simpa [findNulledJoin] using nothing
  · exact fun items => nulled_items
  · exact fun fields => nulled_fields

theorem present_of_flattened {text join : String} (nothing : flattenedName text = none) (isJoin : join ∈ nulledJoins) :
    (segments text).head? ≠ some join := by
  intro starts
  have notFound := List.findSome?_eq_none_iff.mp nothing join isJoin
  -- The text is neither the join nor begins with it and a dot.
  obtain ⟨notBelow, notJoin⟩ := or_eq_none.mp notFound
  obtain ⟨rest, parts⟩ : ∃ rest, segments text = join :: rest := ⟨_, List.eq_cons_of_mem_head? starts⟩
  cases rest with
  | nil => simp [eq_of_segments parts] at notJoin
  | cons second rest =>
    obtain ⟨later, rfl, -⟩ := segments_parted parts
    simp at notBelow

/-! ## Accepted filters -/

structure Accepted (survey : Survey) (pipeline : List Json) : Prop where
  validated : validateFilterPipeline pipeline = .ok ()
  candidate : rejectUnknownCandidateFields pipeline survey = .ok ()

structure Exists (survey : Survey) (set : List (List String)) (path : List String) : Prop where
  known : ∀ field rest, path = "candidate" :: field :: rest → (∀ done ∈ set, ¬ done <+: path) → field ∈ candidateFields survey
  present : ∀ join ∈ nulledJoins, path.head? ≠ some join

def Unsearched (spelling : Spelling) (path : List String) : Prop := ¬ spelling.Plain ∨ path[1]? = some ""

/-- Of the documents in an alert only the candidate has fields that are looked at here. -/
def levels : List (List String) := [["candidate"]]

def NamesExist (survey : Survey) (pipeline : List Json) : Prop :=
  ∀ set spelling path, Reads levels pipeline set spelling path → Exists survey set path

def UnsearchedExist (survey : Survey) (pipeline : List Json) : Prop :=
  ∀ set spelling path, Reads levels pipeline set spelling path → Unsearched spelling path → Exists survey set path

theorem forM_ok {α ε : Type} {step : α → Except ε Unit} {list : List α} (ran : list.forM step = .ok ()) :
    ∀ item ∈ list, step item = .ok () := by
  induction list with
  | nil => nofun
  | cons first rest ih =>
    obtain ⟨⟨⟩, here, later⟩ := bind_eq_ok.mp (show (step first >>= fun _ => rest.forM step) = .ok () from ran)
    exact List.forall_mem_cons.mpr ⟨here, ih later⟩

section

variable {survey : Survey} {pipeline : List Json}

section

variable (accepted : Accepted survey pipeline)
include accepted

theorem Accepted.unknown :
    ∀ stage ∈ pipeline, findUnknownCandidateField (candidateFields survey) stage = none := by
  intro stage listed
  have checked := forM_ok accepted.candidate stage listed
  unfold checkCandidateFields at checked
  split at checked
  next => cases checked
  next nothing => exact nothing

theorem Accepted.nulled : ∀ stage ∈ pipeline, findNulledJoin stage = none := by
  intro stage listed
  have validated := accepted.validated
  rw [validateFilterPipeline] at validated
  split at validated
  · cases (bind_eq_ok.mp validated).choose_spec.1
  · obtain ⟨⟨⟩, checks, -⟩ := bind_eq_ok.mp validated
    have checked := forM_ok checks stage listed
    unfold checkNulledJoin at checked
    split at checked
    next => cases checked
    next nothing => exact nothing

theorem Accepted.exists_plain {set : List (List String)} {spelling : Spelling}
    {path : List String} (reads : Reads levels pipeline set spelling path) (plain : spelling.Plain) (isName : path[1]? ≠ some "") :
    Exists survey set path := by
  obtain ⟨stage, listed, text, rfl, occurs⟩ := reads.occurs plain
  refine ⟨fun field rest below _ => ?_, fun join isJoin => ?_⟩
  · refine known_of_check (unknown_of_occurs (accepted.unknown stage listed) occurs) below fun isEmpty => isName ?_
    rw [below, isEmpty]
    rfl
  · exact present_of_flattened (nulled_of_occurs (accepted.nulled stage listed) occurs) isJoin

end

end

def cutting (query : Json) : List Json :=
  [.object [("$match", query)], .object [("$project", .object [("objectId", .number .one)])]]

def throughVariable (path : String) : List (String × Json) :=
  [("vars", .object [("c", .string "$candidate")]),
    ("in", .object [("$lt", .array [.string ("$$c." ++ path), .number .one])])]

def cutAt (path : String) : Json :=
  .object [("candidate.jd", .object [("$gt", .number .one)]),
    ("$expr", .object [("$let", .object (throughVariable path))])]

theorem cutAt_reads {path : String} (isName : ∀ name ∈ segments path, IsName name) :
    Reads levels (cutting (cutAt path)) [] .ofVariable ("candidate" :: segments path) := by
  -- The variable is bound to the candidate by a string that the search does see.
  have candidate : Denotes (scopeAt []) (.string "$candidate") .reference ["candidate"] :=
    @Denotes.reference (scopeAt []) "candidate" rfl (by decide)
  have opened : Opens (scopeAt []) "$let" (throughVariable path) (("c", some ["candidate"]) :: scopeAt []) :=
    .vars rfl (.cons (.path candidate) .nil)
  have denotes : Denotes (("c", some ["candidate"]) :: scopeAt []) (.string ("$$c." ++ path)) .ofVariable
      (["candidate"] ++ segments path) :=
    @Denotes.belowHeld _ "c" path ["candidate"] rfl isName
  refine .here (.query (.expression (List.mem_cons_of_mem _ List.mem_cons_self) (.denoted ?_ denotes)))
  exact .body List.mem_cons_self rfl (List.mem_cons_of_mem _ List.mem_cons_self) opened
    (.argument List.mem_cons_self (by decide) rfl (.item List.mem_cons_self .self))

def pastRoot : Json :=
  .object [("$expr", .object [("$lt", .array [.string "$$ROOT.candidate.jdendhist", .number .one])])]

end Boom.Filter
