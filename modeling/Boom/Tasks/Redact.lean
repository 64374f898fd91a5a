import Boom.Foundations.Bson
import Boom.Foundations.Json
import Boom.Foundations.Splitting
import Mathlib.Data.List.TakeWhile

/-! # Redaction

Task parameters may hold connection URIs, and a URI holds a password.  Parameters, ledger
entries and log lines are masked where they are read back: values by the name of their
field, free text by its shape. -/

namespace Boom.Tasks

open Boom.Foundations

/-! ## URIs -/

def mask : List Char := "***".toList

def schemeEnd : List Char := "://".toList

def redactChars (value : List Char) : List Char :=
  match splitOnce schemeEnd value with
  | none => value
  | some (scheme, rest) =>
    let authority := rest.takeWhile (· != '/')
    let tail := rest.dropWhile (· != '/')
    match rsplitOnce '@' authority with
    | none => value
    | some (userinfo, host) =>
      scheme ++ schemeEnd ++ userinfo.takeWhile (· != ':') ++ ':' :: mask ++ '@' :: host ++ tail

def redactUri (value : String) : String := String.ofList (redactChars value.toList)

/-! ## Free text -/

def delimiters : List Char := [' ', '\t', '\n', '"', '\'', '(', ')', '<', '>', ',', ';']

def isDelimiter (char : Char) : Bool := delimiters.contains char

def tokenHead (before : List Char) : List Char := (before.reverse.takeWhile (!isDelimiter ·)).reverse

def tokenStart (before : List Char) : List Char := (before.reverse.dropWhile (!isDelimiter ·)).reverse

/-- Masks every token with a `://`, one after the other. -/
def redactFrom (rest : List Char) : List Char :=
  match _found : splitOnce schemeEnd rest with
  | none => rest
  | some (before, after) =>
    let token := tokenHead before ++ schemeEnd ++ after.takeWhile (!isDelimiter ·)
    tokenStart before ++ redactChars token ++ redactFrom (after.dropWhile (!isDelimiter ·))
termination_by rest.length
decreasing_by
  have whole := congrArg List.length (splitOnce_eq_some _found)
  have shorter := (List.dropWhile_suffix (!isDelimiter ·) (l := after)).length_le
  have nonempty : 0 < schemeEnd.length := by decide
  simp only [List.length_append] at whole
  omega

def redactText (message : String) : String := String.ofList (redactFrom message.toList)

/-! ## Token by token -/

section Tokens

variable {token rest : List Char} {delimiter : Char}

theorem takeWhile_append_stop {α : Type} {keeps : α → Bool} {stop : α} (stops : keeps stop = false) (text suffix : List α) :
    (text ++ stop :: suffix).takeWhile keeps = text.takeWhile keeps := by
  induction text with
  | nil => simp [stops]
  | cons first rest ih =>
    rw [List.cons_append, List.takeWhile_cons, List.takeWhile_cons, ih]

theorem dropWhile_append_stop {α : Type} {keeps : α → Bool} {stop : α} (stops : keeps stop = false) (text suffix : List α) :
    (text ++ stop :: suffix).dropWhile keeps = text.dropWhile keeps ++ stop :: suffix := by
  induction text with
  | nil => simp [stops]
  | cons first rest ih =>
    rw [List.cons_append, List.dropWhile_cons, List.dropWhile_cons, ih]
    split <;> rfl

def IsToken (token : List Char) : Prop := ∀ char ∈ token, isDelimiter char = false

theorem IsToken.kept (isToken : IsToken token) : ∀ char ∈ token, (!isDelimiter char) = true := by
  intro char member
  rw [isToken char member]
  rfl

theorem tokenHead_append_cons (marks : isDelimiter delimiter = true) (before after : List Char) :
    tokenHead (before ++ delimiter :: after) = tokenHead after := by
  unfold tokenHead
  rw [List.reverse_append, List.reverse_cons, List.append_assoc, List.singleton_append,
    takeWhile_append_stop (by rw [marks]; rfl)]

theorem tokenStart_append_cons (marks : isDelimiter delimiter = true) (before after : List Char) :
    tokenStart (before ++ delimiter :: after) = before ++ delimiter :: tokenStart after := by
  unfold tokenStart
  rw [List.reverse_append, List.reverse_cons, List.append_assoc, List.singleton_append,
    dropWhile_append_stop (by rw [marks]; rfl)]
  simp

theorem tokenHead_of_isToken (isToken : IsToken token) : tokenHead token = token := by
  have kept : ∀ char ∈ token.reverse, (!isDelimiter char) = true := fun char member =>
    isToken.kept char (List.mem_reverse.mp member)
  unfold tokenHead
  rw [List.takeWhile_eq_self_iff.mpr kept, List.reverse_reverse]

theorem tokenStart_of_isToken (isToken : IsToken token) : tokenStart token = [] := by
  have kept : ∀ char ∈ token.reverse, (!isDelimiter char) = true := fun char member =>
    isToken.kept char (List.mem_reverse.mp member)
  unfold tokenStart
  rw [List.dropWhile_eq_nil_iff.mpr kept, List.reverse_nil]

theorem not_mem_schemeEnd (marks : isDelimiter delimiter = true) : delimiter ∉ schemeEnd := by
  intro member
  have plain : ∀ char ∈ schemeEnd, isDelimiter char = false := by
    simpa using (show schemeEnd.all (!isDelimiter ·) = true by decide)
  rw [plain delimiter member] at marks
  cases marks

theorem redactFrom_of_none {text : List Char} (absent : splitOnce schemeEnd text = none) : redactFrom text = text := by
  rw [redactFrom]
  split
  · rfl
  · next found => rw [absent] at found; cases found

theorem redactFrom_of_some {text before after : List Char} (found : splitOnce schemeEnd text = some (before, after)) :
    redactFrom text = tokenStart before ++ redactChars (tokenHead before ++ schemeEnd ++ after.takeWhile (!isDelimiter ·)) ++
      redactFrom (after.dropWhile (!isDelimiter ·)) := by
  rw [redactFrom]
  split
  · next absent => rw [found] at absent; cases absent
  · next found' =>
    rw [found] at found'
    cases found'
    rfl

theorem redactFrom_append_cons (marks : isDelimiter delimiter = true) (absent : splitOnce schemeEnd token = none)
    (rest : List Char) : redactFrom (token ++ delimiter :: rest) = token ++ delimiter :: redactFrom rest := by
  have split := splitOnce_append_cons (not_mem_schemeEnd marks) absent rest
  cases found : splitOnce schemeEnd rest with
  | none =>
    rw [found] at split
    rw [redactFrom_of_none split, redactFrom_of_none found]
  | some parts =>
    rw [found] at split
    rw [redactFrom_of_some split, redactFrom_of_some found, tokenHead_append_cons marks, tokenStart_append_cons marks]
    simp

theorem redactChars_of_none (absent : splitOnce schemeEnd token = none) : redactChars token = token := by
  unfold redactChars
  rw [absent]

theorem redactFrom_token (isToken : IsToken token) (ends : ∀ char ∈ rest.head?, isDelimiter char = true) :
    redactFrom (token ++ rest) = redactChars token ++ redactFrom rest := by
  cases found : splitOnce schemeEnd token with
  | none =>
    rw [redactChars_of_none found]
    cases rest with
    | nil => rw [List.append_nil, redactFrom_of_none found, redactFrom_of_none rfl, List.append_nil]
    | cons delimiter others =>
      have marks := ends delimiter rfl
      have alone := redactFrom_append_cons marks (splitOnce_nil (by decide)) others
      rw [redactFrom_append_cons marks found]
      rw [List.nil_append, List.nil_append] at alone
      rw [alone]
  | some parts =>
    obtain ⟨before, after⟩ := parts
    have whole := splitOnce_eq_some found
    have before_ : IsToken before := fun char member => isToken char (by simp [whole, member])
    have after_ : IsToken after := fun char member => isToken char (by simp [whole, member])
    have tail : rest.takeWhile (!isDelimiter ·) = [] ∧ rest.dropWhile (!isDelimiter ·) = rest := by
      cases rest with
      | nil => exact ⟨rfl, rfl⟩
      | cons delimiter others => simp [ends delimiter rfl]
    rw [redactFrom_of_some (splitOnce_append found rest), tokenHead_of_isToken before_, tokenStart_of_isToken before_,
      List.takeWhile_append_of_pos after_.kept, List.dropWhile_append_of_pos after_.kept, tail.1, tail.2, List.append_nil,
      ← whole, List.nil_append]

end Tokens

/-! ## Parameters and ledger entries -/

def isUriField (key : String) : Bool :=
  let key := key.toList.map Char.toLower
  "_uri".toList.isSuffixOf key || key == "uri".toList

mutual

def redactParams : Json → Json
  | .object fields => .object (redactParamFields fields)
  | .array items => .array (redactParamItems items)
  | other => other

def redactParamFields : List (String × Json) → List (String × Json)
  | [] => []
  | (key, .string text) :: rest =>
    (key, .string (if isUriField key then redactUri text else text)) :: redactParamFields rest
  | (key, value) :: rest => (key, redactParams value) :: redactParamFields rest

def redactParamItems : List Json → List Json
  | [] => []
  | item :: rest => redactParams item :: redactParamItems rest

end

mutual

def redactValue (key : String) : Bson → Bson
  | .string text => .string (if isUriField key then redactUri text else text)
  | .document fields => .document (redactDocument fields)
  | .array items => .array (redactItems key items)
  | other => other

def redactDocument : List (String × Bson) → List (String × Bson)
  | [] => []
  | (key, value) :: rest => (key, redactValue key value) :: redactDocument rest

def redactItems (key : String) : List Bson → List Bson
  | [] => []
  | item :: rest => redactValue key item :: redactItems key rest

end

end Boom.Tasks
