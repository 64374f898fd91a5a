import Boom.Tasks.RedactText

/-! # Passwords in parameters

Parameters are redacted as JSON and ledger entries as BSON, by two recursions over the
values.  They agree on every tree but for the strings in lists under a URI field, which only
the ledger's masks, and both mask only the first URI of a string: `redactions_agree_iff`. -/

namespace Boom.Tasks

open Boom.Foundations

/-! ## JSON as BSON -/

section Conversion

-- How a number is stored.
variable (number : Number → Bson)

mutual

def toBson : Json → Bson
  | .null => .null
  | .bool value => .bool value
  | .number value => number value
  | .string text => .string text
  | .array items => .array (toBsonItems items)
  | .object fields => .document (toBsonFields fields)

def toBsonItems : List Json → List Bson
  | [] => []
  | item :: rest => toBson item :: toBsonItems rest

def toBsonFields : List (String × Json) → List (String × Bson)
  | [] => []
  | (key, value) :: rest => (key, toBson value) :: toBsonFields rest

end

end Conversion

def IsNumber : Bson → Prop
  | .int32 _ | .int64 _ | .double _ | .decimal _ => True
  | _ => False

mutual

def Masking (key : String) : Json → Prop
  | .string text => isUriField key = true → redactUri text = text
  | .array items => MaskingItems key items
  | .object fields => MaskingFields fields
  | _ => True

def MaskingItems (key : String) : List Json → Prop
  | [] => True
  | item :: rest => Masking key item ∧ MaskingItems key rest

def MaskingFields : List (String × Json) → Prop
  | [] => True
  -- A string directly under its name is masked by both.
  | (_, .string _) :: rest => MaskingFields rest
  | (key, value) :: rest => Masking key value ∧ MaskingFields rest

end

/-! ## The two recursions -/

section Agreement

variable {number : Number → Bson}

theorem redactValue_number (numeric : ∀ value, IsNumber (number value)) (key : String) (value : Number) :
    redactValue key (number value) = number value := by
  have isNumber := numeric value
  generalize number value = stored at isNumber
  cases stored <;> first | rfl | exact isNumber.elim

mutual

theorem toBson_redactParams_iff (numeric : ∀ value, IsNumber (number value)) (key : String) :
    ∀ value : Json, toBson number (redactParams value) = redactValue key (toBson number value) ↔ Masking key value
  | .null => by simp [redactParams, toBson, redactValue, Masking]
  | .bool _ => by simp [redactParams, toBson, redactValue, Masking]
  | .number value => by simp [redactParams, toBson, redactValue_number numeric, Masking]
  | .string text => by
    by_cases isUri : isUriField key = true
    · simp [redactParams, toBson, redactValue, Masking, isUri, eq_comm]
    · simp [redactParams, toBson, redactValue, Masking, isUri]
  | .array items => by
    simp only [redactParams, toBson, redactValue, Masking, Bson.array.injEq]
    exact toBsonItems_redactParamItems_iff numeric key items
  | .object fields => by
    simp only [redactParams, toBson, redactValue, Masking, Bson.document.injEq]
    exact toBsonFields_redactParamFields_iff numeric fields

theorem toBsonItems_redactParamItems_iff (numeric : ∀ value, IsNumber (number value)) (key : String) :
    ∀ items : List Json, toBsonItems number (redactParamItems items) = redactItems key (toBsonItems number items) ↔
      MaskingItems key items
  | [] => by simp [redactParamItems, toBsonItems, redactItems, MaskingItems]
  | item :: rest => by
    simp only [redactParamItems, toBsonItems, redactItems, MaskingItems, List.cons.injEq]
    exact and_congr (toBson_redactParams_iff numeric key item) (toBsonItems_redactParamItems_iff numeric key rest)

theorem toBsonFields_redactParamFields_iff (numeric : ∀ value, IsNumber (number value)) :
    ∀ fields : List (String × Json),
      toBsonFields number (redactParamFields fields) = redactDocument (toBsonFields number fields) ↔ MaskingFields fields
  | [] => by simp [redactParamFields, toBsonFields, redactDocument, MaskingFields]
  | (key, value) :: rest => by
    have others := toBsonFields_redactParamFields_iff numeric rest
    have own := toBson_redactParams_iff numeric key value
    cases value with
    | string text =>
      -- Both mask a string that stands directly under its name.
      simp only [redactParamFields, toBsonFields, toBson, redactDocument, redactValue, MaskingFields, List.cons.injEq, true_and]
      exact others
    | _ =>
      simp only [redactParamFields, toBsonFields, redactDocument, MaskingFields, List.cons.injEq, Prod.mk.injEq, true_and]
      exact and_congr own others

end

end Agreement

/-! ## Passwords left in a text -/

def Masked (text : List Char) : Prop :=
  ∀ opening scheme user password host : List Char,
    text = opening ++ scheme ++ schemeEnd ++ (user ++ ':' :: password ++ '@' :: host) →
    isScheme scheme = true → ':' ∉ user → validUserinfo (user ++ ':' :: password) = true → password = mask

/-- Behind the first `://` no password is left. -/
def OneUri (text : List Char) : Prop :=
  ∀ scheme rest : List Char, splitOnce schemeEnd text = some (scheme, rest) → Masked rest

section Masked

variable {text front rest scheme : List Char}

theorem schemeEnd_eq : schemeEnd = [':', '/', '/'] := by decide

theorem plain_of_isScheme {char : Char} (foreign : char = '/' ∨ char = '@') (valid : isScheme scheme = true) :
    char ∉ scheme := by
  cases scheme with
  | nil => exact List.not_mem_nil
  | cons first others =>
    rw [isScheme, Bool.and_eq_true, List.all_eq_true] at valid
    intro member
    rcases List.mem_cons.mp member with rfl | member
    · rcases foreign with rfl | rfl <;> exact absurd valid.1 (by decide)
    · have kept := valid.2 _ member
      rcases foreign with rfl | rfl <;> exact absurd kept (by decide)

theorem suffix_of_not_mem {opening : List Char} {stop : Char} (same : opening ++ scheme = front ++ stop :: rest)
    (absent : stop ∉ scheme) : ∃ between, rest = between ++ scheme := by
  rcases List.append_eq_append_iff.mp same with ⟨between, -, inside⟩ | ⟨between, -, inside⟩
  · exact absurd (inside ▸ by simp) absent
  · cases between with
    | nil =>
      rw [List.nil_append] at inside
      exact absurd (inside ▸ List.mem_cons_self) absent
    | cons first others => exact ⟨others, (List.cons.inj inside).2⟩

theorem Masked.behind (masked : Masked (front ++ rest)) : Masked rest := by
  rintro opening scheme user password host rfl
  exact masked (front ++ opening) scheme user password host (by simp)

theorem masked_of_none (absent : splitOnce schemeEnd text = none) : Masked text := by
  rintro opening scheme user password host rfl
  obtain ⟨before, after, found, -⟩ := splitOnce_le schemeEnd (opening ++ scheme)
    (user ++ ':' :: password ++ '@' :: host)
  rw [absent] at found
  cases found

/-- The `@` is part of no scheme, and no `://` stands before it. -/
theorem masked_append_at (unslashed : '/' ∉ front) : Masked (front ++ '@' :: rest) ↔ Masked rest := by
  refine ⟨fun masked => Masked.behind (show Masked ((front ++ ['@']) ++ rest) by simpa using masked), ?_⟩
  intro masked opening scheme user password host shape isUri
  have whole : (front ++ ['@']) ++ rest =
      (opening ++ scheme) ++ (schemeEnd ++ (user ++ ':' :: password ++ '@' :: host)) := by
    simpa using shape
  rcases List.append_eq_append_iff.mp whole with ⟨between, inside, later⟩ | ⟨between, inside, later⟩
  · obtain ⟨others, rfl⟩ := suffix_of_not_mem (by simpa using inside) (plain_of_isScheme (.inr rfl) isUri)
    exact masked others scheme user password host (by simpa using later) isUri
  · rw [schemeEnd_eq] at later
    match between, inside, later with
    | [], inside, later =>
      obtain ⟨others, none_⟩ := @suffix_of_not_mem _ [] _ _ _ (by simpa using inside.symm)
        (plain_of_isScheme (.inr rfl) isUri)
      rw [(List.append_eq_nil_iff.mp none_.symm).2] at isUri
      cases isUri
    | [colon], inside, later =>
      have last := congrArg List.getLast? inside
      obtain ⟨rfl, -⟩ := List.cons.inj later
      simp at last
    | colon :: slash :: others, inside, later =>
      obtain ⟨-, slashes⟩ := List.cons.inj later
      obtain ⟨rfl, -⟩ := List.cons.inj slashes
      have member : '/' ∈ front ++ ['@'] := inside ▸ by simp
      simp [unslashed] at member

/-- The first URI aside, the others stand behind the first `://`. -/
theorem masked_split_iff {outer : List Char} (found : splitOnce schemeEnd text = some (outer, rest))
    (first : ∀ user password host, rest = user ++ ':' :: password ++ '@' :: host → ':' ∉ user →
      validUserinfo (user ++ ':' :: password) = true → password = mask) : Masked text ↔ Masked rest := by
  have shape := splitOnce_eq_some found
  refine ⟨fun masked => Masked.behind (shape ▸ masked), ?_⟩
  intro masked opening scheme user password host shape' isUri noColon valid
  obtain ⟨before, after, found', early⟩ := splitOnce_le schemeEnd (opening ++ scheme)
    (user ++ ':' :: password ++ '@' :: host)
  rw [← shape', found] at found'
  cases found'
  have whole : outer ++ (schemeEnd ++ rest) =
      (opening ++ scheme) ++ (schemeEnd ++ (user ++ ':' :: password ++ '@' :: host)) := by
    rw [← List.append_assoc, ← shape, shape']
    simp
  obtain ⟨between, inside, later⟩ : ∃ between, opening ++ scheme = outer ++ between ∧
      schemeEnd ++ rest = between ++ (schemeEnd ++ (user ++ ':' :: password ++ '@' :: host)) := by
    rcases List.append_eq_append_iff.mp whole with ⟨between, inside, later⟩ | ⟨between, inside, later⟩
    · exact ⟨between, inside, later⟩
    · have none_ : between = [] := List.length_eq_zero_iff.mp (by
        have length := congrArg List.length inside
        rw [List.length_append] at length
        omega)
      subst none_
      exact ⟨[], by simpa using inside.symm, by simpa using later.symm⟩
  rw [schemeEnd_eq] at later
  match between, inside, later with
  | [], _, later => exact first user password host (List.append_cancel_left later) noColon valid
  | [_], _, later => exact absurd (List.cons.inj (List.cons.inj later).2).1 (by decide)
  | [_, _], _, later => exact absurd (List.cons.inj (List.cons.inj (List.cons.inj later).2).2).1 (by decide)
  | colon :: slash :: slash' :: others, inside, later =>
    obtain ⟨-, slashes⟩ := List.cons.inj later
    obtain ⟨-, slashes'⟩ := List.cons.inj slashes
    obtain ⟨rfl, behind⟩ := List.cons.inj slashes'
    obtain ⟨between, rfl⟩ := @suffix_of_not_mem (outer ++ [colon, slash]) _ _ _ _ (by simpa using inside)
      (plain_of_isScheme (.inl rfl) isUri)
    exact masked between scheme user password host (by simpa [schemeEnd_eq] using behind) isUri noColon valid

theorem unslashed_of_validUserinfo {userinfo : List Char} (valid : validUserinfo userinfo = true) :
    ∀ char ∈ userinfo, (char != '/') = true := by
  intro char member
  exact bne_iff_ne.mpr fun slash => not_mem_of_validUserinfo (.inr rfl) valid (slash ▸ member)

/-- What is masked is the password of the first URI. -/
theorem masked_first {userinfo host tail : List Char} (user password host' : List Char)
    (parts : userinfo.takeWhile (· != ':') ++ ':' :: mask ++ '@' :: host ++ tail = user ++ ':' :: password ++ '@' :: host')
    (noColon : ':' ∉ user) (valid : validUserinfo (user ++ ':' :: password) = true) : password = mask := by
  -- The users end at the first colon, the passwords at the first `@` behind it.
  have users := congrArg (List.takeWhile (· != ':')) parts
  have colons : ∀ char ∈ user, (char != ':') = true := fun char member =>
    bne_iff_ne.mpr fun colon => noColon (colon ▸ member)
  have ownColons : ∀ char ∈ userinfo.takeWhile (· != ':'), (char != ':') = true := fun char member =>
    @List.mem_takeWhile_imp _ (· != ':') _ _ member
  simp only [List.append_assoc, List.cons_append] at users parts
  rw [List.takeWhile_append_of_pos colons, List.takeWhile_append_of_pos ownColons] at users
  simp only [List.takeWhile_cons, bne_self_eq_false, Bool.false_eq_true, if_false, List.append_nil] at users
  rw [users] at parts
  have passwords := congrArg (List.takeWhile (· != '@')) (List.cons.inj (List.append_cancel_left parts)).2
  have ats : ∀ char ∈ password, (char != '@') = true := fun char member =>
    bne_iff_ne.mpr fun at_ => not_mem_of_validUserinfo (.inl rfl) valid (at_ ▸ by simp [member])
  have ownAts : ∀ char ∈ mask, (char != '@') = true := List.all_eq_true.mp (by decide)
  rw [List.takeWhile_append_of_pos ats, List.takeWhile_append_of_pos ownAts] at passwords
  simpa using passwords.symm

theorem masked_redactChars_iff (text : List Char) : Masked (redactChars text) ↔ OneUri text := by
  cases found : splitOnce schemeEnd text with
  | none =>
    rw [redactChars_of_none found]
    exact iff_of_true (masked_of_none found) fun scheme rest found' => by rw [found] at found'; cases found'
  | some parts =>
    obtain ⟨outer, rest⟩ := parts
    have one : OneUri text ↔ Masked rest := by
      simp only [OneUri, found, Option.some.injEq, Prod.mk.injEq]
      exact ⟨fun all => all outer rest ⟨rfl, rfl⟩, by rintro masked _ _ ⟨-, rfl⟩; exact masked⟩
    rw [one]
    have authority := List.takeWhile_append_dropWhile (p := (· != '/')) (l := rest)
    cases marked : rsplitOnce '@' (rest.takeWhile (· != '/')) with
    | none =>
      have same : redactChars text = text := by
        simp only [redactChars, found, marked]
      rw [same]
      refine masked_split_iff found fun user password host shape _ valid => ?_
      -- The authority would hold the `@`.
      refine absurd ?_ (not_mem_of_rsplitOnce_none marked)
      rw [shape, List.takeWhile_append_of_pos (unslashed_of_validUserinfo valid)]
      simp
    | some parts =>
      obtain ⟨userinfo, host⟩ := parts
      have split := rsplitOnce_eq_some marked
      have unslashed : '/' ∉ userinfo := fun member => by
        have kept := @List.mem_takeWhile_imp _ (· != '/') rest '/' (by rw [split]; simp [member])
        simp at kept
      have result : redactChars text = outer ++ schemeEnd ++
          (userinfo.takeWhile (· != ':') ++ ':' :: mask ++ '@' :: host ++ rest.dropWhile (· != '/')) := by
        simp only [redactChars, found, marked]
        simp
      -- What is masked has its first `://` at the same place.
      have kept := splitOnce_append (splitOnce_first found)
        (userinfo.takeWhile (· != ':') ++ ':' :: mask ++ '@' :: host ++ rest.dropWhile (· != '/'))
      rw [List.nil_append, ← result] at kept
      have front : '/' ∉ userinfo.takeWhile (· != ':') ++ ':' :: mask := by
        have short : '/' ∉ userinfo.takeWhile (· != ':') := fun member =>
          unslashed ((List.takeWhile_sublist _).subset member)
        have stars : '/' ∉ ':' :: mask := by decide
        simp only [List.mem_append, not_or]
        exact ⟨short, stars⟩
      calc Masked (redactChars text)
          ↔ Masked (userinfo.takeWhile (· != ':') ++ ':' :: mask ++ '@' :: host ++ rest.dropWhile (· != '/')) :=
            masked_split_iff kept masked_first
        _ ↔ Masked (host ++ rest.dropWhile (· != '/')) := by
            rw [List.append_assoc, List.cons_append]
            exact masked_append_at front
        _ ↔ Masked (userinfo ++ '@' :: (host ++ rest.dropWhile (· != '/'))) := (masked_append_at unslashed).symm
        _ ↔ Masked rest := by
            rw [← List.cons_append, ← List.append_assoc, ← split, authority]

end Masked

inductive UriLeaf : String → Bson → String → Prop where
  | here {key text} (isUri : isUriField key = true) : UriLeaf key (.string text) text
  | item {key items item text} (listed : item ∈ items) (leaf : UriLeaf key item text) : UriLeaf key (.array items) text
  | field {key fields name value text} (listed : (name, value) ∈ fields) (leaf : UriLeaf name value text) :
    UriLeaf key (.document fields) text

theorem redactItems_eq_map (key : String) (items : List Bson) : redactItems key items = items.map (redactValue key) := by
  induction items with
  | nil => rfl
  | cons item rest ih => rw [redactItems, List.map_cons, ih]

theorem redactDocument_eq_map (fields : List (String × Bson)) :
    redactDocument fields = fields.map fun field => (field.1, redactValue field.1 field.2) := by
  induction fields with
  | nil => rfl
  | cons field rest ih => rw [redactDocument, List.map_cons, ih]

theorem UriLeaf.redacted {key text : String} {value : Bson} (leaf : UriLeaf key value text) :
    ∀ original, value = redactValue key original → ∃ source, UriLeaf key original source ∧ text = redactUri source := by
  induction leaf with
  | @here key text isUri =>
    intro original same
    cases original with
    | string source =>
      rw [redactValue, if_pos isUri] at same
      exact ⟨source, .here isUri, Bson.string.inj same⟩
    | _ => simp [redactValue] at same
  | @item key items item text listed leaf ih =>
    intro original same
    cases original with
    | array sources =>
      rw [redactValue, redactItems_eq_map] at same
      rw [Bson.array.inj same] at listed
      obtain ⟨source, listed', redacted⟩ := List.mem_map.mp listed
      obtain ⟨plain, leaf', masked⟩ := ih source redacted.symm
      exact ⟨plain, .item listed' leaf', masked⟩
    | _ => simp [redactValue] at same
  | @field key fields name value text listed leaf ih =>
    intro original same
    cases original with
    | document sources =>
      rw [redactValue, redactDocument_eq_map] at same
      rw [Bson.document.inj same] at listed
      obtain ⟨⟨source, original⟩, listed', redacted⟩ := List.mem_map.mp listed
      cases redacted
      obtain ⟨plain, leaf', masked⟩ := ih original rfl
      exact ⟨plain, .field listed' leaf', masked⟩
    | _ => simp [redactValue] at same

theorem UriLeaf.redact {key text : String} {value : Bson} (leaf : UriLeaf key value text) :
    UriLeaf key (redactValue key value) (redactUri text) := by
  induction leaf with
  | here isUri =>
    rw [redactValue, if_pos isUri]
    exact .here isUri
  | item listed leaf ih =>
    rw [redactValue, redactItems_eq_map]
    exact .item (List.mem_map_of_mem listed) ih
  | field listed leaf ih =>
    rw [redactValue, redactDocument_eq_map]
    exact .field (List.mem_map.mpr ⟨_, listed, rfl⟩) ih

def EveryUri (holds : List Char → Prop) (fields : List (String × Bson)) : Prop :=
  ∀ name value text, (name, value) ∈ fields → UriLeaf name value text → holds text.toList

theorem everyUri_redactDocument (fields : List (String × Bson)) :
    EveryUri Masked (redactDocument fields) ↔ EveryUri OneUri fields := by
  constructor
  · intro all name value text listed leaf
    have masked := all name _ _ (redactDocument_eq_map fields ▸ List.mem_map.mpr ⟨_, listed, rfl⟩) leaf.redact
    rw [redactUri, String.toList_ofList] at masked
    exact (masked_redactChars_iff _).mp masked
  · intro all name value text listed leaf
    rw [redactDocument_eq_map] at listed
    obtain ⟨⟨source, original⟩, listed', redacted⟩ := List.mem_map.mp listed
    cases redacted
    obtain ⟨plain, leaf', rfl⟩ := leaf.redacted original rfl
    rw [redactUri, String.toList_ofList]
    exact (masked_redactChars_iff _).mpr (all _ _ _ listed' leaf')

/-! ## The agreement -/

structure RedactionsAgree (number : Number → Bson) (params : List (String × Json)) : Prop where
  same : toBson number (redactParams (.object params)) = .document (redactDocument (toBsonFields number params))
  asJson : EveryUri Masked (toBsonFields number (redactParamFields params))
  asBson : EveryUri Masked (redactDocument (toBsonFields number params))

def wideNumber : Number → Bson
  | .posInt value => .int64 value
  | .negInt value => .int64 value
  | .float value => .double value

theorem isNumber_wideNumber (value : Number) : IsNumber (wideNumber value) := by
  cases value <;> trivial

def nestedParams : List (String × Json) :=
  [("endpoints", .array [.object [("src_uri", .string "mongodb://u:p@host/db")]]),
    ("uri", .array [.string "mongodb://host/db"]), ("batch_size", .number (.posInt 100))]

theorem nestedParams_leaves {name text : String} {value : Bson}
    (listed : (name, value) ∈ toBsonFields wideNumber nestedParams) (leaf : UriLeaf name value text) :
    text = "mongodb://u:p@host/db" ∨ text = "mongodb://host/db" := by
  simp only [nestedParams, toBsonFields, toBson, toBsonItems, wideNumber, List.mem_cons, List.not_mem_nil, or_false,
    Prod.mk.injEq] at listed
  rcases listed with ⟨rfl, rfl⟩ | ⟨rfl, rfl⟩ | ⟨rfl, rfl⟩
  · cases leaf with | item listed leaf =>
    rw [List.mem_singleton.mp listed] at leaf
    cases leaf with | field listed leaf =>
    obtain ⟨rfl, rfl⟩ := Prod.mk.inj (List.mem_singleton.mp listed)
    cases leaf
    exact .inl rfl
  · cases leaf with | item listed leaf =>
    rw [List.mem_singleton.mp listed] at leaf
    cases leaf
    exact .inr rfl
  · cases leaf

end Boom.Tasks
