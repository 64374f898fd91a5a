import Boom.Filter.Base
import Boom.Tasks.Redact

/-! # Passwords in free text

`Scrubs` says what redacting a text is for: every password of a URI in it is masked, and
nothing changes outside the userinfos with a password.  Redaction works on tokens cut at
delimiters, some of which may stand in a password; `Legible` says when the tokens do not cut
through one, and what they take for a userinfo is one with a password. -/

namespace Boom.Tasks

open Boom.Foundations

/-! ## Userinfo -/

def isUnreserved (char : Char) : Bool := char.isAlphanum || ['-', '.', '_', '~'].contains char

def isSubDelim (char : Char) : Bool := ['!', '$', '&', '\'', '(', ')', '*', '+', ',', ';', '='].contains char

def isHexDigit (char : Char) : Bool :=
  char.isDigit || ('a' ≤ char && char ≤ 'f') || ('A' ≤ char && char ≤ 'F')

def validUserinfo : List Char → Bool
  | [] => true
  | '%' :: first :: second :: rest => isHexDigit first && isHexDigit second && validUserinfo rest
  | first :: rest => (isUnreserved first || isSubDelim first || first == ':') && validUserinfo rest

def isScheme : List Char → Bool
  | [] => false
  | first :: rest => first.isAlpha && rest.all fun char => char.isAlphanum || ['+', '-', '.'].contains char

def isBoundary (char : Char) : Bool := Filter.isWhiteSpace char || char == '"' || char == '\''

def AfterBoundary (seen : List Char) : Prop :=
  ∃ before scheme, isScheme scheme = true ∧ seen = before ++ scheme ++ schemeEnd ∧
    ∀ char ∈ before.getLast?, isBoundary char = true

def hostOf (after : List Char) : List Char :=
  (after.takeWhile (!isBoundary ·)).takeWhile (fun char => !(['/', '?', '#'].contains char))

structure Credentials (seen userinfo after : List Char) : Prop where
  opened : AfterBoundary seen
  valid : validUserinfo userinfo = true
  password : ':' ∈ userinfo
  host : hostOf after ≠ [] ∧ '@' ∉ hostOf after

inductive Scrubs : List Char → List Char → List Char → Prop where
  | done {seen} : Scrubs seen [] []
  | hide {seen userinfo after out} (credentials : Credentials seen userinfo after)
      (rest : Scrubs (seen ++ userinfo) ('@' :: after) out) :
      Scrubs seen (userinfo ++ '@' :: after) (userinfo.takeWhile (· != ':') ++ ':' :: mask ++ out)
  | keep {seen char text out}
      (plain : ∀ userinfo after, char :: text = userinfo ++ '@' :: after → ¬ Credentials seen userinfo after)
      (rest : Scrubs (seen ++ [char]) text out) : Scrubs seen (char :: text) (char :: out)

structure Legible (text : List Char) : Prop where
  whole : ∀ seen userinfo after, text = seen ++ userinfo ++ '@' :: after → Credentials seen userinfo after →
    IsToken userinfo ∧ ∃ first, splitOnce schemeEnd (tokenHead seen) = some (first, [])
  only : ∀ before token after, text = before ++ token ++ after → (∀ char ∈ before.getLast?, isDelimiter char = true) →
    IsToken token → (∀ char ∈ after.head?, isDelimiter char = true) → ∀ scheme rest userinfo host,
    splitOnce schemeEnd token = some (scheme, rest) → rsplitOnce '@' (rest.takeWhile (· != '/')) = some (userinfo, host) →
    Credentials (before ++ (scheme ++ schemeEnd)) userinfo (host ++ rest.dropWhile (· != '/') ++ after)

/-! ## What is masked -/

theorem not_mem_of_validUserinfo {char : Char} (foreign : char = '@' ∨ char = '/') :
    ∀ {userinfo : List Char}, validUserinfo userinfo = true → char ∉ userinfo := by
  have unhex : isHexDigit char = false := by rcases foreign with rfl | rfl <;> decide
  have unplain : (isUnreserved char || isSubDelim char || char == ':') = false := by rcases foreign with rfl | rfl <;> decide
  have percent : char ≠ '%' := by rcases foreign with rfl | rfl <;> decide
  intro userinfo valid
  fun_induction validUserinfo userinfo with
  | case1 => exact List.not_mem_nil
  | case2 first second rest ih =>
    simp only [Bool.and_eq_true] at valid
    obtain ⟨⟨hex, hex'⟩, rest_⟩ := valid
    intro member
    rcases List.mem_cons.mp member with same | member
    · exact percent same
    rcases List.mem_cons.mp member with same | member
    · rw [← same, unhex] at hex; cases hex
    rcases List.mem_cons.mp member with same | member
    · rw [← same, unhex] at hex'; cases hex'
    · exact ih rest_ member
  | case3 first rest _ ih =>
    rw [Bool.and_eq_true] at valid
    intro member
    rcases List.mem_cons.mp member with same | member
    · rw [← same, unplain] at valid; cases valid.1
    · exact ih valid.2 member

theorem userinfo_unique {userinfo userinfo' after after' : List Char} (valid : validUserinfo userinfo = true)
    (valid' : validUserinfo userinfo' = true) (same : userinfo ++ '@' :: after = userinfo' ++ '@' :: after') :
    userinfo = userinfo' ∧ after = after' := by
  have read {userinfo : List Char} (valid : validUserinfo userinfo = true) (after : List Char) :
      (userinfo ++ '@' :: after).takeWhile (· != '@') = userinfo := by
    have clean : ∀ char ∈ userinfo, (char != '@') = true := by
      intro char member
      exact bne_iff_ne.mpr fun at_ => not_mem_of_validUserinfo (.inl rfl) valid (at_ ▸ member)
    rw [List.takeWhile_append_of_pos clean]
    simp
  have first := congrArg (List.takeWhile (· != '@')) same
  rw [read valid, read valid'] at first
  subst first
  exact ⟨rfl, (List.cons.inj (List.append_cancel_left same)).2⟩

theorem slash_mem_of_afterScheme {seen before : List Char} (opened : AfterBoundary (seen ++ before))
    (nonempty : before ≠ []) : '/' ∈ before := by
  obtain ⟨outer, scheme, -, shape, -⟩ := opened
  have last := congrArg List.getLast? shape
  rw [List.getLast?_append_of_ne_nil _ nonempty, List.getLast?_append_of_ne_nil _ (by decide)] at last
  exact List.mem_of_getLast? (last.trans (by decide))

theorem Scrubs.masked {seen text out : List Char} (scrubs : Scrubs seen text out) :
    ∀ {before userinfo after : List Char}, text = before ++ (userinfo ++ '@' :: after) →
      Credentials (seen ++ before) userinfo after →
      ∃ before' after', out = before' ++ userinfo.takeWhile (· != ':') ++ ':' :: mask ++ after' := by
  induction scrubs with
  | done =>
    intro before userinfo after shape
    simp at shape
  | @hide seen userinfo after out hidden rest ih =>
    have valid := hidden.valid
    intro before userinfo' after' shape credentials
    rcases List.append_eq_append_iff.mp shape with ⟨between, rfl, later⟩ | ⟨between, rfl, later⟩
    · cases between with
      | nil =>
        rw [List.nil_append] at later
        cases userinfo' with
        | nil => exact absurd credentials.password List.not_mem_nil
        | cons first others =>
          obtain ⟨rfl, -⟩ := List.cons.inj later
          exact absurd List.mem_cons_self (not_mem_of_validUserinfo (.inl rfl) credentials.valid)
      | cons at_ others =>
        -- The credentials begin behind the userinfo that is masked here.
        obtain ⟨rfl, rest_⟩ := List.cons.inj later
        obtain ⟨before', after'', same⟩ := @ih ('@' :: others) _ _ (congrArg ('@' :: ·) rest_)
          (by rwa [List.append_assoc])
        exact ⟨userinfo.takeWhile (· != ':') ++ ':' :: mask ++ before', after'', by rw [same]; simp⟩
    · cases before with
      | nil =>
        rw [List.nil_append] at valid shape ⊢
        obtain ⟨rfl, rfl⟩ := userinfo_unique valid credentials.valid shape
        exact ⟨[], out, by simp⟩
      | cons first others =>
        have slash := slash_mem_of_afterScheme credentials.opened (List.cons_ne_nil first others)
        exact absurd (List.mem_append_left between slash) (not_mem_of_validUserinfo (.inr rfl) valid)
  | @keep seen char text out plain rest ih =>
    intro before userinfo' after' shape credentials
    cases before with
    | nil =>
      rw [List.append_nil] at credentials
      exact absurd credentials (plain _ _ shape)
    | cons first others =>
      obtain ⟨rfl, rest_⟩ := List.cons.inj shape
      obtain ⟨before', after'', same⟩ := ih rest_ (by simpa using credentials)
      exact ⟨char :: before', after'', by rw [same]; simp⟩

/-! ## Redaction scrubs -/

section Legible

variable {text seen token after : List Char}

theorem Scrubs.keep_all {piece rest out : List Char}
    (plain : ∀ before behind, piece = before ++ behind → behind ≠ [] → ∀ userinfo after,
      behind ++ rest = userinfo ++ '@' :: after → ¬ Credentials (seen ++ before) userinfo after)
    (scrubs : Scrubs (seen ++ piece) rest out) : Scrubs seen (piece ++ rest) (piece ++ out) := by
  induction piece generalizing seen with
  | nil => simpa using scrubs
  | cons char others ih =>
    refine .keep (fun userinfo after shape credentials => ?_) (ih ?_ ?_)
    · exact plain [] (char :: others) rfl (List.cons_ne_nil _ _) userinfo after shape (by simpa using credentials)
    · intro before behind shape nonempty userinfo after follows credentials
      exact plain (char :: before) behind (by rw [shape]; rfl) nonempty userinfo after follows (by simpa using credentials)
    · simpa using scrubs

theorem tokenHead_append (starts : ∀ char ∈ seen.getLast?, isDelimiter char = true) (isToken : IsToken token) :
    tokenHead (seen ++ token) = token := by
  rcases List.eq_nil_or_concat seen with rfl | ⟨others, delimiter, rfl⟩
  · exact tokenHead_of_isToken isToken
  · have marks := starts delimiter (by simp)
    rw [List.concat_eq_append, List.append_assoc, List.singleton_append, tokenHead_append_cons marks, tokenHead_of_isToken isToken]

theorem Legible.place (legible : Legible text) (shape : text = seen ++ (token ++ after))
    (starts : ∀ char ∈ seen.getLast?, isDelimiter char = true) (isToken : IsToken token) {before behind userinfo rest : List Char}
    (cut : token = before ++ behind) (follows : behind ++ after = userinfo ++ '@' :: rest)
    (credentials : Credentials (seen ++ before) userinfo rest) :
    IsToken userinfo ∧ ∃ first, splitOnce schemeEnd token = some (first, behind) ∧ before = first ++ schemeEnd := by
  have place : text = (seen ++ before) ++ userinfo ++ '@' :: rest := by
    rw [shape, cut, List.append_assoc, List.append_assoc, List.append_assoc, follows]
  obtain ⟨plain, first, split⟩ := legible.whole _ _ _ place credentials
  have before_ : IsToken before := fun char member => isToken char (by simp [cut, member])
  rw [tokenHead_append starts before_] at split
  refine ⟨plain, first, ?_, by simpa using splitOnce_eq_some split⟩
  have longer := splitOnce_append split behind
  rwa [List.nil_append, ← cut] at longer

theorem Credentials.not_at {userinfo others rest : List Char} (credentials : Credentials seen userinfo others)
    (shape : '@' :: rest = userinfo ++ '@' :: others) : False := by
  cases found : userinfo with
  | nil => exact absurd credentials.password (by simp [found])
  | cons first more =>
    rw [found] at shape
    obtain ⟨rfl, -⟩ := List.cons.inj shape
    exact not_mem_of_validUserinfo (.inl rfl) credentials.valid (by simp [found])

/-- A token is scrubbed if what follows it is. -/
theorem Legible.scrubs_token (legible : Legible text) (shape : text = seen ++ (token ++ after))
    (starts : ∀ char ∈ seen.getLast?, isDelimiter char = true) (isToken : IsToken token)
    (ends : ∀ char ∈ after.head?, isDelimiter char = true) {out : List Char} (rest : Scrubs (seen ++ token) after out) :
    Scrubs seen (token ++ after) (redactChars token ++ out) := by
  unfold redactChars
  split
  · next absent =>
    refine Scrubs.keep_all (fun before behind cut _ userinfo others follows credentials => ?_) rest
    obtain ⟨-, first, found, -⟩ := legible.place shape starts isToken cut follows credentials
    rw [absent] at found
    cases found
  · next scheme others found =>
    dsimp only
    split
    · next absent =>
      refine Scrubs.keep_all (fun before behind cut _ userinfo host follows credentials => ?_) rest
      obtain ⟨plain, first, found', -⟩ := legible.place shape starts isToken cut follows credentials
      rw [found] at found'
      cases found'
      -- The authority holds the `@` behind the userinfo.
      have inOthers : ∃ more, others = userinfo ++ '@' :: more := by
        rcases List.append_eq_append_iff.mp follows with ⟨between, inside, later⟩ | ⟨between, inside, later⟩
        · cases between with
          | nil => exact absurd (ends '@' (by simp [later])) (by decide)
          | cons first more =>
            have marks := ends first (by simp [later])
            rw [plain first (by simp [inside])] at marks
            cases marks
        · cases between with
          | nil => exact absurd (ends '@' (by rw [List.nil_append] at later; simp [← later])) (by decide)
          | cons first more =>
            obtain ⟨rfl, -⟩ := List.cons.inj later
            exact ⟨more, inside⟩
      obtain ⟨more, rfl⟩ := inOthers
      have clean : ∀ char ∈ userinfo, (char != '/') = true := by
        intro char member
        exact bne_iff_ne.mpr fun slash => not_mem_of_validUserinfo (.inr rfl) credentials.valid (slash ▸ member)
      refine absurd ?_ (not_mem_of_rsplitOnce_none absent)
      rw [List.takeWhile_append_of_pos clean]
      simp
    · next userinfo host split_ =>
      have placed : text = seen ++ token ++ after := by rw [shape, List.append_assoc]
      have hidden := legible.only seen token after placed starts isToken ends _ _ _ _ found split_
      have parts := List.takeWhile_append_dropWhile (p := (· != '/')) (l := others)
      rw [rsplitOnce_eq_some split_] at parts
      generalize others.dropWhile (· != '/') = tail at parts hidden ⊢
      have whole : token = (scheme ++ schemeEnd) ++ (userinfo ++ '@' :: (host ++ tail)) := by
        rw [splitOnce_eq_some found, ← parts]
        simp
      have behind_ : Scrubs (seen ++ (scheme ++ schemeEnd) ++ userinfo) ('@' :: (host ++ tail) ++ after)
          ('@' :: (host ++ tail) ++ out) := by
        refine Scrubs.keep_all (fun before behind cut _ userinfo' others' follows credentials => ?_) (by simpa [whole] using rest)
        have cut' : token = ((scheme ++ schemeEnd) ++ userinfo ++ before) ++ behind := by
          rw [whole, cut]
          simp
        obtain ⟨-, first, found', same⟩ := legible.place shape starts isToken cut' follows (by simpa using credentials)
        rw [found] at found'
        cases found'
        have short := congrArg List.length same
        simp only [List.length_append] at short
        obtain rfl : before = [] := List.length_eq_zero_iff.mp (by omega)
        rw [List.nil_append] at cut
        rw [← cut, List.cons_append] at follows
        exact credentials.not_at follows
      have front : Scrubs (seen ++ (scheme ++ schemeEnd)) (userinfo ++ '@' :: (host ++ tail ++ after))
          (userinfo.takeWhile (· != ':') ++ ':' :: mask ++ ('@' :: (host ++ tail) ++ out)) :=
        .hide hidden behind_
      have plain : ∀ before behind, scheme ++ schemeEnd = before ++ behind → behind ≠ [] → ∀ userinfo' others',
          behind ++ (userinfo ++ '@' :: (host ++ tail ++ after)) = userinfo' ++ '@' :: others' →
            ¬ Credentials (seen ++ before) userinfo' others' := by
        intro before behind cut nonempty userinfo' others' follows credentials
        have cut' : token = before ++ (behind ++ (userinfo ++ '@' :: (host ++ tail))) := by
          rw [whole, cut, List.append_assoc]
        have follows' : behind ++ (userinfo ++ '@' :: (host ++ tail)) ++ after = userinfo' ++ '@' :: others' := by
          rw [← follows]
          simp
        obtain ⟨-, first, found', same⟩ := legible.place shape starts isToken cut' follows' credentials
        rw [found] at found'
        cases found'
        rw [same] at cut
        exact nonempty (List.append_right_eq_self.mp cut.symm)
      simpa [whole] using Scrubs.keep_all plain front

theorem Legible.scrubs_from (legible : Legible text) (size : Nat) : ∀ (seen rest : List Char), rest.length ≤ size →
    text = seen ++ rest → (∀ char ∈ seen.getLast?, isDelimiter char = true) → Scrubs seen rest (redactFrom rest) := by
  induction size with
  | zero =>
    intro seen rest short shape starts
    obtain rfl := List.length_eq_zero_iff.mp (Nat.le_zero.mp short)
    rw [redactFrom_of_none rfl]
    exact .done
  | succ size ih =>
    intro seen rest short shape starts
    have parts := List.takeWhile_append_dropWhile (p := (!isDelimiter ·)) (l := rest)
    have isToken : IsToken (rest.takeWhile (!isDelimiter ·)) := fun char member => by
      simpa using List.mem_takeWhile_imp member
    have ends : ∀ char ∈ (rest.dropWhile (!isDelimiter ·)).head?, isDelimiter char = true := fun char first => by
      have stops := List.head?_dropWhile_not (!isDelimiter ·) rest
      rw [Option.mem_def.mp first] at stops
      simpa using stops
    generalize rest.takeWhile (!isDelimiter ·) = token at parts isToken
    generalize rest.dropWhile (!isDelimiter ·) = after at parts ends
    subst parts
    rw [redactFrom_token isToken ends]
    refine legible.scrubs_token shape starts isToken ends ?_
    cases after with
    | nil =>
      rw [redactFrom_of_none rfl]
      exact .done
    | cons delimiter others =>
      have marks := ends delimiter rfl
      have here := redactFrom_append_cons marks (splitOnce_nil (by decide)) others
      rw [List.nil_append, List.nil_append] at here
      rw [here]
      refine .keep (fun userinfo host follows credentials => ?_) (ih _ _ ?_ (by rw [shape]; simp) (by simp [marks]))
      · -- A delimiter is no part of credentials.
        have cut : token = token ++ [] := (List.append_nil token).symm
        obtain ⟨plain, -, -, -⟩ := legible.place shape starts isToken cut follows credentials
        cases userinfo with
        | nil => exact absurd credentials.password List.not_mem_nil
        | cons first more =>
          obtain ⟨rfl, -⟩ := List.cons.inj follows
          rw [plain delimiter List.mem_cons_self] at marks
          cases marks
      · simp only [List.length_append, List.length_cons] at short
        omega

end Legible

/-- Redaction scrubs a legible text. -/
theorem redactText_scrubs (message : String) (legible : Legible message.toList) :
    Scrubs [] message.toList (redactText message).toList := by
  rw [redactText, String.toList_ofList]
  exact legible.scrubs_from message.toList.length [] message.toList le_rfl rfl (by simp)

theorem legible_uri : Legible "db://a:b@h".toList where
  whole seen userinfo after shape credentials := by
    obtain ⟨before, scheme, -, opened, -⟩ := credentials.opened
    have place : seen = "db://".toList := by
      have one : ∀ n < 11, ("db://a:b@h".toList.drop n).take 3 = schemeEnd → n = 2 := by decide
      have size : "db://a:b@h".toList.length = 10 := by decide
      have end_ : schemeEnd.length = 3 := by decide
      have whole : "db://a:b@h".toList = (before ++ scheme) ++ (schemeEnd ++ (userinfo ++ '@' :: after)) := by
        rw [shape, opened]
        simp
      have second : (before ++ scheme).length = 2 := by
        refine one _ ?_ ?_
        · have length := congrArg List.length whole
          rw [size] at length
          simp only [List.length_append, end_] at length ⊢
          omega
        · rw [whole, List.drop_left]
          rfl
      have short : seen.length = 5 := by rw [opened, List.length_append, second, end_]
      have front : seen = "db://a:b@h".toList.take 5 := by
        rw [shape, List.append_assoc, ← short, List.take_left]
      exact front
    subst place
    have whole : "db://".toList ++ ("a:b".toList ++ '@' :: ['h']) = "db://".toList ++ (userinfo ++ '@' :: after) := by
      rw [← List.append_assoc, ← List.append_assoc, ← shape]
      rfl
    have behind := List.append_cancel_left whole
    obtain ⟨rfl, -⟩ := userinfo_unique (by decide) credentials.valid behind
    have isToken : IsToken "a:b".toList := by
      simpa [IsToken] using (show "a:b".toList.all (!isDelimiter ·) = true by decide)
    exact ⟨isToken, "db".toList, by decide +kernel⟩
  only before token after shape starts isToken ends scheme rest userinfo host found split := by
    have plain : ∀ char ∈ "db://a:b@h".toList, isDelimiter char = false := by
      simpa using (show "db://a:b@h".toList.all (!isDelimiter ·) = true by decide)
    have alone : before = [] ∧ after = [] := by
      constructor
      · by_contra nonempty
        have marks := starts _ (List.getLast?_eq_some_getLast nonempty)
        rw [plain _ (by rw [shape]; simp)] at marks
        cases marks
      · cases after with
        | nil => rfl
        | cons first others =>
          have marks := ends first rfl
          rw [plain first (by rw [shape]; simp)] at marks
          cases marks
    obtain ⟨rfl, rfl⟩ := alone
    rw [List.nil_append, List.append_nil] at shape
    subst shape
    cases found
    cases split
    exact
      { opened := ⟨[], "db".toList, by decide, rfl, by simp⟩
        valid := by decide
        password := by decide
        host := by decide }

theorem redactText_scrubs_uri : Scrubs [] "db://a:b@h".toList (redactText "db://a:b@h").toList :=
  redactText_scrubs _ legible_uri

/-- A comma may stand in a password, and cuts the token there. -/
theorem redactText_leaks_comma :
    ¬ Scrubs [] "mongodb://u:p,w@h".toList (redactText "mongodb://u:p,w@h").toList := by
  intro scrubs
  have credentials : Credentials ([] ++ "mongodb://".toList) "u:p,w".toList ['h'] :=
    { opened := ⟨[], "mongodb".toList, by decide, rfl, by simp⟩
      valid := by decide
      password := by decide
      host := by decide }
  obtain ⟨before, after, same⟩ := scrubs.masked rfl credentials
  have kept : (redactText "mongodb://u:p,w@h").toList = "mongodb://u:p,w@h".toList := by
    decide +kernel
  have star : '*' ∈ "mongodb://u:p,w@h".toList := by
    rw [← kept, same]
    simp [mask]
  exact absurd star (by decide)

end Boom.Tasks
