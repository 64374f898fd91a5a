import Boom.Foundations.Checked

/-! # Texts cut at bytes

A text is its characters, each of one to four bytes.  A byte place is a boundary when no
character straddles it; a text is cut only there. -/

namespace Boom.Foundations

abbrev Text := List Char

namespace Text

variable {text parted rest : Text} {place start stop : Nat}

def bytes (text : Text) : Nat := (text.map Char.utf8Size).sum

@[simp] theorem bytes_nil : bytes [] = 0 := rfl

@[simp] theorem bytes_cons (char : Char) (text : Text) : bytes (char :: text) = char.utf8Size + bytes text := by
  simp [bytes]

@[simp] theorem bytes_append (first second : Text) : bytes (first ++ second) = bytes first + bytes second := by
  simp [bytes]

def cut : Text → Nat → Option (Text × Text)
  | text, 0 => some ([], text)
  | [], _ + 1 => none
  | char :: rest, place + 1 =>
    if char.utf8Size ≤ place + 1 then
      (cut rest (place + 1 - char.utf8Size)).map fun parts => (char :: parts.1, parts.2)
    else none

def IsBoundary (text : Text) (place : Nat) : Prop := (cut text place).isSome

instance (text : Text) (place : Nat) : Decidable (IsBoundary text place) := inferInstanceAs (Decidable (_ = true))

def get (text : Text) (start stop : Nat) : Option Text :=
  (cut text start).bind fun parts => if start ≤ stop then (cut parts.2 (stop - start)).map Prod.fst else none

def slice (text : Text) (start stop : Nat) : Checked Text :=
  match get text start stop with
  | some part => .ok part
  | none => .error .outOfRange

def trimBy (blank : Char → Bool) (text : Text) : Text :=
  ((text.dropWhile blank).reverse.dropWhile blank).reverse

def lines (text : Text) : List Text :=
  let parts := text.splitOn '\n'
  let ended := parts.dropLast.map fun line => if line.getLast? = some '\r' then line.dropLast else line
  ended ++ (parts.getLast?.toList.filter (· ≠ []))

def words (blank : Char → Bool) (text : Text) : List Text := (text.splitOnP blank).filter (· ≠ [])

example : lines "a b\r\n\nc".toList = ["a b".toList, [], "c".toList] := by decide +kernel

example : IsBoundary "aé".toList 1 ∧ ¬ IsBoundary "aé".toList 2 := by decide +kernel

/-! ## Boundaries -/

theorem cut_zero (text : Text) : cut text 0 = some ([], text) := by
  cases text <;> rfl

theorem cut_eq_some_iff : cut text place = some (parted, rest) ↔ text = parted ++ rest ∧ bytes parted = place := by
  induction text generalizing place parted with
  | nil =>
    cases place with
    | zero => cases parted <;> simp [cut_zero, eq_comm]
    | succ place =>
      simp only [cut, reduceCtorEq, false_iff, not_and]
      intro empty
      rw [(List.append_eq_nil_iff.mp empty.symm).1]
      simp
  | cons char text ih =>
    have wide := char.utf8Size_pos
    cases place with
    | zero =>
      cases parted with
      | nil => simp [cut_zero, eq_comm]
      | cons first parted =>
        have wide' := first.utf8Size_pos
        simp only [cut_zero, Option.some.injEq, Prod.mk.injEq, bytes_cons]
        constructor
        · rintro ⟨⟨⟩, _⟩
        · omega
    | succ place =>
      rw [cut]
      split
      · next fits =>
        simp only [Option.map_eq_some_iff, Prod.mk.injEq, Prod.exists]
        constructor
        · rintro ⟨first, second, isCut, rfl, rfl⟩
          obtain ⟨same, size⟩ := ih.mp isCut
          rw [same, bytes_cons]
          exact ⟨rfl, by omega⟩
        · rintro ⟨same, size⟩
          cases parted with
          | nil => simp at size
          | cons first parted =>
            obtain ⟨rfl, tails⟩ := List.cons.inj same
            rw [bytes_cons] at size
            exact ⟨parted, rest, ih.mpr ⟨tails, by omega⟩, rfl, rfl⟩
      · next straddles =>
        simp only [reduceCtorEq, false_iff, not_and]
        intro same size
        cases parted with
        | nil => simp at size
        | cons first parted =>
          obtain ⟨rfl, -⟩ := List.cons.inj same
          rw [bytes_cons] at size
          omega

theorem isBoundary_iff : IsBoundary text place ↔ ∃ parted rest, text = parted ++ rest ∧ bytes parted = place := by
  rw [IsBoundary, Option.isSome_iff_exists]
  constructor
  · rintro ⟨⟨parted, rest⟩, isCut⟩
    exact ⟨parted, rest, cut_eq_some_iff.mp isCut⟩
  · rintro ⟨parted, rest, isCut⟩
    exact ⟨(parted, rest), cut_eq_some_iff.mpr isCut⟩

theorem isBoundary_bytes (text : Text) : IsBoundary text (bytes text) :=
  isBoundary_iff.mpr ⟨text, [], (List.append_nil text).symm, rfl⟩

theorem IsBoundary.le (boundary : IsBoundary text place) : place ≤ bytes text := by
  obtain ⟨parted, rest, rfl, rfl⟩ := isBoundary_iff.mp boundary
  rw [bytes_append]
  exact Nat.le_add_right _ _

theorem isBoundary_zero (text : Text) : IsBoundary text 0 :=
  isBoundary_iff.mpr ⟨[], text, rfl, rfl⟩

theorem isBoundary_succ_iff {char : Char} :
    IsBoundary (char :: text) (place + 1) ↔ char.utf8Size ≤ place + 1 ∧ IsBoundary text (place + 1 - char.utf8Size) := by
  unfold IsBoundary
  rw [cut]
  split
  · next fits => rw [Option.isSome_map, and_iff_right fits]
  · next straddles => exact iff_of_false Bool.false_ne_true fun both => straddles both.1

/-! ## Slices -/

theorem get_eq_some_iff {part : Text} : get text start stop = some part ↔
    ∃ before after, text = before ++ (part ++ after) ∧ bytes before = start ∧ start + bytes part = stop := by
  simp only [get, Option.bind_eq_some_iff, Prod.exists, cut_eq_some_iff, Option.ite_none_right_eq_some,
    Option.map_eq_some_iff]
  constructor
  · rintro ⟨before, _, ⟨rfl, size⟩, le, part, after, ⟨rfl, size'⟩, rfl⟩
    exact ⟨before, after, rfl, size, by omega⟩
  · rintro ⟨before, after, same, size, size'⟩
    exact ⟨before, part ++ after, ⟨same, size⟩, by omega, part, after, ⟨rfl, by omega⟩, rfl⟩

theorem bytes_of_get {part : Text} (got : get text start stop = some part) : bytes part = stop - start := by
  obtain ⟨_, _, _, _, size⟩ := get_eq_some_iff.mp got
  omega

theorem isSome_get_iff (le : start ≤ stop) :
    (get text start stop).isSome ↔ IsBoundary text start ∧ IsBoundary text stop := by
  simp only [Option.isSome_iff_exists, get_eq_some_iff, isBoundary_iff]
  constructor
  · rintro ⟨part, before, after, rfl, rfl, rfl⟩
    exact ⟨⟨before, part ++ after, rfl, rfl⟩, before ++ part, after, (List.append_assoc _ _ _).symm, bytes_append _ _⟩
  · rintro ⟨⟨before, rest, same, size⟩, longer, after, same', size'⟩
    -- The shorter beginning is a beginning of the longer one.
    rcases List.append_eq_append_iff.mp (same.symm.trans same') with ⟨part, rfl, rfl⟩ | ⟨part, rfl, rfl⟩
    · exact ⟨part, before, after, same, size, by rw [bytes_append] at size'; omega⟩
    · rw [bytes_append] at size
      refine ⟨[], longer ++ part, rest, same, by rw [bytes_append]; exact size, ?_⟩
      rw [bytes_nil]
      omega

theorem runs_slice_iff (le : start ≤ stop) :
    Runs (slice text start stop) ↔ IsBoundary text start ∧ IsBoundary text stop := by
  rw [← isSome_get_iff le, slice]
  cases get text start stop with
  | none => simp [not_runs_error]
  | some part => simp [runs_ok]

theorem slice_eq_ok_iff {part : Text} : slice text start stop = .ok part ↔ get text start stop = some part := by
  rw [slice]
  cases get text start stop <;> simp

/-! ## Sizes -/

theorem length_le_bytes (text : Text) : text.length ≤ bytes text := by
  induction text with
  | nil => exact Nat.le_refl 0
  | cons char text ih =>
    have wide := char.utf8Size_pos
    rw [List.length_cons, bytes_cons]
    omega

theorem bytes_le_of_sublist {shorter : Text} (sublist : shorter.Sublist text) : bytes shorter ≤ bytes text := by
  induction sublist with
  | slnil => exact Nat.le_refl 0
  | cons char _ ih =>
    rw [bytes_cons]
    omega
  | cons_cons char _ ih =>
    rw [bytes_cons, bytes_cons]
    omega

theorem trimBy_sublist (blank : Char → Bool) (text : Text) : (trimBy blank text).Sublist text := by
  have backward := ((text.dropWhile blank).reverse.dropWhile_sublist blank).reverse
  rw [List.reverse_reverse] at backward
  exact backward.trans (List.dropWhile_sublist blank)

theorem isBoundary_of_narrow (narrow : bytes text = text.length) (inside : place ≤ bytes text) :
    IsBoundary text place := by
  have sizes : bytes text = bytes (text.take place) + bytes (text.drop place) := by
    rw [← bytes_append, List.take_append_drop]
  have first := length_le_bytes (text.take place)
  have second := length_le_bytes (text.drop place)
  rw [List.length_take] at first
  rw [List.length_drop] at second
  exact isBoundary_iff.mpr ⟨_, _, (List.take_append_drop place text).symm, by omega⟩

end Text

end Boom.Foundations
