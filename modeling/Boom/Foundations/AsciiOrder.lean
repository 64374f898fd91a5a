import Mathlib.Data.String.Basic

/-! # The order of ASCII words

Words of one width compare at their first difference.  An ASCII word is compared alike by its characters
and by the bytes of its encoding. -/

namespace Boom.Foundations

def utf8Bytes (text : String) : List UInt8 := text.toByteArray.data.toList

def IsAscii (char : Char) : Prop := char.utf8Size = 1

instance (char : Char) : Decidable (IsAscii char) := inferInstanceAs (Decidable (char.utf8Size = 1))

-- A run over the items: the instance for all characters would be found first.
theorem forall_of_all {α : Type} {property : α → Prop} [DecidablePred property] {items : List α}
    (checked : (items.all fun item => decide (property item)) = true) : ∀ item ∈ items, property item := by
  simpa using checked

theorem append_lt_append {α : Type} [LT α] {first second : List α} (width : first.length = second.length)
    (less : first < second) (tail tail' : List α) : first ++ tail < second ++ tail' := by
  induction less with
  | nil => simp at width
  | rel before => exact List.Lex.rel before
  | cons _ ih => exact List.Lex.cons (ih (by simpa using width))

theorem map_lt_map {α β : Type} [LT α] [LT β] {f : α → β} {first second : List α} (less : first < second)
    (mono : ∀ one ∈ first, ∀ other ∈ second, one < other → f one < f other) :
    first.map f < second.map f := by
  induction less with
  | nil => exact List.Lex.nil
  | rel before => exact List.Lex.rel (mono _ List.mem_cons_self _ List.mem_cons_self before)
  | cons _ ih =>
    exact List.Lex.cons (ih fun one member other member' =>
      mono one (List.mem_cons_of_mem _ member) other (List.mem_cons_of_mem _ member'))

theorem utf8Bytes_ofList {chars : List Char} (ascii : ∀ char ∈ chars, IsAscii char) :
    utf8Bytes (String.ofList chars) = chars.map fun char => char.val.toUInt8 := by
  unfold utf8Bytes
  rw [String.toByteArray_ofList]
  induction chars with
  | nil => rfl
  | cons char rest ih =>
    have one := String.utf8EncodeChar_eq_singleton (ascii char List.mem_cons_self)
    have later := ih fun other member => ascii other (List.mem_cons_of_mem _ member)
    rw [List.utf8Encode_cons, List.utf8Encode_singleton, one, ByteArray.data_append, Array.toList_append, later]
    simp

theorem val_lt_of_isAscii {char : Char} (ascii : IsAscii char) : char.val.toNat < 128 := by
  unfold IsAscii Char.utf8Size at ascii
  dsimp only at ascii
  split at ascii
  next small => exact Nat.lt_succ_of_le (UInt32.le_iff_toNat_le.mp small)
  next =>
    split at ascii
    · simp at ascii
    · split at ascii <;> simp at ascii

theorem utf8Bytes_lt {first second : List Char} (ascii : ∀ char ∈ first, IsAscii char)
    (ascii' : ∀ char ∈ second, IsAscii char) (less : first < second) :
    utf8Bytes (String.ofList first) < utf8Bytes (String.ofList second) := by
  rw [utf8Bytes_ofList ascii, utf8Bytes_ofList ascii']
  refine map_lt_map less fun one member other member' before => ?_
  have small := val_lt_of_isAscii (ascii one member)
  have small' := val_lt_of_isAscii (ascii' other member')
  have below : one.val.toNat < other.val.toNat := before
  rw [UInt8.lt_iff_toNat_lt, UInt32.toNat_toUInt8, UInt32.toNat_toUInt8]
  omega

end Boom.Foundations
