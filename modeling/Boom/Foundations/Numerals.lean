import Mathlib.Data.Nat.Cast.Defs

/-! # Numerals

Angles, epochs and magnitudes are written with a few numerals. That each of them is at least
two has a name here, which the definitions that use the numeral share. -/

namespace Boom.Foundations

instance atLeastTwo_two : Nat.AtLeastTwo 2 := ⟨by decide⟩
instance atLeastTwo_three : Nat.AtLeastTwo 3 := ⟨by decide⟩
instance atLeastTwo_five : Nat.AtLeastTwo 5 := ⟨by decide⟩
instance atLeastTwo_ten : Nat.AtLeastTwo 10 := ⟨by decide⟩
instance atLeastTwo_fifteen : Nat.AtLeastTwo 15 := ⟨by decide⟩
instance atLeastTwo_twenty : Nat.AtLeastTwo 20 := ⟨by decide⟩
instance atLeastTwo_day : Nat.AtLeastTwo 24 := ⟨by decide⟩
instance atLeastTwo_twentyFive : Nat.AtLeastTwo 25 := ⟨by decide⟩
instance atLeastTwo_rightAngle : Nat.AtLeastTwo 90 := ⟨by decide⟩
instance atLeastTwo_hundred : Nat.AtLeastTwo 100 := ⟨by decide⟩
instance atLeastTwo_halfTurn : Nat.AtLeastTwo 180 := ⟨by decide⟩
instance atLeastTwo_turn : Nat.AtLeastTwo 360 := ⟨by decide⟩
instance atLeastTwo_thousand : Nat.AtLeastTwo 1000 := ⟨by decide⟩
instance atLeastTwo_degree : Nat.AtLeastTwo 3600 := ⟨by decide⟩

end Boom.Foundations
