import FlatLiquid.Statement.Flattening

/-!
Contract: the spaces of names do not overlap.

Owns:
- the digits of a block's index as the part of its scope that can be read back;
- names of the section, of each block and of the number of blocks, which are pairwise different.

No name is asked to be an identifier: the underscore after the index is enough to tell two blocks
apart, whatever follows it.
-/

namespace FlatLiquid

/-- The digits of a number tell which one it is. -/
theorem toDigits_injective {left right : Nat} (same : Nat.toDigits 10 left = Nat.toDigits 10 right) :
    left = right := by
  have leftValue := Nat.ofDigitChars_ten_toDigits (n := left)
  have rightValue := Nat.ofDigitChars_ten_toDigits (n := right)
  rw [← leftValue, ← rightValue, same]

/-- The digits in front of an underscore are all that can be read in front of it. -/
theorem takeWhile_toDigits (value : Nat) (name : List Char) :
    (Nat.toDigits 10 value ++ '_' :: name).takeWhile Char.isDigit = Nat.toDigits 10 value := by
  rw [List.takeWhile_append_of_pos]
  · simp
  · exact fun c member => Nat.isDigit_of_mem_toDigits (by decide) (by decide) member

/-- A block's scope is its index after the letters that all blocks share. -/
theorem blockScope_eq (index : Nat) :
    blockScope index = ['b', 'l', 'o', 'c', 'k', '_'] ++ Nat.toDigits 10 index := by
  rfl

/-- A block's name, with the index between the letters that all blocks share and the name. -/
theorem scopedName_blockScope (index : Nat) (name : List Char) :
    scopedName (blockScope index) name =
      ['b', 'l', 'o', 'c', 'k', '_'] ++ (Nat.toDigits 10 index ++ '_' :: name) := by
  rfl

/-- A name in the scope of a block tells the block and the name. -/
theorem scopedName_blockScope_injective {i j : Nat} {left right : List Char}
    (same : scopedName (blockScope i) left = scopedName (blockScope j) right) :
    i = j ∧ left = right := by
  rw [scopedName_blockScope, scopedName_blockScope] at same
  have ends := List.append_cancel_left same
  have digits : Nat.toDigits 10 i = Nat.toDigits 10 j := by
    rw [← takeWhile_toDigits i left, ends, takeWhile_toDigits]
  rw [digits] at ends
  exact ⟨toDigits_injective digits, (List.cons.inj (List.append_cancel_left ends)).2⟩

/-- A name in one scope tells the name. -/
theorem scopedName_injective {scope left right : List Char}
    (same : scopedName scope left = scopedName scope right) : left = right :=
  (List.cons.inj (List.append_cancel_left same)).2

/-- The number of blocks is no variable of a block. -/
theorem scopedName_blockScope_ne_blockCountName (index : Nat) (name : List Char) :
    scopedName (blockScope index) name ≠ blockCountName := by
  have count : blockCountName = ['b', 'l', 'o', 'c', 'k', 's'] ++ "_count".toList := rfl
  intro same
  rw [scopedName_blockScope, count] at same
  have beginnings := List.append_inj_left same rfl
  exact absurd beginnings (by decide)

end FlatLiquid
