import FlatLiquid.Json.Fault
import FlatLiquid.Proofs.Json.Extent
import FlatLiquid.Proofs.Text.Lines

/-!
Contract: where the position of a byte points in a text.

Owns:
- positions behind a text that has been read, and what one more character makes of them;
- the place that a position stands for: whole lines before it, as many as come before its line, and a
  column within the line that starts behind them;
- the position of every number of bytes, and the line of it among the lines of the text.

Key step: behind every text that has been read, the line is counted by the line feeds and the column by
the bytes behind the last of them. A line feed only adds to the whole lines.
-/

namespace FlatLiquid.Json

open Text (IsWholeLines lines)

/-! ## Behind a text -/

/-- The position behind a text: on the line that starts behind its whole lines, after the bytes that
the text has on that line. -/
def Position.IsBehind (position : Position) (seen : List Char) : Prop :=
  ∃ earlier line, seen = earlier ++ line ∧ IsWholeLines earlier ∧ '\n' ∉ line ∧
    position = ⟨earlier.count '\n' + 1, byteSize line⟩

theorem Position.isBehind_nil : (⟨1, 0⟩ : Position).IsBehind [] := by
  refine ⟨[], [], rfl, ?_, List.not_mem_nil, rfl⟩
  intro last ends
  contradiction

/-- The position behind one more character. -/
def Position.after (position : Position) (c : Char) : Position :=
  if c == '\n' then ⟨position.line + 1, 0⟩
  else { position with column := position.column + c.utf8Size }

theorem Position.IsBehind.after {position : Position} {seen : List Char}
    (behind : position.IsBehind seen) (c : Char) : (position.after c).IsBehind (seen ++ [c]) := by
  obtain ⟨earlier, line, rfl, whole, free, rfl⟩ := behind
  by_cases feed : c = '\n'
  · subst feed
    refine ⟨earlier ++ line ++ ['\n'], [], (List.append_nil _).symm, ?_, List.not_mem_nil, ?_⟩
    · intro last ends
      rw [List.getLast?_concat] at ends
      exact (Option.some.inj ends).symm
    · rw [List.count_append, List.count_append, List.count_eq_zero.mpr free]
      rfl
  · refine ⟨earlier, line ++ [c], List.append_assoc _ _ _, whole, ?_, ?_⟩
    · intro member
      rcases List.mem_append.mp member with within | last
      · exact free within
      · exact feed (List.mem_singleton.mp last).symm
    · have unlike : ¬ (c == '\n') = true := fun same => feed (beq_iff_eq.mp same)
      rw [Position.after, if_neg unlike, byteSize_append]
      rfl

theorem Position.advance_cons (position : Position) (c : Char) (rest : List Char) {bytes : Nat}
    (enough : c.utf8Size ≤ bytes) :
    position.advance (c :: rest) bytes = (position.after c).advance rest (bytes - c.utf8Size) := by
  have positive := c.utf8Size_pos
  obtain ⟨more, rfl⟩ := Nat.exists_eq_succ_of_ne_zero (by omega : bytes ≠ 0)
  rw [Position.advance, if_neg (Nat.not_lt.mpr enough)]
  · rfl
  · exact Nat.succ_ne_zero more

/-- Going on over a number of bytes leads behind some characters and into the bytes of the next one. -/
theorem Position.IsBehind.advance {position : Position} {seen : List Char}
    (behind : position.IsBehind seen) (text : List Char) (bytes : Nat) :
    ∃ front rest reached extra, text = front ++ rest ∧ Position.IsBehind reached (seen ++ front) ∧
      position.advance text bytes = { reached with column := reached.column + extra } ∧
      byteSize front + extra = min bytes (byteSize text) ∧
      (extra = 0 ∨ ∃ c ∈ rest.head?, extra < c.utf8Size) := by
  induction text generalizing position seen bytes with
  | nil =>
    refine ⟨[], [], position, 0, rfl, (List.append_nil seen).symm ▸ behind, ?_, ?_, .inl rfl⟩
    · cases bytes <;> rfl
    · exact (Nat.min_zero bytes).symm
  | cons c rest inductionHypothesis =>
    by_cases enough : c.utf8Size ≤ bytes
    · obtain ⟨front, after, reached, extra, rfl, isBehind, same, size, within⟩ :=
        inductionHypothesis (behind.after c) (bytes - c.utf8Size)
      rw [List.append_assoc, List.singleton_append] at isBehind
      refine ⟨c :: front, after, reached, extra, rfl, isBehind, ?_, ?_, within⟩
      · rw [Position.advance_cons position c _ enough, same]
      · rw [byteSize_cons, byteSize_cons, Nat.add_assoc, size, ← Nat.add_min_add_left,
          Nat.add_sub_cancel' enough]
    · have stays : position.advance (c :: rest) bytes =
          { position with column := position.column + bytes } := by
        cases bytes with
        | zero => rfl
        | succ bytes =>
          rw [Position.advance, if_pos (Nat.lt_of_not_le enough)]
          exact Nat.succ_ne_zero bytes
      refine ⟨[], c :: rest, position, bytes, rfl, (List.append_nil seen).symm ▸ behind, stays, ?_,
        .inr ⟨c, rfl, Nat.lt_of_not_le enough⟩⟩
      rw [byteSize_nil, byteSize_cons]
      omega

/-! ## Places in a text -/

/-- The bytes of a text before its first line feed. -/
def firstLineSize (text : List Char) : Nat :=
  byteSize (text.takeWhile (· != '\n'))

/-- The position stands for the place after a number of bytes of a text, or for the end of the text if
it has not that many: the text before the position's line consists of whole lines, and the position
is in the line that starts behind them. -/
def Position.IsPlaceOf (position : Position) (text : List Char) (bytes : Nat) : Prop :=
  ∃ earlier later, text = earlier ++ later ∧ IsWholeLines earlier ∧
    position.line = earlier.count '\n' + 1 ∧
    byteSize earlier + position.column = min bytes (byteSize text) ∧
    position.column ≤ firstLineSize later

theorem isPlaceOf_ofOffset (text : List Char) (bytes : Nat) :
    (Position.ofOffset text bytes).IsPlaceOf text bytes := by
  obtain ⟨front, rest, reached, extra, rfl, behind, same, size, within⟩ :=
    Position.isBehind_nil.advance text bytes
  obtain ⟨earlier, line, rfl, whole, free, rfl⟩ := behind
  rw [Position.ofOffset, same]
  refine ⟨earlier, line ++ rest, List.append_assoc _ _ _, whole, rfl, ?_, ?_⟩
  · rw [byteSize_append] at size
    rw [← size]
    exact (Nat.add_assoc _ _ _).symm
  · have unlike : ∀ c ∈ line, (c != '\n') = true := by
      intro c member
      rw [bne_iff_ne]
      rintro rfl
      exact free member
    rw [firstLineSize, List.takeWhile_append_of_pos unlike, byteSize_append]
    apply Nat.add_le_add_left
    rcases within with rfl | ⟨c, first, short⟩
    · exact Nat.zero_le _
    · obtain ⟨more, rfl⟩ := List.head?_eq_some_iff.mp first
      by_cases feed : c = '\n'
      · -- a line feed has one byte only, so that a place in it is a place before it
        subst feed
        rw [Nat.lt_one_iff.mp short]
        exact Nat.zero_le _
      · have goesOn : (c != '\n') = true := bne_iff_ne.mpr feed
        rw [List.takeWhile_cons, if_pos goesOn, byteSize_cons]
        omega

/-- The line of a place is one of the lines of a text, unless the place is at the end of whole lines. -/
theorem Position.IsPlaceOf.line_le {position : Position} {text : List Char} {bytes : Nat}
    (place : position.IsPlaceOf text bytes) (unended : ¬ IsWholeLines text) :
    1 ≤ position.line ∧ position.line ≤ (lines text).length := by
  obtain ⟨earlier, later, rfl, whole, line, -, -⟩ := place
  have nonempty : later ≠ [] := by
    rintro rfl
    exact unended (by rwa [List.append_nil])
  have positive := List.length_pos_iff.mpr (Text.lines_ne_nil nonempty)
  rw [whole.lines_append, List.length_append, whole.length_lines, line]
  omega

end FlatLiquid.Json
