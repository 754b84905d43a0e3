import FlatLiquid.Proofs.Json.Spelling

/-!
Contract: what stands between the items of an array in the text that it was scanned from.

Owns:
- the link from an item to what follows it: a comma before another item, the bracket after the last;
- the links of every array that the scanner makes.

The reader of a structure that is written as an array looks at the text after the last item, so two
arrays with the same items are read alike only if they are linked.
-/

namespace FlatLiquid.Json

/-- What follows an item, given the items after it and the end of the array. -/
def FollowedBy (ending : Ending) (rest : List Node) (after : Cursor) : Prop :=
  match rest, ending with
  | _ :: _, _ => after.skipBlanks.rest.head? = some ','
  | [], .closed _ => after.skipBlanks.rest.head? = some ']'
  | [], .broken _ => True

mutual

/-- The items of all arrays in a node are linked. -/
def Node.Linked : Node → Prop
  | .array _ items ending => LinkedItems ending items
  | .object _ fields _ => LinkedFields fields
  | _ => True

/-- Each item is linked to what follows it. -/
def LinkedItems (ending : Ending) : List Node → Prop
  | [] => True
  | item :: rest =>
    item.Linked ∧ (∀ after, item.finish = .ok after → FollowedBy ending rest after) ∧
      LinkedItems ending rest

/-- The values of fields are linked. -/
def LinkedFields : List (Key × Node) → Prop
  | [] => True
  | (_, node) :: rest => node.Linked ∧ LinkedFields rest

end

theorem scanItemSeparator_comma {after next : Cursor}
    (separator : scanItemSeparator after = .comma next) :
    after.skipBlanks.rest.head? = some ',' := by
  unfold scanItemSeparator at separator
  simp only at separator
  split at separator
  · contradiction
  · contradiction
  · next shape => rw [shape]; rfl
  · contradiction

theorem scanItemSeparator_closed {after stop : Cursor}
    (separator : scanItemSeparator after = .ending (.closed stop)) :
    after.skipBlanks.rest.head? = some ']' := by
  unfold scanItemSeparator at separator
  simp only at separator
  split at separator
  · exact nomatch Separator.ending.inj separator
  · next shape => rw [shape]; rfl
  · split at separator
    · exact nomatch Separator.ending.inj separator
    · exact nomatch Separator.ending.inj separator
    · contradiction
  · exact nomatch Separator.ending.inj separator

/-- Only a scan that stops has no items. -/
theorem broken_of_no_items {fuel : Nat} {cursor : Cursor} (none : (scanItems fuel cursor).1 = []) :
    ∃ stop, (scanItems fuel cursor).2 = .broken stop := by
  cases fuel with
  | zero => exact ⟨_, rfl⟩
  | succ fuel =>
    rw [scanItems] at none
    split at none
    · contradiction
    · split at none <;> contradiction

section Step

variable {fuel : Nat}

theorem linked_scanValue_succ
    (ofItems : ∀ cursor, LinkedItems (scanItems fuel cursor).2 (scanItems fuel cursor).1)
    (ofFields : ∀ cursor, LinkedFields (scanFields fuel cursor).1) (cursor : Cursor) :
    (scanValue (fuel + 1) cursor).Linked := by
  rw [scanValue]
  split
  · trivial
  · split <;> trivial
  · split <;> trivial
  · split <;> trivial
  · split <;> trivial
  · simp only
    split
    · trivial
    · trivial
    · exact ofItems _
  · simp only
    split
    · trivial
    · trivial
    · exact ofFields _
    · trivial
  · split
    · split <;> trivial
    · trivial

theorem followedBy_of_ending {after : Cursor} {ending : Ending}
    (separator : scanItemSeparator after = .ending ending) : FollowedBy ending [] after := by
  cases ending with
  | closed stop => exact scanItemSeparator_closed separator
  | broken stop => trivial

/-- After a comma there is another item, or the scan stops. -/
theorem followedBy_of_comma {after following : Cursor}
    (separator : scanItemSeparator after = .comma following) :
    FollowedBy (scanItems fuel following).2 (scanItems fuel following).1 after := by
  cases items : (scanItems fuel following).1 with
  | nil =>
    obtain ⟨stop, broken⟩ := broken_of_no_items items
    rw [broken]
    trivial
  | cons item rest => exact scanItemSeparator_comma separator

/-- A node finishes in one place. -/
theorem FollowedBy.of_finish {node : Node} {after : Cursor} {ending : Ending} {rest : List Node}
    (followed : FollowedBy ending rest after) (finished : node.finish = .ok after) :
    ∀ last, node.finish = .ok last → FollowedBy ending rest last := by
  intro last finishedAt
  rw [finished] at finishedAt
  obtain rfl := Except.ok.inj finishedAt
  exact followed

theorem linked_scanItems_succ (ofValue : ∀ cursor, (scanValue fuel cursor).Linked)
    (ofItems : ∀ cursor, LinkedItems (scanItems fuel cursor).2 (scanItems fuel cursor).1)
    (cursor : Cursor) :
    LinkedItems (scanItems (fuel + 1) cursor).2 (scanItems (fuel + 1) cursor).1 := by
  rw [scanItems]
  split
  · next stop broken =>
    refine ⟨ofValue cursor, ?_, trivial⟩
    intro after finished
    rw [broken] at finished
    contradiction
  · next after finished =>
    split
    · next ending separator =>
      exact ⟨ofValue cursor, (followedBy_of_ending separator).of_finish finished, trivial⟩
    · next following separator =>
      exact ⟨ofValue cursor, (followedBy_of_comma separator).of_finish finished, ofItems following⟩

theorem linked_scanFields_succ (ofValue : ∀ cursor, (scanValue fuel cursor).Linked)
    (ofFields : ∀ cursor, LinkedFields (scanFields fuel cursor).1) (cursor : Cursor) :
    LinkedFields (scanFields (fuel + 1) cursor).1 := by
  rw [scanFields]
  split
  · trivial
  · simp only
    split
    · exact ⟨trivial, trivial⟩
    · split
      · exact ⟨ofValue _, trivial⟩
      · split
        · exact ⟨ofValue _, trivial⟩
        · exact ⟨ofValue _, ofFields _⟩

end Step

/-- Everything that is scanned with so much fuel is linked. -/
theorem linked_scan (fuel : Nat) :
    (∀ cursor, (scanValue fuel cursor).Linked) ∧
      (∀ cursor, LinkedItems (scanItems fuel cursor).2 (scanItems fuel cursor).1) ∧
      (∀ cursor, LinkedFields (scanFields fuel cursor).1) := by
  induction fuel with
  | zero => exact ⟨fun _ => trivial, fun _ => trivial, fun _ => trivial⟩
  | succ fuel inductionHypothesis =>
    obtain ⟨ofValue, ofItems, ofFields⟩ := inductionHypothesis
    exact ⟨linked_scanValue_succ ofItems ofFields, linked_scanItems_succ ofValue ofItems,
      linked_scanFields_succ ofValue ofFields⟩

end FlatLiquid.Json
