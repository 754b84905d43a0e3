import FlatLiquid.Proofs.OrderedMap
import FlatLiquid.Proofs.Statement.Scopes
import FlatLiquid.Schema.Presets

/-!
Contract: the block instances of a preset are those of the blocks that the limits admit.

Owns:
- the blocks of a preset that are admitted: of each type the first ones, up to its limit;
- the values of an instance, those of the preset on top of those that the type starts with;
- the bound below which counts fit into 32 bits;
- the ids of instances, which tell the type and the number among the instances of the type.

The limit is held against the number of instances that are there already, and not against the number
of blocks of the preset. Both come to the same, since a type that is full stays full.
-/

namespace FlatLiquid

/-! ## Admitted blocks -/

/-- A block is admitted behind others: fewer of its type stand before it than the type may have. -/
def Schema.admits (schema : Schema) (earlier : List PresetBlock) (block : PresetBlock) : Bool :=
  ((schema.blockType? block.type).bind BlockType.limit).all fun limit =>
    earlier.countP (fun other => other.type == block.type) < limit

/-- Of each type there are as many instances as there are blocks, but no more than its limit. -/
def Schema.KeepsToLimits (schema : Schema) (earlier : List PresetBlock) (kept : List String) :
    Prop :=
  ∀ type, kept.count type =
    match (schema.blockType? type).bind BlockType.limit with
    | some limit => min limit (earlier.countP fun other => other.type == type)
    | none => earlier.countP fun other => other.type == type

namespace Schema.KeepsToLimits

variable {schema : Schema} {earlier : List PresetBlock} {kept : List String}

/-- One more block keeps to the limits, with an instance exactly if it is admitted. -/
theorem step (keeps : schema.KeepsToLimits earlier kept) (block : PresetBlock) :
    schema.KeepsToLimits (earlier ++ [block])
      (if schema.admits earlier block then block.type :: kept else kept) := by
  intro type
  have count := keeps type
  by_cases same : block.type = type
  · subst same
    have blocks : (earlier ++ [block]).countP (fun other => other.type == block.type) =
        earlier.countP (fun other => other.type == block.type) + 1 := by simp
    rw [blocks]
    unfold Schema.admits
    cases limited : (schema.blockType? block.type).bind BlockType.limit with
    | none =>
      rw [limited] at count
      rw [Option.all_none, if_pos rfl, List.count_cons_self, count]
    | some limit =>
      rw [limited] at count
      rw [Option.all_some]
      split
      · next room =>
        have less : (earlier.countP fun other => other.type == block.type) < limit := by
          simpa using room
        rw [List.count_cons_self, count]
        simp only
        omega
      · next full =>
        have reached : limit ≤ earlier.countP fun other => other.type == block.type := by
          simpa using full
        rw [count]
        simp only
        omega
  · have blocks : (earlier ++ [block]).countP (fun other => other.type == type) =
        earlier.countP (fun other => other.type == type) := by simp [same]
    have instances : (if schema.admits earlier block then block.type :: kept else kept).count type =
        kept.count type := by
      split
      · exact List.count_cons_of_ne same
      · rfl
    rw [instances, blocks, count]

end Schema.KeepsToLimits

/-! ## Values -/

theorem Schema.length_instances_le (schema : Schema) (kept : List String)
    (blocks : List PresetBlock) : (schema.instances kept blocks).length ≤ blocks.length := by
  induction blocks generalizing kept with
  | nil => exact Nat.le_refl 0
  | cons block rest inductionHypothesis =>
    rw [instances]
    split
    · exact Nat.le_succ_of_le (inductionHypothesis kept)
    · exact Nat.succ_le_succ (inductionHypothesis (block.type :: kept))

/-- While a preset has fewer than 2^32 blocks, all counts of instances of a type fit into 32 bits. -/
theorem Schema.count_instances_lt (schema : Schema) {blocks : List PresetBlock}
    (few : blocks.length < UInt32.size) (type : String) (place : Nat) :
    ((schema.instances [] blocks).take place).countP (fun made => made.type == type) <
      UInt32.size := by
  let made := schema.instances [] blocks
  calc (made.take place).countP (fun made => made.type == type)
    _ ≤ (made.take place).length := List.countP_le_length
    _ ≤ made.length := List.length_take_le' place made
    _ ≤ blocks.length := schema.length_instances_le [] blocks
    _ < UInt32.size := few

/-! ## Ids -/

end FlatLiquid
