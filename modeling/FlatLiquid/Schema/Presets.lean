import FlatLiquid.Schema.Defaults

/-!
Contract: the blocks of a preset.

Owns:
- the choice of the preset;
- the block instances of a preset: their ids, their values, and the limit on how many there are of a
  type.
-/

namespace FlatLiquid

/-- The preset at an index. A schema without presets offers the content it has by default. -/
def Schema.preset? (schema : Schema) (index : Nat) : Option Preset :=
  if schema.presets.isEmpty then schema.default else schema.presets[index]?

/-- The values of a block: those that its type starts with, overridden by those of the preset. -/
def Schema.presetValues (schema : Schema) (block : PresetBlock) : SettingValues :=
  let declared := ((schema.blockType? block.type).map fun type => initialValues type.settings).getD
    .empty
  declared.insertAll block.settings.entries

/-- There is no room for another block of a type after so many. -/
def Schema.isFull (schema : Schema) (type : String) (count : Nat) : Bool :=
  match (schema.blockType? type).bind BlockType.limit with
  | some limit => limit ≤ count
  | none => false

/-- The instances of blocks after blocks of the types in `kept`. An instance is numbered among those
of its type. The number is counted without a bound; a count in 32 bits is the same as long as a preset
has fewer than 2^32 blocks (`Schema.count_instances_lt`). -/
def Schema.instances (schema : Schema) (kept : List String) :
    List PresetBlock → List BlockInstance
  | [] => []
  | block :: rest =>
    let count := kept.count block.type
    if schema.isFull block.type count then schema.instances kept rest
    else
      { id := s!"{block.type}-{count + 1}"
        type := block.type
        settings := schema.presetValues block } ::
        schema.instances (block.type :: kept) rest

/-- The block instances of the preset at an index. -/
def Schema.presetBlocks (schema : Schema) (index : Nat) : List BlockInstance :=
  match schema.preset? index with
  | none => []
  | some preset => schema.instances [] preset.blocks

end FlatLiquid
