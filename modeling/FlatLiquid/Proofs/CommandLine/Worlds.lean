import FlatLiquid.CommandLine.Run
import FlatLiquid.Proofs.Json.Spelling

/-!
Contract: hosts that keep their files in a world, and what is relied on about them.

Owns:
- views of a world: the contents of its files, and what its paths stand for;
- the laws of a host: what is read under the path of a file is its content, reading changes no file, a
  write that fails changes none either, and one that succeeds changes the file under its path only;
- actions in a world: what they give, one after the other, and that they keep what is in view.

Does not own: what a particular host is. Nothing here looks into one, and no law speaks of the reader
of TOML documents.
-/

namespace FlatLiquid.CommandLine

/-! ## Views -/

/-- What a path stands for. -/
inductive Spot (Place : Type) where
  /-- A file, which need not be there yet. -/
  | file (place : Place)
  /-- A stream of the run. -/
  | stream (outlet : Outlet)
  /-- Something that keeps nothing of what is written to it. -/
  | sink
deriving DecidableEq

/-- How a world looks: the contents of its files, byte by byte, and what its paths stand for. -/
structure View (World Place : Type) where
  file? : World → Place → Option ByteArray
  spot? : World → String → Option (Spot Place)

variable {World Place α β : Type}

/-- No file was created, changed or removed. -/
def View.SameFiles (view : View World Place) (before after : World) : Prop :=
  ∀ place, view.file? after place = view.file? before place

/-- No file changed, and no path leads elsewhere. -/
structure View.Same (view : View World Place) (before after : World) : Prop where
  files : view.SameFiles before after
  spots : ∀ path, view.spot? after path = view.spot? before path

/-- What comes of a text that is written to a spot. -/
inductive View.Stores (view : View World Place) (text : String) (before : World) :
    Spot Place → Option Outlet → World → Prop where
  | file {place : Place} {after : World} (stored : view.file? after place = some text.toUTF8)
      (others : ∀ other, other ≠ place → view.file? after other = view.file? before other) :
      view.Stores text before (.file place) none after
  | stream {outlet : Outlet} {after : World} (same : view.SameFiles before after) :
      view.Stores text before (.stream outlet) (some outlet) after
  | sink {after : World} (same : view.SameFiles before after) :
      view.Stores text before .sink none after

/-- The laws of a host. What is read may be used up, as input is; the files stay. -/
structure Host.Lawful (host : Host (StateM World)) (view : View World Place) : Prop where
  isThere_same : ∀ path world, view.Same world ((host.isThere path).run world).2
  read_same : ∀ path world, view.Same world ((host.read path).run world).2
  read_content : ∀ {path before text after place},
    (host.read path).run before = (.ok text, after) →
      view.spot? before path = some (.file place) → view.file? before place = some text.toUTF8
  write_failed : ∀ {path text before fault after},
    (host.write path text).run before = (.error fault, after) → view.SameFiles before after
  write_stored : ∀ {path text before outlet? after},
    (host.write path text).run before = (.ok outlet?, after) →
      ∃ spot, view.spot? before path = some spot ∧ view.Stores text before spot outlet? after

namespace View

variable {view : View World Place} {first second third : World}

theorem Same.refl (world : World) : view.Same world world :=
  ⟨fun _ => rfl, fun _ => rfl⟩

theorem Same.trans (one : view.Same first second) (two : view.Same second third) :
    view.Same first third :=
  ⟨fun place => (two.files place).trans (one.files place),
    fun path => (two.spots path).trans (one.spots path)⟩

/-- A text is stored in the file that it is written to and in no other. -/
theorem Stores.file?_eq {text : String} {spot : Spot Place} {outlet? : Option Outlet}
    (stores : view.Stores text first spot outlet? second) (place : Place) :
    (spot = .file place → view.file? second place = some text.toUTF8) ∧
      (spot ≠ .file place → view.file? second place = view.file? first place) := by
  cases stores with
  | @file own _ stored others =>
    constructor
    · intro same
      obtain rfl := Spot.file.inj same
      exact stored
    · intro different
      exact others place fun same => different (congrArg Spot.file same.symm)
  | stream same => exact ⟨nofun, fun _ => same place⟩
  | sink same => exact ⟨nofun, fun _ => same place⟩

end View

/-! ## Actions -/

/-- The action succeeds in a world with a value, and leaves a world. -/
def Gives (action : ExceptT RunFault (StateM World) α) (before : World) (a : α) (after : World) :
    Prop :=
  action.run.run before = (.ok a, after)

variable {action : ExceptT RunFault (StateM World) α}
  {next : α → ExceptT RunFault (StateM World) β} {before after : World}

theorem run_bind (action : ExceptT RunFault (StateM World) α)
    (next : α → ExceptT RunFault (StateM World) β) (before : World) :
    (action >>= next).run.run before =
      match action.run.run before with
      | (.ok a, middle) => (next a).run.run middle
      | (.error fault, middle) => (.error fault, middle) := by
  change (match action.run.run before with
    | (result, middle) => StateT.run (ExceptT.bindCont next result) middle) = _
  cases action.run.run before with
  | mk result middle => cases result <;> rfl

theorem gives_bind_iff {b : β} :
    Gives (action >>= next) before b after ↔
      ∃ a middle, Gives action before a middle ∧ Gives (next a) middle b after := by
  unfold Gives
  rw [run_bind]
  cases action.run.run before with
  | mk result middle =>
    cases result with
    | ok a =>
      constructor
      · intro ran
        exact ⟨a, middle, rfl, ran⟩
      · rintro ⟨_, _, same, ran⟩
        cases same
        exact ran
    | error fault =>
      constructor
      · intro ran
        cases ran
      · rintro ⟨_, _, same, _⟩
        cases same

theorem gives_pure_iff {a b : α} :
    Gives (pure a) before b after ↔ b = a ∧ after = before := by
  change (Except.ok a, before) = (.ok b, after) ↔ _
  rw [Prod.mk.injEq, Except.ok.injEq, eq_comm, @eq_comm _ before]

theorem gives_lift_iff {answer : StateM World α} {a : α} :
    Gives (ExceptT.lift answer) before a after ↔ answer.run before = (a, after) := by
  change (Except.ok (answer.run before).1, (answer.run before).2) = (.ok a, after) ↔ _
  rw [Prod.mk.injEq, Except.ok.injEq, Prod.ext_iff]

theorem mapError_eq_ok_iff {ε δ : Type} {result : Except ε α} {wording : ε → δ} {a : α} :
    result.mapError wording = .ok a ↔ result = .ok a := by
  constructor
  · exact eq_ok_of_mapError_eq_ok
  · rintro rfl
    rfl

theorem gives_orFault_iff {ε : Type} {fault : ε → RunFault} {answer : StateM World (Except ε α)}
    {a : α} :
    Gives (orFault fault answer) before a after ↔ answer.run before = (.ok a, after) := by
  change ((answer.run before).1.mapError fault, (answer.run before).2) = (.ok a, after) ↔ _
  rw [Prod.mk.injEq, mapError_eq_ok_iff, Prod.ext_iff]

theorem gives_orFault_pure_iff {ε : Type} {fault : ε → RunFault} {result : Except ε α} {a : α} :
    Gives (orFault fault (pure result)) before a after ↔ result = .ok a ∧ after = before := by
  rw [gives_orFault_iff]
  change (result, before) = (.ok a, after) ↔ _
  rw [Prod.mk.injEq, @eq_comm _ before]

/-! ## What actions keep -/

/-- Whether it succeeds or not, the action changes nothing that is in view. -/
def View.Keeps (view : View World Place) (action : ExceptT RunFault (StateM World) α) : Prop :=
  ∀ world, view.Same world (action.run.run world).2

namespace View.Keeps

variable {view : View World Place}

theorem bind (keeps : view.Keeps action) (nextKeeps : ∀ a, view.Keeps (next a)) :
    view.Keeps (action >>= next) := by
  intro world
  have first := keeps world
  rw [run_bind]
  cases ran : action.run.run world with
  | mk result middle =>
    rw [ran] at first
    cases result with
    | ok a => exact first.trans (nextKeeps a middle)
    | error fault => exact first

theorem pure (a : α) : view.Keeps (Pure.pure a) :=
  fun world => .refl world

theorem throw (fault : RunFault) :
    view.Keeps (MonadExcept.throw fault : ExceptT RunFault (StateM World) α) :=
  fun world => .refl world

theorem lift {answer : StateM World α} (same : ∀ world, view.Same world (answer.run world).2) :
    view.Keeps (ExceptT.lift answer) :=
  same

theorem orFault {ε : Type} {fault : ε → RunFault} {answer : StateM World (Except ε α)}
    (same : ∀ world, view.Same world (answer.run world).2) :
    view.Keeps (CommandLine.orFault fault answer) :=
  same

theorem orFault_pure {ε : Type} {fault : ε → RunFault} (result : Except ε α) :
    view.Keeps (CommandLine.orFault fault (Pure.pure result)) :=
  fun world => .refl world

end View.Keeps

end FlatLiquid.CommandLine
