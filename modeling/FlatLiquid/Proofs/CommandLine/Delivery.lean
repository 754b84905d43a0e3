import FlatLiquid.Proofs.CommandLine.Directory
import FlatLiquid.Proofs.CommandLine.Products

/-!
Contract: what a run leaves in the files of its host and on the standard output.

Owns:
- what a text comes to that is delivered;
- the outcome of a delivery, and its law;
- when a run succeeds;
- the law of a run on any lawful host: it fails and leaves all files as they were, or it delivers one
  text to one spot.

A path may stand for a stream of the run. A text that is written to such a path shows on the stream,
without a line end after it.
-/

namespace FlatLiquid.CommandLine

variable {World Place : Type}

/-! ## Delivery -/

section Delivery

variable {host : Host (StateM World)} {view : View World Place}

/-- What a text comes to that is delivered to a target. Without a target it is printed with a line
end, and all files stay as they were. With one, nothing changes but the file that the target stands
for, and nothing is printed, unless the target is the standard output itself: then the text alone
is. -/
def View.Delivers (view : View World Place) (text : String) (before : World) (output : String)
    (after : World) : Option String → Prop
  | none => output = text ++ "\n" ∧ view.SameFiles before after
  | some path => ∃ spot, view.spot? before path = some spot ∧
    (spot = .stream .output → output = text) ∧ (spot ≠ .stream .output → output = "") ∧
    ∀ place, (spot = .file place → view.file? after place = some text.toUTF8) ∧
      (spot ≠ .file place → view.file? after place = view.file? before place)

/-- What is delivered after a stretch in which nothing changed is delivered from its start. -/
theorem View.Delivers.of_same {text output : String} {target : Option String}
    {first second third : World} (same : view.Same first second)
    (delivers : view.Delivers text second output third target) :
    view.Delivers text first output third target := by
  cases target with
  | none =>
    obtain ⟨printed, unchanged⟩ := delivers
    exact ⟨printed, fun place => (unchanged place).trans (same.files place)⟩
  | some path =>
    obtain ⟨spot, reached, printed, silent, stored⟩ := delivers
    refine ⟨spot, (same.spots path).symm.trans reached, printed, silent, fun place => ?_⟩
    obtain ⟨own, others⟩ := stored place
    exact ⟨own, fun different => (others different).trans (same.files place)⟩

/-- The outcome of a run whose text has been written. -/
def Product.delivered (product : Product) : Option Outlet → Outcome
  | none => ⟨0, "", lineText product.notes⟩
  | some .output => ⟨0, product.text, lineText product.notes⟩
  | some .errors => ⟨0, "", lineText product.notes ++ product.text⟩

/-- The outcome of a run whose text could not be written. -/
def Product.undelivered (product : Product) (path : String) (fault : FileFault) : Outcome :=
  ⟨1, "", lineText product.notes ++ (RunFault.during ("writing " ++ path) fault.text).text⟩

theorem Product.code_delivered (product : Product) (outlet? : Option Outlet) :
    (product.delivered outlet?).code = 0 := by
  cases outlet? with
  | none => rfl
  | some outlet => cases outlet <;> rfl

theorem run_deliver_none {product : Product} (untargeted : product.target = none) (world : World) :
    (product.deliver host).run world =
      (⟨0, product.text ++ "\n", lineText product.notes⟩, world) := by
  rw [Product.deliver, untargeted]
  rfl

theorem run_deliver_some {product : Product} {path : String} (targeted : product.target = some path)
    (world : World) :
    (product.deliver host).run world =
      match (host.write path product.text).run world with
      | (.ok outlet?, after) => (product.delivered outlet?, after)
      | (.error fault, after) => (product.undelivered path fault, after) := by
  rw [Product.deliver, targeted]
  simp only [StateT.run_bind]
  cases (host.write path product.text).run world with
  | mk answered after =>
    cases answered with
    | error fault => rfl
    | ok outlet? =>
      cases outlet? with
      | none => rfl
      | some outlet => cases outlet <;> rfl

theorem run_command (command : Command) (world : World) :
    (command.run host).run world =
      match (command.product host).run.run world with
      | (.ok product, middle) => (product.deliver host).run middle
      | (.error fault, middle) => (⟨1, "", fault.text⟩, middle) := by
  rw [Command.run]
  simp only [StateT.run_bind]
  cases (command.product host).run.run world with
  | mk result middle => cases result <;> rfl

/-- What shows on the standard output after a text has been stored at a spot. -/
theorem output_delivered {product : Product} {before after : World} {spot : Spot Place}
    {outlet? : Option Outlet}
    (stores : view.Stores product.text before spot outlet? after) :
    (spot = .stream .output → (product.delivered outlet?).output = product.text) ∧
      (spot ≠ .stream .output → (product.delivered outlet?).output = "") := by
  cases stores with
  | file stored others => exact ⟨nofun, fun _ => rfl⟩
  | sink same => exact ⟨nofun, fun _ => rfl⟩
  | @stream outlet _ same =>
    cases outlet with
    | output => exact ⟨fun _ => rfl, fun other => absurd rfl other⟩
    | errors => exact ⟨nofun, fun _ => rfl⟩

/-- A delivery that fails prints nothing and changes no file. One that succeeds delivers the text. -/
theorem deliver_delivers_or_fails (lawful : host.Lawful view) (product : Product) (before : World) :
    let ended := (product.deliver host).run before
    (ended.1.code ≠ 0 → ended.1.output = "" ∧ view.SameFiles before ended.2) ∧
    (ended.1.code = 0 →
      view.Delivers product.text before ended.1.output ended.2 product.target) := by
  intro ended
  cases targeted : product.target with
  | none =>
    have isEnded : ended = _ := run_deliver_none targeted before
    rw [isEnded]
    exact ⟨fun nonzero => absurd rfl nonzero, fun _ => ⟨rfl, fun _ => rfl⟩⟩
  | some path =>
    have isEnded : ended = _ := run_deliver_some targeted before
    rw [isEnded]
    cases answered : (host.write path product.text).run before with
    | mk answer after =>
      cases answer with
      | error fault =>
        exact ⟨fun _ => ⟨rfl, lawful.write_failed answered⟩, fun zero => (nomatch zero)⟩
      | ok outlet? =>
        obtain ⟨spot, reached, stores⟩ := lawful.write_stored answered
        obtain ⟨printed, silent⟩ := output_delivered stores
        exact ⟨fun nonzero => absurd (product.code_delivered outlet?) nonzero,
          fun _ => ⟨spot, reached, printed, silent, stores.file?_eq⟩⟩

end Delivery

/-! ## Runs -/

section Run

variable {host : Host (StateM World)} {view : View World Place} {arguments : List String}
  {command : Command}

/-- The target takes the text: it can be written there. Without a target nothing is written. -/
def Host.Takes (host : Host (StateM World)) (text : String) (before : World)
    (target : Option String) : Prop :=
  ∀ path, target = some path →
    ∃ outlet? after, (host.write path text).run before = (.ok outlet?, after)

/-- A run succeeds exactly if its command makes a text that its target takes. -/
theorem code_run_eq_zero_iff (lawful : host.Lawful view)
    (accepted : Command.ofArguments? arguments = some command) (world : World) :
    ((run host arguments).run world).1.code = 0 ↔
      ∃ text read, host.Makes view command world text read ∧
        host.Takes text read command.target? := by
  rw [run, accepted]
  simp only [run_command]
  constructor
  · intro succeeded
    cases made : (command.product host).run.run world with
    | mk result read =>
      rw [made] at succeeded
      cases result with
      | error fault => contradiction
      | ok product =>
        obtain ⟨makes, target⟩ := makes_of_gives lawful made
        refine ⟨product.text, read, makes, fun path targeted => ?_⟩
        simp only [run_deliver_some (target.trans targeted)] at succeeded
        cases answered : (host.write path product.text).run read with
        | mk answer after =>
          rw [answered] at succeeded
          cases answer with
          | error fault => contradiction
          | ok outlet? => exact ⟨outlet?, after, rfl⟩
  · rintro ⟨text, read, makes, writable⟩
    obtain ⟨notes, made⟩ := exists_product_of_makes lawful makes
    rw [made]
    cases targeted : command.target? with
    | none => simp only [run_deliver_none]
    | some path =>
      obtain ⟨outlet?, after, answered⟩ := writable path targeted
      have delivers := @run_deliver_some World host ⟨text, some path, notes⟩ path rfl read
      simp only [delivers, answered, Product.code_delivered]

/-- A run succeeds exactly if its command makes a text that its target takes. A run that fails prints
nothing to the standard output and leaves all files as they were. A run that succeeds delivers the
text that it has made: to the file that the command names, or else to the standard output. -/
theorem run_delivers_or_fails (lawful : host.Lawful view)
    (accepted : Command.ofArguments? arguments = some command) (world : World) :
    let ended := (run host arguments).run world
    (ended.1.code = 0 ↔ ∃ text read, host.Makes view command world text read ∧
      host.Takes text read command.target?) ∧
    (ended.1.code ≠ 0 → ended.1.output = "" ∧ view.SameFiles world ended.2) ∧
    (ended.1.code = 0 → ∃ text read, host.Makes view command world text read ∧
      view.Delivers text world ended.1.output ended.2 command.target?) := by
  intro ended
  refine ⟨code_run_eq_zero_iff lawful accepted world, ?_⟩
  have isEnded : ended = (command.run host).run world := by simp only [ended, run, accepted]
  have same := keeps_product lawful command world
  rw [run_command] at isEnded
  rw [isEnded]
  cases made : (command.product host).run.run world with
  | mk result read =>
    rw [made] at same
    cases result with
    | error fault => exact ⟨fun _ => ⟨rfl, same.files⟩, fun zero => (nomatch zero)⟩
    | ok product =>
      obtain ⟨makes, target⟩ := makes_of_gives lawful made
      obtain ⟨fails, delivers⟩ := deliver_delivers_or_fails lawful product read
      constructor
      · intro nonzero
        obtain ⟨silent, unchanged⟩ := fails nonzero
        exact ⟨silent, fun place => (unchanged place).trans (same.files place)⟩
      · intro zero
        exact ⟨product.text, read, makes, target ▸ (delivers zero).of_same same⟩

/-- A text gets its default in the file of the template, which is told from the root. The values are
in a file beside the directory that the run works in, and the options in a file inside of it. -/
theorem run_delivers_or_fails_of_greeting :
    let arguments := ["defaults", "/site/t.liquid", "--values", "../values/v.json", "--write"]
    let command := Command.defaults "/site/t.liquid" "../values/v.json" true
    let template := "\x7b% schema %\x7d\x7b\"settings\":[\x7b\"id\":\"t\"\x7d]\x7d\x7b% endschema %\x7d"
    let files : Directory := ⟨[(["", "site", "t.liquid"], template),
      (["", "tmp", "values", "v.json"], "\x7b\"t\":\"Hi\"\x7d"),
      (["sectional.toml"], "[preview]\nmax_payload_bytes = 64 # enough\n")]⟩
    let view := Directory.view .sample
    ∃ outcome after, (run Directory.access arguments).run files = (outcome, after) ∧
      Command.ofArguments? arguments = some command ∧ outcome.code = 0 ∧ outcome.output = "" ∧
      ∃ text read, Directory.access.Makes view command files text read ∧
        view.file? after ["", "site", "t.liquid"] = some text.toUTF8 ∧
        view.file? after ["", "tmp", "values", "v.json"] =
          view.file? files ["", "tmp", "values", "v.json"] := by
  intro arguments command template files view
  have accepted : Command.ofArguments? arguments = some command := by rfl
  have succeeded : ((run Directory.access arguments).run files).1.code = 0 := by decide +kernel
  have leads : view.spot? files "/site/t.liquid" = some (.file ["", "site", "t.liquid"]) := by
    decide +kernel
  obtain ⟨-, -, delivers⟩ :=
    run_delivers_or_fails (Directory.lawful_access .sample) accepted files
  obtain ⟨text, read, makes, spot, reached, -, silent, stored⟩ := delivers succeeded
  obtain rfl := Option.some.inj (leads.symm.trans reached)
  generalize (run Directory.access arguments).run files = ended at *
  obtain ⟨outcome, after⟩ := ended
  exact ⟨outcome, after, rfl, accepted, succeeded, silent nofun, text, read, makes, (stored _).1 rfl,
    (stored _).2 (by decide)⟩

/-- A preview that is written to the standard output shows there, though it goes to a file. -/
theorem run_shows_output_file :
    let arguments := ["preview", "t.liquid", "--output", "/dev/stdout"]
    let files : Directory := ⟨[(["t.liquid"], "")]⟩
    let ended := (run Directory.access arguments).run files
    (Command.ofArguments? arguments).bind Command.target? = some "/dev/stdout" ∧
      ended.1.code = 0 ∧ ended.1.output ≠ "" := by
  decide +kernel

end Run

end FlatLiquid.CommandLine
