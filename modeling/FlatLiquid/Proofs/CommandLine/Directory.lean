import FlatLiquid.CommandLine.Directory
import FlatLiquid.Proofs.CommandLine.Worlds

/-!
Contract: the files of a system as a value are a lawful host.

Owns:
- the view of the files: their contents at their addresses, and what paths stand for;
- what a write changes: the file at one address, or nothing;
- the laws of a host, whatever the surroundings are.

A read looks its path up as a write does, but for a slash at the end, with which no file is written.
This is why a text that is read is the content of the file that the path stands for.
-/

namespace FlatLiquid.CommandLine

namespace Directory

variable {around : Surroundings} {directory : Directory around}

/-- What a path stands for. A directory is nothing that is written to. -/
def spot? (directory : Directory around) (path : String) : Option (Spot Address) :=
  match directory.resolveTarget path with
  | .error _ => none
  | .ok place =>
    match directory.node? place with
    | some (.directory _) => none
    | some (.device device) => some (device.outlet.elim .sink .stream)
    | some (.file _) => some (.file (around.address place))
    | none => some (.file (around.address place))

def view (around : Surroundings) : View (Directory around) Address where
  file? := fun directory address => (directory.file? address).map String.toUTF8
  spot? := spot?

/-! ## Reading -/

/-- Where a file is written, it is also read. -/
theorem resolve_of_resolveTarget {path : String} {place : Place}
    (resolved : directory.resolveTarget path = .ok place) : directory.resolve path = .ok place := by
  unfold resolveTarget at resolved
  obtain ⟨⟨start, names⟩, routed, followed⟩ := exists_of_bind_eq_ok resolved
  simp only at followed
  split at followed
  · obtain ⟨_, _, impossible⟩ := exists_of_bind_eq_ok followed
    contradiction
  · rw [resolve, routed]
    exact followed

theorem file?_of_node? {place : Place} {content : String}
    (found : directory.node? place = some (.file content)) :
    directory.file? (around.address place) = some content := by
  unfold node? at found
  split at found
  · next stored =>
    obtain rfl := Node.file.inj (Option.some.inj found)
    exact stored
  · cases found
  · cases found
  · split at found
    · cases found
    · cases found

theorem node?_of_spot? {path : String} {address : Address}
    (stands : directory.spot? path = some (.file address)) :
    ∃ place, directory.resolve path = .ok place ∧ address = around.address place ∧
      (directory.node? place = none ∨ ∃ content, directory.node? place = some (.file content)) := by
  unfold spot? at stands
  split at stands
  · contradiction
  · next place resolved =>
    have resolved := resolve_of_resolveTarget resolved
    split at stands
    · contradiction
    · next device _ =>
      cases shows : device.outlet with
      | none => simp [shows] at stands
      | some outlet => simp [shows] at stands
    · next content found =>
      obtain rfl := Spot.file.inj (Option.some.inj stands)
      exact ⟨place, resolved, rfl, .inr ⟨content, found⟩⟩
    · next absent =>
      obtain rfl := Spot.file.inj (Option.some.inj stands)
      exact ⟨place, resolved, rfl, .inl absent⟩

theorem file?_of_read {path text : String} {address : Address}
    (found : directory.read path = .ok text)
    (stands : directory.spot? path = some (.file address)) :
    directory.file? address = some text := by
  obtain ⟨place, resolved, rfl, node⟩ := node?_of_spot? stands
  unfold read at found
  obtain ⟨other, resolvedOther, found⟩ := exists_of_bind_eq_ok found
  obtain rfl := Except.ok.inj (resolved.symm.trans resolvedOther)
  obtain absent | ⟨content, present⟩ := node
  · rw [absent] at found
    cases found
  · rw [present] at found
    obtain rfl := Except.ok.inj found
    exact file?_of_node? present

/-! ## Writing -/

/-- What is put at an address is stored there, and no other file changes. -/
theorem stores_putEntry (directory : Directory around) (address : Address) (text : String) :
    (view around).Stores text directory (.file address) none
      ⟨putEntry directory.contents address text⟩ := by
  refine .file ?_ fun other different => ?_
  · change ((putEntry directory.contents address text).lookup address).map String.toUTF8 = _
    rw [lookup_putEntry, if_pos rfl]
    rfl
  · change ((putEntry directory.contents address text).lookup other).map String.toUTF8 = _
    rw [lookup_putEntry, if_neg different]
    rfl

theorem exists_stores_of_write {path text : String} {written : Written around}
    (wrote : directory.write path text = .ok written) :
    ∃ spot, directory.spot? path = some spot ∧
      (view around).Stores text directory spot written.outlet written.directory := by
  unfold write at wrote
  obtain ⟨place, resolved, wrote⟩ := exists_of_bind_eq_ok wrote
  simp only [spot?, resolved]
  unfold writeAt at wrote
  cases found : directory.node? place with
  | none =>
    simp only [found] at wrote
    split at wrote
    · contradiction
    · obtain rfl := Except.ok.inj wrote
      exact ⟨_, rfl, stores_putEntry directory (around.address place) text⟩
  | some node =>
    cases node with
    | file content =>
      simp only [found] at wrote
      obtain rfl := Except.ok.inj wrote
      exact ⟨_, rfl, stores_putEntry directory (around.address place) text⟩
    | directory refusal =>
      simp only [found] at wrote
      contradiction
    | device device =>
      simp only [found] at wrote
      split at wrote
      · contradiction
      · obtain rfl := Except.ok.inj wrote
        refine ⟨_, rfl, ?_⟩
        cases device.outlet with
        | none => exact .sink fun _ => rfl
        | some outlet => exact .stream fun _ => rfl

theorem run_write (path text : String) (directory : Directory around) :
    (access.write path text).run directory =
      match directory.write path text with
      | .ok written => (.ok written.outlet, written.directory)
      | .error fault => (.error fault, directory) := by
  rw [access]
  simp only [StateT.run_bind, StateT.run_get, pure_bind]
  cases directory.write path text <;> rfl

/-! ## The laws -/

theorem lawful_access (around : Surroundings) :
    (access : Host (StateM (Directory around))).Lawful (view around) where
  isThere_same := fun _ directory => .refl directory
  read_same := fun _ directory => .refl directory
  read_content := by
    intro path directory text after address answered stands
    have found : directory.read path = .ok text := congrArg Prod.fst answered
    change (directory.file? address).map String.toUTF8 = _
    rw [file?_of_read found stands]
    rfl
  write_failed := by
    intro path text directory fault after answered
    rw [run_write] at answered
    cases wrote : directory.write path text with
    | ok written =>
      rw [wrote] at answered
      cases answered
    | error fault =>
      rw [wrote] at answered
      cases answered
      exact fun _ => rfl
  write_stored := by
    intro path text directory outlet? after answered
    rw [run_write] at answered
    cases wrote : directory.write path text with
    | ok written =>
      rw [wrote] at answered
      cases answered
      exact exists_stores_of_write wrote
    | error fault =>
      rw [wrote] at answered
      cases answered

end Directory

end FlatLiquid.CommandLine
