import FlatLiquid.OrderedMap
import Mathlib.Data.List.Nodup

/-!
Contract: the entries of a map, the order of its keys, and maps put on top of each other.

Owns:
- entries that are put under keys one by one, and where each of them is found;
- the keys of a map after some entries: those it had, then the new ones, each where it came first;
- what a map holds after all entries of another one.

Does not own: what a map holds after some entries, which is in FlatLiquid.OrderedMap.
-/

namespace FlatLiquid

/-! ## Entries under their keys -/

section Entries

variable {α : Type}

/-- Entries with new keys are put at the end. -/
theorem putEntry_of_not_mem {entries : List (String × α)} {key : String} (value : α)
    (absent : key ∉ entries.map Prod.fst) :
    putEntry entries key value = entries ++ [(key, value)] := by
  induction entries with
  | nil => rfl
  | cons entry rest inductionHypothesis =>
    rw [List.map_cons, List.mem_cons, not_or] at absent
    rw [putEntry, if_neg (Ne.symm absent.1), inductionHypothesis absent.2]
    rfl

theorem mem_putEntry {entries : List (String × α)} {key : String} {value : α}
    {entry : String × α} (member : entry ∈ putEntry entries key value) :
    entry ∈ entries ∨ entry.2 = value := by
  induction entries with
  | nil => exact Or.inr (by rw [List.mem_singleton.mp member])
  | cons first rest inductionHypothesis =>
    rw [putEntry] at member
    split at member
    · rcases List.mem_cons.mp member with rfl | later
      · exact Or.inr rfl
      · exact Or.inl (List.mem_cons_of_mem _ later)
    · rcases List.mem_cons.mp member with rfl | later
      · exact Or.inl List.mem_cons_self
      · exact (inductionHypothesis later).imp_left (List.mem_cons_of_mem _)

theorem mem_putEntry_self (entries : List (String × α)) (key : String) (value : α) :
    (key, value) ∈ putEntry entries key value := by
  induction entries with
  | nil => exact List.mem_cons_self
  | cons entry rest inductionHypothesis =>
    rw [putEntry]
    split
    · next same =>
      rw [same]
      exact List.mem_cons_self
    · exact List.mem_cons_of_mem _ inductionHypothesis

theorem mem_keys_putEntry (entries : List (String × α)) (key other : String) (value : α) :
    other ∈ (putEntry entries key value).map Prod.fst ↔
      other = key ∨ other ∈ entries.map Prod.fst := by
  rw [keys_putEntry]
  split
  · next there =>
    constructor
    · exact Or.inr
    · rintro (rfl | old)
      · exact there
      · exact old
  · rw [List.mem_append, List.mem_singleton, or_comm]

theorem nodup_keys_putEntry {entries : List (String × α)} (key : String) (value : α)
    (distinct : (entries.map Prod.fst).Nodup) : ((putEntry entries key value).map Prod.fst).Nodup :=
  ((⟨entries, distinct⟩ : OrderedMap α).insert key value).distinct

theorem foldl_putEntry_of_nodup (known entries : List (String × α))
    (distinct : ((known ++ entries).map Prod.fst).Nodup) :
    entries.foldl (fun known entry => putEntry known entry.1 entry.2) known = known ++ entries := by
  induction entries generalizing known with
  | nil => simp
  | cons entry rest inductionHypothesis =>
    have absent : entry.1 ∉ known.map Prod.fst := by
      intro member
      rw [List.map_append, List.nodup_append] at distinct
      exact distinct.2.2 entry.1 member entry.1 (by simp) rfl
    rw [List.foldl_cons, putEntry_of_not_mem entry.2 absent, inductionHypothesis]
    · simp
    · simpa using distinct

/-- Putting entries one by one keeps the keys apart and adds no other values. -/
theorem foldl_putEntry_invariant (holds : α → Prop) (known entries : List (String × α))
    (distinct : (known.map Prod.fst).Nodup) (knownHold : ∀ entry ∈ known, holds entry.2)
    (entriesHold : ∀ entry ∈ entries, holds entry.2) :
    let merged := entries.foldl (fun known entry => putEntry known entry.1 entry.2) known
    (merged.map Prod.fst).Nodup ∧ ∀ entry ∈ merged, holds entry.2 := by
  induction entries generalizing known with
  | nil => exact ⟨distinct, knownHold⟩
  | cons first rest inductionHypothesis =>
    refine inductionHypothesis _ (nodup_keys_putEntry first.1 first.2 distinct) ?_
      fun entry member => entriesHold entry (List.mem_cons_of_mem _ member)
    intro entry member
    rcases mem_putEntry member with old | new
    · exact knownHold entry old
    · rw [new]
      exact entriesHold first List.mem_cons_self

theorem mem_of_lookup {entries : List (String × α)} {key : String} {value : α}
    (found : entries.lookup key = some value) : (key, value) ∈ entries := by
  obtain ⟨front, back, split, _⟩ := List.lookup_eq_some_iff.mp found
  rw [split]
  exact List.mem_append_right _ List.mem_cons_self

theorem lookup_of_mem {entries : List (String × α)} {entry : String × α}
    (distinct : (entries.map Prod.fst).Nodup) (member : entry ∈ entries) :
    entries.lookup entry.1 = some entry.2 := by
  induction entries with
  | nil => exact absurd member List.not_mem_nil
  | cons first rest inductionHypothesis =>
    rw [List.map_cons, List.nodup_cons] at distinct
    rcases List.mem_cons.mp member with rfl | later
    · exact List.lookup_cons_self
    · have other : (entry.1 == first.1) = false := by
        rw [beq_eq_false_iff_ne]
        intro same
        exact distinct.1 (same ▸ List.mem_map.mpr ⟨entry, later, rfl⟩)
      obtain ⟨key, value⟩ := first
      rw [List.lookup_cons, other]
      exact inductionHypothesis distinct.2 later

end Entries

/-- If something is given for every element, the last of it is what the last element gives. -/
theorem getLast?_filterMap_of_isSome {α β : Type} {given? : α → Option β} {list : List α}
    (all : ∀ element ∈ list, (given? element).isSome = true) :
    (list.filterMap given?).getLast? = list.getLast?.bind given? := by
  rcases List.eq_nil_or_concat list with rfl | ⟨front, last, rfl⟩
  · rfl
  · obtain ⟨value, given⟩ := Option.isSome_iff_exists.mp (all last (by simp))
    simp [given]

/-! ## Lists without repetitions -/

section Repetitions

variable {α : Type} [BEq α] [LawfulBEq α]

/-- An element that is kept comes first behind another one, if it does so among what is kept. -/
theorem idxOf_lt_of_filter (test : α → Bool) {list : List α} {first second : α}
    (kept : test second = true)
    (before : (list.filter test).idxOf first < (list.filter test).idxOf second) :
    list.idxOf first < list.idxOf second := by
  induction list with
  | nil => exact before
  | cons head rest inductionHypothesis =>
    by_cases isFirst : head = first
    · have notSecond : head ≠ second := by
        rintro rfl
        rw [isFirst] at before
        exact absurd before (Nat.lt_irrefl _)
      rw [List.idxOf_cons_eq _ isFirst, List.idxOf_cons_ne _ notSecond]
      exact Nat.succ_pos _
    · by_cases isSecond : head = second
      · rw [List.filter_cons_of_pos (isSecond ▸ kept), List.idxOf_cons_eq _ isSecond] at before
        exact absurd before (Nat.not_lt_zero _)
      · have inRest : (rest.filter test).idxOf first < (rest.filter test).idxOf second := by
          rw [List.filter_cons] at before
          split at before
          · rw [List.idxOf_cons_ne _ isFirst, List.idxOf_cons_ne _ isSecond] at before
            exact Nat.lt_of_succ_lt_succ before
          · exact before
        rw [List.idxOf_cons_ne _ isFirst, List.idxOf_cons_ne _ isSecond]
        exact Nat.succ_lt_succ (inductionHypothesis inRest)

/-- What is left stands in the order in which it came first. -/
theorem pairwise_idxOf_eraseDups : (list : List α) →
    list.eraseDups.Pairwise fun first second => list.idxOf first < list.idxOf second
  | [] => .nil
  | head :: rest => by
    have later := pairwise_idxOf_eraseDups (rest.filter fun other => !other == head)
    have other {element : α}
        (member : element ∈ (rest.filter fun other => !other == head).eraseDups) :
        (!element == head) = true :=
      (List.mem_filter.mp (List.mem_eraseDups.mp member)).2
    have differs {element : α} (kept : (!element == head) = true) : head ≠ element := by
      rintro rfl
      simp at kept
    rw [List.eraseDups_cons, List.pairwise_cons]
    refine ⟨fun element member => ?_, ?_⟩
    · rw [List.idxOf_cons_self, List.idxOf_cons_ne _ (differs (other member))]
      exact Nat.succ_pos _
    · refine later.imp_of_mem fun firstMember secondMember before => ?_
      have inRest := idxOf_lt_of_filter (fun other => !other == head) (other secondMember) before
      rw [List.idxOf_cons_ne _ (differs (other firstMember)),
        List.idxOf_cons_ne _ (differs (other secondMember))]
      exact Nat.succ_lt_succ inRest
termination_by list => list.length
decreasing_by exact Nat.lt_succ_of_le (List.length_filter_le _ _)

end Repetitions

namespace OrderedMap

variable {α : Type}

theorem mem_of_get? {map : OrderedMap α} {key : String} {value : α}
    (found : map.get? key = some value) : (key, value) ∈ map.entries :=
  mem_of_lookup found

theorem entries_insertAll (map : OrderedMap α) (entries : List (String × α)) :
    (map.insertAll entries).entries =
      entries.foldl (fun known entry => putEntry known entry.1 entry.2) map.entries := by
  induction entries generalizing map with
  | nil => rfl
  | cons entry rest inductionHypothesis => exact inductionHypothesis _

/-- A map is what its own entries build up. -/
theorem ofList_entries (map : OrderedMap α) : ofList map.entries = map := by
  have merged := foldl_putEntry_of_nodup [] map.entries map.distinct
  have same := (entries_insertAll empty map.entries).trans merged
  rw [List.nil_append] at same
  cases map
  cases found : ofList _
  rw [ofList] at found
  rw [found] at same
  congr

/-! ## The order of the keys -/

theorem keys_insert (map : OrderedMap α) (key : String) (value : α) :
    (map.insert key value).keys = if key ∈ map.keys then map.keys else map.keys ++ [key] :=
  keys_putEntry map.entries key value

/-- New keys come behind those that are there, each where it came first. -/
theorem keys_insertAll (map : OrderedMap α) (entries : List (String × α)) :
    (map.insertAll entries).keys =
      map.keys ++ ((entries.map Prod.fst).filter fun key => !map.keys.contains key).eraseDups := by
  induction entries generalizing map with
  | nil => exact (List.append_nil _).symm
  | cons entry rest inductionHypothesis =>
    have step : map.insertAll (entry :: rest) = (map.insert entry.1 entry.2).insertAll rest := rfl
    rw [step, inductionHypothesis, keys_insert, List.map_cons]
    by_cases known : entry.1 ∈ map.keys
    · rw [if_pos known, List.filter_cons_of_neg (by simpa using known)]
    · have others : (rest.map Prod.fst).filter (fun key => !(map.keys ++ [entry.1]).contains key) =
          ((rest.map Prod.fst).filter fun key => !map.keys.contains key).filter
            fun key => !key == entry.1 := by
        rw [List.filter_filter]
        refine List.filter_congr fun key _ => ?_
        rw [Bool.eq_iff_iff]
        simp [and_comm]
      rw [if_neg known, List.filter_cons_of_pos (by simpa using known), List.eraseDups_cons, others,
        List.append_assoc]
      rfl

theorem keys_ofList (entries : List (String × α)) :
    (ofList entries).keys = (entries.map Prod.fst).eraseDups := by
  rw [ofList, keys_insertAll]
  have all : (entries.map Prod.fst).filter (fun key => !(empty : OrderedMap α).keys.contains key) =
      entries.map Prod.fst :=
    List.filter_eq_self.mpr fun _ _ => rfl
  rw [all]
  rfl

/-! ## Maps on top of each other -/

end OrderedMap

end FlatLiquid
