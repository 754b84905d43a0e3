import FlatLiquid.Schema.Cache
import Mathlib.Data.List.Dedup
import Mathlib.Data.List.Induction

/-!
Contract: the history of a cache, and which templates were requested last.

Owns:
- the calls of a program through the handles to a cache, all of which share the cache;
- the order of the last requests for templates, which the history alone tells;
- the place of a template in that order as a count of later requests.

Does not own: the entries of a cache, whose agreement with the order is in
FlatLiquid.Proofs.Schema.Caching.
-/

namespace FlatLiquid

/-! ## Runs -/

/-- What is asked of a cache. -/
inductive CacheAction where
  | request (template : String)
  | contains (template : String)
  | clear
  | size
deriving DecidableEq

/-- The cache after an action. -/
def SchemaCache.perform (cache : SchemaCache) : CacheAction → SchemaCache
  | .request template => (cache.request template).2
  | .clear => cache.clear
  | .contains _ => cache
  | .size => cache

/-- The cache after actions in their order. -/
def SchemaCache.performAll (cache : SchemaCache) (history : List CacheAction) : SchemaCache :=
  history.foldl SchemaCache.perform cache

theorem SchemaCache.performAll_append (cache : SchemaCache) (before later : List CacheAction) :
    cache.performAll (before ++ later) = (cache.performAll before).performAll later :=
  List.foldl_append

/-- A call of a program: a further handle to the cache behind a handle, or an action on the cache
behind a handle. -/
inductive CacheCall where
  | clone (handle : Nat)
  | act (handle : Nat) (action : CacheAction)

def CacheCall.action? : CacheCall → Option CacheAction
  | .clone _ => none
  | .act _ action => some action

/-- What a program holds: caches, and for each handle the place of the cache behind it. -/
structure CacheHandles where
  caches : List SchemaCache
  handles : List Nat

namespace CacheHandles

/-- One cache with one handle to it. -/
def start (capacity : Nat) : CacheHandles :=
  ⟨[.ofCapacity capacity], [0]⟩

/-- The cache behind a handle. -/
def cache? (program : CacheHandles) (handle : Nat) : Option SchemaCache := do
  let place ← program.handles[handle]?
  program.caches[place]?

/-- What a program holds after a call through a handle that it has. -/
def call? (program : CacheHandles) : CacheCall → Option CacheHandles
  | .clone handle => do
    let place ← program.handles[handle]?
    some { program with handles := program.handles ++ [place] }
  | .act handle action => do
    let place ← program.handles[handle]?
    let cache ← program.caches[place]?
    some { program with caches := program.caches.set place (cache.perform action) }

/-- What a program holds after calls in their order. -/
def run? (program : CacheHandles) (calls : List CacheCall) : Option CacheHandles :=
  calls.foldlM call? program

/-- There is one cache only, and every handle is a handle to it. -/
structure Shares (program : CacheHandles) (cache : SchemaCache) : Prop where
  single : program.caches = [cache]
  places : ∀ place ∈ program.handles, place = 0

theorem shares_start (capacity : Nat) : (start capacity).Shares (.ofCapacity capacity) where
  single := rfl
  places := fun _ member => List.mem_singleton.mp member

theorem Shares.eq_of_cache? {program : CacheHandles} {cache found : SchemaCache} {handle : Nat}
    (shares : program.Shares cache) (behind : program.cache? handle = some found) :
    found = cache := by
  obtain ⟨place, atHandle, atPlace⟩ := Option.bind_eq_some_iff.mp behind
  obtain rfl := shares.places place (List.mem_of_getElem? atHandle)
  rw [shares.single] at atPlace
  exact (Option.some.inj atPlace).symm

/-- A call through any handle is a call of the one cache. -/
theorem Shares.call? {program next : CacheHandles} {cache : SchemaCache} {call : CacheCall}
    (shares : program.Shares cache) (called : program.call? call = some next) :
    next.Shares (cache.performAll call.action?.toList) := by
  cases call with
  | clone handle =>
    obtain ⟨place, atHandle, rfl⟩ := Option.map_eq_some_iff.mp
      (show (program.handles[handle]?).map _ = some next by
        rw [← called]
        exact Option.map_eq_bind)
    refine ⟨shares.single, fun other member => ?_⟩
    rcases List.mem_append.mp member with known | new
    · exact shares.places other known
    · rw [List.mem_singleton.mp new]
      exact shares.places place (List.mem_of_getElem? atHandle)
  | act handle action =>
    obtain ⟨place, atHandle, acted⟩ := Option.bind_eq_some_iff.mp called
    obtain ⟨found, atPlace, result⟩ := Option.bind_eq_some_iff.mp acted
    obtain rfl := shares.places place (List.mem_of_getElem? atHandle)
    rw [shares.single] at atPlace result
    obtain rfl : cache = found := Option.some.inj atPlace
    obtain rfl := Option.some.inj result
    exact ⟨rfl, shares.places⟩

/-- After calls through any handles there is one cache still, and it is what the actions in their
order make of the first one. -/
theorem Shares.run? {program final : CacheHandles} {cache : SchemaCache} {calls : List CacheCall}
    (shares : program.Shares cache) (ran : program.run? calls = some final) :
    final.Shares (cache.performAll (calls.filterMap CacheCall.action?)) := by
  induction calls generalizing program cache with
  | nil =>
    obtain rfl := Option.some.inj ran
    exact shares
  | cons call later inductionHypothesis =>
    obtain ⟨next, called, rest⟩ := Option.bind_eq_some_iff.mp ran
    have after := inductionHypothesis (shares.call? called) rest
    have joined : (call :: later).filterMap CacheCall.action? =
        call.action?.toList ++ later.filterMap CacheCall.action? := by
      cases call <;> rfl
    rw [joined, SchemaCache.performAll_append]
    exact after

end CacheHandles

/-- The template whose schema an action requests. -/
def CacheAction.requested? : CacheAction → Option String
  | .request template => some template
  | _ => none

/-- The templates whose schemas are requested, in the order of the requests. -/
def requestedTemplates (history : List CacheAction) : List String :=
  history.filterMap CacheAction.requested?

/-! ## The order of the last requests -/

/-- Templates in the order of the last requests, the latest first, after one more action. -/
def touch (recent : List String) : CacheAction → List String
  | .request template => template :: recent.filter (· != template)
  | .clear => []
  | .contains _ => recent
  | .size => recent

/-- The templates requested since everything was forgotten, the latest first. -/
def recency (history : List CacheAction) : List String :=
  history.foldl touch []

theorem recency_concat (history : List CacheAction) (action : CacheAction) :
    recency (history ++ [action]) = touch (recency history) action := by
  rw [recency, List.foldl_append]
  rfl

theorem requestedTemplates_concat (history : List CacheAction) (action : CacheAction) :
    requestedTemplates (history ++ [action]) =
      requestedTemplates history ++ action.requested?.toList := by
  rw [requestedTemplates, List.filterMap_append]
  cases action <;> rfl

theorem requestedTemplates_append_request (before later : List CacheAction) (template : String) :
    requestedTemplates (before ++ .request template :: later) =
      requestedTemplates before ++ template :: requestedTemplates later := by
  rw [requestedTemplates, List.filterMap_append]
  rfl

theorem mem_requestedTemplates {history : List CacheAction} {template : String} :
    template ∈ requestedTemplates history ↔ .request template ∈ history := by
  rw [requestedTemplates, List.mem_filterMap]
  constructor
  · rintro ⟨action, member, isRequest⟩
    cases action with
    | request other =>
      obtain rfl := Option.some.inj isRequest
      exact member
    | contains _ => contradiction
    | clear => contradiction
    | size => contradiction
  · exact fun member => ⟨_, member, rfl⟩

theorem nodup_touch {recent : List String} (distinct : recent.Nodup) (action : CacheAction) :
    (touch recent action).Nodup := by
  cases action with
  | request template =>
    apply List.nodup_cons.mpr
    exact ⟨by simp, distinct.filter _⟩
  | clear => exact List.nodup_nil
  | contains _ => exact distinct
  | size => exact distinct

theorem nodup_recency (history : List CacheAction) : (recency history).Nodup := by
  induction history using List.reverseRecOn with
  | nil => exact List.nodup_nil
  | append_singleton history action inductionHypothesis =>
    rw [recency_concat]
    exact nodup_touch inductionHypothesis action

theorem requested_of_mem_recency {history : List CacheAction} {template : String}
    (member : template ∈ recency history) : template ∈ requestedTemplates history := by
  induction history using List.reverseRecOn with
  | nil => exact absurd member List.not_mem_nil
  | append_singleton history action inductionHypothesis =>
    rw [recency_concat] at member
    rw [requestedTemplates_concat]
    cases action with
    | request other =>
      rcases List.mem_cons.mp member with rfl | earlier
      · simp [CacheAction.requested?]
      · exact List.mem_append_left _ (inductionHypothesis (List.mem_of_mem_filter earlier))
    | clear => exact absurd member List.not_mem_nil
    | contains _ => exact List.mem_append_left _ (inductionHypothesis member)
    | size => exact List.mem_append_left _ (inductionHypothesis member)

/-- A template that is known has a last request after which nothing was forgotten. -/
theorem exists_last_request {history : List CacheAction} {template : String}
    (member : template ∈ recency history) :
    ∃ before later, history = before ++ .request template :: later ∧ .clear ∉ later ∧
      .request template ∉ later := by
  induction history using List.reverseRecOn with
  | nil => exact absurd member List.not_mem_nil
  | append_singleton history action inductionHypothesis =>
    rw [recency_concat] at member
    -- an action that is neither the request nor a clearing goes on with the calls after the request
    have goOn (known : template ∈ recency history) (noClear : action ≠ .clear)
        (noRequest : action ≠ .request template) :
        ∃ before later, history ++ [action] = before ++ .request template :: later ∧
          .clear ∉ later ∧ .request template ∉ later := by
      obtain ⟨before, later, rfl, unforgotten, last⟩ := inductionHypothesis known
      refine ⟨before, later ++ [action], by simp, ?_, ?_⟩
      · simpa [unforgotten] using Ne.symm noClear
      · simpa [last] using Ne.symm noRequest
    cases action with
    | request other =>
      by_cases same : other = template
      · subst same
        exact ⟨history, [], rfl, List.not_mem_nil, List.not_mem_nil⟩
      · rcases List.mem_cons.mp member with rfl | earlier
        · exact absurd rfl same
        · exact goOn (List.mem_of_mem_filter earlier) nofun fun equal =>
            same (CacheAction.request.inj equal)
    | clear => exact absurd member List.not_mem_nil
    | contains _ => exact goOn member nofun nofun
    | size => exact goOn member nofun nofun

/-- After the last request for a template, the others that are requested come to stand in front of it,
and it keeps its place among those behind. -/
theorem foldl_touch_append (template : String) {later : List CacheAction} (front behind : List String)
    (unforgotten : .clear ∉ later) (last : .request template ∉ later) :
    ∃ rest, later.foldl touch (front ++ template :: behind) =
      later.foldl touch front ++ template :: rest := by
  induction later generalizing front behind with
  | nil => exact ⟨behind, rfl⟩
  | cons action later inductionHypothesis =>
    rw [List.mem_cons, not_or] at unforgotten last
    cases action with
    | request other =>
      have different : (template != other) = true := by
        rw [bne_iff_ne]
        rintro rfl
        exact last.1 rfl
      obtain ⟨rest, moved⟩ := inductionHypothesis (other :: front.filter (· != other))
        (behind.filter (· != other)) unforgotten.2 last.2
      refine ⟨rest, ?_⟩
      have kept : (template :: behind).filter (· != other) =
          template :: behind.filter (· != other) := List.filter_cons_of_pos different
      rw [List.foldl_cons, List.foldl_cons, touch, touch, List.filter_append, kept]
      exact moved
    | clear => exact absurd rfl unforgotten.1
    | contains _ => exact inductionHypothesis front behind unforgotten.2 last.2
    | size => exact inductionHypothesis front behind unforgotten.2 last.2

theorem mem_recency_iff {history : List CacheAction} (unforgotten : .clear ∉ history)
    (template : String) : template ∈ recency history ↔ template ∈ requestedTemplates history := by
  constructor
  · exact requested_of_mem_recency
  · intro requested
    induction history using List.reverseRecOn with
    | nil => exact absurd requested List.not_mem_nil
    | append_singleton history action inductionHypothesis =>
      rw [List.mem_append, not_or] at unforgotten
      rw [requestedTemplates_concat, List.mem_append] at requested
      rw [recency_concat]
      have earlier := inductionHypothesis unforgotten.1
      cases action with
      | request other =>
        by_cases same : template = other
        · exact List.mem_cons.mpr (.inl same)
        · rcases requested with before | now
          · refine List.mem_cons_of_mem _ (List.mem_filter.mpr ⟨earlier before, ?_⟩)
            simpa using same
          · exact absurd (List.mem_singleton.mp now) same
      | clear => exact absurd (List.mem_singleton.mpr rfl) unforgotten.2
      | contains _ => exact earlier (by simpa [CacheAction.requested?] using requested)
      | size => exact earlier (by simpa [CacheAction.requested?] using requested)

/-- As long as nothing is forgotten, the order holds each requested template once. -/
theorem length_recency {history : List CacheAction} (unforgotten : .clear ∉ history) :
    (recency history).length = (requestedTemplates history).dedup.length := by
  have same : (recency history).Perm (requestedTemplates history).dedup := by
    rw [List.perm_ext_iff_of_nodup (nodup_recency history) (List.nodup_dedup _)]
    intro template
    rw [List.mem_dedup, mem_recency_iff unforgotten]
  exact same.length_eq

/-- A template is among the `count` latest exactly if fewer others have been requested since the last
request for it, and nothing was forgotten since. -/
theorem mem_take_recency_iff {history : List CacheAction} {template : String} {count : Nat} :
    template ∈ (recency history).take count ↔
      ∃ before later, history = before ++ .request template :: later ∧ .clear ∉ later ∧
        .request template ∉ later ∧ (requestedTemplates later).dedup.length < count := by
  -- the place of a template in the order is the number of others requested since
  have place {before later : List CacheAction} (unforgotten : .clear ∉ later)
      (last : .request template ∉ later) :
      template ∈ (recency (before ++ .request template :: later)).take count ↔
        (requestedTemplates later).dedup.length < count := by
    obtain ⟨rest, moved⟩ := foldl_touch_append template []
      ((recency before).filter (· != template)) unforgotten last
    have order : recency (before ++ .request template :: later) =
        recency later ++ template :: rest := by
      rw [recency, List.foldl_append]
      exact moved
    have absent : template ∉ recency later := by
      rw [mem_recency_iff unforgotten, mem_requestedTemplates]
      exact last
    rw [order, ← length_recency unforgotten]
    constructor
    · intro member
      by_contra beyond
      rw [List.take_append_of_le_length (Nat.le_of_not_lt beyond)] at member
      exact absent (List.mem_of_mem_take member)
    · intro within
      rw [List.take_append, List.mem_append]
      right
      obtain ⟨room, more⟩ : ∃ room, count - (recency later).length = room + 1 :=
        ⟨count - (recency later).length - 1, by omega⟩
      rw [more]
      exact List.mem_cons_self
  constructor
  · intro member
    obtain ⟨before, later, rfl, unforgotten, last⟩ :=
      exists_last_request (List.mem_of_mem_take member)
    exact ⟨before, later, rfl, unforgotten, last, (place unforgotten last).mp member⟩
  · rintro ⟨before, later, rfl, unforgotten, last, fewer⟩
    exact (place unforgotten last).mpr fewer

/-! ## Room for so many templates -/

/-- Of the latest entries, those that stay beside a new one are the latest of all others. -/
theorem take_filter_take {recent : List String} (distinct : recent.Nodup) (template : String)
    (count : Nat) :
    ((recent.take (count + 1)).filter (· != template)).take count =
      (recent.filter (· != template)).take count := by
  induction recent generalizing count with
  | nil => rfl
  | cons first rest inductionHypothesis =>
    rw [List.nodup_cons] at distinct
    rw [List.take_succ_cons]
    by_cases same : first = template
    · subst same
      have others : ∀ other ∈ rest, (other != first) = true := by
        intro other member
        rw [bne_iff_ne]
        rintro rfl
        exact distinct.1 member
      have dropped : (first != first) = false := bne_self_eq_false first
      have some := List.filter_eq_self.mpr fun other member =>
        others other (List.mem_of_mem_take (i := count) member)
      have all := List.filter_eq_self.mpr others
      simp only [List.filter_cons, dropped, Bool.false_eq_true, if_false]
      rw [some, all, List.take_take, Nat.min_self]
    · have kept : (first != template) = true := bne_iff_ne.mpr same
      simp only [List.filter_cons, kept, if_true]
      cases count with
      | zero => rfl
      | succ count => rw [List.take_succ_cons, List.take_succ_cons, inductionHypothesis distinct.2]

end FlatLiquid
