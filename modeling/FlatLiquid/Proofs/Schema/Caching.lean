import FlatLiquid.Proofs.OrderedMap
import FlatLiquid.Proofs.Schema.Recency

/-!
Contract: what a cache of schemas holds and answers over a whole run.

Owns:
- the agreement of the entries with the order of the last requests, call by call and over a run;
- which answers are one and the same reading of a schema;
- the cache over a run: what it answers, how much it holds, and what it has forgotten.

A digest stands for a template only as long as no other template of the run has it too. This is asked
of the templates of a run and not of all texts, of which some do share a digest.
-/

namespace FlatLiquid

/-- No two of the templates have the same digest. -/
def HaveOwnDigests (templates : List String) : Prop :=
  ∀ left ∈ templates, ∀ right ∈ templates,
    Sha256.hexDigest left = Sha256.hexDigest right → left = right

theorem HaveOwnDigests.subset {templates more : List String} (own : HaveOwnDigests more)
    (within : templates ⊆ more) : HaveOwnDigests templates :=
  fun left leftMember right rightMember => own left (within leftMember) right (within rightMember)

/-! ## Entries under their keys -/

theorem lookup_filter_of_ne {α : Type} {key other : String} (different : key ≠ other)
    (entries : List (String × α)) :
    (entries.filter fun entry => entry.1 != other).lookup key = entries.lookup key := by
  induction entries with
  | nil => rfl
  | cons entry rest inductionHypothesis =>
    by_cases same : entry.1 = other
    · have dropped : (entry.1 != other) = false := by simp [same]
      have missed : (key == entry.1) = false := by simp [same, different]
      rw [List.filter_cons, dropped, if_neg Bool.false_ne_true, List.lookup_cons, missed]
      exact inductionHypothesis
    · have kept : (entry.1 != other) = true := bne_iff_ne.mpr same
      rw [List.filter_cons, kept, if_pos rfl, List.lookup_cons, List.lookup_cons,
        inductionHypothesis]

theorem lookup_of_lookup_take {α : Type} {key : String} {count : Nat} {entries : List (String × α)}
    {value : α} (found : (entries.take count).lookup key = some value) :
    entries.lookup key = some value := by
  rw [← List.take_append_drop count entries, List.lookup_append, found]
  rfl

namespace SchemaCache

/-- An entry is found under another key after a put only if it was found before. -/
theorem lookup_of_lookup_put {cache : SchemaCache} {key other : String}
    {schema? found : Option CachedSchema} (different : key ≠ other)
    (after : (cache.put other schema?).entries.lookup key = some found) :
    cache.entries.lookup key = some found := by
  have missed : (key == other) = false := by simp [different]
  have others : ((cache.entries.filter fun entry => entry.1 != other).take
      (cache.capacity - 1)).lookup key = some found := by
    rw [put, List.lookup_cons, missed] at after
    exact after
  rw [← lookup_filter_of_ne different cache.entries]
  exact lookup_of_lookup_take others

theorem lookup_put (cache : SchemaCache) (key : String) (schema? : Option CachedSchema) :
    (cache.put key schema?).entries.lookup key = some schema? := by
  rw [put, List.lookup_cons, beq_self_eq_true]

theorem contains_iff_lookup (cache : SchemaCache) (template : String) :
    cache.contains template = true ↔
      ∃ schema?, cache.entries.lookup (Sha256.hexDigest template) = some schema? := by
  rw [← Option.isSome_iff_exists, List.lookup_isSome_iff, contains, List.any_eq_true]
  constructor
  · rintro ⟨entry, member, same⟩
    exact ⟨entry, member, by rw [beq_iff_eq.mp same, beq_self_eq_true]⟩
  · rintro ⟨entry, member, same⟩
    exact ⟨entry, member, by rw [beq_iff_eq.mp same, beq_self_eq_true]⟩

/-! ## Requests -/

/-- What a request answers and leaves: what the entry holds, or else a new reading. Either way the
entry comes to stand in front. -/
theorem request_cases (cache : SchemaCache) (template : String) :
    (∃ schema?, cache.entries.lookup (Sha256.hexDigest template) = some schema? ∧
      cache.request template = (schema?, cache.put (Sha256.hexDigest template) schema?)) ∨
    (cache.entries.lookup (Sha256.hexDigest template) = none ∧
      ∃ schema?, schema? = (Schema.ofTemplate? template.toList).map (⟨cache.readings, ·⟩) ∧
        cache.request template =
          (schema?, { cache.put (Sha256.hexDigest template) schema? with
            readings := cache.readings + 1 })) := by
  cases found : cache.entries.lookup (Sha256.hexDigest template) with
  | some schema? =>
    left
    refine ⟨schema?, rfl, ?_⟩
    rw [request, found]
  | none =>
    right
    refine ⟨rfl, _, rfl, ?_⟩
    rw [request, found]

/-- The entries that a request leaves: its answer in front of the others. -/
theorem entries_request (cache : SchemaCache) (template : String) :
    (cache.request template).2.entries =
      (cache.put (Sha256.hexDigest template) (cache.request template).1).entries := by
  rcases request_cases cache template with ⟨schema?, _, answer⟩ | ⟨_, schema?, _, answer⟩
  · rw [answer]
  · rw [answer]

theorem readings_le_request (cache : SchemaCache) (template : String) :
    cache.readings ≤ (cache.request template).2.readings := by
  rcases request_cases cache template with ⟨schema?, _, answer⟩ | ⟨_, schema?, _, answer⟩
  · rw [answer]
    exact Nat.le_refl _
  · rw [answer]
    exact Nat.le_succ _

@[simp]
theorem capacity_perform (cache : SchemaCache) (action : CacheAction) :
    (cache.perform action).capacity = cache.capacity := by
  cases action with
  | request template =>
    rw [perform]
    rcases request_cases cache template with ⟨schema?, _, answer⟩ | ⟨_, schema?, _, answer⟩
    · rw [answer]
      rfl
    · rw [answer]
      rfl
  | clear => rfl
  | contains _ => rfl
  | size => rfl

theorem readings_le_perform (cache : SchemaCache) (action : CacheAction) :
    cache.readings ≤ (cache.perform action).readings := by
  cases action with
  | request template => exact readings_le_request cache template
  | clear => exact Nat.le_refl _
  | contains _ => exact Nat.le_refl _
  | size => exact Nat.le_refl _

/-! ## The entries and the order of the last requests -/

/-- The entries are those of the latest templates, as many as there is room for. Each holds what its
template says, and no reading that is still to come. -/
structure Holds (cache : SchemaCache) (recent : List String) : Prop where
  room : 0 < cache.capacity
  keys : cache.entries.map Prod.fst = (recent.take cache.capacity).map Sha256.hexDigest
  faithful : ∀ entry ∈ cache.entries, ∃ template ∈ recent,
    entry.1 = Sha256.hexDigest template ∧
      entry.2.map CachedSchema.schema = Schema.ofTemplate? template.toList
  numbered : ∀ entry ∈ cache.entries, ∀ cached ∈ entry.2, cached.reading < cache.readings

theorem holds_ofCapacity (capacity : Nat) : (ofCapacity capacity).Holds [] where
  room := Nat.lt_of_lt_of_le Nat.one_pos (Nat.le_max_right capacity 1)
  keys := by
    rw [List.take_nil]
    rfl
  faithful := fun entry member => absurd member List.not_mem_nil
  numbered := fun entry member => absurd member List.not_mem_nil

/-- The entries for other templates keep the order of the last requests. -/
theorem Holds.keys_of_others {cache : SchemaCache} {recent : List String} {template : String}
    {count : Nat} (holds : cache.Holds recent) (distinct : recent.Nodup)
    (own : HaveOwnDigests (template :: recent)) (more : cache.capacity = count + 1) :
    ((cache.entries.filter fun entry => entry.1 != Sha256.hexDigest template).take count).map
        Prod.fst =
      ((recent.filter (· != template)).take count).map Sha256.hexDigest := by
  have sameTest : ∀ other ∈ recent.take cache.capacity,
      ((fun key => key != Sha256.hexDigest template) ∘ Sha256.hexDigest) other =
        (other != template) := by
    intro other member
    have inRecent := List.mem_cons_of_mem template (List.mem_of_mem_take member)
    rw [Function.comp_apply, Bool.eq_iff_iff, bne_iff_ne, bne_iff_ne]
    apply not_congr
    constructor
    · exact own other inRecent template List.mem_cons_self
    · exact congrArg Sha256.hexDigest
  calc ((cache.entries.filter fun entry => entry.1 != Sha256.hexDigest template).take count).map
        Prod.fst
      = ((cache.entries.map Prod.fst).filter (· != Sha256.hexDigest template)).take count := by
        rw [List.map_take, List.filter_map]
        rfl
    _ = (((recent.take cache.capacity).filter (· != template)).map Sha256.hexDigest).take
          count := by
        rw [holds.keys, List.filter_map, List.filter_congr sameTest]
    _ = ((recent.filter (· != template)).take count).map Sha256.hexDigest := by
        rw [← List.map_take, more, take_filter_take distinct]

/-- An entry that comes to stand in front makes its template the latest one. -/
theorem Holds.put {cache : SchemaCache} {recent : List String} {template : String}
    {schema? : Option CachedSchema} {readings : Nat} (holds : cache.Holds recent)
    (distinct : recent.Nodup) (own : HaveOwnDigests (template :: recent))
    (content : schema?.map CachedSchema.schema = Schema.ofTemplate? template.toList)
    (known : ∀ cached ∈ schema?, cached.reading < readings) (grown : cache.readings ≤ readings) :
    Holds { cache.put (Sha256.hexDigest template) schema? with readings := readings }
      (touch recent (.request template)) := by
  obtain ⟨count, more⟩ : ∃ count, cache.capacity = count + 1 :=
    Nat.exists_eq_add_one_of_ne_zero (Nat.ne_of_gt holds.room)
  have kept {entry : String × Option CachedSchema}
      (member : entry ∈ (cache.entries.filter fun entry =>
        entry.1 != Sha256.hexDigest template).take (cache.capacity - 1)) :
      entry ∈ cache.entries ∧ entry.1 ≠ Sha256.hexDigest template := by
    have inFilter := List.mem_filter.mp (List.mem_of_mem_take member)
    exact ⟨inFilter.1, bne_iff_ne.mp inFilter.2⟩
  constructor
  · exact holds.room
  · have others := holds.keys_of_others distinct own more
    simp only [SchemaCache.put, touch, more, Nat.add_sub_cancel, List.map_cons, List.take_succ_cons,
      others]
  · intro entry member
    rcases List.mem_cons.mp member with rfl | other
    · exact ⟨template, List.mem_cons_self, rfl, content⟩
    · obtain ⟨inEntries, different⟩ := kept other
      obtain ⟨source, inRecent, key, ownContent⟩ := holds.faithful entry inEntries
      refine ⟨source, List.mem_cons_of_mem _ (List.mem_filter.mpr ⟨inRecent, ?_⟩), key, ownContent⟩
      rw [bne_iff_ne]
      rintro rfl
      exact different key
  · intro entry member cached inEntry
    rcases List.mem_cons.mp member with rfl | other
    · exact known cached inEntry
    · exact Nat.lt_of_lt_of_le (holds.numbered entry (kept other).1 cached inEntry) grown

/-- An entry that is found holds what its template says. -/
theorem Holds.content_of_lookup {cache : SchemaCache} {recent : List String} {template : String}
    {schema? : Option CachedSchema} (holds : cache.Holds recent)
    (own : HaveOwnDigests (template :: recent))
    (found : cache.entries.lookup (Sha256.hexDigest template) = some schema?) :
    schema?.map CachedSchema.schema = Schema.ofTemplate? template.toList := by
  obtain ⟨source, inRecent, key, content⟩ := holds.faithful _ (mem_of_lookup found)
  obtain rfl := own template List.mem_cons_self source (List.mem_cons_of_mem _ inRecent) key
  exact content

/-- A request answers what the template says. -/
theorem Holds.content_of_request {cache : SchemaCache} {recent : List String} {template : String}
    (holds : cache.Holds recent) (own : HaveOwnDigests (template :: recent)) :
    (cache.request template).1.map CachedSchema.schema = Schema.ofTemplate? template.toList := by
  rcases request_cases cache template with ⟨schema?, found, answer⟩ | ⟨_, schema?, read, answer⟩
  · rw [answer]
    exact holds.content_of_lookup own found
  · rw [answer, read, Option.map_map]
    exact Option.map_id'

theorem Holds.request {cache : SchemaCache} {recent : List String} {template : String}
    (holds : cache.Holds recent) (distinct : recent.Nodup)
    (own : HaveOwnDigests (template :: recent)) :
    (cache.request template).2.Holds (touch recent (.request template)) := by
  have content := holds.content_of_request own
  rcases request_cases cache template with ⟨schema?, found, answer⟩ | ⟨_, schema?, read, answer⟩
  · rw [answer] at content ⊢
    exact holds.put distinct own content (holds.numbered _ (mem_of_lookup found)) (Nat.le_refl _)
  · rw [answer] at content ⊢
    refine holds.put distinct own content ?_ (Nat.le_succ _)
    intro cached isRead
    rw [read] at isRead
    obtain ⟨schema, _, rfl⟩ := Option.map_eq_some_iff.mp isRead
    exact Nat.lt_succ_self _

/-- One action keeps the entries in agreement with the order of the last requests. -/
theorem Holds.perform {cache : SchemaCache} {recent : List String} {action : CacheAction}
    (holds : cache.Holds recent) (distinct : recent.Nodup)
    (own : HaveOwnDigests (action.requested?.toList ++ recent)) :
    (cache.perform action).Holds (touch recent action) := by
  cases action with
  | request template => exact holds.request distinct own
  | clear =>
    refine ⟨holds.room, ?_, ?_, ?_⟩
    · rw [touch, List.take_nil]
      rfl
    · exact fun entry member => absurd member List.not_mem_nil
    · exact fun entry member => absurd member List.not_mem_nil
  | contains _ => exact holds
  | size => exact holds

/-! ## Runs -/

/-- The entries after a run agree with the order that its history tells. -/
theorem holds_performAll (capacity : Nat) {history : List CacheAction}
    (own : HaveOwnDigests (requestedTemplates history)) :
    ((ofCapacity capacity).performAll history).Holds (recency history) := by
  induction history using List.reverseRecOn with
  | nil => exact holds_ofCapacity capacity
  | append_singleton history action inductionHypothesis =>
    rw [requestedTemplates_concat] at own
    have earlier := inductionHypothesis (own.subset (List.subset_append_left _ _))
    rw [performAll_append, recency_concat]
    refine earlier.perform (nodup_recency history) (own.subset ?_)
    intro template member
    rcases List.mem_append.mp member with now | known
    · exact List.mem_append_right _ now
    · exact List.mem_append_left _ (requested_of_mem_recency known)

theorem capacity_performAll (cache : SchemaCache) (history : List CacheAction) :
    (cache.performAll history).capacity = cache.capacity := by
  induction history generalizing cache with
  | nil => rfl
  | cons action later inductionHypothesis =>
    exact (inductionHypothesis (cache.perform action)).trans (capacity_perform cache action)

theorem readings_le_performAll (cache : SchemaCache) (history : List CacheAction) :
    cache.readings ≤ (cache.performAll history).readings := by
  induction history generalizing cache with
  | nil => exact Nat.le_refl _
  | cons action later inductionHypothesis =>
    exact Nat.le_trans (readings_le_perform cache action) (inductionHypothesis _)

/-- There is an entry for a template exactly if it is among the latest ones that there is room
for. -/
theorem Holds.contains_iff {cache : SchemaCache} {recent : List String} {template : String}
    (holds : cache.Holds recent) (own : HaveOwnDigests (template :: recent)) :
    cache.contains template = true ↔ template ∈ recent.take cache.capacity := by
  have byKey : cache.contains template = true ↔
      Sha256.hexDigest template ∈ cache.entries.map Prod.fst := by
    rw [contains, List.any_eq_true, List.mem_map]
    simp only [beq_iff_eq]
  rw [byKey, holds.keys, List.mem_map]
  constructor
  · rintro ⟨other, member, same⟩
    have inRecent := List.mem_cons_of_mem template (List.mem_of_mem_take member)
    rwa [own other inRecent template List.mem_cons_self same] at member
  · exact fun member => ⟨template, member, rfl⟩

theorem Holds.size_le {cache : SchemaCache} {recent : List String} (holds : cache.Holds recent) :
    cache.size ≤ cache.capacity := by
  have sameLength := congrArg List.length holds.keys
  rw [List.length_map, List.length_map, List.length_take] at sameLength
  rw [size, sameLength]
  exact Nat.min_le_left _ _

/-- As long as a template is not requested again, its entry stays the same or goes. -/
theorem lookup_of_lookup_performAll {template : String} {schema? : Option CachedSchema}
    {later : List CacheAction} (cache : SchemaCache)
    (own : HaveOwnDigests (template :: requestedTemplates later))
    (last : .request template ∉ later)
    (found : (cache.performAll later).entries.lookup (Sha256.hexDigest template) =
      some schema?) :
    cache.entries.lookup (Sha256.hexDigest template) = some schema? := by
  induction later using List.reverseRecOn with
  | nil => exact found
  | append_singleton later action inductionHypothesis =>
    rw [List.mem_append, not_or] at last
    rw [requestedTemplates_concat] at own
    rw [performAll_append] at found
    have earlier := inductionHypothesis
      (own.subset (List.cons_subset_cons template (List.subset_append_left _ _))) last.1
    cases action with
    | request other =>
      have different : Sha256.hexDigest template ≠ Sha256.hexDigest other := by
        intro same
        have inRun : other ∈ template :: (requestedTemplates later ++ [other]) := by simp
        exact last.2 (by simp [own template List.mem_cons_self other inRun same])
      apply earlier
      apply lookup_of_lookup_put different
      rw [← entries_request]
      exact found
    | clear => contradiction
    | contains _ => exact earlier found
    | size => exact earlier found

/-- A request after another one for the same template answers the same reading exactly if the entry
is still there, as long as there is a schema at all. -/
theorem same_reading_iff {cache : SchemaCache} {recent : List String} {template : String}
    {later : List CacheAction} (holds : cache.Holds recent) (distinct : recent.Nodup)
    (own : HaveOwnDigests (template :: recent))
    (ownLater : HaveOwnDigests (template :: requestedTemplates later))
    (last : .request template ∉ later) :
    let first := cache.request template
    let after := first.2.performAll later
    let second := after.request template
    (second.1.isSome = true ∧
        second.1.map CachedSchema.reading = first.1.map CachedSchema.reading) ↔
      after.contains template = true ∧ (Schema.ofTemplate? template.toList).isSome = true := by
  intro first after second
  have content : first.1.map CachedSchema.schema = Schema.ofTemplate? template.toList :=
    holds.content_of_request own
  have entry : first.2.entries.lookup (Sha256.hexDigest template) = some first.1 := by
    rw [entries_request]
    exact lookup_put cache _ _
  rcases request_cases after template with ⟨schema?, found, answer⟩ | ⟨missing, schema?, read, answer⟩
  · -- the entry is still there, and it holds what the first request answered
    have kept := lookup_of_lookup_performAll first.2 ownLater last found
    obtain rfl : first.1 = schema? := Option.some.inj (entry.symm.trans kept)
    have present : after.contains template = true := (contains_iff_lookup after template).mpr ⟨_, found⟩
    have same : second.1 = first.1 := by
      rw [show second = _ from answer]
    rw [same, ← content, Option.isSome_map]
    simp [present]
  · -- the entry is gone, and the schema is read under a number that was not given before
    have absent : ¬ after.contains template = true := by
      rw [contains_iff_lookup, missing]
      simp
    have fresh : second.1 = schema? := by
      rw [show second = _ from answer]
    constructor
    · rintro ⟨some, same⟩
      exfalso
      obtain ⟨cached, isCached⟩ := Option.isSome_iff_exists.mp some
      obtain ⟨schema, _, rfl⟩ := Option.map_eq_some_iff.mp (read.symm.trans (fresh.symm.trans isCached))
      rw [isCached] at same
      obtain ⟨earlier, isEarlier, sameReading⟩ := Option.map_eq_some_iff.mp same.symm
      have known : earlier.reading < first.2.readings :=
        (holds.request distinct own).numbered _ (mem_of_lookup entry) earlier isEarlier
      have grown : first.2.readings ≤ after.readings := readings_le_performAll first.2 later
      have again : earlier.reading = after.readings := sameReading
      omega
    · exact fun both => absurd both.1 absent

end SchemaCache

/-- Over any run, through any handles, as long as no two templates of the run have the same digest: a
request answers what its template says. There are never more entries than there is room for, which is
for one at least. A template has an entry exactly if fewer others have been requested than there is
room for since the last request for it, and nothing was forgotten since; what the template says does
not matter. And a request answers the same reading as the last request for the template exactly if
there is an entry for it and the template has a schema. -/
theorem schemaCache_run (capacity : Nat) (calls : List CacheCall) (program : CacheHandles)
    (handle : Nat) (cache : SchemaCache) (template : String)
    (ran : (CacheHandles.start capacity).run? calls = some program)
    (behind : program.cache? handle = some cache)
    (own : HaveOwnDigests (template :: requestedTemplates (calls.filterMap CacheCall.action?))) :
    let answer := (cache.request template).1
    answer.map CachedSchema.schema = Schema.ofTemplate? template.toList ∧
      cache.size ≤ max capacity 1 ∧
      (cache.contains template = true ↔
        ∃ before later, calls.filterMap CacheCall.action? = before ++ .request template :: later ∧
          .clear ∉ later ∧ .request template ∉ later ∧
          (requestedTemplates later).dedup.length < max capacity 1) ∧
      ∀ (before later : List CacheCall) (other : Nat) (earlier : CacheHandles) (past : SchemaCache),
        calls = before ++ .act other (.request template) :: later →
        .request template ∉ later.filterMap CacheCall.action? →
        (CacheHandles.start capacity).run? before = some earlier →
        earlier.cache? other = some past →
          let previous := (past.request template).1
          (answer.isSome = true ∧
              answer.map CachedSchema.reading = previous.map CachedSchema.reading ↔
            cache.contains template = true ∧
              (Schema.ofTemplate? template.toList).isSome = true) := by
  intro answer
  have whole := (CacheHandles.shares_start capacity).run? ran
  obtain rfl := whole.eq_of_cache? behind
  have holds := SchemaCache.holds_performAll capacity (own.subset (List.subset_cons_self _ _))
  have ownRecent := own.subset
    (List.cons_subset_cons template fun other => requested_of_mem_recency)
  have room := SchemaCache.capacity_performAll (.ofCapacity capacity)
    (calls.filterMap CacheCall.action?)
  refine ⟨holds.content_of_request ownRecent, ?_, ?_, ?_⟩
  · apply Nat.le_trans holds.size_le
    exact Nat.le_of_eq room
  · rw [holds.contains_iff ownRecent, room, mem_take_recency_iff]
    rfl
  · rintro before later other earlier past rfl last ranBefore behindBefore previous
    have part := (CacheHandles.shares_start capacity).run? ranBefore
    obtain rfl := part.eq_of_cache? behindBefore
    have history : (before ++ .act other (.request template) :: later).filterMap
        CacheCall.action? = before.filterMap CacheCall.action? ++
          .request template :: later.filterMap CacheCall.action? := by
      rw [List.filterMap_append, List.filterMap_cons]
      rfl
    rw [history, requestedTemplates_append_request] at own
    have ownBefore : HaveOwnDigests
        (template :: requestedTemplates (before.filterMap CacheCall.action?)) :=
      own.subset (List.cons_subset_cons template (List.subset_append_left _ _))
    have ownLater : HaveOwnDigests
        (template :: requestedTemplates (later.filterMap CacheCall.action?)) :=
      own.subset fun source member =>
        List.mem_cons_of_mem _ (List.mem_append_right _ member)
    have same := SchemaCache.same_reading_iff
      (SchemaCache.holds_performAll capacity (ownBefore.subset (List.subset_cons_self _ _)))
      (nodup_recency _)
      (ownBefore.subset (List.cons_subset_cons template fun source => requested_of_mem_recency))
      ownLater last
    have split : (SchemaCache.ofCapacity capacity).performAll
        ((before ++ .act other (.request template) :: later).filterMap CacheCall.action?) =
        (((SchemaCache.ofCapacity capacity).performAll
          (before.filterMap CacheCall.action?)).request template).2.performAll
            (later.filterMap CacheCall.action?) := by
      rw [history, SchemaCache.performAll_append]
      rfl
    simp only [← split] at same
    exact same

/-- With room for two, a template without a schema does not displace the one that was requested before
it through the other handle: the third request answers the first reading. -/
theorem schemaCache_run_of_clone :
    let hero := "\x7b% schema %\x7d\x7b\"name\":\"Hero\"\x7d\x7b% endschema %\x7d"
    let calls : List CacheCall := [.act 0 (.request hero), .clone 0, .act 1 (.request "plain")]
    let first := (SchemaCache.ofCapacity 2).request hero
    let cache := (first.2.request "plain").2
    (CacheHandles.start 2).run? calls = some ⟨[cache], [0, 0]⟩ ∧
      HaveOwnDigests [hero, hero, "plain"] ∧ (cache.request hero).1.isSome = true ∧
      (cache.request hero).1.map CachedSchema.reading = first.1.map CachedSchema.reading := by
  intro hero calls first cache
  have own : HaveOwnDigests [hero, hero, "plain"] := by
    unfold HaveOwnDigests
    decide +kernel
  have parts := schemaCache_run 2 calls ⟨[cache], [0, 0]⟩ 1 cache hero rfl rfl own
  obtain ⟨_, _, present, reading⟩ := parts
  have inside := present.mpr ⟨[], [.request "plain"], rfl, by decide, by decide, by decide⟩
  have schema : (Schema.ofTemplate? hero.toList).isSome = true := by decide +kernel
  have same := (reading [] [.clone 0, .act 1 (.request "plain")] 0 _ _ rfl (by decide) rfl rfl).mpr
    ⟨inside, schema⟩
  exact ⟨rfl, own, same⟩

end FlatLiquid
