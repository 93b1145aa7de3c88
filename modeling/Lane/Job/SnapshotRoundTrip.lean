import Lane.Filing.Items
import Lane.Job.SnapshotFile

/-! What is written to the snapshot file reads back, but for doubles that are not finite, for
results and progress that are `null`, and for the lock tokens.
-/

namespace Lane

variable {α : Type} {write : α → Value} {read : Value → Option α} {serde : Serde}

-----------------------------------------------------------------------------------------
-- Plain values
-----------------------------------------------------------------------------------------

@[simp] theorem readNat_writeNat (value : Nat) : readNat (writeNat value) = some value := by
  simp [readNat, writeNat]

theorem readString_string (text : String) : readString (.string text) = some text := rfl

@[simp] theorem readDate_writeDate (time : DateTime)
    : readDate serde (writeDate serde time) = some time :=
  serde.parse_dateText time

theorem readDouble_writeDouble {value : Float} (finite : value.isFinite = true)
    : readDouble (writeDouble value) = some value := by
  unfold writeDouble
  rw [if_pos finite]
  rfl

/-- An infinity or a NaN is written, but it is not read again. -/
theorem readDouble_writeDouble_none {value : Float} (infinite : value.isFinite = false)
    : readDouble (writeDouble value) = none := by
  unfold writeDouble
  rw [if_neg (by simp [infinite])]
  rfl

/-- An option reads back when its values do and none of them is written as `null`. -/
theorem readOption_map (reads : ∀ value, read (write value) = some value)
    (proper : ∀ value, (write value).isNull = false) (option : Option α)
    : readOption read (option.map write) = some option := by
  cases option with
  | none => rfl
  | some value =>
      have found := reads value
      have written := proper value
      simp only [Option.map_some]
      generalize write value = document at found written
      cases document with
      | null => cases written
      | _ => simp only [readOption, found, Option.map_some]

theorem readOption_writeOption (reads : ∀ value, read (write value) = some value)
    (proper : ∀ value, (write value).isNull = false) (option : Option α)
    : readOption read (some (writeOption write option)) = some option := by
  cases option with
  | none => rfl
  | some value => exact readOption_map reads proper (some value)

/-- A JSON value that is `null` reads back as absent. -/
theorem readOption_value (option : Option Value)
    : readOption some (some (option.getD .null))
      = some (option.filter (fun value => !value.isNull)) := by
  cases option with
  | none => rfl
  | some value => cases value <;> rfl

@[simp] theorem readDefault_some (default : α) (value : Value)
    : readDefault read default (some value) = read value := rfl

@[simp] theorem readDefault_writeFlag (flag : Bool)
    : readDefault readBool false (writeFlag flag) = some flag := by
  cases flag <;> rfl

theorem readList_map (back : α → α) {items : List α}
    (reads : ∀ item ∈ items, read (write item) = some (back item))
    : readList read (.array (items.map write)) = some (items.map back) :=
  Record.mapM_map reads

theorem readDefault_writeItems (back : α → α) {items : List α}
    (reads : ∀ item ∈ items, read (write item) = some (back item))
    : readDefault (readList read) [] (writeItems write items) = some (items.map back) := by
  unfold writeItems
  cases items with
  | nil => rfl
  | cons item rest => exact readList_map back reads

/-- A list with an item that does not read back is not skipped and does not read back. -/
theorem readDefault_writeItems_none {items : List α} {item : α} (member : item ∈ items)
    (fails : read (write item) = none)
    : readDefault (readList read) [] (writeItems write items) = none := by
  unfold writeItems
  cases items with
  | nil => cases member
  | cons first rest => exact Record.mapM_map_none member fails

-----------------------------------------------------------------------------------------
-- Times and options
-----------------------------------------------------------------------------------------

@[simp] theorem readDuration_writeDuration (duration : Duration)
    : readDuration (writeDuration duration) = some duration := by
  have whole : duration / nanosPerSecond * nanosPerSecond + duration % nanosPerSecond = duration :=
    Nat.div_add_mod' _ _
  simp [readDuration, writeDuration, document, requiredField, whole]

theorem isNull_writeDuration (duration : Duration) : (writeDuration duration).isNull = false := rfl

@[simp] theorem readOption_duration (duration : Option Duration)
    : readOption readDuration (some (writeOption writeDuration duration)) = some duration :=
  readOption_writeOption readDuration_writeDuration isNull_writeDuration duration

@[simp] theorem readOption_skippedDuration (duration : Option Duration)
    : readOption readDuration (duration.map writeDuration) = some duration :=
  readOption_map readDuration_writeDuration isNull_writeDuration duration

@[simp] theorem readOption_nat (value : Option Nat)
    : readOption readNat (some (writeOption writeNat value)) = some value :=
  readOption_writeOption readNat_writeNat (fun _ => rfl) value

@[simp] theorem readOption_skippedNat (value : Option Nat)
    : readOption readNat (value.map writeNat) = some value :=
  readOption_map readNat_writeNat (fun _ => rfl) value

@[simp] theorem readOption_string (text : Option String)
    : readOption readString (some (writeOption .string text)) = some text :=
  readOption_writeOption readString_string (fun _ => rfl) text

@[simp] theorem readOption_skippedString (text : Option String)
    : readOption readString (text.map .string) = some text :=
  readOption_map readString_string (fun _ => rfl) text

@[simp] theorem readOption_date (time : Option DateTime)
    : readOption (readDate serde) (some (writeOption (writeDate serde) time)) = some time :=
  readOption_writeOption readDate_writeDate (fun _ => rfl) time

@[simp] theorem readOption_skippedDate (time : Option DateTime)
    : readOption (readDate serde) (time.map (writeDate serde)) = some time :=
  readOption_map readDate_writeDate (fun _ => rfl) time

-----------------------------------------------------------------------------------------
-- Job options
-----------------------------------------------------------------------------------------

@[simp] theorem JobRetention.deserialize_serialize (retention : JobRetention)
    : JobRetention.deserialize retention.serialize = some retention := by
  simp [JobRetention.serialize, JobRetention.deserialize, document, optionalField]

@[simp] theorem DeduplicationOptions.deserialize_serialize (options : DeduplicationOptions)
    : DeduplicationOptions.deserialize options.serialize = some options := by
  simp [DeduplicationOptions.serialize, DeduplicationOptions.deserialize, document, optionalField,
    requiredField, defaultedField, readString, readBool]

/-- An interval is found before an expression is looked for. -/
theorem RepeatOptions.deserialize_serialize (options : RepeatOptions)
    : RepeatOptions.deserialize serde (options.serialize serde) = some options := by
  obtain ⟨schedule, limit, endAt, key⟩ := options
  cases schedule with
  | every interval =>
      simp [RepeatOptions.serialize, RepeatOptions.deserialize, RepeatSchedule.deserialize,
        RepeatSchedule.interval, document, optionalField, requiredField]
  | cron expression =>
      simp [RepeatOptions.serialize, RepeatOptions.deserialize, RepeatSchedule.deserialize,
        RepeatSchedule.interval, RepeatSchedule.expression, document, optionalField,
        requiredField, readString]

/-- A retry policy reads back when its multiplier is finite. -/
theorem RetryPolicy.deserialize_serialize {policy : RetryPolicy}
    (finite : policy.multiplier.isFinite = true)
    : RetryPolicy.deserialize policy.serialize = some policy := by
  simp [RetryPolicy.serialize, RetryPolicy.deserialize, document, requiredField,
    readDouble_writeDouble finite]

theorem RetryPolicy.deserialize_serialize_none {policy : RetryPolicy}
    (infinite : policy.multiplier.isFinite = false)
    : RetryPolicy.deserialize policy.serialize = .none := by
  simp [RetryPolicy.serialize, RetryPolicy.deserialize, document, requiredField,
    readDouble_writeDouble_none infinite]

@[simp] theorem readOption_retention (retention : Option JobRetention)
    : readOption JobRetention.deserialize (retention.map JobRetention.serialize)
      = some retention :=
  readOption_map JobRetention.deserialize_serialize (fun _ => rfl) retention

@[simp] theorem readOption_deduplication (options : Option DeduplicationOptions)
    : readOption DeduplicationOptions.deserialize (options.map DeduplicationOptions.serialize)
      = some options :=
  readOption_map DeduplicationOptions.deserialize_serialize (fun _ => rfl) options

@[simp] theorem readOption_repeat (options : Option RepeatOptions)
    : readOption (RepeatOptions.deserialize serde) (options.map (RepeatOptions.serialize serde))
      = some options :=
  readOption_map RepeatOptions.deserialize_serialize (fun _ => rfl) options

/-- Options read back with their retry policy. -/
theorem JobOptions.deserialize_serialize {options : JobOptions}
    (finite : options.retryPolicy.multiplier.isFinite = true)
    : JobOptions.deserialize serde (options.serialize serde) = some options := by
  simp [JobOptions.serialize, JobOptions.deserialize, document, requiredField, optionalField,
    defaultedField, readBool, RetryPolicy.deserialize_serialize finite]

theorem JobOptions.deserialize_serialize_none {options : JobOptions}
    (infinite : options.retryPolicy.multiplier.isFinite = false)
    : JobOptions.deserialize serde (options.serialize serde) = none := by
  simp [JobOptions.serialize, JobOptions.deserialize, document, requiredField, optionalField,
    defaultedField, RetryPolicy.deserialize_serialize_none infinite]

-----------------------------------------------------------------------------------------
-- Jobs and events
-----------------------------------------------------------------------------------------

@[simp] theorem JobState.deserialize_serialize (state : JobState)
    : JobState.deserialize state.serialize = some state := by
  cases state <;> rfl

@[simp] theorem readOption_state (state : Option JobState)
    : readOption JobState.deserialize (state.map JobState.serialize) = some state :=
  readOption_map JobState.deserialize_serialize (fun state => by cases state <;> rfl) state

theorem JobLogEntry.deserialize_serialize (entry : JobLogEntry)
    : JobLogEntry.deserialize serde (entry.serialize serde) = some entry := by
  simp [JobLogEntry.serialize, JobLogEntry.deserialize, document, requiredField, readString]

theorem readList_logs (logs : List JobLogEntry)
    : readList (JobLogEntry.deserialize serde) (.array (logs.map (JobLogEntry.serialize serde)))
      = some logs := by
  rw [readList_map id fun entry _ => JobLogEntry.deserialize_serialize entry, List.map_id]

theorem readList_strings (texts : List String)
    : readList readString (.array (texts.map .string)) = some texts := by
  rw [readList_map id fun text _ => readString_string text, List.map_id]

theorem readDefault_strings (texts : List String)
    : readDefault (readList readString) [] (writeItems .string texts) = some texts := by
  rw [readDefault_writeItems id fun text _ => readString_string text, List.map_id]

/-- The record that is read back: neither the lock token nor a `null` survives. -/
def Job.reopened (job : Job) : Job :=
  { job with
    lockToken := none
    returnValue := job.returnValue.filter (fun value => !value.isNull)
    progress := job.progress.filter (fun value => !value.isNull) }

theorem Job.deserialize_serialize {job : Job}
    (finite : job.options.retryPolicy.multiplier.isFinite = true)
    : Job.deserialize serde (job.serialize serde) = some job.reopened := by
  simp [Job.serialize, Job.deserialize, document, requiredField, optionalField, defaultedField,
    readString, readList_logs, readList_strings, readDefault_strings,
    readOption_value, JobOptions.deserialize_serialize finite, Job.reopened]

theorem Job.deserialize_serialize_none {job : Job}
    (infinite : job.options.retryPolicy.multiplier.isFinite = false)
    : Job.deserialize serde (job.serialize serde) = none := by
  simp [Job.serialize, Job.deserialize, document, requiredField, optionalField, defaultedField,
    readString, JobOptions.deserialize_serialize_none infinite]

/-- The jobs of a flow. -/
def JobFlow.jobs (flow : JobFlow) : List Job := flow.parent :: flow.children

def JobFlow.reopened (flow : JobFlow) : JobFlow :=
  { parent := flow.parent.reopened, children := flow.children.map Job.reopened }

/-- A flow is read from the documents of its parent and its children. -/
theorem JobFlow.deserialize_document (parent children : Value)
    : JobFlow.deserialize serde (document [("parent", some parent), ("children", some children)])
      = (Job.deserialize serde parent).bind (fun parent =>
          (readList (Job.deserialize serde) children).map (fun children =>
            { parent, children })) := by
  simp [JobFlow.deserialize, document, requiredField, Option.map_eq_bind]

theorem JobFlow.deserialize_serialize {flow : JobFlow}
    (finite : ∀ job ∈ flow.jobs, job.options.retryPolicy.multiplier.isFinite = true)
    : JobFlow.deserialize serde (flow.serialize serde) = some flow.reopened := by
  have children
      : readList (Job.deserialize serde) (.array (flow.children.map (Job.serialize serde)))
        = some (flow.children.map Job.reopened) :=
    readList_map Job.reopened fun child member =>
      Job.deserialize_serialize (finite child (.tail _ member))
  unfold JobFlow.serialize
  rw [JobFlow.deserialize_document, children,
    Job.deserialize_serialize (finite flow.parent List.mem_cons_self)]
  rfl

theorem JobFlow.deserialize_serialize_none {flow : JobFlow} {job : Job} (member : job ∈ flow.jobs)
    (infinite : job.options.retryPolicy.multiplier.isFinite = false)
    : JobFlow.deserialize serde (flow.serialize serde) = none := by
  have unread : Job.deserialize serde (job.serialize serde) = none :=
    Job.deserialize_serialize_none infinite
  unfold JobFlow.serialize
  rw [JobFlow.deserialize_document]
  rcases List.mem_cons.mp member with rfl | inChildren
  · rw [unread, Option.bind_none]
  · have children
        : readList (Job.deserialize serde) (.array (flow.children.map (Job.serialize serde)))
          = none :=
      Record.mapM_map_none inChildren unread
    rw [children]
    cases Job.deserialize serde (flow.parent.serialize serde) <;> rfl

theorem readDefault_writeFields (fields : List (String × Value))
    : readDefault readFields [] (writeFields fields) = some fields := by
  cases fields <;> rfl

theorem JobEvent.deserialize_serialize (event : JobEvent)
    : JobEvent.deserialize serde (event.serialize serde) = some event := by
  simp [JobEvent.serialize, JobEvent.deserialize, document, requiredField, optionalField,
    defaultedField, readString, readDefault_writeFields]

-----------------------------------------------------------------------------------------
-- Maps
-----------------------------------------------------------------------------------------

/-- Entries with other keys leave a lookup as it is, by induction on the entries. -/
theorem lookup_inserts_of_not_mem {entries : List (String × α)} {key : String}
    (collected : HashMap String α) (absent : key ∉ entries.map Prod.fst)
    : (entries.foldl (fun collected entry => collected.insert entry.1 entry.2)
          collected).lookup key
      = collected.lookup key := by
  induction entries generalizing collected with
  | nil => rfl
  | cons entry rest ih =>
      rw [List.map_cons, List.mem_cons, not_or] at absent
      exact (ih _ absent.2).trans (AList.lookup_insert_ne absent.1)

/-- The entries of distinct keys are all found, by induction on them. -/
theorem lookup_inserts_of_mem {entries : List (String × α)} {key : String} {value : α}
    (collected : HashMap String α) (distinct : (entries.map Prod.fst).Nodup)
    (member : (key, value) ∈ entries)
    : (entries.foldl (fun collected entry => collected.insert entry.1 entry.2)
          collected).lookup key
      = some value := by
  induction entries generalizing collected with
  | nil => cases member
  | cons entry rest ih =>
      obtain ⟨absent, later⟩ := List.nodup_cons.mp distinct
      rcases List.mem_cons.mp member with rfl | within
      · exact (lookup_inserts_of_not_mem _ absent).trans (AList.lookup_insert _)
      · exact ih _ later within

/-- A map that is written entry by entry and collected again has the same lookups. -/
theorem lookup_collectMap (map : HashMap String α) (key : String)
    : (collectMap (orderedEntries map)).lookup key = map.lookup key := by
  cases found : map.lookup key with
  | none =>
      refine (lookup_inserts_of_not_mem ∅ ?_).trans (AList.lookup_empty key)
      intro member
      obtain ⟨entry, listed, rfl⟩ := List.mem_map.mp member
      rw [mem_orderedEntries.mp listed] at found
      cases found
  | some value =>
      have distinct : ((orderedEntries map).map Prod.fst).Nodup :=
        (orderedEntries_keys map).nodup_iff.mpr map.keys_nodup
      exact lookup_inserts_of_mem ∅ distinct (mem_orderedEntries.mpr found)

/-- A map reads back entry by entry, and a skipped one as an empty map. -/
theorem readDefault_writeEntries (reads : ∀ value, read (write value) = some value)
    (map : HashMap String α)
    : readDefault (readMap read) ∅ (writeEntries write map)
      = some (collectMap (orderedEntries map)) := by
  unfold writeEntries
  cases keys : map.keys with
  | nil =>
      have entries : map.entries = [] := List.map_eq_nil_iff.mp keys
      simp only [List.isEmpty_nil, if_true, orderedEntries, entries]
      rfl
  | cons key rest =>
      have listed
          : ((orderedEntries map).map (fun entry => (entry.1, write entry.2))).mapM
              (fun field => (read field.2).map (fun value => (field.1, value)))
            = some ((orderedEntries map).map id) :=
        Record.mapM_map fun entry _ => by rw [reads entry.2, Option.map_some, id]
      simp only [List.isEmpty_cons, Bool.false_eq_true, if_false, readDefault_some, writeMap,
        readMap, listed, List.map_id, Option.map_some]

/-- The index with its maps as they are collected again. -/
def JobFlowDependencyIndex.reopened (index : JobFlowDependencyIndex) : JobFlowDependencyIndex :=
  { index with
    processed := collectMap (orderedEntries index.processed)
    ignored := collectMap (orderedEntries index.ignored) }

theorem JobFlowDependencyIndex.deserialize_serialize (index : JobFlowDependencyIndex)
    : JobFlowDependencyIndex.deserialize index.serialize = some index.reopened := by
  simp [JobFlowDependencyIndex.serialize, JobFlowDependencyIndex.deserialize, document,
    requiredField, defaultedField, readString, readDefault_strings,
    readDefault_writeEntries (fun value : Value => rfl : ∀ value, some (id value) = some value),
    readDefault_writeEntries readString_string, JobFlowDependencyIndex.reopened]

/-- The indexes are equal, their maps by their lookups. -/
structure JobFlowDependencyIndex.Same (left right : JobFlowDependencyIndex) : Prop where
  parentId : left.parentId = right.parentId
  processed : ∀ childId, left.processed.lookup childId = right.processed.lookup childId
  ignored : ∀ childId, left.ignored.lookup childId = right.ignored.lookup childId
  failed : left.failed = right.failed

theorem JobFlowDependencyIndex.same_reopened (index : JobFlowDependencyIndex)
    : index.reopened.Same index where
  parentId := rfl
  processed := lookup_collectMap index.processed
  ignored := lookup_collectMap index.ignored
  failed := rfl

theorem readOwner_writeOwner (owner : String × JobId)
    : readOwner (writeOwner owner) = some owner := rfl

-----------------------------------------------------------------------------------------
-- Snapshots
-----------------------------------------------------------------------------------------

/-- The snapshot that is read back when all of its jobs are. -/
def JobQueueSnapshot.reopened (snapshot : JobQueueSnapshot) : JobQueueSnapshot :=
  { snapshot with
    jobs := snapshot.jobs.map Job.reopened
    deduplicationNextJobs := snapshot.deduplicationNextJobs.map Job.reopened
    deduplicationNextFlows := snapshot.deduplicationNextFlows.map JobFlow.reopened
    flowDependencyIndexes := snapshot.flowDependencyIndexes.map JobFlowDependencyIndex.reopened }

/-- A snapshot is read from the documents of its fields. -/
theorem JobQueueSnapshot.deserialize_document (queue paused jobs : Value)
    (events eventSequence nextJobs nextFlows owners indexes : Option Value)
    : JobQueueSnapshot.deserialize serde
        (document
          [ ("queue", some queue), ("paused", some paused), ("events", events),
            ("event_sequence", eventSequence), ("jobs", some jobs),
            ("deduplication_next_jobs", nextJobs), ("deduplication_next_flows", nextFlows),
            ("released_deduplication_owners", owners), ("flow_dependency_indexes", indexes) ])
      = do
        let queue ← readString queue
        let paused ← readBool paused
        let events ← readDefault (readList (JobEvent.deserialize serde)) [] events
        let eventSequence ← readDefault readNat 0 eventSequence
        let jobs ← readList (Job.deserialize serde) jobs
        let deduplicationNextJobs ← readDefault (readList (Job.deserialize serde)) [] nextJobs
        let deduplicationNextFlows ← readDefault (readList (JobFlow.deserialize serde)) [] nextFlows
        let releasedDeduplicationOwners ← readDefault (readList readOwner) [] owners
        let flowDependencyIndexes ←
          readDefault (readList JobFlowDependencyIndex.deserialize) [] indexes
        return {
          queue, paused, events, eventSequence, jobs, deduplicationNextJobs, deduplicationNextFlows,
          releasedDeduplicationOwners, flowDependencyIndexes } := by
  simp [JobQueueSnapshot.deserialize, document, requiredField, defaultedField]

/-- The multipliers of a snapshot's jobs are finite. -/
def JobQueueSnapshot.Finite (snapshot : JobQueueSnapshot) : Prop :=
  ∀ job ∈ snapshot.allJobs, job.options.retryPolicy.multiplier.isFinite = true

theorem readDefault_eventSequence (eventSequence : Nat)
    : readDefault readNat 0 (if eventSequence = 0 then none else some (writeNat eventSequence))
      = some eventSequence := by
  by_cases zero : eventSequence = 0
  · rw [if_pos zero, zero]
    rfl
  · rw [if_neg zero]
    exact readNat_writeNat eventSequence

theorem JobQueueSnapshot.mem_allJobs {snapshot : JobQueueSnapshot} {job : Job}
    : job ∈ snapshot.allJobs
      ↔ job ∈ snapshot.jobs
        ∨ job ∈ snapshot.deduplicationNextJobs
        ∨ ∃ flow ∈ snapshot.deduplicationNextFlows, job ∈ flow.jobs := by
  simp only [JobQueueSnapshot.allJobs, List.mem_append, List.mem_flatMap, or_assoc, JobFlow.jobs]

/-- The jobs that are read back are those that were written, read back. -/
theorem JobQueueSnapshot.mem_allJobs_reopened {snapshot : JobQueueSnapshot} {job : Job}
    : job ∈ snapshot.reopened.allJobs ↔ ∃ old ∈ snapshot.allJobs, old.reopened = job := by
  have all : snapshot.reopened.allJobs = snapshot.allJobs.map Job.reopened := by
    simp only [JobQueueSnapshot.allJobs, JobQueueSnapshot.reopened, List.map_append,
      List.map_flatMap, List.flatMap_map, JobFlow.reopened, List.map_cons]
  rw [all, List.mem_map]

theorem JobQueueSnapshot.deserialize_serialize {snapshot : JobQueueSnapshot}
    (finite : snapshot.Finite)
    : JobQueueSnapshot.deserialize serde (snapshot.serialize serde) = some snapshot.reopened := by
  have events
      : readDefault (readList (JobEvent.deserialize serde)) []
          (writeItems (JobEvent.serialize serde) snapshot.events)
        = some snapshot.events := by
    rw [readDefault_writeItems id fun event _ => JobEvent.deserialize_serialize event, List.map_id]
  have jobs
      : readList (Job.deserialize serde) (.array (snapshot.jobs.map (Job.serialize serde)))
        = some (snapshot.jobs.map Job.reopened) :=
    readList_map Job.reopened fun job member =>
      Job.deserialize_serialize (finite job (mem_allJobs.mpr (.inl member)))
  have nextJobs
      : readDefault (readList (Job.deserialize serde)) []
          (writeItems (Job.serialize serde) snapshot.deduplicationNextJobs)
        = some (snapshot.deduplicationNextJobs.map Job.reopened) :=
    readDefault_writeItems Job.reopened fun job member =>
      Job.deserialize_serialize (finite job (mem_allJobs.mpr (.inr (.inl member))))
  have nextFlows
      : readDefault (readList (JobFlow.deserialize serde)) []
          (writeItems (JobFlow.serialize serde) snapshot.deduplicationNextFlows)
        = some (snapshot.deduplicationNextFlows.map JobFlow.reopened) :=
    readDefault_writeItems JobFlow.reopened fun flow member =>
      JobFlow.deserialize_serialize fun job within =>
        finite job (mem_allJobs.mpr (.inr (.inr ⟨flow, member, within⟩)))
  have owners
      : readDefault (readList readOwner) []
          (writeItems writeOwner snapshot.releasedDeduplicationOwners)
        = some snapshot.releasedDeduplicationOwners := by
    rw [readDefault_writeItems id fun owner _ => readOwner_writeOwner owner, List.map_id]
  have indexes
      : readDefault (readList JobFlowDependencyIndex.deserialize) []
          (writeItems JobFlowDependencyIndex.serialize snapshot.flowDependencyIndexes)
        = some (snapshot.flowDependencyIndexes.map JobFlowDependencyIndex.reopened) :=
    readDefault_writeItems JobFlowDependencyIndex.reopened fun index _ =>
      JobFlowDependencyIndex.deserialize_serialize index
  unfold JobQueueSnapshot.serialize
  rw [JobQueueSnapshot.deserialize_document, events, readDefault_eventSequence, jobs, nextJobs,
    nextFlows, owners, indexes]
  rfl

/-- One multiplier that is not finite makes the whole snapshot unreadable. -/
theorem JobQueueSnapshot.finite_of_deserialize {snapshot opened : JobQueueSnapshot}
    (reads : JobQueueSnapshot.deserialize serde (snapshot.serialize serde) = some opened)
    : snapshot.Finite := by
  intro job member
  unfold JobQueueSnapshot.serialize at reads
  rw [JobQueueSnapshot.deserialize_document] at reads
  simp only [bind, Option.bind_eq_some_iff] at reads
  obtain ⟨_, _, _, _, _, _, _, _, jobs, readJobs, nextJobs, readNextJobs, nextFlows,
    readNextFlows, _⟩ := reads
  by_contra infinite
  rw [Bool.not_eq_true] at infinite
  rcases mem_allJobs.mp member with stored | next | ⟨flow, listed, within⟩
  · have unread
        : readList (Job.deserialize serde) (.array (snapshot.jobs.map (Job.serialize serde)))
          = none :=
      Record.mapM_map_none stored (Job.deserialize_serialize_none infinite)
    rw [unread] at readJobs
    cases readJobs
  · rw [readDefault_writeItems_none next (Job.deserialize_serialize_none infinite)]
      at readNextJobs
    cases readNextJobs
  · rw [readDefault_writeItems_none listed
      (JobFlow.deserialize_serialize_none within infinite)] at readNextFlows
    cases readNextFlows

end Lane
