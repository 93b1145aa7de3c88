import Lane.Job.Types

/-! The job table: records keyed by their own id, with the lookup laws of its updates. -/

namespace Lane

/-- `HashMap<JobId, Job>` in which every record is stored under its own id. -/
structure JobMap where
  entries : HashMap JobId Job
  keyed : ∀ id job, entries.lookup id = some job → job.id = id

namespace JobMap

def empty : JobMap where
  entries := ∅
  keyed := by simp

def get (jobs : JobMap) (id : JobId) : Option Job := jobs.entries.lookup id

def containsKey (jobs : JobMap) (id : JobId) : Bool := (jobs.get id).isSome

/-- All records, in the map's arbitrary stored order. -/
def values (jobs : JobMap) : List Job := jobs.entries.entries.map Sigma.snd

/-- Stores a record under its id, replacing the record that was there. -/
def insert (jobs : JobMap) (job : Job) : JobMap where
  entries := jobs.entries.insert job.id job
  keyed := by
    intro id found h
    by_cases same : id = job.id
    · subst same
      rw [AList.lookup_insert] at h
      rw [← Option.some.inj h]
    · rw [AList.lookup_insert_ne same] at h
      exact jobs.keyed id found h

def remove (jobs : JobMap) (id : JobId) : JobMap where
  entries := jobs.entries.erase id
  keyed := by
    intro other found h
    by_cases same : other = id
    · subst same
      simp at h
    · rw [AList.lookup_erase_ne same] at h
      exact jobs.keyed other found h

-----------------------------------------------------------------------------------------
-- Lookup laws
-----------------------------------------------------------------------------------------

@[simp] theorem get_empty (id : JobId) : empty.get id = none := AList.lookup_empty id

theorem get_id {jobs : JobMap} {id : JobId} {job : Job} (found : jobs.get id = some job)
    : job.id = id :=
  jobs.keyed id job found

theorem get_insert (jobs : JobMap) (job : Job) (id : JobId)
    : (jobs.insert job).get id = if id = job.id then some job else jobs.get id := by
  unfold get insert
  split
  · next same => rw [same, AList.lookup_insert]
  · next other => rw [AList.lookup_insert_ne other]

theorem get_remove (jobs : JobMap) (id other : JobId)
    : (jobs.remove id).get other = if other = id then none else jobs.get other := by
  unfold get remove
  split
  · next same => rw [same, AList.lookup_erase]
  · next other => rw [AList.lookup_erase_ne other]

/-- The stored records are exactly the successful lookups.
Witness: distinct keys make membership of an entry and its lookup the same fact.
-/
theorem mem_values {jobs : JobMap} {job : Job}
    : job ∈ jobs.values ↔ jobs.get job.id = some job := by
  unfold values get
  constructor
  · intro member
    obtain ⟨⟨id, found⟩, stored, rfl⟩ := List.mem_map.mp member
    have looked := AList.mem_lookup_iff.mpr stored
    have same := jobs.keyed id found looked
    simp only at same ⊢
    rw [same]
    exact looked
  · intro looked
    exact List.mem_map.mpr ⟨⟨job.id, job⟩, AList.mem_lookup_iff.mp looked, rfl⟩

theorem mem_values_of_get {jobs : JobMap} {id : JobId} {job : Job}
    (found : jobs.get id = some job)
    : job ∈ jobs.values := by
  rw [mem_values, get_id found]
  exact found

/-- No two stored records share an id, because each is stored under its own. -/
theorem values_ids_nodup (jobs : JobMap) : (jobs.values.map Job.id).Nodup := by
  have keys : jobs.values.map Job.id = jobs.entries.keys := by
    simp only [values, AList.keys, List.keys, List.map_map]
    apply List.map_congr_left
    rintro ⟨id, job⟩ member
    exact jobs.keyed id job (AList.mem_lookup_iff.mpr member)
  rw [keys]
  exact jobs.entries.keys_nodup

@[simp] theorem containsKey_eq_true {jobs : JobMap} {id : JobId}
    : jobs.containsKey id = true ↔ ∃ job, jobs.get id = some job :=
  Option.isSome_iff_exists

@[simp] theorem containsKey_eq_false {jobs : JobMap} {id : JobId}
    : jobs.containsKey id = false ↔ jobs.get id = none := by
  simp [containsKey]

end JobMap

end Lane
