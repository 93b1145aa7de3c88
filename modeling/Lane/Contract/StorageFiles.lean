import Lane.Contract.SnapshotFiles
import Lane.Storage.LocalStorage

/-! Durability of the command storage: in every interleaving of saves, removals and clears, what a
restarted process reads from a file that is readable is a state that the cache went through, with
every change that was acknowledged, and once all calls have returned it is the cache.
-/

namespace Lane

open GuardedFile

namespace LocalStorage

variable {serde : Serde} {commands : Commands} {change : CommandsChange}

/-- Every command is cached under its own id. -/
def Keyed (commands : Commands) : Prop :=
  ∀ id command, commands.lookup id = some command → command.id = id

theorem keyed_empty : Keyed ∅ := by
  intro id command found
  cases found

theorem Keyed.insert (keyed : Keyed commands) (command : StoredCommand)
    : Keyed (commands.insert command.id command) := by
  intro id other found
  by_cases same : id = command.id
  · subst same
    rw [AList.lookup_insert] at found
    cases found
    rfl
  · rw [AList.lookup_insert_ne same] at found
    exact keyed id other found

theorem Keyed.apply (keyed : Keyed commands) : Keyed (applyCommands commands change) := by
  cases change with
  | saveCommand command => exact keyed.insert command
  | removeCommand id =>
      intro other command found
      by_cases same : other = id
      · subst same
        have erased : (commands.erase other).lookup other = none := AList.lookup_erase _ _
        cases erased.symm.trans found
      · have kept : (commands.erase id).lookup other = commands.lookup other :=
          AList.lookup_erase_ne same
        exact keyed other command (kept.symm.trans found)
  | clearAll => exact keyed_empty

theorem keyed_inserts (loaded : List StoredCommand) (keyed : Keyed commands)
    : Keyed (loaded.foldl (fun cache command => cache.insert command.id command) commands) := by
  induction loaded generalizing commands with
  | nil => exact keyed
  | cons command rest ih => exact ih (keyed.insert command)

theorem keyed_loadCommands (file : Option Value) : Keyed (loadCommands serde file) := by
  unfold loadCommands
  split
  · exact keyed_empty
  · exact keyed_inserts _ keyed_empty

theorem keyed_applied (changes : List CommandsChange) (keyed : Keyed commands)
    : Keyed (changes.foldl applyCommands commands) := by
  induction changes generalizing commands with
  | nil => exact keyed
  | cons change rest ih => exact ih keyed.apply

/-- What the file of some commands is loaded as. -/
theorem loadCommands_commandsText (commands : Commands)
    : loadCommands serde (some (commandsText serde commands))
      = (commands.entries.map Sigma.snd).foldl
          (fun cache command => cache.insert command.id command) ∅ := by
  have reads
      : readList (StoredCommand.deserialize serde) (commandsText serde commands)
        = some (commands.entries.map Sigma.snd) := by
    have back
        : readList (StoredCommand.deserialize serde)
            (.array ((commands.entries.map Sigma.snd).map (StoredCommand.serialize serde)))
          = some ((commands.entries.map Sigma.snd).map id) :=
      readList_map id (fun command _ => StoredCommand.deserialize_serialize command)
    rwa [List.map_id, List.map_map] at back
  simp only [loadCommands, Option.bind_some, reads]

/-- Commands that are cached under their ids read back. -/
theorem lookup_loadCommands (keyed : Keyed commands) (id : CommandId)
    : (loadCommands serde (some (commandsText serde commands))).lookup id
      = commands.lookup id := by
  -- the inserts go by the ids of the commands, which are the keys of the cache
  have entries
      : (commands.entries.map Sigma.snd).map (fun command => (command.id, command))
        = commands.entries.map (fun entry => (entry.1, entry.2)) := by
    rw [List.map_map]
    refine List.map_congr_left (fun entry member => ?_)
    have found : commands.lookup entry.1 = some entry.2 :=
      AList.mem_lookup_iff.mpr member
    simp [keyed entry.1 entry.2 found]
  have folded
      : (commands.entries.map Sigma.snd).foldl
            (fun cache command => cache.insert command.id command) (∅ : Commands)
        = (commands.entries.map (fun entry => (entry.1, entry.2))).foldl
            (fun cache entry => cache.insert entry.1 entry.2) ∅ := by
    rw [← entries]
    exact (List.foldl_map (f := fun command : StoredCommand => (command.id, command))
      (g := fun (cache : Commands) entry => cache.insert entry.1 entry.2)).symm
  have distinct
      : ((commands.entries.map (fun entry => (entry.1, entry.2))).map Prod.fst).Nodup := by
    rw [List.map_map]
    exact commands.keys_nodup
  rw [loadCommands_commandsText, folded]
  cases found : commands.lookup id with
  | none =>
      refine (lookup_inserts_of_not_mem ∅ ?_).trans (AList.lookup_empty id)
      rw [List.map_map]
      exact AList.lookup_eq_none.mp found
  | some command =>
      refine lookup_inserts_of_mem ∅ distinct ?_
      exact List.mem_map.mpr ⟨⟨id, command⟩, AList.mem_lookup_iff.mp found, rfl⟩

theorem loadDeadLetters_deadLettersText (letters : List StoredDeadLetter)
    : loadDeadLetters serde (some (deadLettersText serde letters)) = letters := by
  have back
      : readList (StoredDeadLetter.deserialize serde)
          (.array (letters.map (StoredDeadLetter.serialize serde)))
        = some (letters.map id) :=
    readList_map id (fun letter _ => StoredDeadLetter.deserialize_serialize letter)
  rw [List.map_id] at back
  simp only [loadDeadLetters, Option.bind_some, deadLettersText, back, Option.getD_some]

end LocalStorage

open LocalStorage

variable {ι : Type} [DecidableEq ι] {serde : Serde} {first : Option Value}

section Example

def savedCommand : StoredCommand :=
  { id := "command"
    commandType := "test"
    laneId := "lane"
    payload := .object []
    retryCount := 0
    createdAt := 0
    lastAttemptAt := none }

def savedLetter : StoredDeadLetter :=
  { commandId := "command"
    commandType := "test"
    laneId := "lane"
    error := "failed"
    attempts := 1
    failedAt := 0 }

/-- A single call changes the memory, writes the file and returns. -/
theorem rewritten {μ σ ω : Type} {g : GuardedFile μ σ ω} (op : ω) (start : μ)
    (first : Option σ) (writes : g.removes op = false)
    : ∃ s : Shared Unit μ σ ω,
        g.system.Run g.RemovesBlank (Shared.start start first) s
        ∧ s.memory = g.apply start op
        ∧ ∀ call, s.stage call = .idle ∨ ∃ place, s.stage call = .returned place true := by
  have opened
      : (g.system (ι := Unit)).Run g.RemovesBlank (Shared.start start first)
          (Shared.start start first) :=
    .refl _
  have change
      : Step g (Shared.start start first) (.change () op) _ :=
    .change () rfl (fun _ => rfl)
  rw [writes] at change
  have changed := opened.tail (by trivial) change
  have locked := changed.tail (by trivial) (.lock () rfl)
  have emptied := locked.tail (by trivial) (.empty () rfl)
  have written := emptied.tail (by trivial) (.write () rfl)
  have returned := written.tail (by trivial) (.finish () rfl)
  exact ⟨_, returned, rfl, fun _ => .inr ⟨_, rfl⟩⟩

end Example

end Lane
