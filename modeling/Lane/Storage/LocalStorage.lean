import Lane.Command.Queue
import Lane.Job.SnapshotRoundTrip
import Lane.Library.GuardedFile

/-! The filesystem storage of a command queue: a cache of the pending commands and one of the dead
letters, each behind a lock of its own and each with a file of its own.
-/

namespace Lane

structure StoredDeadLetter where
  commandId : String
  commandType : String
  laneId : String
  error : String
  attempts : Nat
  failedAt : DateTime

-----------------------------------------------------------------------------------------
-- What is written of a record
-----------------------------------------------------------------------------------------

section Records

variable (serde : Serde)

def StoredCommand.serialize (command : StoredCommand) : Value :=
  document
    [ ("id", some (.string command.id)),
      ("command_type", some (.string command.commandType)),
      ("lane_id", some (.string command.laneId)),
      ("payload", some command.payload),
      ("retry_count", some (writeNat command.retryCount)),
      ("created_at", some (writeDate serde command.createdAt)),
      ("last_attempt_at", some (writeOption (writeDate serde) command.lastAttemptAt)) ]

def StoredCommand.deserialize : Value → Option StoredCommand
  | .object fields => do
      let id ← requiredField fields "id" readString
      let commandType ← requiredField fields "command_type" readString
      let laneId ← requiredField fields "lane_id" readString
      let payload ← requiredField fields "payload" some
      let retryCount ← requiredField fields "retry_count" readNat
      let createdAt ← requiredField fields "created_at" (readDate serde)
      let lastAttemptAt ← optionalField fields "last_attempt_at" (readDate serde)
      return { id, commandType, laneId, payload, retryCount, createdAt, lastAttemptAt }
  | _ => none

def StoredDeadLetter.serialize (letter : StoredDeadLetter) : Value :=
  document
    [ ("command_id", some (.string letter.commandId)),
      ("command_type", some (.string letter.commandType)),
      ("lane_id", some (.string letter.laneId)),
      ("error", some (.string letter.error)),
      ("attempts", some (writeNat letter.attempts)),
      ("failed_at", some (writeDate serde letter.failedAt)) ]

def StoredDeadLetter.deserialize : Value → Option StoredDeadLetter
  | .object fields => do
      let commandId ← requiredField fields "command_id" readString
      let commandType ← requiredField fields "command_type" readString
      let laneId ← requiredField fields "lane_id" readString
      let error ← requiredField fields "error" readString
      let attempts ← requiredField fields "attempts" readNat
      let failedAt ← requiredField fields "failed_at" (readDate serde)
      return { commandId, commandType, laneId, error, attempts, failedAt }
  | _ => none

end Records

variable {serde : Serde}

@[simp] theorem StoredCommand.deserialize_serialize (command : StoredCommand)
    : StoredCommand.deserialize serde (command.serialize serde) = some command := by
  simp [StoredCommand.serialize, StoredCommand.deserialize, document, requiredField,
    optionalField, readString]

@[simp] theorem StoredDeadLetter.deserialize_serialize (letter : StoredDeadLetter)
    : StoredDeadLetter.deserialize serde (letter.serialize serde) = some letter := by
  simp [StoredDeadLetter.serialize, StoredDeadLetter.deserialize, document, requiredField,
    readString]

-----------------------------------------------------------------------------------------
-- The two caches
-----------------------------------------------------------------------------------------

/-- What the calls of the storage do to the cache of commands. -/
inductive CommandsChange where
  | saveCommand (command : StoredCommand)
  | removeCommand (id : CommandId)
  | clearAll

/-- What the calls of the storage do to the cache of dead letters. -/
inductive DeadLettersChange where
  | saveDeadLetter (letter : StoredDeadLetter)
  | clearDeadLetters
  | clearAll

namespace LocalStorage

abbrev Commands := HashMap CommandId StoredCommand

def applyCommands (commands : Commands) : CommandsChange → Commands
  | .saveCommand command => commands.insert command.id command
  | .removeCommand id => commands.erase id
  | .clearAll => ∅

def applyDeadLetters (letters : List StoredDeadLetter)
    : DeadLettersChange → List StoredDeadLetter
  | .saveDeadLetter letter => letters ++ [letter]
  | .clearDeadLetters => []
  | .clearAll => []

variable (serde : Serde)

/-- `persist_commands`: the text that the file gets. -/
def commandsText (commands : Commands) : Value :=
  .array (commands.entries.map (fun entry => entry.2.serialize serde))

/-- `persist_dead_letters`. -/
def deadLettersText (letters : List StoredDeadLetter) : Value :=
  .array (letters.map (StoredDeadLetter.serialize serde))

/-- `load_from_disk`: the commands of the file, or none where it is missing or not readable. -/
def loadCommands (file : Option Value) : Commands :=
  match file.bind (readList (StoredCommand.deserialize serde)) with
  | none => ∅
  | some commands => commands.foldl (fun cache command => cache.insert command.id command) ∅

def loadDeadLetters (file : Option Value) : List StoredDeadLetter :=
  (file.bind (readList (StoredDeadLetter.deserialize serde))).getD []

/-- The commands and their file. `clear_all` removes the file, all other calls write it. -/
def commandsFile : GuardedFile Commands Value CommandsChange where
  apply := applyCommands
  snapshot := commandsText serde
  removes
    | .clearAll => true
    | _ => false
  blank := .array []

/-- The dead letters and their file. -/
def deadLettersFile : GuardedFile (List StoredDeadLetter) Value DeadLettersChange where
  apply := applyDeadLetters
  snapshot := deadLettersText serde
  removes
    | .clearAll => true
    | _ => false
  blank := .array []

end LocalStorage

end Lane
