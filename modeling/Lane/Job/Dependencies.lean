import Lane.Job.State
import Lane.Job.Queries
import Mathlib.Data.Finset.Sort
import Mathlib.Data.List.Sort

/-! What a caller can read about the children of a flow parent: selected counts, all values, one
page of a bucket, and the results and ignored failures alone. Each read sorts the children into
buckets on its own, from the child list, the side index and the retained jobs.
-/

namespace Lane

/-- The dependency buckets of a flow parent. -/
inductive JobFlowDependencyKind where
  | processed
  | unprocessed
  | ignored
  | failed
deriving DecidableEq

/-- The entries of a `BTreeMap` in the order of their keys. -/
def orderedEntries {α : Type} (map : HashMap JobId α) : List (JobId × α) :=
  (map.entries.map (fun entry => (entry.1, entry.2))).insertionSort
    (fun left right => left.1 ≤ right.1)

-----------------------------------------------------------------------------------------
-- Selected counts
-----------------------------------------------------------------------------------------

/-- The buckets whose counts are asked for. -/
structure JobFlowDependencyCountOptions where
  processed : Bool := false
  unprocessed : Bool := false
  ignored : Bool := false
  failed : Bool := false

/-- Options that name no bucket select all of them. -/
def JobFlowDependencyCountOptions.selected (options : JobFlowDependencyCountOptions)
    : List JobFlowDependencyKind :=
  let kinds : List JobFlowDependencyKind :=
    (if options.processed then [.processed] else [])
      ++ (if options.unprocessed then [.unprocessed] else [])
      ++ (if options.ignored then [.ignored] else [])
      ++ (if options.failed then [.failed] else [])
  if kinds.isEmpty then [.processed, .unprocessed, .ignored, .failed] else kinds

structure JobFlowDependencySelectedCounts where
  processed : Option Nat := none
  unprocessed : Option Nat := none
  ignored : Option Nat := none
  failed : Option Nat := none

namespace JobFlowDependencySelectedCounts

def get (counts : JobFlowDependencySelectedCounts) : JobFlowDependencyKind → Option Nat
  | .processed => counts.processed
  | .unprocessed => counts.unprocessed
  | .ignored => counts.ignored
  | .failed => counts.failed

def insert (counts : JobFlowDependencySelectedCounts) (kind : JobFlowDependencyKind)
    (count : Nat)
    : JobFlowDependencySelectedCounts :=
  match kind with
  | .processed => { counts with processed := some count }
  | .unprocessed => { counts with unprocessed := some count }
  | .ignored => { counts with ignored := some count }
  | .failed => { counts with failed := some count }

end JobFlowDependencySelectedCounts

/-- The count of one bucket. -/
def JobFlowDependencyCounts.count (counts : JobFlowDependencyCounts)
    : JobFlowDependencyKind → Nat
  | .processed => counts.processed
  | .unprocessed => counts.unprocessed
  | .ignored => counts.ignored
  | .failed => counts.failed

def flowDependencySelectedCounts (parent : Job) (jobs : JobMap)
    (index : Option InMemoryFlowDependencyIndex) (options : JobFlowDependencyCountOptions)
    : JobFlowDependencySelectedCounts :=
  let counts := flowDependencyCounts parent jobs index
  options.selected.foldl (fun selected kind => selected.insert kind (counts.count kind)) {}

-----------------------------------------------------------------------------------------
-- Values
-----------------------------------------------------------------------------------------

/-- All buckets of a flow parent. -/
structure JobFlowDependencyValues where
  processed : HashMap JobId Value := ∅
  unprocessed : List JobId := []
  failed : List JobId := []
  ignored : HashMap JobId String := ∅

namespace JobFlowDependencyValues

def addProcessed (values : JobFlowDependencyValues) (childId : JobId) (value : Value)
    : JobFlowDependencyValues :=
  { values with processed := values.processed.insert childId value }

def addIgnored (values : JobFlowDependencyValues) (childId : JobId) (failedReason : String)
    : JobFlowDependencyValues :=
  { values with ignored := values.ignored.insert childId failedReason }

def addFailed (values : JobFlowDependencyValues) (childId : JobId) : JobFlowDependencyValues :=
  { values with failed := values.failed ++ [childId] }

/-- Adds a retained child that the side index does not record. -/
def addRetained (values : JobFlowDependencyValues) (child : Job) : JobFlowDependencyValues :=
  if child.state = .completed then
    match child.returnValue with
    | none => values
    | some returnValue => values.addProcessed child.id returnValue
  else if !child.state.isTerminal then
    { values with unprocessed := values.unprocessed ++ [child.id] }
  else if child.state = .failed then
    if child.options.ignoreDependencyOnFailure || child.options.continueParentOnFailure then
      values.addIgnored child.id (child.failedReason.getD "")
    else if !child.options.removeDependencyOnFailure then
      values.addFailed child.id
    else
      values
  else
    values

end JobFlowDependencyValues

/-- The values read so far and the children that were found in the side index. -/
structure ValuesScan where
  values : JobFlowDependencyValues := {}
  indexedChildren : Finset JobId := ∅

namespace ValuesScan

/-- Takes a listed child from the first bucket of the side index that has it. -/
def addIndexed (scan : ValuesScan) (index : InMemoryFlowDependencyIndex) (childId : JobId)
    : Option ValuesScan :=
  let indexedChildren := insert childId scan.indexedChildren
  match index.processed.lookup childId with
  | some value => some { values := scan.values.addProcessed childId value, indexedChildren }
  | none =>
      match index.ignored.lookup childId with
      | some failedReason =>
          some { values := scan.values.addIgnored childId failedReason, indexedChildren }
      | none =>
          if childId ∈ index.failed then
            some { values := scan.values.addFailed childId, indexedChildren }
          else
            none

/-- Reads one listed child: the side index counts before the retained record. -/
def addChild (jobs : JobMap) (index : Option InMemoryFlowDependencyIndex) (scan : ValuesScan)
    (childId : JobId)
    : ValuesScan :=
  match index.bind (fun index => scan.addIndexed index childId) with
  | some scan => scan
  | none =>
      if flowDependencyIndexContains index childId then
        scan
      else
        match jobs.get childId with
        | none => scan
        | some child => { scan with values := scan.values.addRetained child }

/-- Adds a recorded child unless it was read before. -/
def addUnlisted (scan : ValuesScan) (childId : JobId)
    (add : JobFlowDependencyValues → JobFlowDependencyValues)
    : ValuesScan :=
  if childId ∈ scan.indexedChildren then
    scan
  else
    { values := add scan.values, indexedChildren := insert childId scan.indexedChildren }

/-- Adds the recorded children that the parent does not list. -/
def addIndex (scan : ValuesScan) (index : InMemoryFlowDependencyIndex) : ValuesScan :=
  let scan :=
    (orderedEntries index.processed).foldl
      (fun scan entry => scan.addUnlisted entry.1 (·.addProcessed entry.1 entry.2))
      scan
  let scan :=
    (orderedEntries index.ignored).foldl
      (fun scan entry => scan.addUnlisted entry.1 (·.addIgnored entry.1 entry.2))
      scan
  (index.failed.sort (· ≤ ·)).foldl
    (fun scan childId => scan.addUnlisted childId (·.addFailed childId))
    scan

end ValuesScan

def flowDependencyValues (parent : Job) (jobs : JobMap)
    (index : Option InMemoryFlowDependencyIndex)
    : JobFlowDependencyValues :=
  let scan := parent.childIds.foldl (ValuesScan.addChild jobs index) {}
  match index with
  | none => scan.values
  | some index => (scan.addIndex index).values

-----------------------------------------------------------------------------------------
-- Pages
-----------------------------------------------------------------------------------------

structure JobFlowDependencyPageOptions where
  kind : JobFlowDependencyKind
  cursor : Nat := 0
  count : Nat := 20

/-- One entry of a page. -/
inductive JobFlowDependencyPageItem where
  | processed (childId : JobId) (value : Value)
  | unprocessed (childId : JobId)
  | ignored (childId : JobId) (failedReason : String)
  | failed (childId : JobId)

def JobFlowDependencyPageItem.childId : JobFlowDependencyPageItem → JobId
  | .processed childId _ => childId
  | .unprocessed childId => childId
  | .ignored childId _ => childId
  | .failed childId => childId

structure JobFlowDependencyPage where
  kind : JobFlowDependencyKind
  items : List JobFlowDependencyPageItem
  nextCursor : Nat
  count : Nat

def indexedFlowDependencyPageItem (index : Option InMemoryFlowDependencyIndex)
    (childId : JobId) (kind : JobFlowDependencyKind)
    : Option JobFlowDependencyPageItem :=
  index.bind (fun index =>
    match kind with
    | .processed => (index.processed.lookup childId).map (.processed childId)
    | .ignored => (index.ignored.lookup childId).map (.ignored childId)
    | .failed => if childId ∈ index.failed then some (.failed childId) else none
    | .unprocessed => none)

def retainedFlowDependencyPageItem (child : Job) (kind : JobFlowDependencyKind)
    : Option JobFlowDependencyPageItem :=
  match kind with
  | .processed =>
      if child.state = .completed then child.returnValue.map (.processed child.id) else none
  | .unprocessed => if !child.state.isTerminal then some (.unprocessed child.id) else none
  | .ignored =>
      if child.state = .failed
          ∧ (child.options.ignoreDependencyOnFailure
            || child.options.continueParentOnFailure) then
        some (.ignored child.id (child.failedReason.getD ""))
      else
        none
  | .failed =>
      if child.state = .failed
          ∧ !child.options.ignoreDependencyOnFailure
          ∧ !child.options.continueParentOnFailure
          ∧ !child.options.removeDependencyOnFailure then
        some (.failed child.id)
      else
        none

/-- The items read so far and the children that were found in the side index. -/
structure PageScan where
  bucket : List JobFlowDependencyPageItem := []
  indexedChildren : Finset JobId := ∅

namespace PageScan

/-- Reads one listed child. -/
def addChild (jobs : JobMap) (index : Option InMemoryFlowDependencyIndex)
    (kind : JobFlowDependencyKind) (scan : PageScan) (childId : JobId)
    : PageScan :=
  match indexedFlowDependencyPageItem index childId kind with
  | some item =>
      { bucket := scan.bucket ++ [item]
        indexedChildren := insert childId scan.indexedChildren }
  | none =>
      if flowDependencyIndexContains index childId then
        scan
      else
        match jobs.get childId with
        | none => scan
        | some child =>
            match retainedFlowDependencyPageItem child kind with
            | none => scan
            | some item => { scan with bucket := scan.bucket ++ [item] }

/-- Adds a recorded child unless it was read before. -/
def addUnlisted (scan : PageScan) (item : JobFlowDependencyPageItem) : PageScan :=
  if item.childId ∈ scan.indexedChildren then
    scan
  else
    { bucket := scan.bucket ++ [item]
      indexedChildren := insert item.childId scan.indexedChildren }

/-- Adds the recorded children of the bucket that the parent does not list. -/
def addIndex (scan : PageScan) (index : InMemoryFlowDependencyIndex)
    : JobFlowDependencyKind → PageScan
  | .processed =>
      (orderedEntries index.processed).foldl
        (fun scan entry => scan.addUnlisted (.processed entry.1 entry.2))
        scan
  | .ignored =>
      (orderedEntries index.ignored).foldl
        (fun scan entry => scan.addUnlisted (.ignored entry.1 entry.2))
        scan
  | .failed =>
      (index.failed.sort (· ≤ ·)).foldl
        (fun scan childId => scan.addUnlisted (.failed childId))
        scan
  | .unprocessed => scan

end PageScan

def flowDependencyPageItems (parent : Job) (jobs : JobMap)
    (index : Option InMemoryFlowDependencyIndex) (kind : JobFlowDependencyKind)
    : List JobFlowDependencyPageItem :=
  let scan := parent.childIds.foldl (PageScan.addChild jobs index kind) {}
  match index with
  | none => scan.bucket
  | some index => (scan.addIndex index kind).bucket

/-- One page of a bucket. The end saturates only beyond the length of any vector, so the plain
sum is clamped to the same end.
-/
def flowDependencyPage (parent : Job) (jobs : JobMap)
    (index : Option InMemoryFlowDependencyIndex) (options : JobFlowDependencyPageOptions)
    : JobFlowDependencyPage :=
  let bucket := flowDependencyPageItems parent jobs index options.kind
  let count := max options.count 1
  let first := min options.cursor bucket.length
  let last := min (first + count) bucket.length
  { kind := options.kind
    items := (bucket.take last).drop first
    nextCursor := if last < bucket.length then last else 0
    count }

-----------------------------------------------------------------------------------------
-- Results and ignored failures
-----------------------------------------------------------------------------------------

def flowChildrenValues (parent : Job) (jobs : JobMap)
    (index : Option InMemoryFlowDependencyIndex)
    : HashMap JobId Value :=
  parent.childIds.foldl
    (fun values childId =>
      if flowDependencyIndexContains index childId then
        values
      else
        match jobs.get childId with
        | none => values
        | some child =>
            if child.state = .completed then
              match child.returnValue with
              | none => values
              | some returnValue => values.insert child.id returnValue
            else
              values)
    ((index.map InMemoryFlowDependencyIndex.processed).getD ∅)

def flowIgnoredChildrenFailures (parent : Job) (jobs : JobMap)
    (index : Option InMemoryFlowDependencyIndex)
    : HashMap JobId String :=
  parent.childIds.foldl
    (fun failures childId =>
      if flowDependencyIndexContains index childId then
        failures
      else
        match jobs.get childId with
        | none => failures
        | some child =>
            if child.state = .failed
                ∧ (child.options.ignoreDependencyOnFailure
                  || child.options.continueParentOnFailure) then
              failures.insert child.id (child.failedReason.getD "")
            else
              failures)
    ((index.map InMemoryFlowDependencyIndex.ignored).getD ∅)

-----------------------------------------------------------------------------------------
-- Reads under the lock
-----------------------------------------------------------------------------------------

namespace InMemoryJobQueueState

/-- A read of a retained parent with its side index. -/
def readFlow {α : Type} (s : InMemoryJobQueueState) (parentId : JobId)
    (view : Job → JobMap → Option InMemoryFlowDependencyIndex → α)
    : Option α :=
  (s.jobs.get parentId).map (fun parent =>
    view parent s.jobs (s.flowDependencies.lookup parentId))

def getFlowDependencySelectedCounts (s : InMemoryJobQueueState) (parentId : JobId)
    (options : JobFlowDependencyCountOptions)
    : Option JobFlowDependencySelectedCounts :=
  s.readFlow parentId (flowDependencySelectedCounts · · · options)

def getFlowDependencyValues (s : InMemoryJobQueueState) (parentId : JobId)
    : Option JobFlowDependencyValues :=
  s.readFlow parentId flowDependencyValues

def getFlowDependencyPage (s : InMemoryJobQueueState) (parentId : JobId)
    (options : JobFlowDependencyPageOptions)
    : Option JobFlowDependencyPage :=
  s.readFlow parentId (flowDependencyPage · · · options)

def getFlowChildrenValues (s : InMemoryJobQueueState) (parentId : JobId)
    : Option (HashMap JobId Value) :=
  s.readFlow parentId flowChildrenValues

def getFlowIgnoredChildrenFailures (s : InMemoryJobQueueState) (parentId : JobId)
    : Option (HashMap JobId String) :=
  s.readFlow parentId flowIgnoredChildrenFailures

end InMemoryJobQueueState

end Lane
