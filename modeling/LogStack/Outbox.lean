/-
The sender's outbox (`sender/src/outbox.ts`, `sender/src/failed-journal.ts`).

An append-only JSON Lines journal with a byte offset up to which it is confirmed:

* `outbox.jsonl` — recorded events, appended and synced before `appendMany` returns;
* `checkpoint.json` — the confirmed offset and the counters of earlier compactions,
  replaced atomically through a temporary file;
* `failed.jsonl` — events that are given up, at most one record for each event id;
* `outbox.jsonl.compact`, `compaction.json` — a compaction in progress.

The methods are programs over these files (`FileProgram`); the class's fields are their
state.  Events are handled as the values that `JSON.parse` gives, as the source does.
-/
import LogStack.FileProgram
import LogStack.Lines
import Mathlib.Algebra.GroupWithZero.Nat

open FileProgram Lines

/-- The line separator `'\n'`. -/
def newline : UInt8 := 0x0a

def COMPACT_THRESHOLD_BYTES : ℕ := 4 * 1024 * 1024

/-- The block of the file readers, `64 * 1024` bytes. -/
def BLOCK_BYTES : ℕ := 64 * 1024

/-! ### Files -/

def journalPath : String := "outbox.jsonl"

def checkpointPath : String := "checkpoint.json"

def failedPath : String := "failed.jsonl"

def compactPath : String := journalPath ++ ".compact"

def compactManifestPath : String := "compaction.json"

def tmpPath (path : String) : String := path ++ ".tmp"

/-! ### Records -/

/-- `isEventRecord`: an object with a string `event_id`. -/
def isEventRecord (value : Json) : Bool :=
  match value.get? (js "event_id") with
  | some (.str _) => true
  | _ => false

/-- The property `event_id` of a value typed as an event. -/
def eventId (event : Json) : JsString :=
  match event.get? (js "event_id") with
  | some (.str id) => id
  | _ => []

structure PendingEntry where
  event : Json
  /-- The bytes of the event's journal line, with its line break. -/
  bytes : ℕ
  /-- The bytes of the event itself in a batch. -/
  eventBytes : ℕ

structure JournalEntry extends PendingEntry where
  start : ℕ
  endOffset : ℕ

structure CheckpointState where
  offset : ℕ
  /-- Events that earlier compactions removed from the journal. -/
  journalBaseCount : ℕ
  /-- Confirmed events at the head of the present journal. -/
  confirmedSinceCompaction : ℕ
  deriving DecidableEq

def CheckpointState.fallback : CheckpointState := ⟨0, 0, 0⟩

def CheckpointState.toJson (state : CheckpointState) : Json :=
  .obj [(js "offset", .nat state.offset),
    (js "journalBaseCount", .nat state.journalBaseCount),
    (js "confirmedSinceCompaction", .nat state.confirmedSinceCompaction)]

/-- The manifest `{ checkpoint }` of a compaction. -/
def compactionManifest (checkpoint : CheckpointState) : Json :=
  .obj [(js "checkpoint", checkpoint.toJson)]

/-- `isCheckpointState`, with the state it admits. -/
def asCheckpointState? (value : Option Json) : Option CheckpointState := do
  let state ← value
  let offset ← Json.nonNegativeInteger (state.get? (js "offset"))
  let base ← Json.nonNegativeInteger (state.get? (js "journalBaseCount"))
  let confirmed ← Json.nonNegativeInteger (state.get? (js "confirmedSinceCompaction"))
  pure ⟨offset, base, confirmed⟩

/-- The fields of the class `Outbox`. -/
structure Outbox where
  fd : ℕ := 0
  pending : List PendingEntry := []
  checkpointOffset : ℕ := 0
  journalBaseCount : ℕ := 0
  confirmedSinceCompaction : ℕ := 0
  journalEntryCount : ℕ := 0
  failedEventIds : List JsString := []
  failedUniqueCount : ℕ := 0
  failedWriteFault : Bool := false
  closed : Bool := false
  truncatedLines : ℕ := 0
  failedIdCacheLimit : ℕ

abbrev OutboxM := Prog String Outbox

namespace Outbox

def pendingCount (ob : Outbox) : ℕ := ob.pending.length

def pendingBytes (ob : Outbox) : ℕ := (ob.pending.map PendingEntry.bytes).sum

def recordedCount (ob : Outbox) : ℕ := ob.journalBaseCount + ob.journalEntryCount

def failedCount (ob : Outbox) : ℕ := ob.failedUniqueCount

def cachedFailedIdCount (ob : Outbox) : ℕ := ob.failedEventIds.length

def checkpointState (ob : Outbox) : CheckpointState :=
  ⟨ob.checkpointOffset, ob.journalBaseCount, ob.confirmedSinceCompaction⟩

def peekBatchFrom (maxCount maxBytes : ℕ) : List PendingEntry → List Json → ℕ → List Json
  | [], batch, _ => batch
  | entry :: rest, batch, bytes =>
    if maxCount ≤ batch.length then batch
    else
      let additionalBytes := entry.eventBytes + (if batch.length = 0 then 0 else 1)
      if 0 < batch.length ∧ maxBytes < bytes + additionalBytes then batch
      else peekBatchFrom maxCount maxBytes rest (batch ++ [entry.event]) (bytes + additionalBytes)

/-- A head of the queue that stays within `maxCount` events and, unless it is a single
event, within `maxBytes` bytes; an empty batch takes `emptyBytes`. -/
def peekBatch (ob : Outbox) (emptyBytes maxCount maxBytes : ℕ) : List Json :=
  peekBatchFrom maxCount maxBytes ob.pending [] emptyBytes

/-! ### File helpers -/

/-- The loop of `writeAll`; each pass stores at least one byte of `rest`, so that its
length bounds the passes. -/
def writeAllFrom (fd : ℕ) : ℕ → Bytes → OutboxM Unit
  | _, [] => pure ()
  | 0, _ :: _ => .throw (.error "failed to append outbox journal")
  | passes + 1, rest => do
    let written ← writeSync fd rest
    if written = 0 then .throw (.error "failed to append outbox journal")
    else writeAllFrom fd passes (rest.drop written)

def writeAll (fd : ℕ) (value : Bytes) : OutboxM Unit := writeAllFrom fd value.length value

/-- `try { fsyncSync(fd) } finally { closeSync(fd) }` -/
def fsyncAndClose (fd : ℕ) : OutboxM Unit := Prog.tryFinally (fsyncSync fd) (closeSync fd)

def fsyncDirectory : OutboxM Unit := do
  let fd ← openDirSync
  fsyncAndClose fd

/-- `writeFileSync(path, data)`, then opening the file again to sync it. -/
def writeSynced (path : String) (data : Bytes) : OutboxM Unit := do
  writeFileSync path data
  let fd ← openSync path .rw
  fsyncAndClose fd

def statSize (path : String) : OutboxM ℕ := do
  if ← existsSync path then statSync path else pure 0

/-- Looking for the last line break block by block from `position` down; the length of the
file up to it. Each pass moves `position` down, which bounds the passes. -/
def tailLength (fd blockBytes : ℕ) : ℕ → ℕ → OutboxM ℕ
  | _, 0 => pure 0
  | 0, _ + 1 => .throw (.error "short read during journal tail repair")
  | passes + 1, position => do
    let count := min blockBytes position
    let block ← readSync fd count (position - count)
    if block.length ≠ count then .throw (.error "short read during journal tail repair")
    else match lastIndexOf newline block with
      | some index => pure (position - count + index + 1)
      | none => tailLength fd blockBytes passes (position - count)

/-- Cut off what follows the last line break and report whether there was anything. The file is
read in blocks of `blockBytes`. -/
def truncateIncompleteTailBy (blockBytes : ℕ) (path : String) : OutboxM ℕ := do
  match ← (openSync path .rw).attempt with
  | .error (.errno .ENOENT) => pure 0
  | .error e => .throw e
  | .ok fd => do
    let cut ← Prog.tryFinally (do
      let size ← fstatSync fd
      if size = 0 then pure false
      else do
        let length ← tailLength fd blockBytes size size
        if length = size then pure false
        else do
          ftruncateSync fd length
          fsyncSync fd
          pure true) (closeSync fd)
    if cut then do
      fsyncDirectory
      pure 1
    else pure 0

def truncateIncompleteTail (path : String) : OutboxM ℕ := truncateIncompleteTailBy BLOCK_BYTES path

variable (J : JsonText)

def writeAtomicJson (path : String) (value : Json) : OutboxM Unit := do
  writeSynced (tmpPath path) (J.stringify value)
  renameSync (tmpPath path) path
  fsyncDirectory

def persistCheckpoint (state : CheckpointState) : OutboxM Unit :=
  writeAtomicJson J checkpointPath state.toJson

/-! ### The failed journal -/

section FailedJournal

variable {σ : Type}

/-- The id of one record of the failed journal. -/
def failedRecordId (line : Bytes) : Except Failure JsString :=
  match J.parse line with
  | none => .error (.error "Unexpected token in JSON")
  | some record =>
    match (record.get? (js "event")).bind fun event => event.get? (js "event_id") with
    | some (.str id) => .ok id
    | _ => .error (.error "failed journal contains invalid JSON")

/-- Hand the records of some lines to the consumer's loop body, from offset `lineStart` on;
a body that ends the loop answers `done`. -/
def yieldRecords (body : JsString → ℕ → σ → OutboxM (ForInStep σ)) :
    List Bytes → ℕ → σ → OutboxM (ForInStep (ℕ × σ))
  | [], lineStart, s => pure (.yield (lineStart, s))
  | line :: lines, lineStart, s => do
    let id ← Prog.ofExcept (failedRecordId J line)
    match ← body id lineStart s with
    | .done s => pure (.done (lineStart, s))
    | .yield s => yieldRecords body lines (lineStart + (line.length + 1)) s

/-- The scan of `failedJournalIds`: one block at a time, with the unfinished line of the
blocks before. `none` as `stop` is `Infinity`. -/
def scanBlocks (fd blockBytes : ℕ) (stop : Option ℕ)
    (body : JsString → ℕ → σ → OutboxM (ForInStep σ)) :
    ℕ → ℕ → ℕ → Bytes → σ → OutboxM σ
  | 0, _, _, _, _ => .throw (.error "failed journal contains incomplete line")
  | passes + 1, position, lineStart, unfinished, s =>
    let finish : OutboxM σ :=
      if unfinished.length ≠ 0 then .throw (.error "failed journal contains incomplete line")
      else pure s
    if stop.all fun stop => decide (position < stop) then do
      let length := stop.elim blockBytes fun stop => min blockBytes (stop - position)
      let block ← readSync fd length position
      if block.length = 0 then finish
      else do
        let (lines, rest) := splitLines newline (unfinished ++ block)
        match ← yieldRecords J body lines lineStart s with
        | .done (_, s) => pure s
        | .yield (lineStart, s) =>
          scanBlocks fd blockBytes stop body passes (position + block.length) lineStart rest s
    else finish

/-- `for (const { id, offset } of failedJournalIds(path, stop)) { body }`, in blocks of
`blockBytes`. The descriptor is closed whichever way the loop ends. Every pass but the last
reads a byte. -/
def forFailedJournalIdsBy (blockBytes : ℕ) (path : String) (stop : Option ℕ)
    (body : JsString → ℕ → σ → OutboxM (ForInStep σ)) (s : σ) : OutboxM σ := do
  let fd ← openSync path .r
  .peek fun w => Prog.tryFinally
    (scanBlocks J fd blockBytes stop body (((w.files path).getD []).length + 1) 0 0 [] s)
    (closeSync fd)

def forFailedJournalIds (path : String) (stop : Option ℕ)
    (body : JsString → ℕ → σ → OutboxM (ForInStep σ)) (s : σ) : OutboxM σ :=
  forFailedJournalIdsBy J BLOCK_BYTES path stop body s

end FailedJournal

def cacheFailedId (id : JsString) : OutboxM Unit :=
  Prog.modify fun ob =>
    if ob.failedEventIds.length < ob.failedIdCacheLimit ∧ id ∉ ob.failedEventIds then
      { ob with failedEventIds := ob.failedEventIds ++ [id] }
    else ob

def hasFailedId (id : JsString) (stop : Option ℕ) : OutboxM Bool := do
  let ob ← Prog.fields
  if id ∈ ob.failedEventIds then pure true
  else if ob.failedUniqueCount ≤ ob.failedEventIds.length then pure false
  else
    forFailedJournalIds J failedPath stop
      (fun entryId _ found => pure (if entryId = id then .done true else .yield found)) false

def countFailedId (id : JsString) : OutboxM Unit := do
  cacheFailedId id
  Prog.modify fun ob => { ob with failedUniqueCount := ob.failedUniqueCount + 1 }

def loadFailedEventIds : OutboxM Unit := do
  match ← (statSync failedPath).attempt with
  | .error (.errno .ENOENT) => pure ()
  | .error e => .throw e
  | .ok _ =>
    forFailedJournalIds J failedPath none
      (fun id offset _ => do
        if ← hasFailedId J id (some offset) then pure (.yield ())
        else do
          countFailedId id
          pure (.yield ())) ()

/-- The events of a call that are new to it and to the failed journal. -/
def newFailedEvents (seenThisCall : List JsString) : List Json → OutboxM (List Json)
  | [] => pure []
  | event :: rest => do
    if eventId event ∈ seenThisCall then newFailedEvents seenThisCall rest
    else if ← hasFailedId J (eventId event) none then newFailedEvents seenThisCall rest
    else do
      let newEvents ← newFailedEvents (eventId event :: seenThisCall) rest
      pure (event :: newEvents)

/-- `{ quarantined_at, ...detail, reason, event }` -/
def failedRecord (quarantinedAt reason : JsString) (detail : List (JsString × Json))
    (event : Json) : Json :=
  .obj (Json.assign (Json.assign [(js "quarantined_at", .str quarantinedAt)] detail)
    [(js "reason", .str reason), (js "event", event)])

/-- A failed write may have persisted a prefix, so this process makes no further one. -/
def poisonFailedJournal (e : Failure) : OutboxM Unit := do
  Prog.modify fun ob => { ob with failedWriteFault := true }
  .throw e

/-- Append the records `lines` and sync them and their directory. -/
def writeFailedRecords (lines : List Bytes) : OutboxM Unit := do
  match ← (openSync failedPath .a).attempt with
  | .error e => poisonFailedJournal e
  | .ok fd =>
    Prog.tryFinally (Prog.tryCatch (do
      writeAll fd (List.intercalate [newline] lines ++ [newline])
      fsyncSync fd
      fsyncDirectory) poisonFailedJournal) (closeSync fd)

/-- Move events to the failed journal, one record for each event id. `clock` is the time
at which each event's record is made. -/
def quarantine (clock : Json → JsString) (events : List Json) (reason : JsString)
    (detail : List (JsString × Json)) : OutboxM ℕ := do
  let ob ← Prog.fields
  if ob.failedWriteFault then .throw (.error "failed journal write fault; reopen required")
  else do
    let newEvents ← newFailedEvents J [] events
    if newEvents.isEmpty then pure 0
    else do
      writeFailedRecords (newEvents.map fun event =>
        J.stringify (failedRecord (clock event) reason detail event))
      newEvents.forM fun event => countFailedId (eventId event)
      pure newEvents.length

/-! ### The journal -/

/-- The journal line of an event. -/
def line (event : Json) : Bytes := J.stringify event ++ [newline]

def entryOf (event : Json) : PendingEntry :=
  ⟨event, (line J event).length, (J.stringify event).length⟩

/-- Record events: append their lines and sync before they are queued. -/
def appendMany (events : List Json) : OutboxM Unit := do
  if events.isEmpty then pure ()
  else do
    let ob ← Prog.fields
    writeAll ob.fd (events.map (line J)).flatten
    fsyncSync ob.fd
    Prog.modify fun ob => { ob with
      pending := ob.pending ++ events.map (entryOf J)
      journalEntryCount := ob.journalEntryCount + events.length }

/-- The last steps of `compact` and of `recoverCompaction`. -/
def finishCompaction (state : CheckpointState) : OutboxM Unit := do
  persistCheckpoint J state
  unlinkSync compactManifestPath
  fsyncDirectory

/-- Cut the confirmed head off the journal. The manifest is written first, so that the next
open finishes what a kill interrupts. -/
def compact : OutboxM Unit := do
  let ob ← Prog.fields
  closeSync ob.fd
  Prog.modify fun ob => { ob with closed := true }
  let lines := ob.pending.map fun entry => line J entry.event
  writeSynced compactPath lines.flatten
  let nextState : CheckpointState :=
    ⟨0, ob.journalBaseCount + ob.confirmedSinceCompaction, 0⟩
  writeAtomicJson J compactManifestPath (compactionManifest nextState)
  renameSync compactPath journalPath
  fsyncDirectory
  finishCompaction J nextState
  Prog.modify fun ob => { ob with
    checkpointOffset := 0
    journalBaseCount := nextState.journalBaseCount
    confirmedSinceCompaction := 0
    journalEntryCount := ob.pending.length
    pending := ob.pending.map fun entry => entryOf J entry.event }
  let fd ← openSync journalPath .a
  Prog.modify fun ob => { ob with fd := fd, closed := false }

/-- Confirm the first `count` events of the queue. -/
def confirm (count : ℕ) : OutboxM Unit := do
  let ob ← Prog.fields
  if ob.pending.length < count then
    .throw (.error ("invalid outbox confirm count: " ++ toString count))
  else if count = 0 then pure ()
  else do
    let confirmed := ob.pending.take count
    Prog.modify fun ob => { ob with
      pending := ob.pending.drop count
      checkpointOffset := ob.checkpointOffset + (confirmed.map PendingEntry.bytes).sum
      confirmedSinceCompaction := ob.confirmedSinceCompaction + confirmed.length }
    let ob ← Prog.fields
    persistCheckpoint J ob.checkpointState
    if COMPACT_THRESHOLD_BYTES ≤ ob.checkpointOffset then compact J else pure ()

def close : OutboxM Unit := do
  let ob ← Prog.fields
  if ob.closed then pure ()
  else do
    closeSync ob.fd
    Prog.modify fun ob => { ob with closed := true }

/-! ### Opening -/

/-- The checkpoint of a compaction manifest. -/
def checkpointOfManifest (text : Bytes) : Except Failure CheckpointState :=
  match asCheckpointState? ((J.parse text).bind fun manifest =>
      manifest.get? (js "checkpoint")) with
  | none => .error (.error "invalid compaction manifest")
  | some checkpoint => .ok checkpoint

/-- Finish a compaction that a kill interrupted. -/
def recoverCompaction : OutboxM Unit := do
  if ← existsSync compactManifestPath then do
    let checkpoint ← Prog.tryCatch (do
      let text ← readFileSync compactManifestPath
      Prog.ofExcept (checkpointOfManifest J text)) fun _ =>
        .throw (.error "cannot recover outbox compaction manifest")
    if ← existsSync compactPath then do
      renameSync compactPath journalPath
      fsyncDirectory
    finishCompaction J checkpoint
  else if ← existsSync compactPath then unlinkSync compactPath
  else pure ()

/-- The state in the checkpoint file; a damaged file counts as none at all. -/
def checkpointOfText (text : Bytes) : CheckpointState :=
  match J.parse text with
  | none => .fallback
  | some value =>
    ⟨(Json.nonNegativeInteger (value.get? (js "offset"))).getD 0,
      (Json.nonNegativeInteger (value.get? (js "journalBaseCount"))).getD 0,
      (Json.nonNegativeInteger (value.get? (js "confirmedSinceCompaction"))).getD 0⟩

def loadCheckpoint : OutboxM CheckpointState := do
  if ← existsSync checkpointPath then
    Prog.tryCatch (do
      let text ← readFileSync checkpointPath
      pure (checkpointOfText J text)) fun _ => pure .fallback
  else pure .fallback

/-- The entries of the journal's lines, from offset `start` on. -/
def journalEntries : List Bytes → ℕ → Except Failure (List JournalEntry)
  | [], _ => .ok []
  | text :: lines, start =>
    let endOffset := start + text.length + 1
    match J.parse text with
    | some event =>
      if isEventRecord event then
        (journalEntries lines endOffset).map fun entries =>
          ⟨⟨event, endOffset - start, (J.stringify event).length⟩, start, endOffset⟩ :: entries
      else
        .error (.error ("outbox journal contains invalid JSON at byte " ++ toString start))
    | none =>
      .error (.error ("outbox journal contains invalid JSON at byte " ++ toString start))

def loadJournal : OutboxM (List JournalEntry) := do
  if ← existsSync journalPath then do
    let buffer ← readFileSync journalPath
    let (lines, rest) := splitLines newline buffer
    let entries ← Prog.ofExcept (journalEntries J lines 0)
    if rest.isEmpty then pure entries
    else .throw (.error "outbox journal tail repair failed")
  else pure []

/-- A checkpoint that does not end at a line of the journal confirms nothing, and the
journal decides how many events a checkpoint confirms. -/
def repairCheckpoint (state : CheckpointState) (journal : List JournalEntry)
    (journalSize : ℕ) : CheckpointState :=
  let offset :=
    if journalSize < state.offset ∨ state.offset ∉ 0 :: journal.map JournalEntry.endOffset
    then 0 else state.offset
  ⟨offset, state.journalBaseCount,
    (journal.filter fun entry => decide (entry.endOffset ≤ offset)).length⟩

/-- The constructor behind `Outbox.open`. -/
def «open» (failedIdCacheLimit : ℕ) : OutboxM Unit := do
  .set { failedIdCacheLimit := failedIdCacheLimit } (.pure ())
  mkdirSync
  recoverCompaction J
  let truncatedLines ← truncateIncompleteTail journalPath
  Prog.modify fun ob => { ob with truncatedLines := truncatedLines }
  let _ ← truncateIncompleteTail failedPath
  let state ← loadCheckpoint J
  let journal ← loadJournal J
  Prog.modify fun ob => { ob with journalEntryCount := journal.length }
  loadFailedEventIds J
  let journalSize ← statSize journalPath
  let state := repairCheckpoint state journal journalSize
  Prog.modify fun ob => { ob with
    checkpointOffset := state.offset
    journalBaseCount := state.journalBaseCount
    confirmedSinceCompaction := state.confirmedSinceCompaction
    pending := (journal.filter fun entry => decide (state.offset ≤ entry.start)).map
      JournalEntry.toPendingEntry }
  persistCheckpoint J state
  let journalExisted ← existsSync journalPath
  let fd ← openSync journalPath .a
  Prog.modify fun ob => { ob with fd := fd }
  if journalExisted then pure () else fsyncDirectory

end Outbox
