import Traverse.Sys.Machine
import Traverse.Text.Decimal
import Traverse.Text.Lines

/-!
# Journal.Basic

The durable event journal (`events/journal.rs`): an append-only log kept as segment files under
one root directory. Every function below is the source function of the same name, with the
directory passed explicitly and the environment's choices (clock reading, write failure, refused
deletion) as arguments.

* A path is a file name relative to the journal root.
* `u64` values are `Nat`; the three additions that can leave the range (`last.seq + 1`,
  `next_seq += 1`, `after + 1`) are checked and end the call with `Fault.overflow`.
* The event type `ε` is a parameter: the journal stores events and never looks inside them.
* `serde_json` is the parameter `RecordCodec`, with what the journal relies on as its laws.
-/

namespace Traverse.Journal

open Lines Decimal

/-! ## Data -/

structure JournalConfig where
  (maxSegmentBytes maxSegmentAgeSecs : Nat)
  (retentionMaxAgeSecs retentionMaxTotalBytes : Option Nat)
  deriving DecidableEq, Repr

def JournalConfig.default : JournalConfig where
  maxSegmentBytes := 64 * 1024 * 1024
  maxSegmentAgeSecs := 600
  retentionMaxAgeSecs := none
  retentionMaxTotalBytes := none

inductive JournalError where
  | io (message : String)
  | corrupt (path : String) (line : Nat) (message : String)
  | invalidCursor (message : String)
  | cursorExpired (oldestAvailableCursor : String)
  | invalidConfig (message : String)
  deriving DecidableEq, Repr

/-- `impl Display for JournalError`. -/
def JournalError.display : JournalError → String
  | .io message => s!"journal io failure: {message}"
  | .corrupt path line message => s!"journal corrupt at {path}:{line}: {message}"
  | .invalidCursor message => s!"invalid journal cursor: {message}"
  | .cursorExpired oldest =>
    s!"journal cursor expired: oldest available cursor is {oldest}"
  | .invalidConfig message => s!"invalid journal config: {message}"

/-- How a journal call ends when it does not succeed: with one of the journal's own errors, or
at a `u64` addition that leaves the range. -/
inductive Fault where
  | err (e : JournalError)
  | overflow
  deriving DecidableEq, Repr

/-- One line of a segment: an event, or a revocation of an earlier sequence number. -/
structure JournalRecordV1 (ε : Type) where
  (seq writtenAtSecs : Nat)
  event : Option ε
  revokes : Option Nat
  deriving DecidableEq, Repr

/-- The record serializer (`serde_json::to_vec` and `from_slice`). Compact JSON of a record is
one non-empty line, and reading it gives the record back. -/
structure RecordCodec (ε : Type) where
  toVec : JournalRecordV1 ε → Bytes
  fromSlice : Bytes → Except String (JournalRecordV1 ε)
  fromSlice_toVec : ∀ r, fromSlice (toVec r) = .ok r
  isLine_toVec : ∀ r, IsLine (toVec r)

structure SegmentMeta where
  path : String
  (firstSeq lastSeq createdAtSecs lastWrittenAtSecs bytes : Nat)
  deriving DecidableEq, Repr

structure SegmentReadCache (ε : Type) where
  (consumedBytes consumedLines : Nat)
  records : List (JournalRecordV1 ε)

def SegmentReadCache.default {ε : Type} : SegmentReadCache ε := ⟨0, 0, []⟩

/-- The running journal. The active segment's file handle is its path; `readCache p` is the
cache entry of path `p`, an absent entry being the default one (`or_default`). -/
structure DurableEventJournal (ε : Type) where
  config : JournalConfig
  sealed : List SegmentMeta
  active : Option SegmentMeta
  nextSeq : Nat
  readCache : String → SegmentReadCache ε

/-! ## The directory -/

/-- The files under the journal root, in creation order. -/
structure Dir where
  files : List (String × Bytes)
  deriving DecidableEq, Repr

namespace Dir

def empty : Dir := ⟨[]⟩

def find (d : Dir) (path : String) : Option Bytes := d.files.lookup path

/-- `OpenOptions::create_new`. -/
def createNew (d : Dir) (path : String) : Except String Dir :=
  if (d.find path).isSome then .error "File exists (os error 17)"
  else .ok ⟨d.files ++ [(path, [])]⟩

def appendTo (d : Dir) (path : String) (b : Bytes) : Dir :=
  ⟨d.files.map fun f => if f.1 = path then (f.1, f.2 ++ b) else f⟩

/-- `fs::remove_file`; `refuse path` is the system's error when it will not delete `path`. -/
def removeFile (refuse : String → Option String) (d : Dir) (path : String) : Except String Dir :=
  match refuse path with
  | some e => .error e
  | none =>
    if (d.find path).isSome then .ok ⟨d.files.filter fun f => f.1 ≠ path⟩
    else .error "No such file or directory (os error 2)"

end Dir

def allowAll : String → Option String := fun _ => none

/-- A write that failed: how many bytes of the line reached the file, and the error. All of them
did when only the fsync failed. -/
structure WriteFault where
  written : Nat
  error : String
  deriving DecidableEq, Repr

def segmentPrefix : String := "segment-"
def segmentSuffix : String := ".jsonl"

/-- `format!("{SEGMENT_PREFIX}{:020}{SEGMENT_SUFFIX}")`. -/
def segmentName (seq : Nat) : String :=
  String.ofList (segmentPrefix.toList ++ padded 20 seq ++ segmentSuffix.toList)

def isSegmentName (name : String) : Bool :=
  segmentPrefix.toList.isPrefixOf name.toList && segmentSuffix.toList.isSuffixOf name.toList

def corrupt (path : String) (index : Nat) (message : String) : JournalError :=
  .corrupt path (index + 1) message

def ioErr (action error : String) : JournalError := .io s!"{action}: {error}"

def validateConfig (config : JournalConfig) : Except JournalError Unit :=
  if config.maxSegmentBytes = 0 then
    .error (.invalidConfig "max_segment_bytes must be at least 1")
  else if config.maxSegmentAgeSecs = 0 then
    .error (.invalidConfig "max_segment_age_secs must be at least 1")
  else if config.retentionMaxAgeSecs = some 0 then
    .error (.invalidConfig "retention_max_age_secs must be at least 1 when set")
  else if config.retentionMaxTotalBytes = some 0 then
    .error (.invalidConfig "retention_max_total_bytes must be at least 1 when set")
  else .ok ()

/-- Seconds since the epoch of a clock reading in nanoseconds. -/
def nowSecs (now : Int) : Except JournalError Nat :=
  if now < 0 then
    .error (.io "system time before epoch: second time provided was later than self")
  else .ok (now.toNat / 1000000000)

section

variable {ε : Type} (c : RecordCodec ε)

/-! ## Reading segments -/

/-- The record loop shared by `read_segment_records` and `refresh_segment_cache`: the records
read and the bytes they take. `line` is the index of the first chunk, `lastSeq` the sequence
number before it. Only the last chunk of a text that does not end in a newline is a torn tail. -/
def parseChunks (path : String) (allowTornTail endsNl : Bool) :
    Nat → Option Nat → List Bytes → Except JournalError (List (JournalRecordV1 ε) × Nat)
  | _, _, [] => .ok ([], 0)
  | line, lastSeq, chunk :: rest =>
    let isTornTail := !endsNl && rest.isEmpty
    match c.fromSlice chunk with
    | .ok record =>
      if isTornTail then
        if allowTornTail then .ok ([], 0) else .error (corrupt path line "unterminated record")
      else
        match lastSeq.filter (record.seq ≤ ·) with
        | some previous =>
          .error (corrupt path line
            s!"sequence {record.seq} is not greater than prior sequence {previous}")
        | none =>
          match parseChunks path allowTornTail endsNl (line + 1) (some record.seq) rest with
          | .ok (records, bytes) => .ok (record :: records, chunk.length + 1 + bytes)
          | .error e => .error e
    | .error error =>
      if isTornTail && allowTornTail then .ok ([], 0)
      else .error (corrupt path line s!"malformed record: {error}")

def readSegmentRecords (dir : Dir) (path : String) (allowTornTail : Bool) :
    Except JournalError (List (JournalRecordV1 ε)) :=
  match dir.find path with
  | none => .error (ioErr "read journal segment" "No such file or directory (os error 2)")
  | some bytes =>
    match parseChunks c path allowTornTail (endsWithNewline bytes) 0 none (chunks bytes) with
    | .ok (records, _) => .ok records
    | .error e => .error e

/-- Reads only what was appended since the entry was last refreshed. -/
def refreshSegmentCache (dir : Dir) (cache : SegmentReadCache ε) (path : String)
    (allowTornTail : Bool) : Except JournalError (SegmentReadCache ε) :=
  match dir.find path with
  | none => .error (ioErr "read journal segment" "No such file or directory (os error 2)")
  | some bytes =>
    if bytes.length ≤ cache.consumedBytes then .ok cache
    else
      let newBytes := bytes.drop cache.consumedBytes
      match parseChunks c path allowTornTail (endsWithNewline newBytes) cache.consumedLines
          (cache.records.getLast?.map (·.seq)) (chunks newBytes) with
      | .ok (newRecords, bytesAdvanced) =>
        .ok { consumedBytes := cache.consumedBytes + bytesAdvanced
              consumedLines := cache.consumedLines + newRecords.length
              records := cache.records ++ newRecords }
      | .error e => .error e

def cachedSegmentRecords (dir : Dir) (cache : String → SegmentReadCache ε) (path : String)
    (allowTornTail : Bool) :
    Except JournalError (List (JournalRecordV1 ε)) × (String → SegmentReadCache ε) :=
  match refreshSegmentCache c dir (cache path) path allowTornTail with
  | .error e => (.error e, cache)
  | .ok entry => (.ok entry.records, fun p => if p = path then entry else cache p)

/-! ## Opening a root -/

/-- The recovery loop of `open`: the sealed segments found and the next sequence number. A
segment without a complete record is deleted. -/
def recoverSegments : List String → Nat → Dir → Except Fault (List SegmentMeta × Nat) × Dir
  | [], nextSeq, dir => (.ok ([], nextSeq), dir)
  | path :: rest, nextSeq, dir =>
    match readSegmentRecords c dir path rest.isEmpty with
    | .error e => (.error (.err e), dir)
    | .ok records =>
      match records.head?, records.getLast? with
      | some first, some last =>
        if first.seq < nextSeq then
          (.error (.err (.corrupt path 1
            s!"sequence {first.seq} is not greater than prior segment sequence {nextSeq - 1}")),
           dir)
        else if u64Max < last.seq + 1 then (.error .overflow, dir)
        else
          let seg : SegmentMeta :=
            { path := path
              firstSeq := first.seq
              lastSeq := last.seq
              createdAtSecs := first.writtenAtSecs
              lastWrittenAtSecs := last.writtenAtSecs
              bytes := ((dir.find path).getD []).length }
          match recoverSegments rest (last.seq + 1) dir with
          | (.ok (sealed, next), dir') => (.ok (seg :: sealed, next), dir')
          | (.error e, dir') => (.error e, dir')
      | _, _ =>
        match dir.removeFile allowAll path with
        | .error e => (.error (.err (ioErr "remove empty journal segment" e)), dir)
        | .ok dir' => recoverSegments rest nextSeq dir'

/-- `read_dir`, the name filter and the path sort. -/
def segmentPaths (dir : Dir) : List String :=
  ((dir.files.map Prod.fst).filter isSegmentName).mergeSort (· ≤ ·)

/-- `DurableEventJournal::open`. -/
def openJournal (config : JournalConfig) (dir : Dir) :
    Except Fault (DurableEventJournal ε) × Dir :=
  match validateConfig config with
  | .error e => (.error (.err e), dir)
  | .ok () =>
    match recoverSegments c (segmentPaths dir) 1 dir with
    | (.error e, dir') => (.error e, dir')
    | (.ok (sealed, nextSeq), dir') =>
      (.ok { config := config
             sealed := sealed
             active := none
             nextSeq := nextSeq
             readCache := fun _ => .default }, dir')

/-! ## Appending -/

/-- `file.write_all(line)` then `file.sync_data()`. -/
def writeDurable (io : Option WriteFault) (dir : Dir) (path : String) (line : Bytes) :
    Except JournalError Unit × Dir :=
  match io with
  | none => (.ok (), dir.appendTo path line)
  | some fault =>
    (.error (ioErr "append journal record" fault.error),
      dir.appendTo path (line.take fault.written))

def appendRecord (io : Option WriteFault) (dir : Dir) (seg : SegmentMeta) (seq now : Nat)
    (event : Option ε) (revokes : Option Nat) : Except JournalError String × SegmentMeta × Dir :=
  let line := c.toVec ⟨seq, now, event, revokes⟩ ++ [newline]
  match writeDurable io dir seg.path line with
  | (.error e, dir') => (.error e, seg, dir')
  | (.ok (), dir') =>
    (.ok seq.repr,
      { seg with bytes := seg.bytes + line.length, lastSeq := seq, lastWrittenAtSecs := now },
      dir')

namespace DurableEventJournal

variable (j : DurableEventJournal ε)

def needsRollover (now : Nat) : Bool :=
  j.active.any fun seg =>
    decide (j.config.maxSegmentBytes ≤ seg.bytes) ||
      decide (j.config.maxSegmentAgeSecs ≤ now - seg.createdAtSecs)

/-- Seals the active segment when it is full or old. -/
def rollover (now : Nat) : DurableEventJournal ε :=
  if j.needsRollover now then { j with sealed := j.sealed ++ j.active.toList, active := none }
  else j

variable (dir : Dir)

def openSegment (now : Nat) :
    Except JournalError (SegmentMeta × Dir) :=
  match dir.createNew (segmentName j.nextSeq) with
  | .error e => .error (ioErr "create journal segment" e)
  | .ok dir' =>
    .ok ({ path := segmentName j.nextSeq
           firstSeq := j.nextSeq
           lastSeq := j.nextSeq
           createdAtSecs := now
           lastWrittenAtSecs := now
           bytes := 0 }, dir')

/-- The segment the next record goes to: the active one, or a new one. -/
def activeSegment (now : Nat) :
    Except JournalError (SegmentMeta × Dir) :=
  match j.active with
  | some seg => .ok (seg, dir)
  | none => j.openSegment dir now

def appendLine (now : Int) (io : Option WriteFault) (event : Option ε) (revokes : Option Nat) :
    Except Fault String × DurableEventJournal ε × Dir :=
  match nowSecs now with
  | .error e => (.error (.err e), j, dir)
  | .ok secs =>
    let j := j.rollover secs
    match j.activeSegment dir secs with
    | .error e => (.error (.err e), { j with active := none }, dir)
    | .ok (seg, dir) =>
      match appendRecord c io dir seg j.nextSeq secs event revokes with
      | (.error e, seg, dir) => (.error (.err e), { j with active := some seg }, dir)
      | (.ok cursor, seg, dir) =>
        if u64Max < j.nextSeq + 1 then (.error .overflow, { j with active := some seg }, dir)
        else (.ok cursor, { j with active := some seg, nextSeq := j.nextSeq + 1 }, dir)

def append (now : Int) (io : Option WriteFault)
    (event : ε) : Except Fault String × DurableEventJournal ε × Dir :=
  j.appendLine c dir now io (some event) none

def appendRevocation (now : Int) (io : Option WriteFault)
    (revokedCursor : String) : Except Fault String × DurableEventJournal ε × Dir :=
  match parseU64 revokedCursor with
  | .error e => (.error (.err (.invalidCursor s!"revoked cursor `{revokedCursor}`: {e}")), j, dir)
  | .ok revoked => j.appendLine c dir now io none (some revoked)

/-! ## Replay -/

def segments : List SegmentMeta := j.sealed ++ j.active.toList

def oldestRetainedSeq : Option Nat :=
  (j.segments.map (·.firstSeq)).head?

/-- The body of the record loop: a revocation is noted, an event after `after` is kept. -/
def scanRecord (after : Nat) (acc : List Nat × List (Nat × ε)) (record : JournalRecordV1 ε) :
    List Nat × List (Nat × ε) :=
  match record.revokes with
  | some revokedSeq => (revokedSeq :: acc.1, acc.2)
  | none =>
    if after < record.seq then
      match record.event with
      | some event => (acc.1, acc.2 ++ [(record.seq, event)])
      | none => acc
    else acc

/-- The segment loop of `replay_from`. The torn tail of the last segment only is allowed. -/
def scanSegments (dir : Dir) (after : Nat) :
    List SegmentMeta → (String → SegmentReadCache ε) → List Nat × List (Nat × ε) →
      Except JournalError (List Nat × List (Nat × ε)) × (String → SegmentReadCache ε)
  | [], cache, acc => (.ok acc, cache)
  | seg :: rest, cache, acc =>
    if seg.lastSeq ≤ after then scanSegments dir after rest cache acc
    else
      match cachedSegmentRecords c dir cache seg.path rest.isEmpty with
      | (.error e, cache') => (.error e, cache')
      | (.ok records, cache') =>
        scanSegments dir after rest cache' (records.foldl (scanRecord after) acc)

/-- Drops the revoked events, keeps the first `maxEvents` and writes the cursors. -/
def finishReplay (maxEvents : Nat) (acc : List Nat × List (Nat × ε)) : List (String × ε) :=
  ((acc.2.filter fun p => !acc.1.contains p.1).take maxEvents).map fun p => (p.1.repr, p.2)

/-- The scan half of `replay_from`, once the cursor has been accepted. -/
def replayScan (after maxEvents : Nat) :
    Except Fault (List (String × ε)) × DurableEventJournal ε :=
  match scanSegments c dir after j.segments j.readCache ([], []) with
  | (.error e, cache) => (.error (.err e), { j with readCache := cache })
  | (.ok acc, cache) => (.ok (finishReplay maxEvents acc), { j with readCache := cache })

def replayFrom (cursor : String) (maxEvents : Nat) :
    Except Fault (List (String × ε)) × DurableEventJournal ε :=
  match parseU64 cursor with
  | .error e => (.error (.err (.invalidCursor s!"cursor `{cursor}`: {e}")), j)
  | .ok after =>
    match j.oldestRetainedSeq with
    | none => j.replayScan c dir after maxEvents
    | some oldestSeq =>
      if u64Max < after + 1 then (.error .overflow, j)
      else if after + 1 < oldestSeq then
        (.error (.err (.cursorExpired (oldestSeq - 1).repr)), j)
      else j.replayScan c dir after maxEvents

def latestCursor : Nat := j.nextSeq - 1

end DurableEventJournal

/-! ## Retention -/

/-- The age loop of `prune`. The entry leaves the list before its file is deleted. -/
def pruneByAge (refuse : String → Option String) (now maxAge : Nat) :
    List SegmentMeta → Dir → List String →
      Except JournalError (List String) × List SegmentMeta × Dir
  | [], dir, deleted => (.ok deleted, [], dir)
  | seg :: rest, dir, deleted =>
    if now - seg.lastWrittenAtSecs ≤ maxAge then (.ok deleted, seg :: rest, dir)
    else
      match dir.removeFile refuse seg.path with
      | .error e => (.error (ioErr "remove expired journal segment" e), rest, dir)
      | .ok dir' => pruneByAge refuse now maxAge rest dir' (deleted ++ [seg.path])

/-- The size loop of `prune`; `total` counts the active segment too. -/
def pruneBySize (refuse : String → Option String) (maxTotal : Nat) :
    List SegmentMeta → Nat → Dir → List String →
      Except JournalError (List String) × List SegmentMeta × Dir
  | [], _, dir, deleted => (.ok deleted, [], dir)
  | seg :: rest, total, dir, deleted =>
    if total ≤ maxTotal then (.ok deleted, seg :: rest, dir)
    else
      match dir.removeFile refuse seg.path with
      | .error e => (.error (ioErr "remove oversized journal segment" e), rest, dir)
      | .ok dir' =>
        pruneBySize refuse maxTotal rest (total - seg.bytes) dir' (deleted ++ [seg.path])

namespace DurableEventJournal

variable (refuse : String → Option String) (j : DurableEventJournal ε)

/-- The age rule, when one is configured. -/
def pruneAge (dir : Dir) (now : Nat) : Except JournalError (List String) × List SegmentMeta × Dir :=
  match j.config.retentionMaxAgeSecs with
  | none => (.ok [], j.sealed, dir)
  | some maxAge => pruneByAge refuse now maxAge j.sealed dir []

/-- The size rule, when one is configured, on what the age rule left. -/
def pruneSize (dir : Dir)
    (deleted : List String) : Except JournalError (List String) × List SegmentMeta × Dir :=
  match j.config.retentionMaxTotalBytes with
  | none => (.ok deleted, j.sealed, dir)
  | some maxTotal =>
    pruneBySize refuse maxTotal j.sealed ((j.segments.map (·.bytes)).sum) dir deleted

/-- The cache without the entries of the deleted paths. -/
def evict (cache : String → SegmentReadCache ε) (deleted : List String) :
    String → SegmentReadCache ε :=
  fun p => if p ∈ deleted then .default else cache p

def prune (dir : Dir) (now : Int) :
    Except Fault (List String) × DurableEventJournal ε × Dir :=
  match nowSecs now with
  | .error e => (.error (.err e), j, dir)
  | .ok secs =>
    match j.pruneAge refuse dir secs with
    | (.error e, sealed, dir) => (.error (.err e), { j with sealed := sealed }, dir)
    | (.ok deleted, sealed, dir) =>
      match { j with sealed := sealed }.pruneSize refuse dir deleted with
      | (.error e, sealed, dir) => (.error (.err e), { j with sealed := sealed }, dir)
      | (.ok deleted, sealed, dir) =>
        (.ok deleted, { j with sealed := sealed, readCache := evict j.readCache deleted }, dir)

end DurableEventJournal

end

/-! ## One root over its whole life

A `Call` is one step of the environment. `stopAppend` and `stopRevoke` end the process inside a
call, after part of the line has been written: the file then holds what a write failing at the same
byte leaves. A stop between two calls, inside `replay_from`, or inside `open` before or after it
deletes an empty file, is `close`. `owed` is what a replay should return, said in terms of
acknowledged calls only. -/

section

variable {ε : Type}

/-- A call that returned Ok: the cursor it returned, and what it was asked to record. -/
structure Ack (ε : Type) where
  cursor : String
  event : Option ε
  revokes : Option Nat
  deriving DecidableEq, Repr

namespace Ack

/-- The sequence number a cursor stands for. -/
def seq (a : Ack ε) : Nat := (parseU64 a.cursor).toOption.getD 0

def ofRecord (r : JournalRecordV1 ε) : Ack ε := ⟨r.seq.repr, r.event, r.revokes⟩

end Ack

/-- The numbers named by acknowledged revocations. -/
def revoked (acks : List (Ack ε)) : List Nat := acks.filterMap (·.revokes)

/-- The first `n` acknowledged events after `after` that no acknowledged revocation names. -/
def owed (after n : Nat) (acks : List (Ack ε)) : List (String × ε) :=
  ((acks.filter fun a =>
    a.revokes.isNone && decide (after < a.seq ∧ a.seq ∉ revoked acks)).filterMap
    fun a => a.event.map fun e => (a.cursor, e)).take n

/-! ## The machine -/

structure Root (ε : Type) where
  dir : Dir
  journal : Option (DurableEventJournal ε)
  acks : List (Ack ε)
  /-- The records in the files that `prune` has deleted. -/
  deleted : List (JournalRecordV1 ε)

def Root.empty : Root ε := ⟨.empty, none, [], []⟩

inductive Call (ε : Type) where
  | openRoot (config : JournalConfig)
  | close
  | append (now : Int) (io : Option WriteFault) (event : ε)
  | revoke (now : Int) (io : Option WriteFault) (cursor : String)
  | replay (cursor : String) (maxEvents : Nat)
  | prune (now : Int)
  | stopAppend (now : Int) (written : Nat) (event : ε)
  | stopRevoke (now : Int) (written : Nat) (cursor : String)

/-- The line a call sets out to write, the clock reading it gets and how its write ends. -/
structure Line (ε : Type) where
  now : Int
  io : Option WriteFault
  event : Option ε
  revokes : Option Nat

/-- The write that a stop after `written` bytes amounts to. -/
def cut (written : Nat) : Option WriteFault := some ⟨written, ""⟩

namespace Call

/-- Nothing is written for a revocation whose cursor does not parse. -/
def line : Call ε → Option (Line ε)
  | .append now io event => some ⟨now, io, some event, none⟩
  | .stopAppend now written event => some ⟨now, cut written, some event, none⟩
  | .revoke now io cursor => (parseU64 cursor).toOption.map fun n => ⟨now, io, none, some n⟩
  | .stopRevoke now written cursor =>
    (parseU64 cursor).toOption.map fun n => ⟨now, cut written, none, some n⟩
  | _ => none

/-- The call can leave the root without a running journal. -/
def ends : Call ε → Bool
  | .openRoot _ | .close | .stopAppend .. | .stopRevoke .. => true
  | _ => false

end Call

variable (c : RecordCodec ε)

/-- The records of the complete lines of a file, as far as they can be read. -/
def fileRecords (dir : Dir) (path : String) : List (JournalRecordV1 ε) :=
  (completeLines ((dir.find path).getD [])).filterMap fun line => (c.fromSlice line).toOption

/-- The records stored under the root, in path order. -/
def storedRecords (dir : Dir) : List (JournalRecordV1 ε) :=
  (segmentPaths dir).flatMap (fileRecords c dir)

namespace Root

/-- An append or a revocation returned; `event` and `revokes` are what it was asked to record. -/
def returned (w : Root ε) (event : Option ε) (revokes : Option Nat)
    (result : Except Fault String × DurableEventJournal ε × Dir) : Root ε :=
  match result with
  | (.ok cursor, j, dir) =>
    { w with dir := dir, journal := some j, acks := w.acks ++ [⟨cursor, event, revokes⟩] }
  | (.error _, j, dir) => { w with dir := dir, journal := some j }

/-- The process ended inside a call that was writing. -/
def stopped (w : Root ε) (result : Except Fault String × DurableEventJournal ε × Dir) : Root ε :=
  { w with dir := result.2.2, journal := none }

def step (w : Root ε) : Call ε → Option (Root ε)
  | .openRoot config =>
    match w.journal with
    | some _ => none
    | none =>
      match openJournal c config w.dir with
      | (.ok j, dir) => some { w with dir := dir, journal := some j }
      | (.error _, dir) => some { w with dir := dir }
  | .close => w.journal.map fun _ => { w with journal := none }
  | .append now io event =>
    w.journal.map fun j => w.returned (some event) none (j.append c w.dir now io event)
  | .revoke now io cursor =>
    w.journal.map fun j =>
      w.returned none (parseU64 cursor).toOption (j.appendRevocation c w.dir now io cursor)
  | .replay cursor maxEvents =>
    w.journal.map fun j => { w with journal := some (j.replayFrom c w.dir cursor maxEvents).2 }
  | .prune now =>
    w.journal.map fun j =>
      match j.prune allowAll w.dir now with
      | (.ok paths, j', dir) =>
        { w with dir := dir, journal := some j'
                 deleted := w.deleted ++ paths.flatMap (fileRecords c w.dir) }
      | (.error _, j', dir) => { w with dir := dir, journal := some j' }
  | .stopAppend now written event =>
    w.journal.map fun j => w.stopped (j.append c w.dir now (cut written) event)
  | .stopRevoke now written cursor =>
    w.journal.map fun j => w.stopped (j.appendRevocation c w.dir now (cut written) cursor)

end Root

end

end Traverse.Journal
