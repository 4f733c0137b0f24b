import CpuUsageTracker.Library.Scanf
import CpuUsageTracker.Library.Tokens
import CpuUsageTracker.Pipeline

/-!
# Reading `/proc/stat`

A translation of `procstat.c`, with `ReadFileContent` of `helpers.c`. A string is the list of its
bytes before the terminating null character. The results of `malloc` and of the calls on the file
are inputs.

`linesQueue` is an array of 2048 pointers, all of them null at first. The source uses its index
without a test, so the model has an outcome for each way in which that goes wrong (`ParseFault`).
-/

namespace CpuUsageTracker

open Scanf Tokens

def maxFileLineCount : ℕ := 2048
def maxExpectedProcstatLength : ℕ := 16384
def intMax : ℤ := 2147483647

def CpuStatIndex.toNat : CpuStatIndex → ℕ
  | user => 0
  | nice => 1
  | system => 2
  | idle => 3
  | iowait => 4
  | irq => 5
  | softirq => 6
  | steal => 7
  | guest => 8
  | guestnice => 9

/-- The string at the start of a block of memory. -/
def cString (block : List UInt8) : List UInt8 := block.takeWhile fun b => b != 0

/-! ## Lines -/

/-- The undefined behaviour that `parse` can run into: a store or a load outside `linesQueue`, or a
null pointer as the input of `sscanf`. -/
inductive ParseFault
  | store (index : ℕ)
  | load (index : ℕ)
  | nullLine (index : ℕ)
  deriving DecidableEq, Repr

abbrev LinesQueue := Fin maxFileLineCount → Option (List UInt8)

/-- `"%*s %llu %llu %llu %llu %llu %llu %llu %llu %llu %llu"` -/
def sscanfFormat : List Directive :=
  .skipWord :: (List.replicate 10 [.white, .unsignedLongLong]).flatten

/-- The first loop of `parse`, over the strings that the calls of `strtok` return. -/
def saveLines : List (List UInt8) → ℕ → LinesQueue → Except ParseFault LinesQueue
  | [], _, linesQueue => .ok linesQueue
  | p :: ps, linesQueueEnd, linesQueue =>
    if h : linesQueueEnd < maxFileLineCount then
      saveLines ps (linesQueueEnd + 1) (Function.update linesQueue ⟨linesQueueEnd, h⟩ (some p))
    else .error (.store linesQueueEnd)

/-- What `sscanf` stores into row `ii`. A value that it does not read is left as it is. -/
def ProcStat.assign (result : ProcStat) (ii : ℕ) (assigned : List UInt64) : ProcStat :=
  { result with
    cpuStats := Function.update result.cpuStats ii
      ⟨fun j => assigned.getD j.toNat ((result.cpuStats ii).values j)⟩ }

/-- The second loop of `parse`, with `n` lines to go. -/
def scanLines (linesQueue : LinesQueue) : ℕ → ℕ → ProcStat → Except ParseFault ProcStat
  | 0, _, result => .ok result
  | n + 1, ii, result =>
    if h : ii < maxFileLineCount then
      match linesQueue ⟨ii, h⟩ with
      | some line => scanLines linesQueue n (ii + 1) (result.assign ii (scanf sscanfFormat line))
      | none => .error (.nullLine ii)
    else .error (.load ii)

/-! ## The functions -/

/-- `cpuCount` is what `CpuCount_get` returns, `allocated` tells whether `malloc` succeeds. -/
def ProcStat.create (cpuCount : ℕ) (allocated : Bool) : Option ProcStat :=
  if allocated then some ⟨UInt64.ofNat (cpuCount + 1), fun _ => ⟨fun _ => 0⟩⟩ else none

def parse (cpuCount : ℕ) (allocated : Bool) (mutableFileContent : List UInt8) :
    Except ParseFault (Option ProcStat) :=
  match ProcStat.create cpuCount allocated with
  | none => .ok none
  | some result =>
    let lines := strtokAll (· == 10) (mutableFileContent.length + 1) mutableFileContent
    let significantLinesCount := cpuCount + 1
    (saveLines lines 0 fun _ => none).bind fun linesQueue =>
      (scanLines linesQueue significantLinesCount 0 result).map some

/-- `ProcStat_parse`. `copied` tells whether the `malloc` for the copy succeeds. -/
def ProcStat.parse (cpuCount : ℕ) (copied allocated : Bool) :
    Option (List UInt8) → List LogCall × Except ParseFault (Option ProcStat)
  | none => ([⟨.error, "invalid argument provided: fileContent"⟩], .ok none)
  | some fileContent =>
    if copied then ([], CpuUsageTracker.parse cpuCount allocated (cString fileContent))
    else ([⟨.error, "cannot allocate memory for content buffer"⟩], .ok none)

/-! ## The file -/

/-- What the calls on the file meet: `content` is what `fread` finds, as one snapshot, and `closed`
tells whether `fclose` succeeds. -/
inductive FileInput
  | cannotOpen
  | readError (closed : Bool)
  | content (bytes : List UInt8) (closed : Bool)

/-- What `ReadFileContent` does: its messages, its result, and the bytes that it terminates in the
caller's buffer. -/
structure ReadFile where
  logs : List LogCall
  retval : ℤ
  buffer : List UInt8

/-- `ReadFileContent`. `fread` has met the end of the file if it finds fewer bytes than it was asked
for. -/
def readFileContent (fileName : String) (file : FileInput) (bufSz : ℕ) : ReadFile :=
  let closeLog (closed : Bool) : List LogCall :=
    if closed then []
    else [⟨.error,
      "an error has been encountered while attempting to close file: " ++ fileName⟩]
  if bufSz < 1 then ⟨[⟨.error, "invalid argument provided: bufSz"⟩], -1, []⟩
  else match file with
  | .cannotOpen => ⟨[⟨.error, "cannot open file: " ++ fileName⟩], -2, []⟩
  | .readError closed =>
    ⟨⟨.error, "an error has been encountered while attempting to read from file: " ++ fileName⟩ ::
      closeLog closed, if closed then -3 else -4, []⟩
  | .content bytes closed =>
    let bytesRead := min bytes.length (bufSz - 1)
    { logs := (if bytes.length < bufSz - 1 then []
        else [⟨.warning, "file is too large for provided buffer: " ++ fileName⟩]) ++ closeLog closed
      retval := if closed then if intMax > bytesRead then bytesRead else intMax else -4
      buffer := bytes.take (bufSz - 1) }

/-- `ProcStat_loadFromFile` -/
def ProcStat.loadFromFile (cpuCount : ℕ) (allocated : Bool) (file : FileInput) :
    List LogCall × Except ParseFault (Option ProcStat) :=
  let read := readFileContent "/proc/stat" file maxExpectedProcstatLength
  if read.retval < 1 then (read.logs, .ok none)
  else (read.logs, CpuUsageTracker.parse cpuCount allocated (cString read.buffer))

/-- As what the pipeline sees the file. -/
def FileInput.toFileRead (parsed : Option ProcStat) : FileInput → FileRead
  | cannotOpen => .cannotOpen
  | readError closed => .readError closed
  | content bytes closed => .read (bytes.length < maxExpectedProcstatLength - 1) closed parsed

/-- If nothing goes wrong in `parse`, the function does what the pipeline assumes. -/
theorem ProcStat.loadFromFile_eq {cpuCount : ℕ} {allocated : Bool} {file : FileInput}
    {result : Option ProcStat} (h : (loadFromFile cpuCount allocated file).2 = .ok result) :
    (loadFromFile cpuCount allocated file).1 = (file.toFileRead result).logs ∧
      result = (file.toFileRead result).result := by
  cases file with
  | cannotOpen =>
    cases h
    exact ⟨rfl, rfl⟩
  | readError closed =>
    cases closed <;> cases h <;> exact ⟨rfl, rfl⟩
  | content bytes closed =>
    have hlogs : (readFileContent "/proc/stat" (.content bytes closed)
        maxExpectedProcstatLength).logs =
          ((FileInput.content bytes closed).toFileRead result).logs := by
      by_cases hlen : bytes.length < 16383 <;> cases closed <;> simp [readFileContent,
        FileInput.toFileRead, FileRead.logs, FileRead.closeLog, maxExpectedProcstatLength, hlen]
    refine ⟨?_, ?_⟩
    · rw [← hlogs]
      simp only [loadFromFile, apply_ite Prod.fst, ite_self]
    · cases closed with
      | true => rfl
      | false =>
        cases h
        rfl

end CpuUsageTracker
