import CpuUsageTracker.Shared

/-!
# Control: calls of `Log` and `Watchdog_reportActive`

Every thread calls these two functions in many places, and both take a mutex. The control of a
thread is the stack of the calls it is in (or has still to make before it goes on) together with
a location in its own function. The functions of `sync.c` are the calls of the thread library.

`waitLoop` is the loop that the reader, the analyzer (twice) and the printer contain: wait on a
condition variable while the buffer is full (or empty) and the kill switch is off.
-/

namespace CpuUsageTracker

open Threads

/-- The locations of `Log`. -/
inductive LogPc
  | level (call : LogCall)
  | timeStr (call : LogCall)
  | threadInfo (call : LogCall) (time : String)
  | lock (message : LogMessage)
  | inBuf (message : LogMessage)
  | write (buf : Bool) (message : LogMessage)
  | unlock
  | notify
  deriving DecidableEq, Repr

/-- The locations of `Watchdog_reportActive`. -/
inductive ReportPc
  | threadInfo
  | lock (tid : ThreadId)
  | stamp (tid : ThreadId)
  | unlock
  | notify
  deriving DecidableEq, Repr

inductive Frame
  | log (pc : LogPc)
  | report (pc : ReportPc)
  deriving DecidableEq, Repr

/-- The calls to make, the current one first, and where to go on after them. -/
structure Control (P : Type) where
  calls : List Frame
  pc : P

abbrev Code (V K : Type) := Instr Mutex CondVar Timespec (Act V) Act.Result K

def loggerMutexWaitTimeMs : ℕ := 50
def maxLockTimeMs : ℕ := 50

/-- `Log`. The result lists the calls that are still to be made. -/
def LogPc.code {V : Type} : LogPc → Code V (List Frame)
  | level call => .act .loggingLevel fun programLoggingLevel =>
    if call.level.toNat > programLoggingLevel.toNat then [] else [.log (timeStr call)]
  | timeStr call => .act .timeStr fun time => [.log (threadInfo call time)]
  | threadInfo call time => .act .threadInfoGet fun info =>
    let threadName := match info with
      | some info => info.name
      | none => "UNSPECIFIED"
    [.log (lock ⟨time, call.level, threadName, call.text⟩)]
  | lock message => .call (.tryLock .gInMtx loggerMutexWaitTimeMs) fun r =>
    if r = .success then [.log (inBuf message)] else []
  | inBuf message => .act (.log .inBuf) fun buf => [.log (write buf message)]
  | write buf message => .act (.log (.write buf message)) fun _ => [.log unlock]
  | unlock => .call (.unlock .gInMtx) fun _ => [.log notify]
  | notify => .call (.notify .gInNotEmptyCv) fun _ => []

def Frame.logError (text : String) : Frame := .log (.level ⟨.error, text⟩)

/-- `Watchdog_reportActive`. -/
def ReportPc.code {V : Type} : ReportPc → Code V (List Frame)
  | threadInfo => .act .threadInfoGet fun info => match info with
    | some info => [.report (lock info.tid)]
    | none => []
  | lock tid => .call (.tryLock .gTimestampsMtx maxLockTimeMs) fun r =>
    if r = .success then [.report (stamp tid)]
    else [.logError "couldn't acquire timestamps mutex"]
  | stamp tid => .act (.stamp tid) fun _ => [.report unlock]
  | unlock => .call (.unlock .gTimestampsMtx) fun r =>
    if r = .success then [.report notify]
    else [.logError "couldn't release timestamps mutex", .report notify]
  | notify => .call (.notify .gTimestampsUpdatedCv) fun r =>
    if r = .success then [] else [.logError "couldn't notify on timestamps condition variable"]

def Frame.code {V : Type} : Frame → Code V (List Frame)
  | log pc => pc.code
  | report pc => pc.code

/-- `Log` and `Watchdog_reportActive` wait on no condition variable. -/
theorem Frame.not_waits {V : Type} (f : Frame) (m : Mutex) :
    ¬(f.code : Code V (List Frame)).waitsWith m := by
  rcases f with pc | pc <;> cases pc <;> exact id

theorem Frame.not_waitsOn {V : Type} (f : Frame) (c : CondVar) :
    ¬(f.code : Code V (List Frame)).waitsOn c := by
  rcases f with pc | pc <;> cases pc <;> exact id

namespace Control

variable {V P : Type}

def goto (pc : P) : Control P := ⟨[], pc⟩

/-- Call `Log` first. -/
def log (level : LogLevel) (text : String) (c : Control P) : Control P :=
  ⟨.log (.level ⟨level, text⟩) :: c.calls, c.pc⟩

def logAll (calls : List LogCall) (c : Control P) : Control P :=
  ⟨calls.map (fun call => .log (.level call)) ++ c.calls, c.pc⟩

/-- Call `Log` first, unless `r` is `thrd_success`. -/
def logUnless (r : ThrdResult) (text : String) (c : Control P) : Control P :=
  if r = .success then c else c.log .error text

/-- Call `Watchdog_reportActive` first. -/
def reportActive (c : Control P) : Control P := ⟨.report .threadInfo :: c.calls, c.pc⟩

/-- The instruction of a thread whose function is `body`. -/
def code (body : P → Code V (Control P)) : Control P → Code V (Control P)
  | ⟨[], pc⟩ => body pc
  | ⟨f :: fs, pc⟩ => f.code.map fun gs => ⟨gs ++ fs, pc⟩

@[simp] theorem pc_goto (pc : P) : (goto pc).pc = pc := rfl

@[simp] theorem pc_log (level : LogLevel) (text : String) (c : Control P) :
    (c.log level text).pc = c.pc := rfl

@[simp] theorem pc_logAll (calls : List LogCall) (c : Control P) :
    (c.logAll calls).pc = c.pc := rfl

@[simp] theorem pc_logUnless (r : ThrdResult) (text : String) (c : Control P) :
    (c.logUnless r text).pc = c.pc := by
  unfold logUnless
  split <;> rfl

@[simp] theorem pc_reportActive (c : Control P) : c.reportActive.pc = c.pc := rfl

end Control

/-! ## The wait loop -/

inductive WaitPc
  | timePoint
  | test (timePoint : Timespec)
  | killSwitch (timePoint : Timespec)
  | wait (timePoint : Timespec)
  deriving DecidableEq, Repr

/-- What differs between the wait loops: the condition to wait for the end of, the condition
variable and its mutex, and the name of the condition variable in the messages. -/
structure WaitLoop where
  test : PipeTest
  cv : CondVar
  mtx : Mutex
  ms : ℕ
  name : String

/-- `here` is the location of the loop, `exit` the one behind it. -/
def WaitLoop.code {V P : Type} (w : WaitLoop) (here : WaitPc → P) (exit : Control P) :
    WaitPc → Code V (Control P)
  | .timePoint => .act (.timePointMs w.ms) fun tp => .goto (here (.test tp))
  | .test tp => .act (.pipe (.test w.test)) fun waiting =>
    if waiting then .goto (here (.killSwitch tp)) else exit
  | .killSwitch tp => .act .killSwitchStatus fun killed =>
    if killed then exit else .goto (here (.wait tp))
  | .wait tp => .call (.waitUntil w.cv w.mtx tp) fun
    | .success => exit.log .debug ("received notification on " ++ w.name)
    | .timedout => exit.log .warning ("timeout while waiting on " ++ w.name)
    | .error => (Control.goto (here (.test tp))).log .error ("error while waiting on " ++ w.name)

/-- The loop changes no data. -/
theorem WaitLoop.post_of_data {ω V P : Type} [DecidableEq ω] (w : WaitLoop) {here : WaitPc → P}
    {exit : Control P} {t : Thread ω} {allow : Event (Input V) → Prop}
    {Q : P → Data ω V → Prop} {o : Set Mutex} {d : Data ω V} (hhere : ∀ x, Q (here x) d)
    (hexit : Q exit.pc d) (pc : WaitPc) :
    (w.code here exit pc).Post (Data.perform t) allow (fun l _ d => Q l.pc d) o d := by
  cases pc with
  | timePoint => exact fun _ _ => hhere _
  | test tp =>
    intro i _
    simp only
    split
    · exact hhere _
    · exact hexit
  | killSwitch tp =>
    intro i _
    simp only
    split
    · exact hexit
    · exact hhere _
  | wait tp =>
    intro r _ _
    cases r with
    | success | timedout => exact hexit
    | error => exact hhere _

end CpuUsageTracker
