import CpuUsageTracker.StorageSafety
import CpuUsageTracker.Threads.Analyzer
import CpuUsageTracker.Threads.Printer
import CpuUsageTracker.Threads.Logger
import CpuUsageTracker.Threads.Watchdog
import CpuUsageTracker.Ownership
import CpuUsageTracker.Intervals
import CpuUsageTracker.PipelineLoss
import CpuUsageTracker.PrintedRecords
import CpuUsageTracker.LoggerExclusion
import CpuUsageTracker.LockOrder
import CpuUsageTracker.LostWakeups
import CpuUsageTracker.Library.Schedule
import CpuUsageTracker.LogDelivery
import CpuUsageTracker.Responsiveness
import CpuUsageTracker.MonitorDiscipline
import CpuUsageTracker.WatchdogVerdict
import CpuUsageTracker.UsageExactness
import CpuUsageTracker.PeekMany
import CpuUsageTracker.ProcStatTruncation
import CpuUsageTracker.OldestTimestamp
import CpuUsageTracker.Deadlines
import CpuUsageTracker.ForcedSleep
import CpuUsageTracker.SampleOwnership
import CpuUsageTracker.ExitCode
import CpuUsageTracker.LogLines
import CpuUsageTracker.Library.Ranking
import CpuUsageTracker.Library.Progress
import CpuUsageTracker.CallWeights
import CpuUsageTracker.ShutdownRanking
import CpuUsageTracker.Library.TimeLimit
import CpuUsageTracker.Shutdown
import CpuUsageTracker.TimePoints
import CpuUsageTracker.ShutdownTime
import CpuUsageTracker.Vigilance
import CpuUsageTracker.Identity
import CpuUsageTracker.Silence
import CpuUsageTracker.Library.ForkJoin
import CpuUsageTracker.Main
import CpuUsageTracker.Library.Display
import CpuUsageTracker.Display
import CpuUsageTracker.Endurance
import CpuUsageTracker.LogConservation
import CpuUsageTracker.LogProvenance
import CpuUsageTracker.ByteBuffers
import CpuUsageTracker.Pacing
import CpuUsageTracker.Measurements
import CpuUsageTracker.ThreadMemory
import CpuUsageTracker.FalseAlarms
