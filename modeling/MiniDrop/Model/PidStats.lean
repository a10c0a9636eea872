import Mathlib.Data.Rat.Floor
import MiniDrop.Model.HealthCheck
import MiniDrop.Model.ProcStat

/-! # The use of a process

GetPidStats keeps a snapshot of each process that it is asked about; rates are differences to the
snapshot before. They are exact. -/

namespace MiniDrop

/-- `std::stoll`; `none` where it throws. -/
def stoll (s : List Char) : Option ℤ :=
  (Streams.leading? (s.dropWhile isSpaceC)).filter fun n => -2 ^ 63 ≤ n ∧ n < 2 ^ 63

structure ProcIO where
  readBytes : ℤ
  writeBytes : ℤ

/-- Body of the loop of `ReadIO`. -/
def readIOLine (io : ProcIO) (line : List Char) : Option ProcIO :=
  if "read_bytes:".toList.isPrefixOf line then
    (stoll (line.drop 11)).map fun n => { io with readBytes := n }
  else if "write_bytes:".toList.isPrefixOf line then
    (stoll (line.drop 12)).map fun n => { io with writeBytes := n }
  else some io

/-- `Process::ReadIO`: the answer and what becomes of `io`; `none` where the standard library
throws. -/
def readIO (file : Option (List Char)) (io : ProcIO) : Option (Bool × ProcIO) :=
  match file with
  | none => some (false, io)
  | some file => ((file.splitOn '\n').foldlM readIOLine io).map fun io => (true, io)

/-- A sample, at nanoseconds of a clock. -/
structure ProcSnapshot where
  stat : ProcStat
  io : ProcIO
  time : ℤ

structure Sysconf where
  clkTck : ℤ
  pageSize : ℤ

/-- `Process::CalculateCPU`. -/
def calculateCPU (sys : Sysconf) (prev curr : ProcStat) (intervalSec : ℚ) : ℚ :=
  let deltaUtime := curr.utime - prev.utime
  let deltaStime := curr.stime - prev.stime
  let total : ℤ := deltaUtime + deltaStime
  let intervalSec := if intervalSec ≤ 0 then 1 else intervalSec
  total / sys.clkTck / intervalSec * 100

abbrev Snapshots := Std.ExtTreeMap ℤ ProcSnapshot

/-- Forgets processes that nobody has asked about for over 60 seconds. -/
def cleanupStaleSnapshots (now : ℤ) (snapshots : Snapshots) : Snapshots :=
  snapshots.filter fun _ snap => !decide (elapsedSeconds now snap.time > 60)

/-- The seconds between two clock readings. -/
def intervalSec (now time : ℤ) : ℚ := (now - time : ℤ) / 1000000000

/-- A rate in whole kilobytes; the conversion truncates. -/
def kbPerSec (delta : ℤ) (interval : ℚ) : ℤ := ⌊(delta : ℚ) / 1024 / interval⌋

/-- Body of the branch for a snapshot that is found; `io` where there is one. -/
def PidStats.addRates (stats : PidStats) (sys : Sysconf) (prev : ProcSnapshot) (now : ℤ)
    (stat : ProcStat) (io : Option ProcIO) : PidStats :=
  let interval := intervalSec now prev.time
  if 0 < interval then
    let stats := { stats with cpuPercent := calculateCPU sys prev.stat stat interval }
    match io with
    | none => stats
    | some io =>
      let deltaRead := io.readBytes - prev.io.readBytes
      let deltaWrite := io.writeBytes - prev.io.writeBytes
      let stats :=
        if 0 ≤ deltaRead then { stats with readKbPerSec := kbPerSec deltaRead interval } else stats
      if 0 ≤ deltaWrite then { stats with writeKbPerSec := kbPerSec deltaWrite interval } else stats
  else stats

/-- A call of `GetPidStats`: its time, the two files of the process, and what the variables `stat`
and `io` hold before anything is read. -/
structure ProcCall where
  pid : ℤ
  now : ℤ
  statFile : Option (List Char)
  ioFile : Option (List Char)
  stat : ProcStat
  io : ProcIO

/-- `Process::GetPidStats`, with the snapshots that it leaves; no answer where it throws. -/
def getPidStats (sys : Sysconf) (snapshots : Snapshots) (call : ProcCall) :
    Option PidStats × Snapshots :=
  match readStat call.statFile call.stat, readIO call.ioFile call.io with
  | some (hasStat, stat), some (hasIo, io) =>
    let stats : PidStats := { pid := call.pid }
    let stats :=
      if hasStat then { stats with rssKb := stat.rss * sys.pageSize.tdiv 1024 } else stats
    let snapshots := cleanupStaleSnapshots call.now snapshots
    let stats :=
      match snapshots[call.pid]? with
      | some prev =>
        if hasStat then stats.addRates sys prev call.now stat (if hasIo then some io else none)
        else stats
      | none => stats
    (some stats, if hasStat then
      snapshots.insert call.pid { stat := stat, io := io, time := call.now } else snapshots)
  | _, _ => (none, snapshots)

end MiniDrop
