import MiniDrop.Library.Lines
import MiniDrop.Library.Streams
import MiniDrop.Model.HotmethodService

/-! # The process statistics of the agent

Two readers of `/proc/<pid>/stat`. A file that cannot be opened is `none`. -/

namespace MiniDrop

open Streams

/-- The first line of a file. -/
def firstLine (file : List Char) : List Char := file.takeWhile (· ≠ '\n')

/-- `std::stoull`; a minus sign wraps around. `none` where it throws. -/
def stoull (s : List Char) : Option ℕ :=
  ((leading? (s.dropWhile isSpaceC)).filter fun n => n.natAbs < 2 ^ 64).map fun n =>
    (n % 2 ^ 64).toNat

/-! ## Process -/

structure ProcStat where
  pid : ℤ
  comm : List Char
  state : Char
  utime : ℤ
  stime : ℤ
  rss : ℤ

/-- `Process::ReadStat`: the answer and what becomes of `stat`; `none` where the standard library
throws. -/
def readStat (file : Option (List Char)) (stat : ProcStat) : Option (Bool × ProcStat) :=
  match file with
  | none => some (false, stat)
  | some file =>
    let line := firstLine file
    match line.idxOf? '(', Text.rfind [')'] line with
    | some parenStart, some parenEnd => do
      let pid ← stoi (line.take parenStart)
      -- of type `size_t`, so it passes the end of the line where `)` comes first
      let commLength := if parenEnd < parenStart then line.length else parenEnd - parenStart - 1
      let comm := (line.drop (parenStart + 1)).take commLength
      if line.length < parenEnd + 2 then none
      else
        let iss : InputStream := { rest := line.drop (parenEnd + 2) }
        let (state, iss) := extract isSpaceC readChar stat.state iss
        let iss := skip isSpaceC readLong 0 10 iss
        let (utime, iss) := extract isSpaceC readLong stat.utime iss
        let (stime, iss) := extract isSpaceC readLong stat.stime iss
        let iss := skip isSpaceC readLong 0 8 iss
        let (rss, _) := extract isSpaceC readLong stat.rss iss
        some (true, { pid, comm, state, utime, stime, rss })
    | _, _ => some (false, stat)

/-! ## ResourceProfiler -/

structure ProcTicks where
  procTicks : ℕ
  threads : ℤ

/-- `ReadProcStat`: what it reads, or `some none` where it answers false; `none` where the standard
library throws. -/
def readProcStat (file : Option (List Char)) : Option (Option ProcTicks) :=
  match file with
  | none => some none
  | some [] => some none
  | some file =>
    let line := firstLine file
    match Text.rfind [')'] line with
    | none => some none
    | some rparen =>
      if line.length ≤ rparen + 2 then some none
      else
        let fields := extractMany isSpaceC (readWord isSpaceC) [] 52
          { rest := line.drop (rparen + 2) }
        if fields.length < 18 then some none
        else do
          let utime ← stoull (fields.getD 11 [])
          let stime ← stoull (fields.getD 12 [])
          let threads ← stoi (fields.getD 17 [])
          some (some { procTicks := (utime + stime) % 2 ^ 64, threads })

end MiniDrop
