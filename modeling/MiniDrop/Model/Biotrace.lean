import Mathlib.Data.List.Basic
import MiniDrop.Library.Csv
import MiniDrop.Library.Floats

/-! # Events of bpftrace

The scripts print a line for each event, and the analyzer reads the output, which also has
bpftrace's own lines, as comma-separated values. -/

namespace Python

/-- `str.upper`, for letters whose upper case has a letter of ASCII that the analyzer looks for. -/
def upperRune (c : Char) : List Char :=
  if c.isLower then [c.toUpper]
  else if c = 'ı' then ['I']
  else if c = 'ſ' then ['S']
  else if c = 'ß' then ['S', 'S']
  else if c = 'ẖ' then ['H', Char.ofNat 0x331]
  else if c = 'ẗ' then ['T', Char.ofNat 0x308]
  else if c = 'ẘ' then ['W', Char.ofNat 0x30A]
  else if c = 'ﬁ' then ['F', 'I']
  else if c = 'ﬃ' then ['F', 'F', 'I']
  else if c = 'ﬅ' ∨ c = 'ﬆ' then ['S', 'T']
  else [c]

def upper (s : List Char) : List Char := s.flatMap upperRune

end Python

namespace MiniDrop

/-! ## What the probes print -/

/-- `%d` and `%lld`. -/
def printed (n : ℤ) : List Char := (toString n).toList

/-- The name of a process. -/
structure Comm where
  chars : List Char
  short : chars.length ≤ 15
  clean : '\n' ∉ chars ∧ '\x00' ∉ chars

/-- The flags of a request, which the kernel writes as capital letters. -/
structure Rwbs where
  chars : List Char
  short : chars.length ≤ 64
  letters : ∀ c ∈ chars, c.isUpper = true

/-- A completed block request. -/
structure IoEvent where
  nsecs : Int64
  comm : Comm
  pid : Int32
  dev : Int32
  rwbs : Rwbs
  bytes : Int32
  latNs : Int64

structure SchedEvent where
  nsecs : Int64
  comm : Comm
  pid : Int32

inductive ProbeEvent where
  | io (event : IoEvent)
  | sched (event : SchedEvent)

namespace ProbeEvent

/-- The values that the format string takes, and its constants. -/
def fields : ProbeEvent → List (List Char)
  | io e =>
    [printed e.nsecs.toInt, e.comm.chars, printed e.pid.toInt, printed e.dev.toInt, e.rwbs.chars,
      printed e.bytes.toInt, printed e.latNs.toInt]
  | sched e =>
    [printed e.nsecs.toInt, e.comm.chars, printed e.pid.toInt, "sched".toList, "SCHED".toList,
      "0".toList, printed 10000000]

def line (event : ProbeEvent) : List Char := List.intercalate [','] event.fields

end ProbeEvent

/-! ## The analyzer -/

structure BioEvent where
  timestamp : Float
  comm : List Char
  pid : ℤ
  disk : List Char
  direction : String
  ioSize : ℤ
  latencyUs : Float
  sector : ℤ := 0

/-- `_normalize_direction`. -/
def normalizeDirection (value : List Char) : String :=
  let raw := Python.upper (Python.strip value)
  if "SCHED".toList <+: raw then "SCHED"
  else if 'W' ∈ raw then "W"
  else if 'R' ∈ raw then "R"
  else "UNKNOWN"

/-- `_parse_biosnoop_row`. -/
def parseBiosnoopRow : List (List Char) → Option BioEvent
  | time :: comm :: pid :: disk :: kind :: bytes :: latency :: _ => do
    let timestamp ← Python.float? time
    let pid ← Python.int? pid
    let ioSize ← Python.int? bytes
    let latency ← Python.float? latency
    some
      { timestamp
        comm := Python.strip comm
        pid
        disk := Python.strip disk
        direction := normalizeDirection kind
        ioSize
        latencyUs := latency / 1000 }
  | _ => none

/-- The first row is a header. -/
def isHeader (row : List (List Char)) : Bool :=
  row.head?.any fun field => "TIME".toList <:+: Python.upper field

/-- parse_biosnoop_csv; `none` where the reader raises an error. -/
def parseBiosnoopCsv (csvText : List Char) : Option (List BioEvent) :=
  (Csv.read csvText).map fun rows =>
    match rows with
    | [] => []
    | header :: rows =>
      (if isHeader header then [] else (parseBiosnoopRow header).toList) ++
        rows.filterMap parseBiosnoopRow

end MiniDrop
