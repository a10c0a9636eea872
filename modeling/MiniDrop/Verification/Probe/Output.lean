import Mathlib.Data.List.Forall2
import MiniDrop.Library.Numerals
import MiniDrop.Model.Biotrace

/-! # The events of bpftrace's output

The scripts print the name of a process between commas as it is, and the analyzer reads
comma-separated values. A name with a comma, with a quotation mark at its front or with a carriage
return is not read back. -/

namespace MiniDrop

/-! ## Statement -/

namespace Rwbs

/-- The operation comes first, or after the flag for a flush before it. -/
def reads (rwbs : Rwbs) : Prop := "R".toList <+: rwbs.chars ∨ "FR".toList <+: rwbs.chars

def writes (rwbs : Rwbs) : Prop := "W".toList <+: rwbs.chars ∨ "FW".toList <+: rwbs.chars

end Rwbs

namespace ProbeEvent

def nsecs : ProbeEvent → ℤ
  | io e => e.nsecs.toInt
  | sched e => e.nsecs.toInt

def comm : ProbeEvent → Comm
  | io e => e.comm
  | sched e => e.comm

def pid : ProbeEvent → ℤ
  | io e => e.pid.toInt
  | sched e => e.pid.toInt

def disk : ProbeEvent → List Char
  | io e => printed e.dev.toInt
  | sched _ => "sched".toList

def kind : ProbeEvent → List Char
  | io e => e.rwbs.chars
  | sched _ => "SCHED".toList

def bytes : ProbeEvent → ℤ
  | io e => e.bytes.toInt
  | sched _ => 0

def latNs : ProbeEvent → ℤ
  | io e => e.latNs.toInt
  | sched _ => 10000000

def reads : ProbeEvent → Prop
  | io e => e.rwbs.reads
  | sched _ => False

def writes : ProbeEvent → Prop
  | io e => e.rwbs.writes
  | sched _ => False

def schedules : ProbeEvent → Prop
  | io _ => False
  | sched _ => True

/-- What the analyzer has for the event. -/
structure IsDecodedBy (event : ProbeEvent) (bio : BioEvent) : Prop where
  timestamp : bio.timestamp = Float.ofInt event.nsecs
  comm : bio.comm = event.comm.chars
  pid : bio.pid = event.pid
  disk : bio.disk = event.disk
  ioSize : bio.ioSize = event.bytes
  latencyUs : bio.latencyUs = Float.ofInt event.latNs / 1000
  read : bio.direction = "R" ↔ event.reads
  write : bio.direction = "W" ↔ event.writes
  sched : bio.direction = "SCHED" ↔ event.schedules

end ProbeEvent

/-- A line of the output. -/
inductive OutputLine where
  | event (event : ProbeEvent)
  /-- bpftrace's own. -/
  | other (text : List Char)

namespace OutputLine

def chars : OutputLine → List Char
  | event e => e.line
  | other text => text

def event? : OutputLine → Option ProbeEvent
  | event e => some e
  | other _ => none

/-- A line that is not an event is read as a record of its own, which is none. -/
def Closed : OutputLine → Prop
  | event _ => True
  | other text => '\n' ∉ text ∧ ∃ s, ({} : Csv.State).readLine (text ++ ['\n']) = some s ∧
      s.mode = .startRecord ∧ parseBiosnoopRow s.fields = none

end OutputLine

/-- What the probes and bpftrace wrote. -/
def outputText (output : List OutputLine) : List Char :=
  output.flatMap fun line => line.chars ++ ['\n']

/-- The events of the output are decoded, one for each line, in their order. -/
def DecodesEvents (output : List OutputLine) : Prop :=
  ∃ bios, parseBiosnoopCsv (outputText output) = some bios ∧
    List.Forall₂ ProbeEvent.IsDecodedBy (output.filterMap OutputLine.event?) bios

/-! ## The condition -/

/-- A name that can stand between commas. -/
structure Comm.Plain (comm : Comm) : Prop where
  comma : ',' ∉ comm.chars
  newline : '\r' ∉ comm.chars
  quote : comm.chars.head? ≠ some '"'
  blanks : Python.strip comm.chars = comm.chars

/-- The letters of an operation stand for it wherever they are. -/
structure Rwbs.Tells (rwbs : Rwbs) : Prop where
  sched : ¬"SCHED".toList <+: rwbs.chars
  write : 'W' ∈ rwbs.chars → rwbs.writes
  read : 'R' ∈ rwbs.chars → rwbs.reads ∨ rwbs.writes

namespace ProbeEvent

structure Readable (event : ProbeEvent) : Prop where
  comm : event.comm.Plain
  tells : ∀ e, event = io e → e.rwbs.Tells

end ProbeEvent

/-! ## Letters in capitals -/

/-- Characters before the small letters are their own upper case. -/
theorem upperRune_of_lt {c : Char} (h : c.toNat < 97) : Python.upperRune c = [c] := by
  have hlower : c.isLower = false := by
    refine Bool.and_eq_false_iff.mpr (.inl (decide_eq_false fun hle => ?_))
    have hletter : 97 ≤ c.toNat := hle
    omega
  have hne : ∀ d : Char, 97 ≤ d.toNat → c ≠ d := by
    rintro d hd rfl
    omega
  simp [Python.upperRune, hlower, hne]

theorem upper_eq_self {s : List Char} (h : ∀ c ∈ s, c.toNat < 97) : Python.upper s = s := by
  rw [Python.upper, List.flatMap_congr fun c hc => upperRune_of_lt (h c hc),
    List.flatMap_singleton']

theorem isUpper_bounds {c : Char} (h : c.isUpper = true) : 65 ≤ c.toNat ∧ c.toNat ≤ 90 := by
  have hletter : 65 ≤ c.toNat ∧ c.toNat ≤ 90 := of_decide_eq_true h
  exact hletter

theorem not_isSpace_of_isUpper {c : Char} (h : c.isUpper = true) : Python.isSpace c = false := by
  have hbounds := isUpper_bounds h
  simp only [Python.isSpace, isCommonSpace, Bool.or_eq_false_iff, decide_eq_false_iff_not,
    List.mem_cons, List.not_mem_nil, or_false]
  omega

/-! ## Printed numbers -/

/-- A number of 64 bits at most. -/
def FitsInt64 (n : ℤ) : Prop := -9223372036854775808 ≤ n ∧ n < 9223372036854775808

section Printed

variable {n : ℤ}

theorem mem_printed {c : Char} (h : c ∈ printed n) : c.isDigit = true ∨ c = '-' := Python.mem_str h

theorem length_toDigits_natAbs (h : FitsInt64 n) : (Nat.toDigits 10 n.natAbs).length ≤ 19 := by
  obtain ⟨hlow, hhigh⟩ := h
  rw [Nat.length_toDigits_le_iff (by decide) (by decide)]
  omega

theorem length_printed (h : FitsInt64 n) : (printed n).length ≤ 20 :=
  (Python.length_str_le n).trans (Nat.succ_le_succ (length_toDigits_natAbs h))

theorem int?_printed (h : FitsInt64 n) : Python.int? (printed n) = some n :=
  Python.int?_str ((length_toDigits_natAbs h).trans (by decide))

theorem float?_printed (n : ℤ) : Python.float? (printed n) = some (Float.ofInt n) :=
  Python.float?_str n

theorem strip_printed (n : ℤ) : Python.strip (printed n) = printed n := Python.strip_str n

theorem plain_printed (h : FitsInt64 n) : Csv.Plain (printed n) := by
  refine ⟨fun c hc => ?_, fun hhead => ?_, (length_printed h).trans (by decide)⟩
  · refine ⟨Python.ne_of_mem_str hc (by decide) (by decide), ?_,
      Python.ne_of_mem_str hc (by decide) (by decide)⟩
    simp [Csv.isNewline, Python.ne_of_mem_str hc (by decide : '\n'.isDigit = false) (by decide),
      Python.ne_of_mem_str hc (by decide : '\r'.isDigit = false) (by decide)]
  · exact Python.ne_of_mem_str (List.mem_of_mem_head? hhead) (by decide) (by decide) rfl

/-- A printed number is no header. -/
theorem not_isHeader_printed (n : ℤ) (row : List (List Char)) :
    isHeader (printed n :: row) = false := by
  have hupper : Python.upper (printed n) = printed n := by
    refine upper_eq_self fun c hc => ?_
    rcases mem_printed hc with hdigit | rfl
    · have hbounds := isDigit_bounds hdigit
      omega
    · decide
  rw [isHeader, List.head?_cons, Option.any_some, hupper, decide_eq_false_iff_not]
  intro htime
  rcases mem_printed (htime.subset (by simp : 'T' ∈ "TIME".toList)) with h | h
  · exact absurd h (by decide)
  · exact absurd h (by decide)

end Printed

/-! ## The line of an event -/

theorem Comm.Plain.field {comm : Comm} (h : comm.Plain) : Csv.Plain comm.chars := by
  refine ⟨fun c hc => ⟨?_, ?_, ?_⟩, h.quote, comm.short.trans (by decide)⟩
  · rintro rfl
    exact h.comma hc
  · rw [Csv.isNewline, Bool.or_eq_false_iff, decide_eq_false_iff_not, decide_eq_false_iff_not]
    constructor
    · rintro rfl
      exact comm.clean.1 hc
    · rintro rfl
      exact h.newline hc
  · rintro rfl
    exact comm.clean.2 hc

/-- A name that is read back has nothing else that is in its way than blanks. -/
theorem Comm.plain_of_field {comm : Comm} (h : Csv.Plain comm.chars)
    (hblanks : Python.strip comm.chars = comm.chars) : comm.Plain := by
  refine ⟨fun hc => (h.chars _ hc).1 rfl, fun hc => ?_, h.unquoted, hblanks⟩
  have hnewline := (h.chars _ hc).2.1
  cases hnewline

namespace Rwbs

variable {rwbs : Rwbs}

theorem plain (rwbs : Rwbs) : Csv.Plain rwbs.chars := by
  have hne : ∀ c ∈ rwbs.chars, ∀ d : Char, d.toNat < 65 → c ≠ d := by
    rintro c hc d hd rfl
    have hbounds := isUpper_bounds (rwbs.letters c hc)
    omega
  refine ⟨fun c hc => ⟨hne c hc _ (by decide), ?_, hne c hc _ (by decide)⟩, fun hhead => ?_,
    rwbs.short.trans (by decide)⟩
  · rw [Csv.isNewline, Bool.or_eq_false_iff, decide_eq_false_iff_not, decide_eq_false_iff_not]
    exact ⟨hne c hc _ (by decide), hne c hc _ (by decide)⟩
  · exact hne _ (List.mem_of_mem_head? hhead) '"' (by decide) rfl

theorem normalizeDirection_chars (rwbs : Rwbs) : normalizeDirection rwbs.chars =
    if "SCHED".toList <+: rwbs.chars then "SCHED"
    else if 'W' ∈ rwbs.chars then "W"
    else if 'R' ∈ rwbs.chars then "R"
    else "UNKNOWN" := by
  have hstrip : Python.strip rwbs.chars = rwbs.chars :=
    Text.trim_eq_self fun c hc => not_isSpace_of_isUpper (rwbs.letters c hc)
  have hupper : Python.upper rwbs.chars = rwbs.chars := upper_eq_self fun c hc => by
    have hbounds := isUpper_bounds (rwbs.letters c hc)
    omega
  rw [normalizeDirection, hstrip, hupper]

/-- A request does not read and write. -/
theorem not_reads_and_writes (hreads : rwbs.reads) (hwrites : rwbs.writes) : False := by
  rcases hreads with ⟨s, hs⟩ | ⟨s, hs⟩ <;> rcases hwrites with ⟨t, ht⟩ | ⟨t, ht⟩ <;>
    · rw [← ht] at hs
      simp at hs

theorem mem_of_writes (h : rwbs.writes) : 'W' ∈ rwbs.chars := by
  rcases h with h | h
  · exact h.subset (by simp)
  · exact h.subset (by simp)

theorem mem_of_reads (h : rwbs.reads) : 'R' ∈ rwbs.chars := by
  rcases h with h | h
  · exact h.subset (by simp)
  · exact h.subset (by simp)

/-- The direction is that of the request if the letters tell. -/
theorem tells_iff : rwbs.Tells ↔ (normalizeDirection rwbs.chars = "R" ↔ rwbs.reads) ∧
    (normalizeDirection rwbs.chars = "W" ↔ rwbs.writes) ∧
      normalizeDirection rwbs.chars ≠ "SCHED" := by
  rw [normalizeDirection_chars]
  constructor
  · rintro ⟨hsched, hwrite, hread⟩
    rw [if_neg hsched]
    by_cases hw : 'W' ∈ rwbs.chars
    · have hwrites := hwrite hw
      have hreads : ¬rwbs.reads := fun h => not_reads_and_writes h hwrites
      simp [hw, hwrites, hreads]
    · have hwrites : ¬rwbs.writes := fun h => hw (mem_of_writes h)
      by_cases hr : 'R' ∈ rwbs.chars
      · have hreads := (hread hr).resolve_right hwrites
        simp [hw, hr, hwrites, hreads]
      · have hreads : ¬rwbs.reads := fun h => hr (mem_of_reads h)
        simp [hw, hr, hwrites, hreads]
  · rintro ⟨hread, hwrite, hsched⟩
    have hnot : ¬"SCHED".toList <+: rwbs.chars := fun h => hsched (if_pos h)
    rw [if_neg hnot] at hread hwrite
    refine ⟨hnot, fun hw => hwrite.mp (if_pos hw), fun hr => ?_⟩
    by_cases hw : 'W' ∈ rwbs.chars
    · exact .inr (hwrite.mp (if_pos hw))
    · exact .inl (hread.mp (by rw [if_neg hw, if_pos hr]))

end Rwbs

namespace ProbeEvent

variable {event : ProbeEvent} {bio : BioEvent}

theorem fields_eq (event : ProbeEvent) : event.fields =
    [printed event.nsecs, event.comm.chars, printed event.pid, event.disk, event.kind,
      printed event.bytes, printed event.latNs] := by
  cases event with
  | io e => rfl
  | sched e =>
      have hzero : printed 0 = "0".toList := rfl
      rw [bytes, hzero]
      rfl

theorem fitsInt64_toInt (n : Int64) : FitsInt64 n.toInt := ⟨Int64.le_toInt n, Int64.toInt_lt n⟩

theorem fitsInt64_toInt32 (n : Int32) : FitsInt64 n.toInt := by
  have hlow := Int32.le_toInt n
  have hhigh := Int32.toInt_lt n
  constructor <;> omega

theorem fits_numbers (event : ProbeEvent) : FitsInt64 event.nsecs ∧ FitsInt64 event.pid ∧
    FitsInt64 event.bytes ∧ FitsInt64 event.latNs := by
  cases event with
  | io e => exact ⟨fitsInt64_toInt _, fitsInt64_toInt32 _, fitsInt64_toInt32 _, fitsInt64_toInt _⟩
  | sched e =>
      exact ⟨fitsInt64_toInt _, fitsInt64_toInt32 _, by simp [FitsInt64, bytes],
        by simp [FitsInt64, latNs]⟩

theorem plain_disk (event : ProbeEvent) : Csv.Plain event.disk := by
  cases event with
  | io e => exact plain_printed (fitsInt64_toInt32 _)
  | sched e => exact ⟨by simp [disk, Csv.isNewline], by simp [disk], by simp [disk, Csv.fieldLimit]⟩

theorem strip_disk (event : ProbeEvent) : Python.strip event.disk = event.disk := by
  cases event with
  | io e => exact strip_printed _
  | sched e => rfl

theorem plain_kind (event : ProbeEvent) : Csv.Plain event.kind := by
  cases event with
  | io e => exact e.rwbs.plain
  | sched e => exact ⟨by simp [kind, Csv.isNewline], by simp [kind], by simp [kind, Csv.fieldLimit]⟩

theorem plain_fields (h : Csv.Plain event.comm.chars) : ∀ field ∈ event.fields, Csv.Plain field := by
  obtain ⟨hnsecs, hpid, hbytes, hlatNs⟩ := event.fits_numbers
  simp [fields_eq, plain_printed hnsecs, h, plain_printed hpid, plain_disk, plain_kind,
    plain_printed hbytes, plain_printed hlatNs]

/-- What stands behind the name. -/
def tail (event : ProbeEvent) : List Char :=
  List.intercalate [','] [printed event.pid, event.disk, event.kind, printed event.bytes,
    printed event.latNs]

theorem line_eq (event : ProbeEvent) :
    event.line = (printed event.nsecs ++ [',']) ++ ((event.comm.chars ++ [',']) ++ event.tail) := by
  simp [line, fields_eq, tail, List.intercalate]

theorem newline_notMem_line (event : ProbeEvent) : '\n' ∉ event.line := by
  have hplain : ∀ {field : List Char}, Csv.Plain field → '\n' ∉ field := by
    intro field hfield hmem
    have hnewline := (hfield.chars _ hmem).2.1
    cases hnewline
  obtain ⟨hnsecs, hpid, hbytes, hlatNs⟩ := event.fits_numbers
  simp [line_eq, tail, List.intercalate, event.comm.clean.1, hplain (plain_printed hnsecs),
    hplain (plain_printed hpid), hplain event.plain_disk, hplain event.plain_kind,
    hplain (plain_printed hbytes), hplain (plain_printed hlatNs)]

theorem exists_head_line (event : ProbeEvent) : ∃ c rest, printed event.nsecs = c :: rest ∧
    Csv.isNewline c = false := by
  obtain ⟨c, rest, hprinted⟩ := List.exists_cons_of_ne_nil (Python.str_ne_nil event.nsecs)
  have hmem : c ∈ Python.str event.nsecs := by
    rw [hprinted]
    exact List.mem_cons_self
  exact ⟨c, rest, hprinted, ((plain_printed event.fits_numbers.1).chars c hmem).2.1⟩

/-- The first field is read before the name. -/
theorem foldlM_nsecs (event : ProbeEvent) (rest : List Char) :
    (printed event.nsecs ++ [','] ++ rest).foldlM Csv.State.step {} =
      rest.foldlM Csv.State.step ⟨.startField, [printed event.nsecs], []⟩ := by
  obtain ⟨c, chars, hprinted, hc⟩ := event.exists_head_line
  rw [Csv.foldlM_start (by simp [hprinted, hc]) (by simp), List.foldlM_append,
    Csv.foldlM_plain (plain_printed event.fits_numbers.1) (.inl rfl)]
  rfl

/-- The line of an event with a plain name is a record with its fields. -/
theorem readLine_line (h : Csv.Plain event.comm.chars) :
    ({} : Csv.State).readLine (event.line ++ ['\n']) = some ⟨.startRecord, event.fields, []⟩ := by
  have hne : event.fields ≠ [] := by simp [fields_eq]
  have hread : (⟨.startField, [], []⟩ : Csv.State).readLine (event.line ++ ['\n']) = _ :=
    Csv.readLine_intercalate (.inl rfl) hne (plain_fields h)
  obtain ⟨c, chars, hprinted, hc⟩ := event.exists_head_line
  rw [Csv.State.readLine, Csv.foldlM_start (by simp [line_eq, hprinted, hc]) (by simp)]
  exact hread

/-! ## The event that is decoded -/

def decoded (event : ProbeEvent) : BioEvent :=
  { timestamp := Float.ofInt event.nsecs
    comm := Python.strip event.comm.chars
    pid := event.pid
    disk := event.disk
    direction := normalizeDirection event.kind
    ioSize := event.bytes
    latencyUs := Float.ofInt event.latNs / 1000 }

theorem parseBiosnoopRow_fields (event : ProbeEvent) :
    parseBiosnoopRow event.fields = some event.decoded := by
  obtain ⟨hnsecs, hpid, hbytes, hlatNs⟩ := event.fits_numbers
  rw [fields_eq, parseBiosnoopRow, float?_printed, int?_printed hpid, int?_printed hbytes,
    float?_printed, strip_disk]
  rfl

theorem directions_decoded (event : ProbeEvent) :
    ((event.decoded.direction = "R" ↔ event.reads) ∧ (event.decoded.direction = "W" ↔ event.writes) ∧
      (event.decoded.direction = "SCHED" ↔ event.schedules)) ↔
        ∀ e, event = io e → e.rwbs.Tells := by
  cases event with
  | io e =>
      have htells : e.rwbs.Tells ↔ _ := Rwbs.tells_iff
      simp only [decoded, kind, reads, writes, schedules, iff_false, io.injEq, forall_eq']
      exact htells.symm
  | sched e =>
      have hsched : normalizeDirection "SCHED".toList = "SCHED" := by decide
      simp only [decoded, kind, hsched, reads, writes, schedules]
      constructor
      · rintro - e he
        cases he
      · rintro -
        decide

theorem isDecodedBy_decoded : event.IsDecodedBy event.decoded ↔
    Python.strip event.comm.chars = event.comm.chars ∧ ∀ e, event = io e → e.rwbs.Tells := by
  rw [← directions_decoded]
  constructor
  · rintro ⟨-, hcomm, -, -, -, -, hread, hwrite, hsched⟩
    exact ⟨hcomm, hread, hwrite, hsched⟩
  · rintro ⟨hcomm, hread, hwrite, hsched⟩
    exact ⟨rfl, hcomm, rfl, rfl, rfl, rfl, hread, hwrite, hsched⟩

/-! ## Names that are not read back -/

theorem comm_parseBiosnoopRow {row : List (List Char)} (h : parseBiosnoopRow row = some bio) :
    ∃ value, row[1]? = some value ∧ bio.comm = Python.strip value := by
  unfold parseBiosnoopRow at h
  split at h
  · simp only [Option.bind_eq_bind, Option.bind_eq_some_iff] at h
    obtain ⟨_, -, _, -, _, -, _, -, hbio⟩ := h
    exact ⟨_, rfl, by rw [← Option.some.inj hbio]⟩
  · cases h

/-- A record that begins with the line of an event has the event's name only where the name is
plain. -/
theorem plain_of_records {lines : List (List Char)} {record : List (List Char)}
    {rows : List (List (List Char))}
    (hrecords : Csv.records {} ((event.line ++ ['\n']) :: lines) = some (record :: rows))
    (hparse : parseBiosnoopRow record = some bio) (hcomm : bio.comm = event.comm.chars) :
    Csv.Plain event.comm.chars := by
  obtain ⟨value, hvalue, hstrip⟩ := comm_parseBiosnoopRow hparse
  rw [hcomm] at hstrip
  by_contra hplain
  -- the state behind the comma that follows the name
  cases hinit : (event.comm.chars ++ [',']).foldlM Csv.State.step
      ⟨.startField, [printed event.nsecs], []⟩ with
  | none =>
      have hline : ({} : Csv.State).readLine (event.line ++ ['\n']) = none := by
        rw [Csv.State.readLine, line_eq, List.append_assoc, foldlM_nsecs, List.append_assoc,
          List.foldlM_append, hinit]
        rfl
      rw [Csv.records, hline] at hrecords
      cases hrecords
  | some u =>
      have hread : (printed event.nsecs ++ [','] ++ (event.comm.chars ++ [','])).foldlM
          Csv.State.step {} = some u := by rw [foldlM_nsecs, hinit]
      have hsplit : event.line ++ ['\n'] =
          (printed event.nsecs ++ [','] ++ (event.comm.chars ++ [','])) ++ (event.tail ++ ['\n']) := by
        simp [line_eq]
      rw [hsplit] at hrecords
      obtain ⟨t, hgrows, hprefix⟩ := Csv.records_cons_grows hread hrecords
      obtain ⟨hdone, hnext⟩ := hgrows.getElem? hprefix hvalue
      rcases Csv.foldlM_of_not_plain event.comm.clean.2 (event.comm.short.trans (by decide)) hplain
        hinit with ⟨short, rest, hfields, hlength⟩ | ⟨hfields, hcount⟩
      · have hvalue := hdone short (by rw [hfields]; rfl)
        have hle := (Text.trim_sublist Python.isSpace value).length_le
        rw [← Python.strip, ← hstrip, hvalue] at hle
        omega
      · have hle := (hnext (by rw [hfields]; rfl)).sublist.count_le ','
        have hcomma : Python.isSpace ',' = false := by decide
        rw [← Text.count_trim hcomma value, ← Python.strip, ← hstrip] at hle
        omega

end ProbeEvent

/-! ## The output -/

section Output

variable {output : List OutputLine}

/-- The lines of the output. -/
def linesOfOutput (output : List OutputLine) : List (List Char) :=
  output.map fun line => line.chars ++ ['\n']

theorem linesOf_outputText (h : ∀ line ∈ output, line.Closed) :
    Csv.linesOf (outputText output) = linesOfOutput output := by
  induction output with
  | nil => rfl
  | cons line output ih =>
      obtain ⟨hline, houtput⟩ := List.forall_mem_cons.mp h
      have hnewline : '\n' ∉ line.chars := by
        cases line with
        | event e => exact e.newline_notMem_line
        | other text => exact hline.1
      have hcons : outputText (line :: output) = line.chars ++ '\n' :: outputText output := by
        simp [outputText]
      rw [hcons, Csv.linesOf_append hnewline, ih houtput]
      rfl

/-- A first row that is taken for a header is no event's. -/
theorem parseBiosnoopRow_header {header : List (List Char)} {rows : List (List (List Char))}
    (h : ∀ line ∈ output, line.Closed)
    (hrecords : Csv.records {} (linesOfOutput output) = some (header :: rows))
    (hheader : isHeader header = true) : parseBiosnoopRow header = none := by
  cases output with
  | nil => cases hrecords
  | cons line output =>
      cases line with
      | event e =>
          cases header with
          | nil => cases hheader
          | cons field header =>
              have hread := e.foldlM_nsecs []
              rw [List.append_nil] at hread
              have hline : linesOfOutput (.event e :: output) = (printed e.nsecs ++ [','] ++
                  ((e.comm.chars ++ [',']) ++ e.tail ++ ['\n'])) :: linesOfOutput output := by
                simp [linesOfOutput, OutputLine.chars, e.line_eq]
              rw [hline] at hrecords
              obtain ⟨t, hgrows, hprefix⟩ := Csv.records_cons_grows hread hrecords
              obtain ⟨hdone, -⟩ := hgrows.getElem? hprefix (List.getElem?_cons_zero)
              rw [hdone _ rfl, not_isHeader_printed] at hheader
              cases hheader
      | other text =>
          obtain ⟨-, s, hread, hmode, hparse⟩ := List.forall_mem_cons.mp h |>.1
          rw [linesOfOutput, List.map_cons, Csv.records, OutputLine.chars, hread, Option.bind_some,
            if_pos hmode] at hrecords
          obtain ⟨later, -, heq⟩ := Option.map_eq_some_iff.mp hrecords
          rwa [← (List.cons.inj heq).1]

theorem parseBiosnoopCsv_outputText (h : ∀ line ∈ output, line.Closed) :
    parseBiosnoopCsv (outputText output) = (Csv.records {} (linesOfOutput output)).map
      fun rows => rows.filterMap parseBiosnoopRow := by
  rw [parseBiosnoopCsv, Csv.read, linesOf_outputText h]
  cases hrecords : Csv.records {} (linesOfOutput output) with
  | none => rfl
  | some rows =>
      cases rows with
      | nil => rfl
      | cons header rows =>
          rw [Option.map_some, Option.map_some]
          have hfirst := parseBiosnoopRow_header h hrecords
          cases hheader : isHeader header with
          | false => cases hparse : parseBiosnoopRow header <;> simp [hheader, hparse]
          | true => simp [hheader, hfirst hheader]

theorem length_filter_isOpen (h : ∀ line ∈ output, line.Closed) :
    ((linesOfOutput output).filter (Csv.isOpen parseBiosnoopRow)).length ≤
      (output.filterMap OutputLine.event?).length := by
  induction output with
  | nil => simp [linesOfOutput]
  | cons line output ih =>
      obtain ⟨hline, houtput⟩ := List.forall_mem_cons.mp h
      have hrest := ih houtput
      cases line with
      | event e =>
          have hone : ((linesOfOutput (.event e :: output)).filter
              (Csv.isOpen parseBiosnoopRow)).length ≤
                ((linesOfOutput output).filter (Csv.isOpen parseBiosnoopRow)).length + 1 := by
            rw [linesOfOutput, List.map_cons, List.filter_cons]
            split
            · rfl
            · exact Nat.le_succ _
          exact Nat.le_trans hone (Nat.succ_le_succ hrest)
      | other text =>
          have hclosed : Csv.isOpen parseBiosnoopRow (text ++ ['\n']) = false :=
            Csv.isOpen_eq_false_iff.mpr hline.2
          have hsame : (linesOfOutput (.other text :: output)).filter
              (Csv.isOpen parseBiosnoopRow) =
                (linesOfOutput output).filter (Csv.isOpen parseBiosnoopRow) :=
            List.filter_cons_of_neg (by simp [OutputLine.chars, hclosed])
          rw [hsame]
          exact hrest

/-- The records of the output have its events. -/
def RecordsDecoded (output : List OutputLine) : Prop :=
  ∃ rows, Csv.records {} (linesOfOutput output) = some rows ∧
    List.Forall₂ ProbeEvent.IsDecodedBy (output.filterMap OutputLine.event?)
      (rows.filterMap parseBiosnoopRow)

theorem recordsDecoded_other {text : List Char} (h : (OutputLine.other text).Closed) :
    RecordsDecoded (.other text :: output) ↔ RecordsDecoded output := by
  obtain ⟨-, s, hread, hmode, hparse⟩ := h
  have hrecords : Csv.records {} (linesOfOutput (.other text :: output)) =
      (Csv.records {} (linesOfOutput output)).map (s.fields :: ·) := by
    rw [linesOfOutput, List.map_cons, Csv.records, OutputLine.chars, hread, Option.bind_some,
      if_pos hmode]
    rfl
  rw [RecordsDecoded, RecordsDecoded, hrecords]
  cases Csv.records {} (linesOfOutput output) with
  | none => simp
  | some rows =>
      simp only [Option.map_some, Option.some.injEq, exists_eq_left', List.filterMap_cons_none hparse]
      rfl

theorem recordsDecoded_event {e : ProbeEvent} (h : Csv.Plain e.comm.chars) :
    RecordsDecoded (.event e :: output) ↔ e.IsDecodedBy e.decoded ∧ RecordsDecoded output := by
  have hrecords : Csv.records {} (linesOfOutput (.event e :: output)) =
      (Csv.records {} (linesOfOutput output)).map (e.fields :: ·) := by
    rw [linesOfOutput, List.map_cons, Csv.records, OutputLine.chars, e.readLine_line h,
      Option.bind_some, if_pos rfl]
    rfl
  rw [RecordsDecoded, RecordsDecoded, hrecords]
  cases Csv.records {} (linesOfOutput output) with
  | none => simp
  | some rows => simp [OutputLine.event?, e.parseBiosnoopRow_fields]

/-- A record that is not an event's leaves too few for the other events. -/
theorem plain_of_recordsDecoded {e : ProbeEvent} (hclosed : ∀ line ∈ output, line.Closed)
    (h : RecordsDecoded (.event e :: output)) : Csv.Plain e.comm.chars := by
  obtain ⟨rows, hrecords, hall⟩ := h
  cases rows with
  | nil => cases hall
  | cons record rows =>
      cases hparse : parseBiosnoopRow record with
      | none =>
          have hle := Nat.le_trans (Csv.length_filterMap_records_cons hrecords)
            (length_filter_isOpen hclosed)
          rw [List.filterMap_cons_none hparse] at hall
          have hlength := hall.length_eq
          simp only [List.filterMap_cons, OutputLine.event?, List.length_cons] at hlength
          omega
      | some bio =>
          rw [List.filterMap_cons_some hparse] at hall
          obtain ⟨hdecoded, -⟩ := List.forall₂_cons.mp hall
          exact ProbeEvent.plain_of_records hrecords hparse hdecoded.comm

theorem recordsDecoded_iff (h : ∀ line ∈ output, line.Closed) :
    RecordsDecoded output ↔ ∀ event ∈ output.filterMap OutputLine.event?, event.Readable := by
  induction output with
  | nil => simp [RecordsDecoded, linesOfOutput, Csv.records]
  | cons line output ih =>
      obtain ⟨hline, houtput⟩ := List.forall_mem_cons.mp h
      cases line with
      | other text => rw [recordsDecoded_other hline, ih houtput]; rfl
      | event e =>
          have hevents : (OutputLine.event e :: output).filterMap OutputLine.event? =
              e :: output.filterMap OutputLine.event? := rfl
          rw [hevents, List.forall_mem_cons, ← ih houtput]
          constructor
          · intro hdecoded
            have hplain := plain_of_recordsDecoded houtput hdecoded
            obtain ⟨hhead, hrest⟩ := (recordsDecoded_event hplain).mp hdecoded
            obtain ⟨hblanks, htells⟩ := ProbeEvent.isDecodedBy_decoded.mp hhead
            exact ⟨⟨Comm.plain_of_field hplain hblanks, htells⟩, hrest⟩
          · rintro ⟨⟨hcomm, htells⟩, hrest⟩
            exact (recordsDecoded_event hcomm.field).mpr
              ⟨ProbeEvent.isDecodedBy_decoded.mpr ⟨hcomm.blanks, htells⟩, hrest⟩

end Output

/-! ## Main theorem -/

theorem decodesEvents_iff (output : List OutputLine) (h : ∀ line ∈ output, line.Closed) :
    DecodesEvents output ↔ ∀ event ∈ output.filterMap OutputLine.event?, event.Readable := by
  rw [← recordsDecoded_iff h, DecodesEvents, parseBiosnoopCsv_outputText h, RecordsDecoded]
  constructor
  · rintro ⟨bios, hbios, hall⟩
    obtain ⟨rows, hrows, rfl⟩ := Option.map_eq_some_iff.mp hbios
    exact ⟨rows, hrows, hall⟩
  · rintro ⟨rows, hrows, hall⟩
    exact ⟨_, by rw [hrows, Option.map_some], hall⟩

section Samples

/-- A write of the process with the name. -/
def sampleWrite (comm : Comm) : ProbeEvent :=
  .io
    { nsecs := 5
      comm
      pid := 7
      dev := 8388608
      rwbs := ⟨"WS".toList, by decide, List.all_eq_true.mp rfl⟩
      bytes := 4096
      latNs := 25000 }

def sampleOutput : List OutputLine :=
  [.other "Attaching 3 probes...".toList, .event (sampleWrite ⟨"kworker/0:1".toList, by decide, by decide⟩)]

/-- bpftrace's banner stands before the first event. -/
theorem decodesEvents_banner : DecodesEvents sampleOutput := by
  refine (decodesEvents_iff sampleOutput ?_).mpr ?_
  · rintro line (_ | ⟨_, _ | ⟨_, ⟨⟩⟩⟩)
    · exact ⟨by decide, ⟨.startRecord, ["Attaching 3 probes...".toList], []⟩, by decide, rfl, rfl⟩
    · trivial
  · rintro event (_ | ⟨_, ⟨⟩⟩)
    refine ⟨⟨by decide, by decide, by decide, by decide⟩, ?_⟩
    rintro _ ⟨⟩
    exact ⟨by decide, fun _ => .inl (by decide), fun h => absurd h (by decide)⟩

def commaOutput : List OutputLine := [.event (sampleWrite ⟨"a,b".toList, by decide, by decide⟩)]

/-- The event of a process whose name has a comma is lost. -/
theorem not_decodesEvents : ¬∀ output : List OutputLine, DecodesEvents output := by
  intro h
  obtain ⟨bios, hbios, hall⟩ := h commaOutput
  have hread : Csv.read (outputText commaOutput) = some [["5".toList, "a".toList, "b".toList,
      "7".toList, "8388608".toList, "WS".toList, "4096".toList, "25000".toList]] := by decide
  have hpid : Python.int? "b".toList = none := by decide
  have hrow : parseBiosnoopRow ["5".toList, "a".toList, "b".toList, "7".toList, "8388608".toList,
      "WS".toList, "4096".toList, "25000".toList] = none := by
    rw [parseBiosnoopRow, hpid]
    cases Python.float? "5".toList <;> rfl
  have hnone : parseBiosnoopCsv (outputText commaOutput) = some [] := by
    rw [parseBiosnoopCsv, hread, Option.map_some]
    dsimp only
    rw [hrow]
    split <;> rfl
  obtain rfl := Option.some.inj (hnone.symm.trans hbios)
  cases hall

end Samples

end MiniDrop
