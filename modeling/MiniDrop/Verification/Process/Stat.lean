import MiniDrop.Model.ProcStat
import Mathlib.Data.List.GetD

/-! # The two readers of process statistics agree

One counts the fields that it skips, the other indexes them; both start behind the last closing
parenthesis, which ends the name of the command. -/

namespace MiniDrop

open Streams

/-- What the kernel prints about a process. -/
structure KernelStat where
  pid : ℕ
  comm : List Char
  state : Char
  /-- The fields from the fourth on. -/
  numbers : List ℤ
  pid_int : pid < 2 ^ 31
  comm_line : '\n' ∉ comm
  state_visible : isSpaceC state = false ∧ state ≠ ')'
  complete : numbers.length = 49
  bounded : ∀ n ∈ numbers.take 21, -2 ^ 63 ≤ n ∧ n < 2 ^ 63
  /-- `utime` and `stime` are unsigned. -/
  ticks : 0 ≤ numbers.getD 10 0 + numbers.getD 11 0 ∧
    numbers.getD 10 0 + numbers.getD 11 0 < 2 ^ 63
  threads_int : -2 ^ 31 ≤ numbers.getD 16 0 ∧ numbers.getD 16 0 < 2 ^ 31

namespace KernelStat

variable (k : KernelStat)

/-- A numeric field, under its number in the documentation of the kernel. -/
def field (n : ℕ) : ℤ := k.numbers.getD (n - 4) 0

/-- What follows the parenthesis and a blank. -/
def columns : List (List Char) := [k.state] :: k.numbers.map Python.str

def line : List Char :=
  Python.str k.pid ++ ' ' :: '(' :: (k.comm ++ ')' :: spaced ' ' k.columns)

def file : List Char := k.line ++ ['\n']

end KernelStat

/-! ## The line -/

section Line

variable {k : KernelStat}

theorem not_isSpaceC_of_mem_str {n : ℤ} : ∀ c ∈ Python.str n, isSpaceC c = false := by
  intro c hc
  rcases Python.mem_str hc with hdigit | rfl
  · by_contra hspace
    simp only [isSpaceC, Bool.not_eq_false, Bool.or_eq_true, decide_eq_true_eq] at hspace
    rcases hspace with ((((rfl | rfl) | rfl) | rfl) | rfl) | rfl <;> simp at hdigit
  · decide

/-- No number and no blank between numbers is such a character. -/
theorem notMem_numbers {c : Char} (hblank : c ≠ ' ') (hdigit : c.isDigit = false) (hminus : c ≠ '-')
    (numbers : List ℤ) : c ∉ spaced ' ' (numbers.map Python.str) := by
  intro h
  obtain ⟨text, htext, hc⟩ := List.mem_flatMap.mp h
  obtain ⟨n, -, rfl⟩ := List.mem_map.mp htext
  rcases List.mem_cons.mp hc with rfl | hc
  · exact hblank rfl
  · exact Python.ne_of_mem_str hc hdigit hminus rfl

theorem notMem_columns {c : Char} (hblank : c ≠ ' ') (hdigit : c.isDigit = false) (hminus : c ≠ '-')
    (hstate : c ≠ k.state) : c ∉ spaced ' ' k.columns := by
  have hnumbers := notMem_numbers hblank hdigit hminus k.numbers
  simpa [KernelStat.columns, spaced, hblank, hstate] using hnumbers

theorem firstLine_file (k : KernelStat) : firstLine k.file = k.line := by
  have hpid : '\n' ∉ Python.str k.pid := fun h =>
    Python.ne_of_mem_str h (by decide) (by decide) rfl
  have hstate : '\n' ≠ k.state := by
    intro h
    have hvisible := k.state_visible.1
    rw [← h] at hvisible
    exact absurd hvisible (by decide)
  have hcolumns := notMem_columns (k := k) (c := '\n') (by decide) (by decide) (by decide) hstate
  have hline : '\n' ∉ k.line := by
    simp [KernelStat.line, hpid, k.comm_line, hcolumns]
  exact Text.takeWhile_append_cons_of_notMem hline []

/-- The first opening parenthesis follows the process id. -/
theorem idxOf_line (k : KernelStat) :
    k.line.idxOf? '(' = some ((Python.str k.pid).length + 1) := by
  have hpid : '(' ∉ Python.str k.pid ++ [' '] := by
    intro h
    rcases List.mem_append.mp h with h | h
    · exact Python.ne_of_mem_str h (by decide) (by decide) rfl
    · simp at h
  have hline : k.line = (Python.str k.pid ++ [' ']) ++ '(' :: (k.comm ++ ')' ::
      spaced ' ' k.columns) := by
    simp [KernelStat.line]
  rw [hline, Text.idxOf?_append_cons hpid]
  simp

/-- The last closing parenthesis follows the name. -/
theorem rfind_line (k : KernelStat) :
    Text.rfind [')'] k.line = some ((Python.str k.pid).length + 2 + k.comm.length) := by
  have hstate : ')' ≠ k.state := fun h => k.state_visible.2 h.symm
  have hcolumns := notMem_columns (k := k) (c := ')') (by decide) (by decide) (by decide) hstate
  have hline : k.line = (Python.str k.pid ++ ' ' :: '(' :: k.comm) ++ ')' ::
      spaced ' ' k.columns := by
    simp [KernelStat.line]
  rw [hline, Text.rfind_append_cons hcolumns]
  simp
  omega

/-- The stream behind the parenthesis and a blank. -/
theorem drop_line (k : KernelStat) :
    k.line.drop ((Python.str k.pid).length + 2 + k.comm.length + 2) =
      [k.state] ++ spaced ' ' (k.numbers.map Python.str) := by
  have hline : k.line = (Python.str k.pid ++ ' ' :: '(' :: (k.comm ++ [')', ' '])) ++
      ([k.state] ++ spaced ' ' (k.numbers.map Python.str)) := by
    simp [KernelStat.line, KernelStat.columns, spaced]
  rw [hline]
  refine List.drop_left' ?_
  simp
  omega

end Line

/-! ## Numbers -/

section Numbers

variable {k : KernelStat} {n : ℤ} {t : List Char}

theorem dropWhile_str_append (n : ℤ) (t : List Char) :
    (Python.str n ++ t).dropWhile isSpaceC = Python.str n ++ t := by
  obtain ⟨d, s, heq⟩ := List.exists_cons_of_ne_nil (Python.str_ne_nil n)
  have hd : isSpaceC d = false := not_isSpaceC_of_mem_str d (heq ▸ List.mem_cons_self)
  rw [heq, List.cons_append, List.dropWhile_cons_of_neg (by simp [hd])]

theorem stoi_str_append (ht : ∀ c ∈ t.head?, c.isDigit = false) (hmin : -2 ^ 31 ≤ n)
    (hmax : n < 2 ^ 31) : stoi (Python.str n ++ t) = some n := by
  change (leading? ((Python.str n ++ t).dropWhile isSpaceC)).filter _ = some n
  rw [dropWhile_str_append, (leading?_str ht n).1, Option.filter_some, if_pos]
  simp only [decide_eq_true_eq]
  omega

theorem stoull_str (h : n.natAbs < 2 ^ 64) : stoull (Python.str n) = some (n % 2 ^ 64).toNat := by
  have hvalue := (leading?_str (t := []) (by simp) n).1
  have hdrop := dropWhile_str_append n []
  rw [List.append_nil] at hvalue hdrop
  rw [stoull, hdrop, hvalue, Option.filter_some, if_pos (by simpa using h), Option.map_some]

theorem drop_columns (k : KernelStat) {i : ℕ} (hi : i < 49) :
    (k.numbers.map Python.str).drop i =
      Python.str (k.numbers.getD i 0) :: (k.numbers.map Python.str).drop (i + 1) := by
  have hlength : i < k.numbers.length := by rw [k.complete]; exact hi
  rw [List.drop_eq_getElem_cons (by simpa using hlength), List.getElem_map,
    List.getD_eq_getElem _ _ hlength]

/-- Every field up to the resident set is read as a number. -/
theorem gives_number (k : KernelStat) {i : ℕ} (hi : i < 21) :
    Gives isSpaceC ' ' readLong (Python.str (k.numbers.getD i 0)) (k.numbers.getD i 0) := by
  have hlength : i < k.numbers.length := by rw [k.complete]; omega
  have hmem : k.numbers.getD i 0 ∈ k.numbers.take 21 := by
    rw [List.getD_eq_getElem _ _ hlength]
    exact List.mem_take_iff_getElem.mpr ⟨i, by omega, rfl⟩
  obtain ⟨hmin, hmax⟩ := k.bounded _ hmem
  exact gives_readLong not_isSpaceC_of_mem_str (by decide) hmin hmax

theorem extract_number (k : KernelStat) {i : ℕ} (hi : i < 21) (old : ℤ) :
    extract isSpaceC readLong old ⟨spaced ' ' ((k.numbers.map Python.str).drop i), false⟩ =
      (k.numbers.getD i 0, ⟨spaced ' ' ((k.numbers.map Python.str).drop (i + 1)), false⟩) := by
  rw [drop_columns k (by omega)]
  exact (gives_number k hi).extract_spaced rfl old _

theorem skip_numbers (k : KernelStat) {i n : ℕ} (h : i + n ≤ 21) :
    skip isSpaceC readLong 0 n ⟨spaced ' ' ((k.numbers.map Python.str).drop i), false⟩ =
      ⟨spaced ' ' ((k.numbers.map Python.str).drop (i + n)), false⟩ := by
  have hlength : (k.numbers.map Python.str).length = 49 := by rw [List.length_map, k.complete]
  rw [skip_spaced rfl 0 (by rw [List.length_drop]; omega), List.drop_drop]
  intro text htext
  obtain ⟨j, hj, rfl⟩ := List.mem_take_iff_getElem.mp htext
  have hj' : j < n := by omega
  refine ⟨k.numbers.getD (i + j) 0, ?_⟩
  rw [List.getElem_drop, List.getElem_map, ← List.getD_eq_getElem _ 0]
  exact gives_number k (by omega)

end Numbers

/-! ## The readers -/

namespace KernelStat

variable (k : KernelStat)

theorem stoi_pid : stoi (k.line.take ((Python.str k.pid).length + 1)) = some (k.pid : ℤ) := by
  have htake : k.line.take ((Python.str k.pid).length + 1) = Python.str k.pid ++ [' '] := by
    have hline : k.line = (Python.str k.pid ++ [' ']) ++ '(' :: (k.comm ++ ')' ::
        spaced ' ' k.columns) := by
      simp [KernelStat.line]
    rw [hline]
    exact List.take_left' (by simp)
  have hpid := k.pid_int
  rw [htake]
  exact stoi_str_append (by simp) (by omega) (by omega)

theorem comm_line_eq : (k.line.drop ((Python.str k.pid).length + 2)).take k.comm.length =
    k.comm := by
  have hline : k.line = (Python.str k.pid ++ [' ', '(']) ++ (k.comm ++ ')' ::
      spaced ' ' k.columns) := by
    simp [KernelStat.line]
  rw [hline, List.drop_left' (by simp), List.take_left' rfl]

/-- What `ReadStat` reads. -/
theorem readStat_file (stat : ProcStat) : readStat (some k.file) stat = some (true,
    { pid := k.pid, comm := k.comm, state := k.state, utime := k.field 14, stime := k.field 15,
      rss := k.field 24 }) := by
  have hstate : Gives isSpaceC ' ' readChar [k.state] k.state :=
    gives_readChar k.state_visible.1
  have hlong : ¬k.line.length < (Python.str k.pid).length + 2 + k.comm.length + 2 := by
    simp [KernelStat.line, KernelStat.columns, spaced]
    omega
  unfold readStat
  dsimp only
  rw [firstLine_file, idxOf_line, rfind_line]
  dsimp only
  rw [stoi_pid, Option.bind_eq_bind, Option.bind_some, if_neg hlong, if_neg (by omega), drop_line,
    hstate.extract]
  dsimp only
  have hfirst := skip_numbers k (i := 0) (n := 10) (by omega)
  rw [List.drop_zero] at hfirst
  rw [hfirst, extract_number k (by omega)]
  dsimp only
  rw [extract_number k (by omega)]
  dsimp only
  rw [skip_numbers k (by omega), extract_number k (by omega)]
  dsimp only
  have hcomm : (Python.str k.pid).length + 2 + k.comm.length - ((Python.str k.pid).length + 1) - 1 =
      k.comm.length := by
    omega
  rw [hcomm, comm_line_eq]
  rfl

theorem gives_columns : ∀ text ∈ k.columns, Gives isSpaceC ' ' (readWord isSpaceC) text text := by
  refine List.forall_mem_cons.mpr ⟨?_, fun text htext => ?_⟩
  · exact gives_readWord rfl (List.cons_ne_nil _ _) (List.forall_mem_singleton.mpr
      k.state_visible.1)
  · obtain ⟨n, -, rfl⟩ := List.mem_map.mp htext
    exact gives_readWord rfl (Python.str_ne_nil n) not_isSpaceC_of_mem_str

theorem length_columns : k.columns.length = 50 := by
  simp [KernelStat.columns, k.complete]

/-- The words of the second reader: the state has index 0. -/
theorem extractMany_columns : extractMany isSpaceC (readWord isSpaceC) [] 52
    ⟨[k.state] ++ spaced ' ' (k.numbers.map Python.str), false⟩ = k.columns := by
  have hlength : ([k.state] :: k.numbers.map Python.str).length ≤ 52 :=
    k.length_columns.le.trans (by omega)
  exact extractMany_append rfl hlength k.gives_columns

theorem getD_columns {i : ℕ} (hi : i < 49) :
    k.columns.getD (i + 1) [] = Python.str (k.numbers.getD i 0) := by
  have hlength : i < k.numbers.length := by rw [k.complete]; exact hi
  rw [KernelStat.columns, List.getD_cons_succ, List.getD_eq_getElem _ _ (by simpa using hlength),
    List.getElem_map, List.getD_eq_getElem _ _ hlength]

theorem natAbs_field_lt {i : ℕ} (hi : i < 21) : (k.numbers.getD i 0).natAbs < 2 ^ 64 := by
  have hlength : i < k.numbers.length := by rw [k.complete]; omega
  have hmem : k.numbers.getD i 0 ∈ k.numbers.take 21 := by
    rw [List.getD_eq_getElem _ _ hlength]
    exact List.mem_take_iff_getElem.mpr ⟨i, by omega, rfl⟩
  have hbounds := k.bounded _ hmem
  omega

/-- What `ReadProcStat` reads. -/
theorem readProcStat_file : readProcStat (some k.file) = some (some
    { procTicks := (k.field 14 + k.field 15).toNat, threads := k.field 20 }) := by
  have hlong : ¬k.line.length ≤ (Python.str k.pid).length + 2 + k.comm.length + 2 := by
    simp [KernelStat.line, KernelStat.columns, spaced]
    omega
  have hfile : k.file ≠ [] := by simp [KernelStat.file]
  have hthreads : stoi (Python.str (k.numbers.getD 16 0)) = some (k.numbers.getD 16 0) := by
    have hread := stoi_str_append (n := k.numbers.getD 16 0) (t := []) (by simp)
      k.threads_int.1 k.threads_int.2
    rwa [List.append_nil] at hread
  have hticks : ((k.numbers.getD 10 0 % 2 ^ 64).toNat + (k.numbers.getD 11 0 % 2 ^ 64).toNat) %
      2 ^ 64 = (k.numbers.getD 10 0 + k.numbers.getD 11 0).toNat := by
    have hbounds := k.ticks
    omega
  unfold readProcStat
  split
  · contradiction
  · rename_i heq
    exact absurd (Option.some.inj heq) hfile
  · rename_i file _ heq
    obtain rfl := Option.some.inj heq
    dsimp only
    rw [firstLine_file, rfind_line]
    dsimp only
    rw [if_neg hlong, drop_line, extractMany_columns, length_columns, if_neg (by omega),
      k.getD_columns (i := 10) (by omega), k.getD_columns (i := 11) (by omega),
      k.getD_columns (i := 16) (by omega), stoull_str (k.natAbs_field_lt (by omega)),
      stoull_str (k.natAbs_field_lt (by omega)), hthreads]
    simp only [Option.bind_eq_bind, Option.bind_some, hticks]
    rfl

end KernelStat

/-- Both readers succeed and agree with the kernel. -/
theorem readStat_readProcStat (k : KernelStat) (stat : ProcStat) : ∃ read ticks,
    readStat (some k.file) stat = some (true, read) ∧
      readProcStat (some k.file) = some (some ticks) ∧
      read.utime + read.stime = ticks.procTicks ∧
      (ticks.procTicks : ℤ) = k.field 14 + k.field 15 ∧ ticks.threads = k.field 20 ∧
      read.rss = k.field 24 ∧ read.comm = k.comm := by
  have hticks : ((k.field 14 + k.field 15).toNat : ℤ) = k.field 14 + k.field 15 :=
    Int.toNat_of_nonneg k.ticks.1
  exact ⟨_, _, k.readStat_file stat, k.readProcStat_file, hticks.symm, hticks, rfl, rfl, rfl⟩

/-- A name that looks like the end of a name. -/
example : ∃ k : KernelStat, k.comm = [')', ' ', '('] :=
  ⟨{ pid := 7, comm := [')', ' ', '('], state := 'R', numbers := List.replicate 49 1,
     pid_int := by decide, comm_line := by decide, state_visible := by decide,
     complete := by decide, bounded := by decide, ticks := by decide, threads_int := by decide }, rfl⟩

end MiniDrop
