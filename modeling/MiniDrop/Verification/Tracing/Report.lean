import Mathlib.Data.List.Sort
import MiniDrop.Model.Tracing

/-! # The report on traces

The slow events are counted after they have been cut to a hundred, and the summary counts them
before. -/

namespace MiniDrop

/-! ## Statement -/

def slowEventsOf (threshold : SlowThreshold) (events : List TraceEvent) : List TraceEvent :=
  events.filter fun e => threshold.ms ≤ e.durationMs

/-- The figures of a report belong together. -/
structure TracingReport.IsConsistent (report : TracingReport) (threshold : SlowThreshold)
    (events : List TraceEvent) : Prop where
  slowEventCount : report.slowEventCount = (slowEventsOf threshold events).length
  summary : ∃ front, report.summary = front ++ toString report.slowEventCount ++ " 个"
  slowEvents : report.slowEvents = (slowEventsOf threshold events).take 50
  counts : report.byService.sumOf (fun s => s.count) = report.totalEvents
  totals : report.byService.sumOf (fun s => s.totalMs) = (events.map TraceEvent.durationMs).sum
  median : report.p50DurationMs ≤ report.p99DurationMs
  maximum : report.p99DurationMs ≤ report.maxDurationMs

/-- The percentiles before they are rounded. -/
structure TracingResult.IsOrdered (result : TracingResult) : Prop where
  median : result.p50DurationMs ≤ result.p99DurationMs
  maximum : result.p99DurationMs ≤ result.maxDurationMs

/-- No index is out of range, and the report is consistent. -/
def ReportsConsistently (threshold : SlowThreshold) (events : List TraceEvent) : Prop :=
  ∃ result, analyzeTracing events threshold = some result ∧ result.IsOrdered ∧
    (tracingToJson result).IsConsistent threshold events

/-! ## Percentiles -/

section Percentiles

variable {durations : List ℚ} {i j : ℕ}

theorem floor_index (n : ℕ) : ⌊(n : ℚ) * (99 / 100)⌋.toNat = n * 99 / 100 := by
  have hcast : (n : ℚ) * (99 / 100) = ((n * 99 : ℕ) : ℚ) / (100 : ℕ) := by
    push_cast
    ring
  rw [hcast, Rat.floor_natCast_div_natCast]
  rfl

/-- The indices of the percentiles are in range and in order. -/
theorem index_bounds {n : ℕ} (h : 0 < n) : n / 2 ≤ n * 99 / 100 ∧ n * 99 / 100 < n := by omega

theorem getElem_le_getElem (hsorted : durations.Pairwise (· ≤ ·)) {a b : ℚ}
    (ha : durations[i]? = some a) (hb : durations[j]? = some b) (hij : i ≤ j) : a ≤ b := by
  obtain ⟨hi, rfl⟩ := List.getElem?_eq_some_iff.mp ha
  obtain ⟨hj, rfl⟩ := List.getElem?_eq_some_iff.mp hb
  rcases hij.eq_or_lt with rfl | hlt
  · exact le_refl _
  · exact List.pairwise_iff_getElem.mp hsorted i j hi hj hlt

theorem le_getLast (hsorted : durations.Pairwise (· ≤ ·)) {a b : ℚ}
    (ha : durations[i]? = some a) (hb : durations.getLast? = some b) : a ≤ b := by
  rw [List.getLast?_eq_getElem?] at hb
  refine getElem_le_getElem hsorted ha hb ?_
  have hi := (List.getElem?_eq_some_iff.mp ha).1
  omega

theorem pairwise_durations (events : List TraceEvent) :
    (events.map TraceEvent.durationMs).mergeSort.Pairwise (· ≤ ·) :=
  List.pairwise_mergeSort' (fun a b : ℚ => a ≤ b) _

end Percentiles

/-! ## The result -/

section Result

variable {events : List TraceEvent} {threshold : SlowThreshold}

/-- What the result says of the events, with the percentiles at their indices. -/
structure IsResultOf (result : TracingResult) (threshold : SlowThreshold)
    (events : List TraceEvent) : Prop where
  totalEvents : result.totalEvents = events.length
  slowEvents : result.slowEvents = (slowEventsOf threshold events).take 100
  byService : result.byService = (tallyServices events).mapValues ServiceTally.withAverage
  summary : ∃ front, result.summary =
    front ++ toString (slowEventsOf threshold events).length ++ " 个"
  ordered : result.IsOrdered

theorem exists_result (threshold : SlowThreshold) (hne : events ≠ []) :
    ∃ result, analyzeTracing events threshold = some result ∧ IsResultOf result threshold events := by
  have hlength : ((events.map TraceEvent.durationMs).mergeSort).length = events.length := by
    rw [List.length_mergeSort, List.length_map]
  have hpos : 0 < events.length := List.length_pos_of_ne_nil hne
  have hsorted := pairwise_durations events
  unfold analyzeTracing
  rw [if_neg hne]
  generalize (events.map TraceEvent.durationMs).mergeSort = durations at hlength hsorted
  obtain ⟨hmedian, hmaximum⟩ := index_bounds (hlength ▸ hpos)
  -- each index is that of an element
  obtain ⟨p50, hp50⟩ : ∃ p50, durations[durations.length / 2]? = some p50 :=
    ⟨_, List.getElem?_eq_getElem (hmedian.trans_lt hmaximum)⟩
  obtain ⟨p99, hp99⟩ : ∃ p99, durations[durations.length * 99 / 100]? = some p99 :=
    ⟨_, List.getElem?_eq_getElem hmaximum⟩
  obtain ⟨maxDur, hmax⟩ : ∃ maxDur, durations.getLast? = some maxDur :=
    ⟨_, List.getLast?_eq_some_getLast (List.ne_nil_of_length_pos (hlength ▸ hpos))⟩
  dsimp only
  rw [floor_index, hp50, hp99, hmax]
  refine ⟨_, rfl, rfl, rfl, rfl, ⟨_, rfl⟩, ?_, ?_⟩
  · exact getElem_le_getElem hsorted hp50 hp99 hmedian
  · exact le_getLast hsorted hp99 hmax

/-- Every event is counted for one service. -/
theorem sumOf_tallyServices {M : Type} [AddCancelCommMonoid M] (f : ServiceTally → M)
    (g : TraceEvent → M) (hzero : f {} = 0) (hadd : ∀ tally e, f (tally.add e) = f tally + g e) :
    (tallyServices events).sumOf f = (events.map g).sum := by
  have hfold := Dict.sumOf_foldl_update serviceOf hzero hadd events {}
  rw [tallyServices, hfold]
  exact zero_add _

/-- Everything but the number of slow events is consistent. -/
theorem isConsistent_iff {result : TracingResult} (h : IsResultOf result threshold events) :
    (tracingToJson result).IsConsistent threshold events ↔
      (slowEventsOf threshold events).length ≤ 100 := by
  have hcount : (tracingToJson result).slowEventCount =
      min 100 (slowEventsOf threshold events).length := by
    rw [tracingToJson, h.slowEvents, List.length_take]
  constructor
  · rintro ⟨hslow, -⟩
    rw [hcount] at hslow
    omega
  · intro hle
    have hall : (tracingToJson result).slowEventCount = (slowEventsOf threshold events).length := by
      rw [hcount, Nat.min_eq_right hle]
    obtain ⟨front, hsummary⟩ := h.summary
    refine ⟨hall, ⟨front, ?_⟩, ?_, ?_, ?_, ?_, ?_⟩
    · rw [hall]
      exact hsummary
    · rw [tracingToJson, h.slowEvents, List.take_take]
      rfl
    · rw [tracingToJson, h.byService, h.totalEvents, Dict.sumOf_mapValues]
      exact (sumOf_tallyServices ServiceTally.count (fun _ => 1) rfl fun _ _ => rfl).trans (by simp)
    · rw [tracingToJson, h.byService, Dict.sumOf_mapValues]
      exact sumOf_tallyServices ServiceTally.totalMs TraceEvent.durationMs rfl fun _ _ => rfl
    · exact Python.round_mono h.ordered.median 2
    · exact Python.round_mono h.ordered.maximum 2

end Result

/-! ## Main theorem -/

theorem reportsConsistently_iff (threshold : SlowThreshold) {events : List TraceEvent}
    (hne : events ≠ []) :
    ReportsConsistently threshold events ↔ (slowEventsOf threshold events).length ≤ 100 := by
  obtain ⟨result, hresult, hfigures⟩ := exists_result threshold hne
  rw [← isConsistent_iff hfigures]
  constructor
  · rintro ⟨other, hother, -, hconsistent⟩
    obtain rfl := Option.some.inj (hresult.symm.trans hother)
    exact hconsistent
  · intro hconsistent
    exact ⟨result, hresult, hfigures.ordered, hconsistent⟩

/-- A slow event and two others. -/
theorem reportsConsistently_three : ReportsConsistently {} [{ durationMs := 10 },
    { durationMs := 20 }, { durationMs := 300, service := "db" }] :=
  (reportsConsistently_iff {} (by decide)).mpr (by decide +kernel)

/-- Of 101 slow events a hundred are counted. -/
theorem not_reportsConsistently : ¬∀ (threshold : SlowThreshold) (events : List TraceEvent),
    events ≠ [] → ReportsConsistently threshold events := by
  intro h
  have hne : List.replicate 101 { durationMs := 200 : TraceEvent } ≠ [] := by simp
  obtain ⟨result, hresult, -, hconsistent⟩ := h {} _ hne
  obtain ⟨other, hother, hfigures⟩ := exists_result {} hne
  obtain rfl := Option.some.inj (hresult.symm.trans hother)
  have hle := (isConsistent_iff hfigures).mp hconsistent
  have hslow : ∀ e ∈ List.replicate 101 { durationMs := 200 : TraceEvent },
      ({} : SlowThreshold).ms ≤ e.durationMs := by
    intro e he
    rw [List.eq_of_mem_replicate he]
    decide +kernel
  rw [slowEventsOf, List.filter_eq_self.mpr fun e he => by simpa using hslow e he,
    List.length_replicate] at hle
  omega

end MiniDrop
