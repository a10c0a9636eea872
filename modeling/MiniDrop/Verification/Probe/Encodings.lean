import MiniDrop.Verification.Probe.Records

/-! # Statistics of each encoding

The direction of an item is its first letter, and that of a text is looked for in all of it. -/

namespace MiniDrop

/-! ## Statement -/

instance (rwbs : Rwbs) : Decidable rwbs.reads := inferInstanceAs (Decidable (_ ∨ _))

instance (rwbs : Rwbs) : Decidable rwbs.writes := inferInstanceAs (Decidable (_ ∨ _))

/-- A file that `json.loads` reads. -/
structure JsonFile (loads : List Char → Option (Json Float)) (parsed : Json Float) where
  content : List Char
  opens : ['{'] <+: Python.strip content ∨ ['['] <+: Python.strip content
  loads_eq : loads (Python.strip content) = some parsed

structure BioStats.AddsUp (stats : BioStats) (records : List IoRecord) : Prop where
  counts : stats.byDisk.sumOf (·.count) = stats.totalEvents
  bytes : stats.byDisk.sumOf (·.bytes) = (records.map (·.bytes.toInt)).sum
  operations : stats.readCount + stats.writeCount =
    (records.filter fun r => r.direction.reads ∨ r.direction.writes).length

section Statement

variable {loads : List Char → Option (Json Float)} (repr : Json Float → String)
  (fixed0 : Float → String) (layout : BioLayout) (records : List IoRecord)
  (file : JsonFile loads (layout.json records))

/-- All of the encodings have the same statistics, which add up. -/
def EncodingsAgree : Prop :=
  ∃ stats, runBiosnoop loads repr fixed0 (layout.csv records) = some (.stats stats) ∧
    runBiosnoop loads repr fixed0 file.content = some (.stats stats) ∧
    analyzeBiosnoop fixed0 (parseBiosnoopText (layout.table records)) = some stats ∧
    stats.AddsUp records

end Statement

/-- The quotient by a thousand is rounded once. -/
def RoundsAlike (records : List IoRecord) : Prop :=
  ∀ r ∈ records, Float.ofInt r.latencyNs.toInt / 1000 = Python.thousandth r.latencyNs.toInt

def Rwbs.schedules (rwbs : Rwbs) : Prop := "SCHED".toList <+: rwbs.chars

instance (rwbs : Rwbs) : Decidable rwbs.schedules :=
  inferInstanceAs (Decidable ("SCHED".toList <+: _))

/-- The first letter of the direction says what all of it says. -/
structure IoRecord.Telling (r : IoRecord) : Prop where
  write : ¬r.direction.schedules → 'W' ∈ r.direction.chars → "W".toList <+: r.direction.chars
  read : ¬r.direction.schedules → 'R' ∈ r.direction.chars →
    "W".toList <+: r.direction.chars ∨ "R".toList <+: r.direction.chars
  slow : 10000 ≤ Float.ofInt r.latencyNs.toInt / 1000 → ¬r.direction.schedules ∧
    ('W' ∈ r.direction.chars ∨ 'R' ∈ r.direction.chars)

structure Encodable (records : List IoRecord) : Prop where
  storable : ∀ r ∈ records, r.Storable
  listed : ∀ r ∈ records, r.Listed
  telling : ∀ r ∈ records, r.Telling
  sched : (∃ r ∈ records, r.direction.schedules) → ∃ r ∈ records, r.device.chars = "sched".toList

/-! ## What the analysis reads -/

section Analysis

variable {fixed0 : Float → String} {events : List BioEvent} {stats : BioStats} {t : Float}

theorem latencyFigures_isSome (h : events ≠ []) : (latencyFigures events).isSome = true := by
  have hlength : ((events.map BioEvent.latencyUs).mergeSort).length = events.length := by
    rw [List.length_mergeSort, List.length_map]
  have hpos := List.length_pos_iff.mpr h
  have hmiddle : events.length / 2 < ((events.map BioEvent.latencyUs).mergeSort).length := by
    omega
  have hlate : ∀ n, min n (events.length - 1) <
      ((events.map BioEvent.latencyUs).mergeSort).length := by
    intro n
    omega
  have hlast := List.getLast?_eq_some_getLast (List.length_pos_iff.mp (hlength.symm ▸ hpos))
  rw [latencyFigures]
  simp only [hlength, List.getElem?_eq_getElem hmiddle, List.getElem?_eq_getElem (hlate _),
    hlast, Option.bind_eq_bind, Option.bind_some]
  rfl

/-- What the statistics have of the events. -/
structure BioStats.Counts (stats : BioStats) (events : List BioEvent) : Prop where
  probeType : stats.probeType = probeTypeOf events
  totalEvents : stats.totalEvents = events.length
  readCount : stats.readCount = (readEvents events).length
  writeCount : stats.writeCount = (writeEvents events).length
  slowIos : stats.slowIos = slowIosOf 10000 events
  byDisk : stats.byDisk = (tallyDisks events).mapValues DiskTally.withAverage

theorem analyzeBiosnoop_counts (h : analyzeBiosnoop fixed0 events = some stats) :
    stats.Counts events := by
  rw [analyzeBiosnoop] at h
  split at h
  · next hnil =>
    obtain rfl := List.isEmpty_iff.mp hnil
    obtain rfl := Option.some.inj h
    exact ⟨rfl, rfl, rfl, rfl, rfl, rfl⟩
  · obtain ⟨⟨avg, p50, p99, max⟩, -, rfl⟩ := Option.map_eq_some_iff.mp h
    exact ⟨rfl, rfl, rfl, rfl, rfl, rfl⟩

theorem analyzeBiosnoop_isSome (fixed0 : Float → String) (events : List BioEvent) :
    (analyzeBiosnoop fixed0 events).isSome = true := by
  rw [analyzeBiosnoop]
  split
  · rfl
  · next hne =>
    rw [Option.isSome_map]
    exact latencyFigures_isSome fun hnil => hne (List.isEmpty_iff.mpr hnil)

theorem sumOf_count_tallyDisks (events : List BioEvent) :
    (tallyDisks events).sumOf DiskTally.count = events.length := by
  have hinit : DiskTally.count {} = 0 := rfl
  have hadd : ∀ tally e, (DiskTally.add tally e).count = tally.count + 1 := fun _ _ => rfl
  refine (Dict.sumOf_foldl_update BioEvent.disk hinit hadd events {}).trans ?_
  simp [Dict.sumOf]

theorem sumOf_bytes_tallyDisks (events : List BioEvent) :
    (tallyDisks events).sumOf DiskTally.bytes = (events.map BioEvent.ioSize).sum := by
  have hinit : DiskTally.bytes {} = 0 := rfl
  have hadd : ∀ tally e, (DiskTally.add tally e).bytes = tally.bytes + e.ioSize :=
    fun _ _ => rfl
  refine (Dict.sumOf_foldl_update BioEvent.disk hinit hadd events {}).trans ?_
  simp [Dict.sumOf]

end Analysis

/-! ## Events that differ in their directions -/

section Congruence

variable {ρ : Type} {f g : ρ → BioEvent} {records : List ρ}

/-- An event without its direction. -/
def BioEvent.bare (e : BioEvent) : BioEvent := { e with direction := "" }

theorem latencyUs_of_bare {e e' : BioEvent} (h : e.bare = e'.bare) : e.latencyUs = e'.latencyUs := by
  have hlatency := congrArg BioEvent.latencyUs h
  exact hlatency

theorem ioSize_of_bare {e e' : BioEvent} (h : e.bare = e'.bare) : e.ioSize = e'.ioSize := by
  have hsize := congrArg BioEvent.ioSize h
  exact hsize

theorem eq_of_bare {e e' : BioEvent} (h : e.bare = e'.bare) (hdirection : e.direction = e'.direction) :
    e = e' := by
  cases e
  cases e'
  simp only [BioEvent.bare, BioEvent.mk.injEq, true_and] at h hdirection ⊢
  exact ⟨h.1, h.2.1, h.2.2.1, h.2.2.2.1, hdirection, h.2.2.2.2⟩

theorem latencyFigures_congr (h : ∀ r ∈ records, (f r).bare = (g r).bare) :
    latencyFigures (records.map f) = latencyFigures (records.map g) := by
  have hlatencies : (records.map f).map BioEvent.latencyUs =
      (records.map g).map BioEvent.latencyUs := by
    rw [List.map_map, List.map_map]
    exact List.map_congr_left fun r hr => latencyUs_of_bare (h r hr)
  rw [latencyFigures, latencyFigures, hlatencies]

theorem tallyDisks_congr (h : ∀ r ∈ records, (f r).bare = (g r).bare) :
    tallyDisks (records.map f) = tallyDisks (records.map g) := by
  have hbare : ∀ events, tallyDisks events = tallyDisks (events.map BioEvent.bare) := by
    intro events
    rw [tallyDisks, tallyDisks, List.foldl_map]
    rfl
  rw [hbare, hbare (records.map g), List.map_map, List.map_map]
  exact congrArg tallyDisks (List.map_congr_left h)

theorem topProcesses_congr (h : ∀ r ∈ records, (f r).bare = (g r).bare) :
    topProcesses (records.map f) = topProcesses (records.map g) := by
  have hbare : ∀ events, tallyProcesses events = tallyProcesses (events.map BioEvent.bare) := by
    intro events
    rw [tallyProcesses, tallyProcesses, List.foldl_map]
    rfl
  have htally : tallyProcesses (records.map f) = tallyProcesses (records.map g) := by
    rw [hbare, hbare (records.map g), List.map_map, List.map_map]
    exact congrArg tallyProcesses (List.map_congr_left h)
  rw [topProcesses, topProcesses, htally]

/-- The events of one direction, when the others have it where they do. -/
theorem map_ioSize_filter_congr {direction : String}
    (h : ∀ r ∈ records, (f r).bare = (g r).bare)
    (hdirection : ∀ r ∈ records, (f r).direction = direction ↔ (g r).direction = direction) :
    ((records.map f).filter fun e => e.direction = direction).map BioEvent.ioSize =
      ((records.map g).filter fun e => e.direction = direction).map BioEvent.ioSize := by
  rw [List.filter_map, List.filter_map, List.map_map, List.map_map]
  have hfilter : records.filter ((fun e => decide (e.direction = direction)) ∘ f) =
      records.filter ((fun e => decide (e.direction = direction)) ∘ g) :=
    List.filter_congr fun r hr => decide_eq_decide.mpr (hdirection r hr)
  rw [hfilter]
  exact List.map_congr_left fun r hr =>
    ioSize_of_bare (h r (List.mem_of_mem_filter hr))

theorem filter_slow_congr {t : Float} (h : ∀ r ∈ records, (f r).bare = (g r).bare) :
    records.filter ((fun e => decide (t ≤ e.latencyUs)) ∘ f) =
      records.filter ((fun e => decide (t ≤ e.latencyUs)) ∘ g) := by
  refine List.filter_congr fun r hr => ?_
  rw [Function.comp_apply, Function.comp_apply, latencyUs_of_bare (h r hr)]

theorem slowIosOf_congr {t : Float} (h : ∀ r ∈ records, (f r).bare = (g r).bare)
    (hslow : ∀ r ∈ records, t ≤ (f r).latencyUs → f r = g r) :
    slowIosOf t (records.map f) = slowIosOf t (records.map g) := by
  rw [slowIosOf, slowIosOf, List.filter_map, List.filter_map, ← filter_slow_congr h]
  refine List.map_congr_left fun r hr => ?_
  obtain ⟨hmem, ht⟩ := List.mem_filter.mp hr
  exact hslow r hmem (of_decide_eq_true ht)

/-- As many events of a direction are the same events. -/
theorem direction_of_length_eq {direction : String}
    (himp : ∀ r ∈ records, (g r).direction = direction → (f r).direction = direction)
    (hlength : ((records.map f).filter fun e => e.direction = direction).length =
      ((records.map g).filter fun e => e.direction = direction).length) :
    ∀ r ∈ records, (f r).direction = direction → (g r).direction = direction := by
  have hfilter : records.filter (fun r => (g r).direction = direction) =
      (records.filter fun r => (f r).direction = direction).filter
        fun r => (g r).direction = direction := by
    rw [List.filter_filter]
    refine List.filter_congr fun r hr => ?_
    by_cases hg : (g r).direction = direction
    · simp [hg, himp r hr hg]
    · simp [hg]
  rw [List.filter_map, List.filter_map, List.length_map, List.length_map] at hlength
  have hall := List.length_filter_eq_length_iff.mp
    ((congrArg List.length hfilter).symm.trans hlength.symm)
  intro r hr hf
  exact of_decide_eq_true (hall r (List.mem_filter.mpr ⟨hr, decide_eq_true hf⟩))

theorem eq_of_slowIosOf_eq {t : Float} (h : ∀ r ∈ records, (f r).bare = (g r).bare)
    (hslow : slowIosOf t (records.map f) = slowIosOf t (records.map g)) :
    ∀ r ∈ records, t ≤ (f r).latencyUs → f r = g r := by
  rw [slowIosOf, slowIosOf, List.filter_map, List.filter_map, ← filter_slow_congr h] at hslow
  intro r hr ht
  exact List.map_inj_left.mp hslow r (List.mem_filter.mpr ⟨hr, decide_eq_true ht⟩)

theorem analyzeBiosnoop_congr {fixed0 : Float → String}
    (h : ∀ r ∈ records, (f r).bare = (g r).bare)
    (hread : ∀ r ∈ records, (f r).direction = "R" ↔ (g r).direction = "R")
    (hwrite : ∀ r ∈ records, (f r).direction = "W" ↔ (g r).direction = "W")
    (hslow : ∀ r ∈ records, 10000 ≤ (f r).latencyUs → f r = g r)
    (hprobe : probeTypeOf (records.map f) = probeTypeOf (records.map g)) :
    analyzeBiosnoop fixed0 (records.map f) = analyzeBiosnoop fixed0 (records.map g) := by
  have hreads : (readEvents (records.map f)).map BioEvent.ioSize =
      (readEvents (records.map g)).map BioEvent.ioSize := map_ioSize_filter_congr h hread
  have hwrites : (writeEvents (records.map f)).map BioEvent.ioSize =
      (writeEvents (records.map g)).map BioEvent.ioSize := map_ioSize_filter_congr h hwrite
  have hcountRead := congrArg List.length hreads
  have hcountWrite := congrArg List.length hwrites
  rw [List.length_map, List.length_map] at hcountRead hcountWrite
  have hempty : (records.map f).isEmpty = (records.map g).isEmpty := by
    rw [List.isEmpty_map, List.isEmpty_map]
  have hlength : (records.map f).length = (records.map g).length := by
    rw [List.length_map, List.length_map]
  unfold analyzeBiosnoop bioSummary
  rw [hempty, hlength, latencyFigures_congr h, tallyDisks_congr h, topProcesses_congr h,
    slowIosOf_congr h hslow, hprobe, hcountRead, hcountWrite, hreads, hwrites]

end Congruence

/-! ## Directions -/

section Directions

variable {r : IoRecord} {records : List IoRecord}

theorem Rwbs.not_schedules (rwbs : Rwbs) {c : Char} (hc : c ≠ 'S') (h : [c] <+: rwbs.chars) :
    ¬rwbs.schedules := by
  rintro ⟨t, ht⟩
  rw [← ht] at h
  simp at h
  exact hc h

theorem ofList_take_one {c : Char} {s : List Char} :
    String.ofList (s.take 1) = String.ofList [c] ↔ [c] <+: s := by
  rw [String.ofList_inj]
  cases s <;> simp [eq_comm]

theorem jsonEvent_direction_write :
    r.jsonEvent.direction = "W" ↔ "W".toList <+: r.direction.chars := ofList_take_one

theorem jsonEvent_direction_read :
    r.jsonEvent.direction = "R" ↔ "R".toList <+: r.direction.chars := ofList_take_one

theorem jsonEvent_direction_ne {d : String} (hd : 1 < d.toList.length) :
    r.jsonEvent.direction ≠ d := by
  rintro rfl
  simp only [IoRecord.jsonEvent, String.toList_ofList, List.length_take] at hd
  omega

theorem event_direction : r.event.direction =
    if r.direction.schedules then "SCHED"
    else if 'W' ∈ r.direction.chars then "W"
    else if 'R' ∈ r.direction.chars then "R"
    else "UNKNOWN" := r.direction.normalizeDirection_chars

theorem event_direction_write :
    r.event.direction = "W" ↔ ¬r.direction.schedules ∧ 'W' ∈ r.direction.chars := by
  rw [event_direction]
  split
  · simp [*]
  · split <;> [simp [*]; split <;> simp [*]]

theorem event_direction_read : r.event.direction = "R" ↔
    ¬r.direction.schedules ∧ 'W' ∉ r.direction.chars ∧ 'R' ∈ r.direction.chars := by
  rw [event_direction]
  split
  · simp [*]
  · split <;> [simp [*]; split <;> simp [*]]

theorem event_direction_sched : r.event.direction = "SCHED" ↔ r.direction.schedules := by
  rw [event_direction]
  split
  · simp [*]
  · split <;> [simp [*]; split <;> simp [*]]

end Directions

/-! ## Records that tell -/

section Telling

variable {r : IoRecord} {records : List IoRecord}

theorem IoRecord.Telling.write_iff (h : r.Telling) :
    r.event.direction = "W" ↔ r.jsonEvent.direction = "W" := by
  rw [event_direction_write, jsonEvent_direction_write]
  constructor
  · rintro ⟨hsched, hmem⟩
    exact h.write hsched hmem
  · intro hfirst
    exact ⟨r.direction.not_schedules (by decide) hfirst, hfirst.subset List.mem_cons_self⟩

theorem IoRecord.Telling.read_iff (h : r.Telling) :
    r.event.direction = "R" ↔ r.jsonEvent.direction = "R" := by
  rw [event_direction_read, jsonEvent_direction_read]
  constructor
  · rintro ⟨hsched, hwrite, hread⟩
    exact (h.read hsched hread).resolve_left fun hfirst => hwrite (hfirst.subset List.mem_cons_self)
  · intro hfirst
    have hsched := r.direction.not_schedules (by decide) hfirst
    refine ⟨hsched, fun hmem => ?_, hfirst.subset List.mem_cons_self⟩
    obtain ⟨s, hs⟩ := h.write hsched hmem
    obtain ⟨t, ht⟩ := hfirst
    rw [← ht] at hs
    cases hs

/-- A slow request has one direction in all of the encodings. -/
theorem IoRecord.Telling.direction_eq (h : r.Telling)
    (hslow : 10000 ≤ Float.ofInt r.latencyNs.toInt / 1000) :
    r.event.direction = r.jsonEvent.direction := by
  obtain ⟨hsched, hmem⟩ := h.slow hslow
  by_cases hwrite : 'W' ∈ r.direction.chars
  · have hevent := event_direction_write.mpr ⟨hsched, hwrite⟩
    exact hevent.trans (h.write_iff.mp hevent).symm
  · have hevent := event_direction_read.mpr ⟨hsched, hwrite, hmem.resolve_left hwrite⟩
    exact hevent.trans (h.read_iff.mp hevent).symm

theorem Rwbs.not_schedules_of_operates {rwbs : Rwbs} (h : rwbs.reads ∨ rwbs.writes) :
    ¬rwbs.schedules := by
  rintro ⟨s, hs⟩
  rcases h with (⟨t, ht⟩ | ⟨t, ht⟩) | ⟨t, ht⟩ | ⟨t, ht⟩ <;>
    · rw [← hs] at ht
      simp at ht

/-- The requests that are counted are those that read or write. -/
theorem IoRecord.Telling.operates_iff (h : r.Telling) :
    r.event.direction = "R" ∨ r.event.direction = "W" ↔
      r.direction.reads ∨ r.direction.writes := by
  constructor
  · rintro (hread | hwrite)
    · exact .inl (.inl (jsonEvent_direction_read.mp (h.read_iff.mp hread)))
    · exact .inr (.inl (jsonEvent_direction_write.mp (h.write_iff.mp hwrite)))
  · intro hoperates
    have hsched := Rwbs.not_schedules_of_operates hoperates
    rw [event_direction_read, event_direction_write]
    by_cases hwrite : 'W' ∈ r.direction.chars
    · exact .inr ⟨hsched, hwrite⟩
    · have hreads := hoperates.resolve_right fun hw => hwrite (Rwbs.mem_of_writes hw)
      exact .inl ⟨hsched, hwrite, Rwbs.mem_of_reads hreads⟩

theorem length_readEvents_add_writeEvents (h : ∀ r ∈ records, r.Telling) :
    (readEvents (records.map IoRecord.event)).length +
        (writeEvents (records.map IoRecord.event)).length =
      (records.filter fun r => r.direction.reads ∨ r.direction.writes).length := by
  induction records with
  | nil => rfl
  | cons r records ih =>
      obtain ⟨hr, hrecords⟩ := List.forall_mem_cons.mp h
      have hrest := ih hrecords
      have hiff := hr.operates_iff
      rw [readEvents, writeEvents] at hrest ⊢
      rw [List.map_cons, List.filter_cons, List.filter_cons, List.filter_cons]
      by_cases hread : r.event.direction = "R"
      · rw [if_pos (decide_eq_true hread), if_neg (by simp [hread]),
          if_pos (decide_eq_true (hiff.mp (.inl hread))), List.length_cons, List.length_cons]
        omega
      by_cases hwrite : r.event.direction = "W"
      · rw [if_neg (by simp [hwrite]), if_pos (decide_eq_true hwrite),
          if_pos (decide_eq_true (hiff.mp (.inr hwrite))), List.length_cons, List.length_cons]
        omega
      · have hnone := mt hiff.mpr (not_or.mpr ⟨hread, hwrite⟩)
        rw [if_neg (by simp [hread]), if_neg (by simp [hwrite]), if_neg (by simpa using hnone)]
        exact hrest

/-- Only the texts have a direction for scheduling. -/
theorem probeTypeOf_eq_iff :
    probeTypeOf (records.map IoRecord.event) = probeTypeOf (records.map IoRecord.jsonEvent) ↔
      ((∃ r ∈ records, r.direction.schedules) →
        ∃ r ∈ records, r.device.chars = "sched".toList) := by
  have hevent : ((records.map IoRecord.event).any fun e =>
      e.disk = "sched".toList ∨ e.direction = "SCHED") = true ↔
        (∃ r ∈ records, r.device.chars = "sched".toList) ∨
          ∃ r ∈ records, r.direction.schedules := by
    simp only [List.any_map, List.any_eq_true, Function.comp_apply, decide_eq_true_eq,
      event_direction_sched, ← exists_or, ← and_or_left]
    rfl
  have hjson : ((records.map IoRecord.jsonEvent).any fun e =>
      e.disk = "sched".toList ∨ e.direction = "SCHED") = true ↔
        ∃ r ∈ records, r.device.chars = "sched".toList := by
    simp only [List.any_map, List.any_eq_true, Function.comp_apply, decide_eq_true_eq,
      jsonEvent_direction_ne (by decide : 1 < "SCHED".toList.length), or_false]
    rfl
  rw [probeTypeOf, probeTypeOf]
  simp only [hevent, hjson]
  by_cases hdevice : ∃ r ∈ records, r.device.chars = "sched".toList
  · rw [if_pos (.inl hdevice), if_pos hdevice]
    exact iff_of_true rfl fun _ => hdevice
  rw [if_neg hdevice]
  by_cases hsched : ∃ r ∈ records, r.direction.schedules
  · rw [if_pos (.inr hsched)]
    exact iff_of_false (by decide) fun h => hdevice (h hsched)
  · rw [if_neg (not_or.mpr ⟨hdevice, hsched⟩)]
    exact iff_of_true rfl fun h => absurd h hsched

end Telling

/-! ## The files -/

section Files

variable {loads : List Char → Option (Json Float)} {repr : Json Float → String}
  {fixed0 : Float → String} {layout : BioLayout} {records : List IoRecord}

theorem runBiosnoop_csv : runBiosnoop loads repr fixed0 (layout.csv records) =
    if ∀ r ∈ records, r.Storable then
      (analyzeBiosnoop fixed0 (records.map IoRecord.event)).map .stats
    else none := by
  have hstrip : ∃ rest, Python.strip (layout.csv records) = 'T' :: rest :=
    ⟨_, Text.trim_append_cons (s := []) Python.isSpace (by decide)⟩
  obtain ⟨rest, hrest⟩ := hstrip
  rw [runBiosnoop, if_neg, parseBiosnoopCsv_csv]
  · split <;> rfl
  · rw [hrest]
    simp

theorem runBiosnoop_json (file : JsonFile loads (layout.json records)) :
    runBiosnoop loads repr fixed0 file.content =
      (analyzeBiosnoop fixed0 (records.map IoRecord.jsonEvent)).map .stats := by
  have htotal : (((layout.json records).dict?.bind (Dict.lookup "total_events")).isSome) =
      false := by
    rw [BioLayout.json]
    split <;> rfl
  rw [runBiosnoop, if_pos file.opens, file.loads_eq, Option.bind_some, htotal,
    if_neg Bool.false_ne_true, parseBiosnoopJson_json, Option.bind_some]

theorem RoundsAlike.bare_eq (h : RoundsAlike records) :
    ∀ r ∈ records, r.event.bare = r.jsonEvent.bare := by
  intro r hr
  simp [BioEvent.bare, IoRecord.jsonEvent, IoRecord.event, h r hr]

theorem Encodable.analyze_eq (h : Encodable records) (hround : RoundsAlike records) :
    analyzeBiosnoop fixed0 (records.map IoRecord.event) =
      analyzeBiosnoop fixed0 (records.map IoRecord.jsonEvent) := by
  refine analyzeBiosnoop_congr hround.bare_eq (fun r hr => (h.telling r hr).read_iff)
    (fun r hr => (h.telling r hr).write_iff) (fun r hr hslow => ?_)
    (probeTypeOf_eq_iff.mpr h.sched)
  exact eq_of_bare (hround.bare_eq r hr) ((h.telling r hr).direction_eq hslow)

/-- The statistics of the texts add up. -/
theorem Encodable.addsUp {stats : BioStats} (h : Encodable records)
    (hstats : stats.Counts (records.map IoRecord.event)) : stats.AddsUp records where
  counts := by
    rw [hstats.byDisk, hstats.totalEvents, Dict.sumOf_mapValues]
    exact sumOf_count_tallyDisks _
  bytes := by
    rw [hstats.byDisk, Dict.sumOf_mapValues]
    refine (sumOf_bytes_tallyDisks _).trans ?_
    rw [List.map_map]
    rfl
  operations := by
    rw [hstats.readCount, hstats.writeCount]
    exact length_readEvents_add_writeEvents h.telling

/-- Statistics that agree show every record, and each of them in one way. -/
theorem Encodable.of_counts {stats : BioStats} (hround : RoundsAlike records)
    (hstorable : ∀ r ∈ records, r.Storable)
    (hcsv : stats.Counts (records.map IoRecord.event))
    (hjson : stats.Counts (records.map IoRecord.jsonEvent))
    (htable : stats.Counts ((records.filter (·.Listed)).map IoRecord.event)) :
    Encodable records := by
  have hwrite : ∀ r ∈ records, r.event.direction = "W" → r.jsonEvent.direction = "W" := by
    refine direction_of_length_eq (fun r _ hfirst => ?_)
      (hcsv.writeCount.symm.trans hjson.writeCount)
    rw [jsonEvent_direction_write] at hfirst
    exact event_direction_write.mpr
      ⟨r.direction.not_schedules (by decide) hfirst, hfirst.subset List.mem_cons_self⟩
  have hread : ∀ r ∈ records, r.event.direction = "R" → r.jsonEvent.direction = "R" := by
    refine direction_of_length_eq (fun r hr hfirst => ?_)
      (hcsv.readCount.symm.trans hjson.readCount)
    have hprefix := jsonEvent_direction_read.mp hfirst
    have hsched := r.direction.not_schedules (by decide) hprefix
    refine event_direction_read.mpr ⟨hsched, fun hmem => ?_, hprefix.subset List.mem_cons_self⟩
    have hother := hwrite r hr (event_direction_write.mpr ⟨hsched, hmem⟩)
    rw [hfirst] at hother
    exact absurd hother (by decide)
  refine ⟨hstorable, fun r hr => ?_, fun r hr => ⟨?_, ?_, ?_⟩, ?_⟩
  · have hlength := htable.totalEvents.symm.trans hcsv.totalEvents
    rw [List.length_map, List.length_map] at hlength
    exact of_decide_eq_true (List.length_filter_eq_length_iff.mp hlength r hr)
  · exact fun hsched hmem => jsonEvent_direction_write.mp
      (hwrite r hr (event_direction_write.mpr ⟨hsched, hmem⟩))
  · intro hsched hmem
    by_cases hw : 'W' ∈ r.direction.chars
    · exact .inl (jsonEvent_direction_write.mp
        (hwrite r hr (event_direction_write.mpr ⟨hsched, hw⟩)))
    · exact .inr (jsonEvent_direction_read.mp
        (hread r hr (event_direction_read.mpr ⟨hsched, hw, hmem⟩)))
  · intro hslow
    have heq : r.event = r.jsonEvent := eq_of_slowIosOf_eq hround.bare_eq
      (hcsv.slowIos.symm.trans hjson.slowIos) r hr hslow
    have hdirection : r.jsonEvent.direction = _ := heq ▸ event_direction
    split at hdirection
    · exact absurd hdirection (jsonEvent_direction_ne (by decide))
    next hsched =>
    split at hdirection
    · next hw => exact ⟨hsched, .inl hw⟩
    split at hdirection
    · next hr => exact ⟨hsched, .inr hr⟩
    · exact absurd hdirection (jsonEvent_direction_ne (by decide))
  · exact probeTypeOf_eq_iff.mp (hcsv.probeType.symm.trans hjson.probeType)

theorem encodingsAgree_iff (repr : Json Float → String) (fixed0 : Float → String)
    (layout : BioLayout) (records : List IoRecord)
    (file : JsonFile loads (layout.json records)) :
    RoundsAlike records ∧ EncodingsAgree repr fixed0 layout records file ↔
      RoundsAlike records ∧ Encodable records := by
  refine and_congr_right fun hround => ?_
  rw [EncodingsAgree]
  constructor
  · rintro ⟨stats, hcsv, hjson, htable, -⟩
    rw [runBiosnoop_csv] at hcsv
    split at hcsv
    · next hstorable =>
      rw [runBiosnoop_json] at hjson
      rw [parseBiosnoopText_table] at htable
      obtain ⟨s, hs, heq⟩ := Option.map_eq_some_iff.mp hcsv
      obtain rfl := BioOutput.stats.inj heq
      obtain ⟨t, ht, heq⟩ := Option.map_eq_some_iff.mp hjson
      obtain rfl := BioOutput.stats.inj heq
      exact .of_counts hround hstorable (analyzeBiosnoop_counts hs) (analyzeBiosnoop_counts ht)
        (analyzeBiosnoop_counts htable)
    · cases hcsv
  · intro h
    obtain ⟨stats, hstats⟩ := Option.isSome_iff_exists.mp
      (analyzeBiosnoop_isSome fixed0 (records.map IoRecord.event))
    have hlisted : records.filter (·.Listed) = records :=
      List.filter_eq_self.mpr fun r hr => decide_eq_true (h.listed r hr)
    refine ⟨stats, ?_, ?_, ?_, h.addsUp (analyzeBiosnoop_counts hstats)⟩
    · rw [runBiosnoop_csv, if_pos h.storable, hstats]
      rfl
    · rw [runBiosnoop_json, ← h.analyze_eq hround, hstats]
      rfl
    · rw [parseBiosnoopText_table, hlisted, hstats]

end Files

/-! ## A request after a flush -/

/-- Its flags begin with the flush. -/
def flushedWrite : IoRecord where
  timestamp :=
    { text := Python.str 1000
      json := .int 1000
      value := Float.ofInt 1000
      read := Python.float?_str 1000
      json_eq := rfl
      ne := str_ne_nil 1000
      chars := fun c hc => (Python.mem_str hc).imp_right (by rintro rfl; decide)
      short := by decide }
  comm := ⟨"dd".toList, @of_decide_eq_true _ (List.decidableBAll _ _) rfl⟩
  pid := 7
  device := ⟨"sda".toList, @of_decide_eq_true _ (List.decidableBAll _ _) rfl⟩
  direction := ⟨"FWS".toList, by decide, List.all_eq_true.mp rfl⟩
  bytes := 4096
  latencyNs := 5000

def plainLayout : BioLayout where
  lineEnd_eq := .inl rfl

def flushedContent : List Char :=
  ("[\x7b\"timestamp\": 1000, \"comm\": \"dd\", \"pid\": 7, \"disk\": \"sda\", " ++
    "\"direction\": \"FWS\", \"bytes\": 4096, \"latency_ns\": 5000\x7d]").toList

def flushedFile :
    JsonFile (fun s => if s = flushedContent then some (plainLayout.json [flushedWrite]) else none)
      (plainLayout.json [flushedWrite]) where
  content := flushedContent
  opens := .inr (by decide +kernel)
  loads_eq := if_pos (by decide +kernel)

theorem not_encodingsAgree :
    ¬EncodingsAgree (fun _ => "") (fun x => toString x.round) plainLayout [flushedWrite]
      flushedFile := by
  rintro ⟨stats, hcsv, hjson, -, -⟩
  rw [runBiosnoop_csv, if_pos (by decide)] at hcsv
  rw [runBiosnoop_json] at hjson
  obtain ⟨s, hs, heq⟩ := Option.map_eq_some_iff.mp hcsv
  obtain rfl := BioOutput.stats.inj heq
  obtain ⟨t, ht, heq⟩ := Option.map_eq_some_iff.mp hjson
  obtain rfl := BioOutput.stats.inj heq
  have hcount := (analyzeBiosnoop_counts hs).writeCount.symm.trans
    (analyzeBiosnoop_counts ht).writeCount
  exact absurd hcount (by decide)

end MiniDrop
