import MiniDrop.Verification.Api.Rows
import MiniDrop.Verification.Backend.Registry
import MiniDrop.Verification.Backend.Service

/-! # Schedules and the cron engine

The row of a schedule and its entry in the cron engine are changed by separate statements. A
thread between the two is in a phase of its own, and a restart reads all entries from the rows. -/

namespace MiniDrop

/-- The cron engine holds one entry for each schedule, and fires for no other row. -/
structure CronFaithful (accepts : String → Bool) (b : Backend) : Prop where
  entries : ∀ tid, b.schedule.tids.count tid = if Scheduled accepts b.db tid then 1 else 0
  fires : ∀ entry ∈ b.schedule.cron, (b.db.task? entry.2.tid).isSome

/-- No schedule is being created or deleted. -/
def BackendPool.Rests (pool : BackendPool) : Prop :=
  ∀ mark, some mark ∈ pool.marks → mark.registers = none ∧ mark.unregisters = none

/-- A step of the API server, or its restart, which may fail to read the schedules. -/
abbrev RestartEvent := Pool.Event BackendRequest ⊕ Bool

abbrev restartStep (env : Environment) : BackendPool → RestartEvent → Option BackendPool :=
  Pool.stepOrReset (BackendRequest.program env) (Backend.restart env.parser)

/-- In all runs from the start whose steps satisfy `ok`, the entries match the schedules, as long
as none is being created or deleted. -/
def CronMatches (env : Environment) (ok : BackendPool → RestartEvent → Prop) : Prop :=
  ∀ pool : BackendPool, Transition.Reachable (restartStep env) ok { store := {} } pool →
    pool.Rests → CronFaithful env.parser.accepts pool.store

/-! ## The condition -/

/-- Statements in memory take place, and only DeleteScheduleTask deletes a schedule. -/
structure SparesSchedules (accepts : String → Bool) (mark : BackendMark) (b : Backend)
    (fails : Bool) : Prop where
  succeeds : mark.inMemory = true → fails = false
  keeps : fails = false → mark.unregisters = none → ∀ tid, Scheduled accepts b.db tid →
    ((mark.change b.db).task? tid).isSome

/-- DeleteScheduleTask deletes no schedule between its INSERT and its registration. -/
def WaitsForEntry (accepts : String → Bool) (marks : List (Option BackendMark))
    (mark : BackendMark) (b : Backend) (fails : Bool) : Prop :=
  fails = false → ∀ tid ∈ mark.unregisters, Scheduled accepts b.db tid →
    (mark.change b.db).task? tid = none → ∀ last ∈ marks, ∀ other ∈ last,
      other.registers = some tid → other.table.writes = false

/-- The id of a run of a schedule is not one of a schedule. -/
def BackendRequest.NamesNoSchedule : BackendRequest → Prop
  | executeScheduledTask _ _ newTid _ _ => ¬ hasPrefix newTid "sched-"
  | _ => True

instance (request : BackendRequest) : Decidable request.NamesNoSchedule := by
  unfold BackendRequest.NamesNoSchedule
  refine request.casesOn ?_ ?_ ?_ ?_ ?_ ?_ ?_ ?_ ?_ ?_ ?_ ?_ ?_ ?_ ?_ ?_ <;> intros <;> dsimp only <;>
    infer_instance

instance (accepts : String → Bool) (mark : BackendMark) (b : Backend) (fails : Bool) :
    Decidable (SparesSchedules accepts mark b fails) :=
  decidable_of_iff
    ((mark.inMemory = true → fails = false) ∧ (fails = false → mark.unregisters = none →
      ∀ entry ∈ b.db.tasks.toList, Scheduled accepts b.db entry.1 →
        ((mark.change b.db).task? entry.1).isSome))
    ⟨fun ⟨hsucceeds, hkeeps⟩ => ⟨hsucceeds, fun hfails hnone tid hsched => by
        have ⟨_, row, hrow, _⟩ := hsched
        have hstored := (Option.filter_eq_some_iff.mp hrow).1
        exact hkeeps hfails hnone (tid, row)
          (Std.ExtTreeMap.mem_toList_iff_getElem?_eq_some.mpr hstored) hsched⟩,
      fun h => ⟨h.succeeds, fun hfails hnone entry _ => h.keeps hfails hnone entry.1⟩⟩

instance (accepts : String → Bool) (marks : List (Option BackendMark)) (mark : BackendMark)
    (b : Backend) (fails : Bool) : Decidable (WaitsForEntry accepts marks mark b fails) :=
  inferInstanceAs (Decidable (fails = false → ∀ tid ∈ mark.unregisters, _ → _ → _))

/-- The steps of a run in which schedules are deleted by DeleteScheduleTask alone. -/
abbrev SparingStep (env : Environment) : BackendPool → RestartEvent → Prop :=
  Pool.LawfulOrReset BackendRequest.NamesNoSchedule
    (fun marks _ mark b fails => SparesSchedules env.parser.accepts mark b fails ∧
      WaitsForEntry env.parser.accepts marks mark b fails)
    fun fails => fails = false

/-! ## Phases -/

/-- What a thread has begun and not ended: the row of a schedule is there, with or without a valid
expression, and its entry is not; or the row is deleted, and its entry is not. -/
inductive SchedulePhase where
  | free
  | registering (tid : String) (valid : Bool)
  | unregistering (tid : String)

/-- Where the INSERT of a schedule leaves its thread. -/
def SchedulePhase.afterInsert (tid : String) (valid : Bool) : CreateResult → SchedulePhase
  | .refused .. => free
  | .created _ => registering tid valid

/-- The statement leaves the cron engine alone, and the schedules but those in `touched`. -/
structure KeepsSchedules (accepts : String → Bool) (touched : Option String) (b t : Backend) :
    Prop where
  schedule : t.schedule = b.schedule
  known : ∀ tid ∈ b.db.tasks, tid ∈ t.db.tasks
  same : ∀ tid, touched ≠ some tid → (Scheduled accepts t.db tid ↔ Scheduled accepts b.db tid)

variable {accepts : String → Bool}

theorem KeepsSchedules.refl (touched : Option String) (b : Backend) :
    KeepsSchedules accepts touched b b :=
  ⟨rfl, fun _ h => h, fun _ _ => Iff.rfl⟩

inductive ScheduleStep (accepts : String → Bool) :
    SchedulePhase → BackendMark → Backend → Backend → SchedulePhase → Prop where
  | other {mark : BackendMark} {b t : Backend} (h : KeepsSchedules accepts none b t) :
      ScheduleStep accepts .free mark b t .free
  | insert {mark : BackendMark} {b t : Backend} {tid : String} {valid : Bool}
      (h : KeepsSchedules accepts (some tid) b t) (hnew : tid ∉ b.db.tasks)
      (hknown : tid ∈ t.db.tasks) (hvalid : Scheduled accepts t.db tid ↔ valid = true)
      (hmark : mark.registers = some tid ∧ mark.table.writes = true) :
      ScheduleStep accepts .free mark b t (.registering tid valid)
  | register {mark : BackendMark} {b : Backend} {cronExpr : String} {task : HotmethodTask} :
      ScheduleStep accepts (.registering task.tid (accepts cronExpr)) mark b
        { b with schedule := b.schedule.register accepts cronExpr task } .free
  | delete {mark : BackendMark} {b t : Backend} {tid : String}
      (h : KeepsSchedules accepts (some tid) b t) (hknown : tid ∈ t.db.tasks)
      (hnone : t.db.task? tid = none) (hchange : t.db = mark.change b.db)
      (hmark : mark.unregisters = some tid) :
      ScheduleStep accepts .free mark b t (.unregistering tid)
  | unregister {mark : BackendMark} {b : Backend} {tid : String} :
      ScheduleStep accepts (.unregistering tid) mark b
        { b with schedule := b.schedule.unregister tid } .free

/-- A thread knows that drop_server names tasks as it does. -/
def scheduleLaw (accepts : String → Bool) : Program.Law BackendMark Backend SchedulePhase where
  knows _ b := b.service.Named
  may := SparesSchedules accepts
  allows φ mark b t φ' := ScheduleStep accepts φ mark b t φ' ∧ t.service.Named

/-! ## The threads around one schedule -/

abbrev ScheduleSlots := List (Pool.Slot BackendMark SchedulePhase)

/-- The row of `tid` and its entry agree, up to the threads that are at work on it. -/
structure TidFits (accepts : String → Bool) (slots : ScheduleSlots) (b : Backend) (tid : String) :
    Prop where
  known : tid ∈ b.schedule.tids → tid ∈ b.db.tasks
  stored : tid ∈ b.schedule.tids →
    Scheduled accepts b.db tid ∨ ∃ slot ∈ slots, slot.1 = .unregistering tid
  registered : Scheduled accepts b.db tid →
    tid ∈ b.schedule.tids ∨ ∃ slot ∈ slots, slot.1 = .registering tid true
  creating : ∀ slot ∈ slots, ∀ valid, slot.1 = .registering tid valid →
    (tid ∉ b.schedule.tids ∧ tid ∈ b.db.tasks ∧ (Scheduled accepts b.db tid ↔ valid = true)) ∧
      ∃ mark, slot.2 = some mark ∧ mark.registers = some tid ∧ mark.table.writes = true
  deleting : ∀ slot ∈ slots, slot.1 = .unregistering tid →
    (tid ∈ b.db.tasks ∧ ¬ Scheduled accepts b.db tid) ∧
      ∃ mark, slot.2 = some mark ∧ mark.unregisters = some tid
  once : ∀ (i j : ℕ) x y v w, slots[i]? = some x → slots[j]? = some y →
    x.1 = .registering tid v → y.1 = .registering tid w → i = j

/-- The phase is about the schedule. -/
def SchedulePhase.About (tid : String) : SchedulePhase → Prop
  | free => False
  | registering other _ => other = tid
  | unregistering other => other = tid

section TidFits

variable {slots : ScheduleSlots} {b t : Backend} {tid : String} {i : ℕ} {φ φ' : SchedulePhase}
  {last last' : Option BackendMark}

/-- A slot about the schedule that is not the one that moves. -/
private theorem mem_set_of_about (hslot : slots[i]? = some (φ, last)) (hφ : ¬ φ.About tid)
    {slot : Pool.Slot BackendMark SchedulePhase} (hmem : slot ∈ slots) (h : slot.1.About tid) :
    slot ∈ slots.set i (φ', last') := by
  rcases List.mem_cases hslot hmem with rfl | hmem
  · exact absurd h hφ
  · exact List.mem_set_of_mem_eraseIdx hmem

private theorem mem_of_about (hφ' : ¬ φ'.About tid) {slot : Pool.Slot BackendMark SchedulePhase}
    (hmem : slot ∈ slots.set i (φ', last')) (h : slot.1.About tid) : slot ∈ slots := by
  rcases List.mem_set_cases hmem with rfl | hmem
  · exact absurd h hφ'
  · exact List.mem_of_mem_eraseIdx hmem

private theorem once_set
    (h : ∀ (i j : ℕ) x y v w, slots[i]? = some x → slots[j]? = some y →
      x.1 = SchedulePhase.registering tid v → y.1 = .registering tid w → i = j)
    (hφ' : ∀ v, φ' ≠ .registering tid v) :
    ∀ (j k : ℕ) x y v w, (slots.set i (φ', last'))[j]? = some x →
      (slots.set i (φ', last'))[k]? = some y → x.1 = .registering tid v →
      y.1 = .registering tid w → j = k := by
  have hold : ∀ (j : ℕ) x v, (slots.set i (φ', last'))[j]? = some x →
      x.1 = .registering tid v → slots[j]? = some x := by
    intro j x v hx hv
    by_cases hij : i = j
    · subst hij
      rw [List.getElem?_set_self (by
        have := (List.getElem?_eq_some_iff.mp hx).1
        rwa [List.length_set] at this)] at hx
      obtain rfl := Option.some.inj hx
      exact absurd hv (hφ' v)
    · rwa [List.getElem?_set_ne hij] at hx
  intro j k x y v w hx hy hv hw
  exact h j k x y v w (hold j x v hx hv) (hold k y w hy hw) hv hw

/-- A thread moves that is not at work on the schedule. -/
theorem TidFits.frame (h : TidFits accepts slots b tid) (hslot : slots[i]? = some (φ, last))
    (hφ : ¬ φ.About tid) (hφ' : ¬ φ'.About tid)
    (hentries : tid ∈ t.schedule.tids ↔ tid ∈ b.schedule.tids)
    (hknown : tid ∈ b.db.tasks → tid ∈ t.db.tasks)
    (hsame : Scheduled accepts t.db tid ↔ Scheduled accepts b.db tid) :
    TidFits accepts (slots.set i (φ', last')) t tid where
  known hmem := hknown (h.known (hentries.mp hmem))
  stored hmem := by
    rcases h.stored (hentries.mp hmem) with hsched | ⟨slot, hslots, hslot'⟩
    · exact .inl (hsame.mpr hsched)
    · exact .inr ⟨slot, mem_set_of_about hslot hφ hslots (by rw [hslot']; rfl), hslot'⟩
  registered hsched := by
    rcases h.registered (hsame.mp hsched) with hmem | ⟨slot, hslots, hslot'⟩
    · exact .inl (hentries.mpr hmem)
    · exact .inr ⟨slot, mem_set_of_about hslot hφ hslots (by rw [hslot']; rfl), hslot'⟩
  creating slot hmem valid hslot' := by
    obtain ⟨⟨hnew, htasks, hvalid⟩, hmark⟩ :=
      h.creating slot (mem_of_about hφ' hmem (by rw [hslot']; rfl)) valid hslot'
    exact ⟨⟨fun hentry => hnew (hentries.mp hentry), hknown htasks, hsame.trans hvalid⟩, hmark⟩
  deleting slot hmem hslot' := by
    obtain ⟨⟨htasks, hsched⟩, hmark⟩ :=
      h.deleting slot (mem_of_about hφ' hmem (by rw [hslot']; rfl)) hslot'
    exact ⟨⟨hknown htasks, fun hnow => hsched (hsame.mp hnow)⟩, hmark⟩
  once := once_set h.once fun v heq => hφ' (by rw [heq]; rfl)

/-- The row of a new schedule is inserted. -/
theorem TidFits.insert (h : TidFits accepts slots b tid) (hslot : slots[i]? = some (.free, last))
    {mark : BackendMark} {valid : Bool} (hkeeps : KeepsSchedules accepts (some tid) b t)
    (hnew : tid ∉ b.db.tasks) (hknown : tid ∈ t.db.tasks)
    (hvalid : Scheduled accepts t.db tid ↔ valid = true)
    (hmark : mark.registers = some tid ∧ mark.table.writes = true) :
    TidFits accepts (slots.set i (.registering tid valid, some mark)) t tid := by
  have hentry : tid ∉ t.schedule.tids := by
    rw [hkeeps.schedule]
    exact fun hmem => hnew (h.known hmem)
  have hi := (List.getElem?_eq_some_iff.mp hslot).1
  -- no other thread is at work on it
  have halone : ∀ slot ∈ slots, ¬ slot.1.About tid := by
    intro slot hmem habout
    cases hphase : slot.1 with
    | free =>
        rw [hphase] at habout
        exact habout
    | registering other valid =>
        rw [hphase] at habout
        obtain rfl : other = tid := habout
        exact hnew (h.creating slot hmem valid hphase).1.2.1
    | unregistering other =>
        rw [hphase] at habout
        obtain rfl : other = tid := habout
        exact hnew (h.deleting slot hmem hphase).1.1
  have hmoved : ∀ slot ∈ slots.set i (.registering tid valid, some mark), slot.1.About tid →
      slot = (.registering tid valid, some mark) := by
    intro slot hmem habout
    rcases List.mem_set_cases hmem with rfl | hmem
    · rfl
    · exact absurd habout (halone slot (List.mem_of_mem_eraseIdx hmem))
  have hat : ∀ (j : ℕ) x v, (slots.set i (.registering tid valid, some mark))[j]? = some x →
      x.1 = .registering tid v → j = i := by
    intro j x v hx hv
    by_contra hij
    rw [List.getElem?_set_ne (Ne.symm hij)] at hx
    exact halone x (List.mem_of_getElem? hx) (by rw [hv]; rfl)
  refine ⟨fun hmem => absurd hmem hentry, fun hmem => absurd hmem hentry, fun hsched => .inr ?_,
    ?_, ?_, ?_⟩
  · exact ⟨_, List.mem_iff_getElem?.mpr ⟨i, List.getElem?_set_self hi⟩, by rw [hvalid.mp hsched]⟩
  · intro slot hmem valid' hphase
    obtain rfl := hmoved slot hmem (by rw [hphase]; rfl)
    obtain ⟨-, rfl⟩ : tid = tid ∧ valid = valid' := by simpa using hphase
    exact ⟨⟨hentry, hknown, hvalid⟩, mark, rfl, hmark⟩
  · intro slot hmem hphase
    obtain rfl := hmoved slot hmem (by rw [hphase]; rfl)
    cases hphase
  · intro j k x y v w hx hy hv hw
    rw [hat j x v hx hv, hat k y w hy hw]

/-- Its entry is added. -/
theorem TidFits.register {cronExpr : String} {task : HotmethodTask}
    (h : TidFits accepts slots b task.tid)
    (hslot : slots[i]? = some (.registering task.tid (accepts cronExpr), last)) :
    TidFits accepts (slots.set i (.free, last'))
      { b with schedule := b.schedule.register accepts cronExpr task } task.tid := by
  obtain ⟨⟨hentry, hknown, hvalid⟩, -⟩ :=
    h.creating _ (List.mem_of_getElem? hslot) _ rfl
  have hadded : task.tid ∈ (b.schedule.register accepts cronExpr task).tids ↔
      Scheduled accepts b.db task.tid := by
    rw [hvalid, ScheduleManager.tids_register, List.mem_append, or_iff_right hentry]
    cases accepts cronExpr <;> simp
  -- the thread was the only one that creates it
  have hnone : ∀ slot ∈ slots.set i (.free, last'), ∀ valid,
      slot.1 ≠ .registering task.tid valid := by
    intro slot hmem valid hphase
    obtain ⟨j, hj⟩ := List.mem_iff_getElem?.mp hmem
    by_cases hij : i = j
    · subst hij
      rw [List.getElem?_set_self (List.getElem?_eq_some_iff.mp hslot).1] at hj
      obtain rfl := Option.some.inj hj
      cases hphase
    · rw [List.getElem?_set_ne hij] at hj
      exact hij (h.once i j _ slot _ valid hslot hj rfl hphase)
  refine ⟨fun _ => hknown, fun hmem => .inl (hadded.mp hmem),
    fun hsched => .inl (hadded.mpr hsched), ?_, ?_, ?_⟩
  · intro slot hmem valid hphase
    exact absurd hphase (hnone slot hmem valid)
  · intro slot hmem hphase
    rcases List.mem_set_cases hmem with rfl | hmem
    · cases hphase
    · exact h.deleting slot (List.mem_of_mem_eraseIdx hmem) hphase
  · intro j k x y v w hx _ hv _
    exact absurd hv (hnone x (List.mem_of_getElem? hx) v)

/-- Its row is deleted, though not while the entry is to be added. -/
theorem TidFits.delete (h : TidFits accepts slots b tid) (hslot : slots[i]? = some (.free, last))
    {mark : BackendMark} (hkeeps : KeepsSchedules accepts (some tid) b t)
    (hknown : tid ∈ t.db.tasks) (hnone : t.db.task? tid = none)
    (hmark : mark.unregisters = some tid)
    (hwaits : Scheduled accepts b.db tid → ∀ last ∈ slots.map Prod.snd, ∀ other ∈ last,
      other.registers = some tid → other.table.writes = false) :
    TidFits accepts (slots.set i (.unregistering tid, some mark)) t tid := by
  have hgone : ¬ Scheduled accepts t.db tid := by
    rintro ⟨-, row, hrow, -⟩
    rw [hnone] at hrow
    cases hrow
  have hi := (List.getElem?_eq_some_iff.mp hslot).1
  refine ⟨fun _ => hknown, fun _ => .inr ⟨_, List.mem_iff_getElem?.mpr
    ⟨i, List.getElem?_set_self hi⟩, rfl⟩, fun hsched => absurd hsched hgone, ?_, ?_,
    once_set h.once fun v heq => by cases heq⟩
  · intro slot hmem valid hphase
    rcases List.mem_set_cases hmem with rfl | hmem
    · cases hphase
    · have hold := List.mem_of_mem_eraseIdx hmem
      obtain ⟨⟨hentry, htasks, hvalid⟩, other, hlast, hregisters, hwrites⟩ :=
        h.creating slot hold valid hphase
      have hinvalid : ¬ valid = true := by
        intro hv
        have hquiet := hwaits (hvalid.mpr hv) slot.2 (List.mem_map_of_mem hold) other hlast
          hregisters
        rw [hwrites] at hquiet
        cases hquiet
      rw [hkeeps.schedule]
      exact ⟨⟨hentry, hkeeps.known _ htasks, iff_of_false hgone hinvalid⟩, other, hlast,
        hregisters, hwrites⟩
  · intro slot hmem hphase
    rcases List.mem_set_cases hmem with rfl | hmem
    · exact ⟨⟨hknown, hgone⟩, mark, rfl, hmark⟩
    · obtain ⟨-, hlast⟩ := h.deleting slot (List.mem_of_mem_eraseIdx hmem) hphase
      exact ⟨⟨hknown, hgone⟩, hlast⟩

/-- Its entry is removed. -/
theorem TidFits.unregister (h : TidFits accepts slots b tid)
    (hslot : slots[i]? = some (.unregistering tid, last)) (hcron : b.schedule.Consistent) :
    TidFits accepts (slots.set i (.free, last'))
      { b with schedule := b.schedule.unregister tid } tid := by
  have hentry : tid ∉ (b.schedule.unregister tid).tids := by
    rw [hcron.mem_tids_unregister]
    exact fun hmem => hmem.2 rfl
  obtain ⟨⟨-, hgone⟩, -⟩ := h.deleting _ (List.mem_of_getElem? hslot) rfl
  refine ⟨fun hmem => absurd hmem hentry, fun hmem => absurd hmem hentry,
    fun hsched => absurd hsched hgone, ?_, ?_, once_set h.once fun v heq => by cases heq⟩
  · intro slot hmem valid hphase
    rcases List.mem_set_cases hmem with rfl | hmem
    · cases hphase
    · obtain ⟨⟨-, htasks, hvalid⟩, hmark⟩ :=
        h.creating slot (List.mem_of_mem_eraseIdx hmem) valid hphase
      exact ⟨⟨hentry, htasks, hvalid⟩, hmark⟩
  · intro slot hmem hphase
    rcases List.mem_set_cases hmem with rfl | hmem
    · cases hphase
    · exact h.deleting slot (List.mem_of_mem_eraseIdx hmem) hphase

end TidFits

/-! ## All threads -/

structure ScheduleFits (accepts : String → Bool) (slots : ScheduleSlots) (b : Backend) : Prop where
  named : b.service.Named
  consistent : b.schedule.Consistent
  tids : ∀ tid, TidFits accepts slots b tid

theorem TidFits.start {slots : ScheduleSlots} {b : Backend} {tid : String}
    (h : TidFits accepts slots b tid) : TidFits accepts (slots ++ [(.free, none)]) b tid := by
  have hold : ∀ slot ∈ slots ++ [((.free, none) : Pool.Slot BackendMark SchedulePhase)],
      slot.1 ≠ .free → slot ∈ slots := by
    intro slot hmem hphase
    rcases List.mem_append.mp hmem with hmem | hmem
    · exact hmem
    · rw [List.mem_singleton.mp hmem] at hphase
      exact absurd rfl hphase
  have hat : ∀ (j : ℕ) x v,
      (slots ++ [((.free, none) : Pool.Slot BackendMark SchedulePhase)])[j]? = some x →
      x.1 = .registering tid v → slots[j]? = some x := by
    intro j x v hx hv
    rcases Nat.lt_or_ge j slots.length with hj | hj
    · rwa [List.getElem?_append_left hj] at hx
    · rw [List.getElem?_append_right hj] at hx
      have hmem := List.mem_of_getElem? hx
      rw [List.mem_singleton.mp hmem] at hv
      cases hv
  refine ⟨h.known, fun hmem => ?_, fun hsched => ?_, ?_, ?_, ?_⟩
  · refine (h.stored hmem).imp_right ?_
    rintro ⟨slot, hslots, hphase⟩
    exact ⟨slot, List.mem_append_left _ hslots, hphase⟩
  · refine (h.registered hsched).imp_right ?_
    rintro ⟨slot, hslots, hphase⟩
    exact ⟨slot, List.mem_append_left _ hslots, hphase⟩
  · intro slot hmem valid hphase
    exact h.creating slot (hold slot hmem (by simp [hphase])) valid hphase
  · intro slot hmem hphase
    exact h.deleting slot (hold slot hmem (by simp [hphase])) hphase
  · intro j k x y v w hx hy hv hw
    exact h.once j k x y v w (hat j x v hx hv) (hat k y w hy hw) hv hw

/-- One statement of one thread. -/
theorem ScheduleFits.step {slots : ScheduleSlots} {b t : Backend} {i : ℕ}
    {φ φ' : SchedulePhase} {last last' : Option BackendMark} {mark : BackendMark} {fails : Bool}
    (h : ScheduleFits accepts slots b) (hslot : slots[i]? = some (φ, last))
    (hwaits : WaitsForEntry accepts (slots.map Prod.snd) mark b fails)
    (hfails : fails = true → t = b) (hstep : ScheduleStep accepts φ mark b t φ')
    (hnamed : t.service.Named) (hlast : last' = some mark ∨ last' = none ∧ φ' = .free) :
    ScheduleFits accepts (slots.set i (φ', last')) t := by
  -- in the middle of a creation or a deletion a thread is not at its end
  have hmark : φ' ≠ .free → last' = some mark := by
    intro hne
    rcases hlast with hlast | ⟨-, hfree⟩
    · exact hlast
    · exact absurd hfree hne
  cases hstep with
  | other hkeeps =>
      refine ⟨hnamed, hkeeps.schedule ▸ h.consistent, fun tid => ?_⟩
      exact (h.tids tid).frame hslot id id (by rw [hkeeps.schedule]) (hkeeps.known tid)
        (hkeeps.same tid (by simp))
  | @insert _ _ _ tid valid hkeeps hnew hknown hvalid hregisters =>
      refine ⟨hnamed, hkeeps.schedule ▸ h.consistent, fun other => ?_⟩
      rw [hmark (by simp)]
      by_cases htid : tid = other
      · subst htid
        exact (h.tids tid).insert hslot hkeeps hnew hknown hvalid hregisters
      · exact (h.tids other).frame hslot id htid (by rw [hkeeps.schedule]) (hkeeps.known other)
          (hkeeps.same other (by simpa using htid))
  | @register _ _ cronExpr task =>
      have hentry : task.tid ∉ b.schedule.tids :=
        ((h.tids task.tid).creating _ (List.mem_of_getElem? hslot) _ rfl).1.1
      refine ⟨hnamed, h.consistent.register hentry, fun other => ?_⟩
      by_cases htid : task.tid = other
      · subst htid
        exact (h.tids task.tid).register hslot
      · refine (h.tids other).frame hslot htid id ?_ id Iff.rfl
        rw [ScheduleManager.tids_register, List.mem_append, or_iff_left]
        split
        · simpa using Ne.symm htid
        · simp
  | @delete _ _ _ tid hkeeps hknown hnone hchange hunregisters =>
      refine ⟨hnamed, hkeeps.schedule ▸ h.consistent, fun other => ?_⟩
      rw [hmark (by simp)]
      by_cases htid : tid = other
      · subst htid
        refine (h.tids tid).delete hslot hkeeps hknown hnone hunregisters fun hsched => ?_
        cases hf : fails with
        | false => exact hwaits hf tid hunregisters hsched (hchange ▸ hnone)
        | true =>
            obtain ⟨-, row, hrow, -⟩ := hsched
            rw [← hfails hf, hnone] at hrow
            cases hrow
      · exact (h.tids other).frame hslot id htid (by rw [hkeeps.schedule]) (hkeeps.known other)
          (hkeeps.same other (by simpa using htid))
  | @unregister _ _ tid =>
      refine ⟨hnamed, h.consistent.unregister tid, fun other => ?_⟩
      by_cases htid : tid = other
      · subst htid
        exact (h.tids tid).unregister hslot h.consistent
      · refine (h.tids other).frame hslot htid id ?_ id Iff.rfl
        rw [h.consistent.mem_tids_unregister, and_iff_left (Ne.symm htid)]

/-- Every schedule has its entry, up to the threads that are at work on it. -/
def scheduleOrder (accepts : String → Bool) : Pool.Order BackendMark Backend SchedulePhase where
  toLaw := scheduleLaw accepts
  initial := .free
  final φ := φ = .free
  permits marks _ mark b fails :=
    SparesSchedules accepts mark b fails ∧ WaitsForEntry accepts marks mark b fails
  permits_may _ _ _ _ _ h := h.1
  fits := ScheduleFits accepts
  fits_start _ _ h := ⟨h.named, h.consistent, fun tid => (h.tids tid).start⟩
  fits_knows _ _ _ _ _ h _ := h.named
  fits_advance _ _ _ _ _ _ _ _ _ _ h hslot hpermits hfails hallows hlast :=
    h.step hslot hpermits.2 hfails hallows.1 hallows.2 hlast

/-! ## Other statements -/

/-- The row makes no schedule, and replaces none. -/
def Unscheduled (accepts : String → Bool) (tid : String) (old : Option HotmethodTask)
    (row : HotmethodTask) : Prop :=
  hasPrefix tid "sched-" → old = none ∧ ¬ row.Recurs accepts

theorem keepsSchedules_of_rowsFrom {b t : Backend} (hschedule : t.schedule = b.schedule)
    (h : RowsFrom (Unscheduled accepts) b.db t.db)
    (hkeeps : ∀ tid, Scheduled accepts b.db tid → (t.db.task? tid).isSome) :
    KeepsSchedules accepts none b t where
  schedule := hschedule
  known := h.known
  same tid _ := by
    constructor
    · rintro ⟨hstart, row', hrow', hrecurs⟩
      obtain ⟨hstored, hlive⟩ := Option.filter_eq_some_iff.mp hrow'
      rcases h.rows tid row' hstored with ⟨row, hrow, hkept⟩ | hnew
      · refine ⟨hstart, row, Option.filter_eq_some_iff.mpr ⟨hrow, ?_⟩, ?_⟩
        · simpa using hkept.deleted (by simpa using hlive)
        · rwa [HotmethodTask.Recurs, ← hkept.requestParams]
      · exact absurd hrecurs (hnew hstart).2
    · intro hsched
      obtain ⟨row', hrow'⟩ := Option.isSome_iff_exists.mp (hkeeps tid hsched)
      obtain ⟨hstart, old, hold, hrecurs⟩ := hsched
      have hstored := (Option.filter_eq_some_iff.mp hold).1
      rcases h.rows tid row' (Option.filter_eq_some_iff.mp hrow').1 with ⟨row, hrow, hkept⟩ | hnew
      · obtain rfl := Option.some.inj (hstored.symm.trans hrow)
        refine ⟨hstart, row', hrow', ?_⟩
        rwa [HotmethodTask.Recurs, hkept.requestParams]
      · rw [hstored] at hnew
        cases (hnew hstart).1

/-- The program keeps to the law, and is at no schedule before and after. -/
abbrev Spares (accepts : String → Bool) {α : Type} (p : BackendProgram α) : Prop :=
  p.Abides (scheduleLaw accepts) (fun φ _ => φ = .free) .free

section Spares

variable {α β : Type}

theorem Spares.pure (result : α) : Spares accepts (Pure.pure result) := rfl

theorem Spares.bind {p : BackendProgram α} {k : α → BackendProgram β} (h : Spares accepts p)
    (hk : ∀ result, Spares accepts (k result)) : Spares accepts (p >>= k) := by
  refine Program.Abides.bind h ?_
  rintro φ result rfl
  exact hk result

theorem spares_onDb {mark : BackendMark} (hmark : mark.unregisters = none) {p : Statements α}
    (h : Writes (Unscheduled accepts) p) : Spares accepts (onDb mark p) := by
  induction p with
  | done result => exact rfl
  | stmt m act next failed ihnext ihfailed =>
      intro b hnamed
      refine ⟨fun hspares => ⟨.free, ⟨.other ?_, hnamed⟩, ihnext b.db (h.2.1 b.db)⟩,
        fun _ => ⟨.free, ⟨.other (.refl _ b), hnamed⟩, ihfailed h.2.2⟩⟩
      exact keepsSchedules_of_rowsFrom rfl (h.1 b.db) (hspares.keeps rfl hmark)

theorem spares_query (mark : BackendMark) (read : Backend → α) :
    Spares accepts (Program.query mark read) := by
  intro b hnamed
  exact ⟨fun _ => ⟨.free, ⟨.other (.refl _ b), hnamed⟩, rfl⟩,
    fun _ => ⟨.free, ⟨.other (.refl _ b), hnamed⟩, rfl⟩⟩

theorem spares_transact {mark : BackendMark} {change : Backend → α × Backend}
    (h : ∀ b, (change b).2.db = b.db ∧ (change b).2.schedule = b.schedule ∧
      (b.service.Named → (change b).2.service.Named)) :
    Spares accepts (Program.transact mark change) := by
  intro b hnamed
  refine ⟨fun _ => ⟨.free, ⟨.other ⟨(h b).2.1, ?_, ?_⟩, (h b).2.2 hnamed⟩, rfl⟩,
    fun _ => ⟨.free, ⟨.other (.refl _ b), hnamed⟩, rfl⟩⟩
  · exact fun tid hmem => by rwa [(h b).1]
  · exact fun tid _ => by rw [(h b).1]

theorem spares_callControl {mark : BackendMark} {now : ℤ} {call : ControlCall}
    {fate : Option RpcFate} {note : Backend → Backend}
    (hnote : ∀ b, (note b).db = b.db ∧ (note b).schedule = b.schedule ∧
      (note b).service = b.service) :
    Spares accepts (callControl mark now call fate note) := by
  have hcalled : ∀ b : Backend, ∀ t : Backend, t = { note b with
      service := (b.service.handle now call).1 } →
      t.db = b.db ∧ t.schedule = b.schedule ∧ (b.service.Named → t.service.Named) := by
    rintro b _ rfl
    exact ⟨(hnote b).1, (hnote b).2.1, fun hnamed => hnamed.handle now call⟩
  rcases fate with _ | (error | error | _)
  · exact .pure _
  · refine (spares_transact fun b => ⟨(hnote b).1, (hnote b).2.1, fun hnamed => ?_⟩).bind
      fun _ => .pure _
    rw [(hnote b).2.2]
    exact hnamed
  · exact (spares_transact fun b => hcalled b _ rfl).bind fun _ => .pure _
  · refine (spares_transact fun b => hcalled b _ rfl).bind ?_
    rintro (_ | response) <;> exact .pure _

end Spares

/-! ### Dispatch -/

section Dispatch

variable {now steadyNow : ℤ} {fate : Option RpcFate} {cleanup : RpcFate}

theorem spares_dispatchTask {mark : BackendMark} (hmark : mark.unregisters = none)
    {task : HotmethodTask} (hrow : Unscheduled accepts task.tid none task) {taskDesc : TaskDesc}
    {created queued : String} {rejection : RpcReply → Option String} :
    Spares accepts
      (dispatchTask mark steadyNow task taskDesc created queued rejection fate) := by
  unfold dispatchTask
  apply (spares_onDb hmark (writes_createTask _ hrow)).bind
  intro inserted
  split
  · exact .pure _
  have hrecorded : ({ mark with unchecked := false } : BackendMark).unregisters = none := hmark
  apply (spares_onDb hrecorded (writes_recordStateChange _ _ _ _ _ _)).bind
  intro _
  refine Spares.bind (spares_callControl ?_) ?_
  · exact fun _ => ⟨rfl, rfl, rfl⟩
  rintro ⟨reply, _⟩
  dsimp only
  split
  · refine (spares_onDb rfl (writes_updateTask _ _ ?_)).bind fun _ =>
      (spares_onDb rfl (writes_recordStateChange _ _ _ _ _ _)).bind fun _ => .pure _
    exact fun _ => ⟨rfl, rfl, rfl, rfl, rfl, rfl, rfl, id⟩
  · exact (spares_onDb rfl (writes_updateTaskStatusInfo _ _)).bind fun _ => .pure _

/-- The parameters of a new task hold no expression. -/
theorem unscheduled_newTask {now : ℤ} {tid uid userName : String} {req : CreateTaskReq} :
    Unscheduled accepts tid none (newTask now tid uid userName req) :=
  fun _ => ⟨rfl, fun hrecurs => hrecurs.1 rfl⟩

theorem unscheduled_continuousTask {now : ℤ} {tid uid userName : String}
    {req : CreateContinuousReq} :
    Unscheduled accepts tid none (continuousTask now tid uid userName req) :=
  fun _ => ⟨rfl, fun hrecurs => hrecurs.1 rfl⟩

theorem spares_createTaskInternal {tid uid userName : String} {req : CreateTaskReq} :
    Spares accepts (Backend.createTaskInternal now steadyNow tid uid userName req fate) := by
  apply (spares_onDb rfl (writes_canAccessAgentIP _ _)).bind
  intro allowed
  split
  · exact .pure _
  split
  · exact .pure _
  · apply (spares_dispatchTask rfl unscheduled_newTask).bind
    rintro (_ | reply) <;> exact .pure _

theorem spares_retryTask {uid userName tid newTid : String} :
    Spares accepts (Backend.retryTask now steadyNow uid userName tid newTid fate) := by
  apply (spares_onDb rfl (writes_checkTaskAccess _ _ _)).bind
  rintro (_ | task)
  · exact .pure _
  dsimp only
  split
  · exact .pure _
  · apply (spares_dispatchTask rfl unscheduled_newTask).bind
    rintro (_ | reply) <;> exact .pure _

theorem spares_executeScheduledTask {newTid : String} (hnew : ¬ hasPrefix newTid "sched-") {i : ℕ} :
    Spares accepts (Backend.executeScheduledTask now steadyNow newTid i fate) := by
  apply (spares_query _ _).bind
  rintro (_ | _ | ⟨_, schedule⟩)
  · exact .pure _
  · exact .pure _
  · refine (spares_dispatchTask rfl ?_).bind fun _ => .pure _
    exact fun hstart => absurd hstart hnew

theorem spares_createContinuousInternal {uid userName : String} {req : CreateContinuousReq} :
    Spares accepts
      (Backend.createContinuousInternal now steadyNow uid userName req fate cleanup) := by
  apply (spares_onDb rfl (writes_canAccessAgentIP _ _)).bind
  intro allowed
  split
  · exact .pure _
  refine Spares.bind (spares_callControl ?_) ?_
  · exact fun _ => ⟨rfl, rfl, rfl⟩
  rintro ⟨_ | error | ⟨code, message⟩, tid⟩
  · exact .pure _
  · exact .pure _
  dsimp only
  split
  · exact .pure _
  apply (spares_onDb rfl (writes_createTask _ unscheduled_continuousTask)).bind
  intro inserted
  split
  · refine Spares.bind (spares_callControl ?_) fun _ => .pure _
    exact fun _ => ⟨rfl, rfl, rfl⟩
  · exact (spares_onDb rfl (writes_recordStateChange _ _ _ _ _ _)).bind fun _ => .pure _

theorem spares_stopContinuousTask {uid tid : String} :
    Spares accepts (Backend.stopContinuousTask now uid tid fate) := by
  apply (spares_onDb rfl (writes_checkTaskAccess _ _ _)).bind
  rintro (_ | task)
  · exact .pure _
  · refine Spares.bind (spares_callControl ?_) fun _ => ?_
    · exact fun _ => ⟨rfl, rfl, rfl⟩
    · exact spares_onDb rfl (writes_settleStop _ _ _ _)

theorem spares_createNaturalLanguageTask {tid uid userName : String}
    {req : NaturalLanguageTaskReq} {order : List ℕ} :
    Spares accepts (Backend.createNaturalLanguageTask now steadyNow tid uid userName req order fate
      cleanup) := by
  have hfirst : Spares accepts (Backend.defaultAgent uid req order) := by
    unfold Backend.defaultAgent
    split
    · exact spares_onDb rfl (writes_firstAccessibleOnlineAgentIP _ _)
    · exact .pure _
  refine hfirst.bind fun firstAgent => ?_
  dsimp only
  split
  · exact .pure _
  cases (buildNaturalLanguagePlan req firstAgent).mode with
  | continuous => exact spares_createContinuousInternal
  | oneshot => exact spares_createTaskInternal

/-- Windows are named after tasks of drop_server, and so are their rows. -/
theorem unscheduled_window {w : ContinuousWindowInfo} (hw : "cp_".toList <+: w.windowTid.toList)
    (old : Option HotmethodTask) (row : HotmethodTask) :
    Unscheduled accepts w.windowTid old row := by
  intro hstart
  obtain ⟨rest, hrest⟩ := hstart
  obtain ⟨rest', hrest'⟩ := hw
  have heads := congrArg List.head? (hrest.trans hrest'.symm)
  simp at heads

theorem spares_getContinuousWindows {assigns analysisConfigured reached : Bool}
    {uid tid : String} :
    Spares accepts
      (Backend.getContinuousWindows assigns analysisConfigured uid tid reached) := by
  apply (spares_onDb rfl (writes_checkTaskAccess _ _ _)).bind
  rintro (_ | parentTask)
  · exact .pure _
  dsimp only
  split
  · -- the windows are read while drop_server is in order
    have hquery : (Program.query ({} : BackendMark) fun b : Backend =>
        b.service.listWindows tid).Abides (scheduleLaw accepts) (fun φ result => φ = .free ∧
          ∀ windows, result = some (some windows) → ∀ record ∈ windows,
            "cp_".toList <+: record.windowTid.toList) .free := by
      intro b hnamed
      refine ⟨fun _ => ⟨.free, ⟨.other (.refl _ b), hnamed⟩, rfl, ?_⟩,
        fun _ => ⟨.free, ⟨.other (.refl _ b), hnamed⟩, rfl, by simp⟩⟩
      intro windows hwindows record hrecord
      unfold HotmethodService.listWindows at hwindows
      split at hwindows
      · cases hwindows
      · obtain rfl := Option.some.inj (Option.some.inj hwindows)
        exact hnamed.isPrefix_window hrecord
    refine hquery.bind ?_
    rintro φ (_ | _ | windows) ⟨rfl, hwindows⟩
    · exact (rfl : SchedulePhase.free = .free)
    · exact (rfl : SchedulePhase.free = .free)
    · refine (spares_onDb rfl (writes_syncWindows _ _ ?_ ?_)).bind fun _ => .pure _
      · intro w hw
        obtain ⟨record, hrecord, rfl⟩ := List.mem_map.mp hw
        exact unscheduled_window (hwindows windows rfl record hrecord) _ _
      · intro w hw existing row
        obtain ⟨record, hrecord, rfl⟩ := List.mem_map.mp hw
        exact unscheduled_window (hwindows windows rfl record hrecord) _ _
  · exact .pure _

end Dispatch

/-! ### Creating and deleting schedules -/

theorem onDb_bind {α β : Type} (mark : BackendMark) (p : Statements α) (k : α → Statements β) :
    onDb mark (p >>= k) = onDb mark p >>= fun a => onDb mark (k a) :=
  Program.lift_bind _ _ _ p k

/-- After the INSERT the thread is creating the schedule. -/
theorem abides_insertSchedule {mark : BackendMark} {tid uid userName : String}
    {req : CreateScheduleReq} (hexpr : req.cronExpr ≠ "") (htid : hasPrefix tid "sched-")
    (hregisters : mark.registers = some tid) (hunregisters : mark.unregisters = none) :
    (onDb mark (Program.update { tid, writes := true } fun db =>
        db.createTask (scheduleTask tid uid userName req))).Abides (scheduleLaw accepts)
      (fun φ inserted => φ = if inserted then .registering tid (accepts req.cronExpr) else .free)
      .free := by
  intro b hnamed
  refine ⟨fun hspares => ?_, fun _ => ⟨.free, ⟨.other (.refl _ b), hnamed⟩, rfl⟩⟩
  have hkeeps := hspares.keeps rfl hunregisters
  dsimp only at hkeeps ⊢
  cases hcreate : b.db.createTask (scheduleTask tid uid userName req) with
  | none => exact ⟨.free, ⟨.other (.refl _ b), hnamed⟩, rfl⟩
  | some db =>
      have hrows := Database.task?_createTask hcreate rfl
      obtain ⟨hnew, hinserted⟩ := Database.createTask_eq_some b.db hcreate
      have hparam : textParam (scheduleTask tid uid userName req).requestParams "cron_expr" =
          req.cronExpr := rfl
      refine ⟨.registering tid (accepts req.cronExpr),
        ⟨.insert ⟨rfl, ?_, ?_⟩ hnew ?_ ?_ ⟨hregisters, rfl⟩, hnamed⟩, rfl⟩
      · rw [Option.getD_some, hinserted]
        exact fun other hmem => Std.ExtTreeMap.mem_insert.mpr (.inr hmem)
      · intro other hother
        have hne : (scheduleTask tid uid userName req).tid ≠ other := fun heq => hother (heq ▸ rfl)
        simp only [Scheduled, Option.getD_some, hrows, if_neg hne]
      · rw [Option.getD_some, hinserted]
        exact Std.ExtTreeMap.mem_insert_self
      · simp only [Scheduled, Option.getD_some, hrows]
        constructor
        · rintro ⟨-, row, hmem, hrecurs⟩
          obtain rfl : scheduleTask tid uid userName req = row := by simpa [scheduleTask] using hmem
          exact hparam ▸ hrecurs.2
        · exact fun haccepts => ⟨htid, _, by simp [scheduleTask], hparam ▸ hexpr, hparam ▸ haccepts⟩

theorem spares_createScheduleTask {parser : CronParser} {suffix uid userName : String}
    {req : CreateScheduleReq} :
    Spares parser.accepts (Backend.createScheduleTask parser suffix uid userName req) := by
  unfold Backend.createScheduleTask
  by_cases hbinds : req.binds = true
  · have hexpr : req.cronExpr ≠ "" := by
      simp only [CreateScheduleReq.binds, decide_eq_true_eq] at hbinds
      exact hbinds.2.2.2.2.2.2.2.2.2
    have htid : hasPrefix ("sched-" ++ suffix) "sched-" := by
      rw [hasPrefix, String.toList_append]
      exact List.prefix_append _ _
    simp only [hbinds, Bool.not_true, Bool.false_eq_true, if_false]
    generalize "sched-" ++ suffix = tid at htid
    refine Program.Abides.bind (Q := fun φ result =>
      φ = SchedulePhase.afterInsert tid (parser.accepts req.cronExpr) result) ?_ ?_
    · unfold createScheduleTask
      rw [onDb_bind]
      refine Program.Abides.bind (spares_onDb rfl (writes_canAccessAgentIP _ _)) ?_
      rintro _ allowed rfl
      split
      · exact (rfl : SchedulePhase.free = .free)
      split
      · exact (rfl : SchedulePhase.free = .free)
      cases parser.validate req.cronExpr with
      | some error => exact (rfl : SchedulePhase.free = .free)
      | none =>
          dsimp only
          rw [onDb_bind]
          refine (abides_insertSchedule hexpr htid rfl rfl).bind ?_
          rintro _ (_ | _) rfl
          · exact (rfl : SchedulePhase.free = .free)
          · exact (rfl : SchedulePhase.registering _ _ = .registering _ _)
    · rintro _ (created | ⟨httpStatus, code, message⟩) rfl
      · intro b hnamed
        have hregister : ScheduleStep parser.accepts
            (.registering tid (parser.accepts req.cronExpr)) { inMemory := true } b
            { b with
              schedule := b.schedule.register parser.accepts req.cronExpr
                (scheduleTask tid uid userName req) } .free :=
          @ScheduleStep.register _ _ b req.cronExpr (scheduleTask tid uid userName req)
        refine ⟨fun _ => ⟨.free, ⟨hregister, hnamed⟩, rfl⟩, fun hspares => ?_⟩
        cases hspares.succeeds rfl
      · exact (rfl : SchedulePhase.free = .free)
  · simp only [hbinds, Bool.not_false, if_true]
    exact .pure _

/-- After the deletion of a row the thread owes the removal of its entry. -/
theorem abides_softDelete {tid : String} {m : Mark} {hides : HotmethodTask → Bool} :
    (onDb { unregisters := some tid } (Program.transact m (softDelete tid hides))).Abides
      (scheduleLaw accepts)
      (fun φ hidden => φ = if hidden = some true then .unregistering tid else .free) .free := by
  intro b hnamed
  refine ⟨fun _ => ?_, fun _ => ⟨.free, ⟨.other (.refl _ b), hnamed⟩, rfl⟩⟩
  dsimp only
  cases hrow : b.db.task? tid with
  | none =>
      have hsame : softDelete tid hides b.db = (false, b.db) := by simp [softDelete, hrow]
      rw [hsame]
      exact ⟨.free, ⟨.other (.refl _ b), hnamed⟩, rfl⟩
  | some row =>
      cases hhides : hides row with
      | false =>
          have hsame : softDelete tid hides b.db = (false, b.db) := by
            simp [softDelete, hrow, hhides]
          rw [hsame]
          exact ⟨.free, ⟨.other (.refl _ b), hnamed⟩, rfl⟩
      | true =>
          have hdeleted : softDelete tid hides b.db =
              (true, b.db.updateTask tid fun row => { row with deleted := true }) := by
            simp [softDelete, hrow, hhides]
          have hstored := (Option.filter_eq_some_iff.mp hrow).1
          refine ⟨.unregistering tid, ⟨.delete ⟨rfl, ?_, ?_⟩ ?_ ?_ rfl rfl, hnamed⟩, ?_⟩
          · rw [hdeleted]
            intro other hmem
            rw [Std.ExtTreeMap.mem_iff_isSome_getElem?] at hmem ⊢
            rw [Database.tasks_updateTask]
            split
            · simpa using hmem
            · exact hmem
          · intro other hother
            have hne : tid ≠ other := fun heq => hother (heq ▸ rfl)
            rw [hdeleted]
            simp only [Scheduled, Database.task?_delete, if_neg hne]
          · rw [hdeleted, Std.ExtTreeMap.mem_iff_isSome_getElem?, Database.tasks_updateTask]
            simp [hrow, hstored]
          · rw [hdeleted]
            simp [Database.task?_delete]
          · rw [hdeleted]
            rfl

theorem spares_deleteScheduleTask {uid tid : String} :
    Spares accepts (Backend.deleteScheduleTask uid tid) := by
  refine Program.Abides.bind (Q := fun φ result => φ =
    if ∃ answer ∈ result, answer.code = 0 then .unregistering tid else .free) ?_ ?_
  · unfold deleteScheduleTask
    rw [onDb_bind]
    refine abides_softDelete.bind ?_
    rintro _ (_ | _ | _) rfl
    · exact (rfl : SchedulePhase.free = .free)
    · exact (rfl : SchedulePhase.free = .free)
    · exact (rfl : SchedulePhase.unregistering _ = .unregistering _)
  · rintro _ (_ | answer) rfl
    · exact (rfl : SchedulePhase.free = .free)
    dsimp only
    by_cases hcode : answer.code = 0
    · rw [if_pos hcode, if_pos ⟨answer, rfl, hcode⟩]
      intro b hnamed
      refine ⟨fun _ => ⟨.free, ⟨.unregister, hnamed⟩, rfl⟩, fun hspares => ?_⟩
      cases hspares.succeeds rfl
    · rw [if_neg hcode, if_neg (by simpa using hcode)]
      exact (rfl : SchedulePhase.free = .free)

/-- Every request keeps to the law. -/
theorem spares_program (env : Environment) (request : BackendRequest)
    (hnames : request.NamesNoSchedule) : Spares env.parser.accepts (request.program env) := by
  cases request with
  | createTask now steadyNow tid uid userName req fate =>
      refine Spares.bind ?_ fun _ => .pure _
      unfold Backend.createTask
      split
      · exact .pure _
      · exact spares_createTaskInternal
  | createNaturalLanguageTask => exact spares_createNaturalLanguageTask.bind fun _ => .pure _
  | retryTask => exact spares_retryTask.bind fun _ => .pure _
  | createScheduleTask => exact spares_createScheduleTask.bind fun _ => .pure _
  | deleteScheduleTask => exact spares_deleteScheduleTask.bind fun _ => .pure _
  | executeScheduledTask => exact spares_executeScheduledTask hnames
  | createContinuousTask now steadyNow uid userName req fate cleanup =>
      refine Spares.bind ?_ fun _ => .pure _
      unfold Backend.createContinuousTask
      split
      · exact .pure _
      · exact spares_createContinuousInternal
  | stopContinuousTask => exact spares_stopContinuousTask.bind fun _ => .pure _
  | getContinuousWindows => exact spares_getContinuousWindows
  | deleteTask => exact (spares_onDb rfl (writes_deleteTask _ _)).bind fun _ => .pure _
  | waitTaskResult => exact (spares_onDb rfl (writes_waitTaskResult _ _)).bind fun _ => .pure _
  | triggerAnalysis =>
      exact (spares_onDb rfl (writes_triggerAnalysis _ _ _ _)).bind fun _ => .pure _
  | runAnalysis => exact spares_onDb rfl (writes_runAnalysis _ _)
  | updateAnalysisStatus =>
      exact (spares_onDb rfl (writes_updateAnalysisStatus _ _ _ _ _)).bind fun _ => .pure _
  | group request => exact spares_onDb rfl (writes_group request)
  | agentCall event =>
      exact (spares_transact fun b => ⟨rfl, rfl, fun h => h.agentCall event⟩).bind fun _ => .pure _

/-! ## Runs -/

/-- After a restart the entries are those of the stored schedules. -/
theorem scheduleFits_restart {parser : CronParser} {slots : ScheduleSlots} {b : Backend}
    (h : ScheduleFits parser.accepts slots b) :
    ScheduleFits parser.accepts [] (Backend.restart parser false b) := by
  obtain ⟨hconsistent, htids⟩ : (Backend.restart parser false b).schedule.Consistent ∧ _ :=
    ScheduleManager.load_spec b.db.nodup_scheduleRows
  have hentries : ∀ tid, tid ∈ (Backend.restart parser false b).schedule.tids ↔
      Scheduled parser.accepts b.db tid := fun tid =>
    (htids tid).trans Database.exists_scheduleRows_iff
  refine ⟨h.named, hconsistent, fun tid => ⟨fun hmem => ?_, fun hmem => .inl ?_, fun hsched =>
    .inl ?_, by simp, by simp, by simp⟩⟩
  · obtain ⟨-, row, hrow, -⟩ := (hentries tid).mp hmem
    have hstored := (Option.filter_eq_some_iff.mp hrow).1
    exact Std.ExtTreeMap.mem_iff_isSome_getElem?.mpr (by simp [Backend.restart, hstored])
  · exact (hentries tid).mp hmem
  · exact (hentries tid).mpr hsched

/-- Without threads in the middle of a creation or a deletion the entries are those of the
schedules. -/
theorem ScheduleFits.cronFaithful {slots : ScheduleSlots} {b : Backend}
    (h : ScheduleFits accepts slots b)
    (hrests : ∀ slot ∈ slots, ∀ mark, slot.2 = some mark →
      mark.registers = none ∧ mark.unregisters = none) : CronFaithful accepts b := by
  have hentries : ∀ tid, tid ∈ b.schedule.tids ↔ Scheduled accepts b.db tid := by
    intro tid
    constructor
    · intro hmem
      rcases (h.tids tid).stored hmem with hsched | ⟨slot, hslots, hphase⟩
      · exact hsched
      · obtain ⟨-, mark, hlast, hmark⟩ := (h.tids tid).deleting slot hslots hphase
        rw [(hrests slot hslots mark hlast).2] at hmark
        cases hmark
    · intro hsched
      rcases (h.tids tid).registered hsched with hmem | ⟨slot, hslots, hphase⟩
      · exact hmem
      · obtain ⟨-, mark, hlast, hmark, -⟩ := (h.tids tid).creating slot hslots true hphase
        rw [(hrests slot hslots mark hlast).1] at hmark
        cases hmark
  refine ⟨fun tid => ?_, fun entry hentry => ?_⟩
  · rw [h.consistent.nodup.count]
    exact if_congr (hentries tid) rfl rfl
  · obtain ⟨-, row, hrow, -⟩ :=
      (hentries entry.2.tid).mp (ScheduleManager.mem_tids.mpr ⟨entry, hentry, rfl⟩)
    exact Option.isSome_iff_exists.mpr ⟨row, hrow⟩

/-- In runs in which DeleteScheduleTask alone deletes schedules the entries match the rows. -/
theorem cronMatches_of_sparing {env : Environment} {ok : BackendPool → RestartEvent → Prop}
    (h : ∀ pool event, ok pool event → SparingStep env pool event) : CronMatches env ok := by
  intro pool hreach hrests
  have hempty : ScheduleFits env.parser.accepts [] {} := by
    refine ⟨.empty, .empty, fun tid => ⟨by simp [ScheduleManager.tids], by simp
      [ScheduleManager.tids], fun hsched => ?_, by simp, by simp, by simp⟩⟩
    obtain ⟨-, row, hrow, -⟩ := hsched
    simp [Database.task?] at hrow
  obtain ⟨slots, hmarks, hfits, -⟩ := Pool.Abides.of_reachable_reset
    (d := scheduleOrder env.parser.accepts) hempty (fun request => spares_program env request)
    (fun fails slots b hok hfits => by
      obtain rfl : fails = false := hok
      exact scheduleFits_restart hfits)
    (hreach.mono h)
  refine hfits.cronFaithful fun slot hmem mark hlast => hrests mark ?_
  rw [← hmarks, ← hlast]
  exact List.mem_map_of_mem hmem

instance (pool : BackendPool) : Decidable pool.Rests :=
  decidable_of_iff (∀ last ∈ pool.marks, ∀ mark ∈ last,
      mark.registers = none ∧ mark.unregisters = none)
    ⟨fun h mark hmark => h _ hmark mark rfl, fun h _ hlast mark hmark => h mark (hmark ▸ hlast)⟩

/-- User u has a schedule. -/
def createdSchedule : List RestartEvent :=
  [.inl (.start (.group (.syncAgents 0 "u" (some [{ ipAddr := "10.0.0.7", uid := "u" }])))),
    .inl (.advance 0 false), .inl (.advance 0 false), .inl (.advance 0 false),
    .inl (.advance 0 false),
    .inl (.start (.createScheduleTask "1" "u" "user"
      { taskName := "nightly", targetIp := "10.0.0.7", pid := 1, duration := 60
        cronExpr := "0 3 * * *" })),
    .inl (.advance 1 false), .inl (.advance 1 false), .inl (.advance 1 false),
    .inl (.advance 1 false)]

/-- The pool after these events. -/
def restartPool (events : List RestartEvent) : BackendPool :=
  Transition.after (restartStep {}) { store := {} } events

theorem cronMatches_createdSchedule :
    (restartPool (createdSchedule ++ [.inr false])).store.schedule.tids.count "sched-1" = 1 := by
  have hrun : Transition.Along (restartStep {}) (SparingStep {}) { store := {} }
        (createdSchedule ++ [.inr false]) ∧
      (Transition.run (restartStep {}) { store := {} } (createdSchedule ++ [.inr false])).isSome ∧
      (restartPool (createdSchedule ++ [.inr false])).Rests ∧
      Scheduled (fun _ => true) (restartPool (createdSchedule ++ [.inr false])).store.db
        "sched-1" := by
    decide +kernel
  obtain ⟨halong, hsome, hrests, hsched⟩ := hrun
  have hfaithful := cronMatches_of_sparing (fun _ _ h => h) _ (halong.reachable hsome) hrests
  exact (hfaithful.entries "sched-1").trans (if_pos hsched)

/-- The user deletes the schedule like any other task. -/
def deletedSchedule : List RestartEvent :=
  createdSchedule ++ [.inl (.start (.deleteTask "u" "sched-1")), .inl (.advance 2 false),
    .inl (.advance 2 false)]

/-- The cron engine goes on to fire for it. -/
theorem not_cronMatches : ¬ CronMatches {} fun _ _ => True := by
  intro h
  have hrun : Transition.Along (restartStep {}) (fun _ _ => True) { store := {} }
        deletedSchedule ∧
      (Transition.run (restartStep {}) { store := {} } deletedSchedule).isSome ∧
      (restartPool deletedSchedule).Rests ∧
      (restartPool deletedSchedule).store.schedule.tids.count "sched-1" = 1 ∧
      ¬ Scheduled (fun _ => true) (restartPool deletedSchedule).store.db "sched-1" := by
    decide +kernel
  obtain ⟨halong, hsome, hrests, hentry, hgone⟩ := hrun
  have hfaithful := h (restartPool deletedSchedule) (halong.reachable hsome) hrests
  rw [hfaithful.entries "sched-1", if_neg hgone] at hentry
  cases hentry

end MiniDrop
