import Mathlib.Data.List.InsertIdx
import MiniDrop.Model.StatusRuns
import MiniDrop.Verification.Api.History

/-! # What the operations do to the status of one task

An operation that has read the status of a task, or written it, stands at this status until it
has written all that depends on it. While no other operation writes the status, its phase says
what the table holds. -/

namespace MiniDrop

/-! ## The status of one task, as the operations see it -/

/-- The operation at this mark has not yet written all that depends on the status of `t`. -/
def StandsAt (t : String) (last : Option Mark) : Prop :=
  ∃ mark ∈ last, mark.tid = some t ∧ mark.holds = true

instance (t : String) (last : Option Mark) : Decidable (StandsAt t last) :=
  inferInstanceAs (Decidable (∃ mark ∈ last, _))

/-- A write of the status of `t` is recorded, and no other operation stands at this status. -/
def Admits (t : String) (marks : List (Option Mark)) (i : ℕ) (mark : Mark) : Prop :=
  mark.tid = some t → mark.writes = true →
    mark.unrecorded = false ∧ ∀ last ∈ marks.eraseIdx i, ¬ StandsAt t last

instance (t : String) (marks : List (Option Mark)) (i : ℕ) (mark : Mark) :
    Decidable (Admits t marks i mark) :=
  inferInstanceAs (Decidable (_ → _ → _))

/-- The code checks whether the statement fails, if it is about `t`. -/
def Checked (t : String) (mark : Mark) : Prop := mark.tid = some t → mark.unchecked = false

instance (t : String) (mark : Mark) : Decidable (Checked t mark) :=
  inferInstanceAs (Decidable (_ → _))

/-- The statuses of the row that is stored and of the row that queries find, and the history. -/
structure TaskView where
  stored : Option ℤ
  found : Option ℤ
  rows : List TaskStateHistory

namespace Database

variable (db : Database) {t u : String}

def view (t : String) : TaskView :=
  ⟨(db.tasks[t]?).map HotmethodTask.status, (db.task? t).map HotmethodTask.status, db.taskRows t⟩

theorem stored_of_found {status : ℤ} (h : (db.view t).found = some status) :
    (db.view t).stored = some status := by
  obtain ⟨row, hrow, rfl⟩ := Option.map_eq_some_iff.mp h
  simp [view, (Option.filter_eq_some_iff.mp hrow).1]

theorem view_updateTask_ne (h : u ≠ t) (change : HotmethodTask → HotmethodTask) :
    (db.updateTask u change).view t = db.view t := by
  simp [view, tasks_updateTask, task?, h]

/-- An update of other columns. -/
theorem view_updateTask_same (change : HotmethodTask → HotmethodTask)
    (hkeep : ∀ row, (change row).deleted = row.deleted)
    (hstatus : ∀ row, (change row).status = row.status) :
    (db.updateTask u change).view t = db.view t := by
  simp only [view, taskRows_updateTask, tasks_updateTask, task?_updateTask db u change hkeep]
  split <;> split <;> simp [Function.comp_def, hstatus]

theorem view_updateTask {status : ℤ} (h : (db.view t).found = some status) {status' : ℤ}
    (change : HotmethodTask → HotmethodTask) (hkeep : ∀ row, (change row).deleted = row.deleted)
    (hstatus : ∀ row, (change row).status = status') :
    (db.updateTask t change).view t = ⟨some status', some status', (db.view t).rows⟩ := by
  obtain ⟨row, hrow, -⟩ := Option.map_eq_some_iff.mp h
  have hstored : db.tasks[t]? = some row := (Option.filter_eq_some_iff.mp hrow).1
  simp [view, tasks_updateTask, task?_updateTask db t change hkeep, hrow, hstored, hstatus]

theorem view_addHistory (row : TaskStateHistory) :
    (db.addHistory row).view t = { db.view t with
      rows := (db.view t).rows ++
        if row.tid = t ∧ row.changeType = changeTypeTask then [row] else [] } := by
  simp [view, taskRows_addHistory]

theorem view_createTask_ne {task : HotmethodTask} {db' : Database} (h : task.tid ≠ t)
    (hcreate : db.createTask task = some db') : db'.view t = db.view t := by
  obtain ⟨-, rfl⟩ := db.createTask_eq_some hcreate
  simp [view, task?, taskRows, Std.ExtTreeMap.getElem?_insert, h]

theorem view_createTask {task : HotmethodTask} {db' : Database} (hdeleted : task.deleted = false)
    (hcreate : db.createTask task = some db') :
    (db.view task.tid).stored = none ∧
      db'.view task.tid = ⟨some task.status, some task.status, (db.view task.tid).rows⟩ := by
  obtain ⟨hfresh, rfl⟩ := db.createTask_eq_some hcreate
  simp [view, task?, taskRows, hfresh, hdeleted, Option.filter]

end Database

/-! ## Linked histories -/

/-- The rows lead from the creation to `lastState`. -/
structure Linked (rows : List TaskStateHistory) : Prop where
  begins : ∀ row ∈ rows.head?, row.fromState = -1
  contiguous : rows.IsChain fun a b => a.toState = b.fromState

def lastState (rows : List TaskStateHistory) : ℤ :=
  (rows.getLast?.map TaskStateHistory.toState).getD (-1)

theorem Linked.append {rows : List TaskStateHistory} (h : Linked rows) {row : TaskStateHistory}
    (hrow : row.fromState = lastState rows) : Linked (rows ++ [row]) := by
  rcases List.eq_nil_or_concat rows with rfl | ⟨rows, last, rfl⟩
  · exact ⟨by simpa [lastState] using hrow, by simp⟩
  · rw [List.concat_eq_append] at h hrow ⊢
    have hlast : last.toState = row.fromState := by simpa [lastState] using hrow.symm
    refine ⟨?_, ?_⟩
    · intro first hfirst
      apply h.begins first
      simpa [List.head?_append] using hfirst
    · apply List.isChain_append.mpr
      exact ⟨h.contiguous, by simp, by simpa using hlast⟩

@[simp] theorem getLast?_map_append (rows : List TaskStateHistory) (row : TaskStateHistory) :
    (rows ++ [row]).getLast?.map TaskStateHistory.toState = some row.toState := by
  simp

/-! ## What a statement may do -/

/-- What an operation knows about the status of `t`, and the row that it still has to write. -/
inductive Phase where
  | free
  | seen (status : ℤ)
  | owes (fromState toState : ℤ)

def Phase.Owing : Phase → Prop
  | owes _ _ => True
  | _ => False

/-- The view that a phase requires. -/
def Phase.Fits (view : TaskView) : Phase → Prop
  | free => view.rows.getLast?.map TaskStateHistory.toState = view.stored
  | seen status =>
    view.rows.getLast?.map TaskStateHistory.toState = view.stored ∧ view.found = some status
  | owes fromState toState => lastState view.rows = fromState ∧ view.found = some toState

/-- The effect of one statement on `t`, and what the operation knows afterwards. -/
inductive Move (t : String) (mark : Mark) (db db' : Database) : Phase → Phase → Prop where
  /-- The view stays, and nothing is kept in mind. -/
  | rest {φ : Phase} (hφ : ¬ φ.Owing) (hview : db'.view t = db.view t) : Move t mark db db' φ .free
  | keep {status : ℤ} (hstands : StandsAt t (some mark)) (hview : db'.view t = db.view t) :
    Move t mark db db' (.seen status) (.seen status)
  | read {status : ℤ} (hstands : StandsAt t (some mark)) (hview : db'.view t = db.view t)
    (hfound : (db.view t).found = some status) : Move t mark db db' .free (.seen status)
  /-- The status is written, together with its row where it changes. -/
  | change {fromState toState : ℤ} (rows : List TaskStateHistory)
    (hwrites : mark.tid = some t ∧ mark.writes = true) (hnormal : Normal toState)
    (hrows : if fromState = toState then rows = []
      else ∃ row, rows = [row] ∧ row.fromState = fromState ∧ row.toState = toState)
    (hview : db'.view t = ⟨some toState, some toState, (db.view t).rows ++ rows⟩) :
    Move t mark db db' (.seen fromState) .free
  /-- The status is written, and its row is due. -/
  | write {fromState toState : ℤ} (hwrites : mark.tid = some t ∧ mark.writes = true)
    (hstands : StandsAt t (some mark)) (hnormal : Normal toState)
    (hview : db'.view t = ⟨some toState, some toState, (db.view t).rows⟩) :
    Move t mark db db' (.seen fromState) (.owes fromState toState)
  | create {toState : ℤ} (hwrites : mark.tid = some t ∧ mark.writes = true)
    (hstands : StandsAt t (some mark)) (hnormal : Normal toState)
    (hstored : (db.view t).stored = none)
    (hview : db'.view t = ⟨some toState, some toState, (db.view t).rows⟩) :
    Move t mark db db' .free (.owes (-1) toState)
  | record {fromState toState : ℤ} {row : TaskStateHistory} (hfrom : row.fromState = fromState)
    (hto : row.toState = toState)
    (hview : db'.view t = { db.view t with rows := (db.view t).rows ++ [row] }) :
    Move t mark db db' (.owes fromState toState) .free
  | recordAndHold {fromState toState : ℤ} {row : TaskStateHistory}
    (hfrom : row.fromState = fromState) (hto : row.toState = toState)
    (hstands : StandsAt t (some mark))
    (hview : db'.view t = { db.view t with rows := (db.view t).rows ++ [row] }) :
    Move t mark db db' (.owes fromState toState) (.seen toState)
  /-- The status is written without a row. -/
  | lapse {φ : Phase} (hwrites : mark.tid = some t ∧ mark.writes = true)
    (hunrecorded : mark.unrecorded = true) : Move t mark db db' φ .free

/-- What the operations promise about `t`. -/
def contract (t : String) : Program.Contract Mark Database Phase where
  knows φ db := ∀ status, φ = .seen status → (db.view t).found = some status ∧ Normal status
  allows φ mark db db' φ' := Move t mark db db' φ φ'
  mayFail := Checked t

/-! ## What holds across the operations -/

structure Fits (t : String) (view : TaskView) (slots : List (Pool.Slot Mark Phase)) : Prop where
  linked : Linked view.rows
  normal : ∀ status ∈ view.stored, Normal status
  inside : ∀ slot ∈ slots, slot.1 ≠ .free → StandsAt t slot.2
  seen : ∀ slot ∈ slots, ∀ status, slot.1 = .seen status → view.found = some status
  settled : (∀ slot ∈ slots, ¬ slot.1.Owing) → Phase.free.Fits view
  owed : ∀ slot ∈ slots, slot.1.Owing → slot.1.Fits view
  unique : ∀ (i j : ℕ) slot slot', slots[i]? = some slot → slots[j]? = some slot' →
    slot.1.Owing → slot'.1.Owing → i = j

section Slots

variable {t : String} {view view' : TaskView} {slots : List (Pool.Slot Mark Phase)} {i : ℕ}
  {slot slot' : Pool.Slot Mark Phase}

theorem Fits.start (h : Fits t view slots) : Fits t view (slots ++ [(.free, none)]) where
  linked := h.linked
  normal := h.normal
  inside := by
    intro slot hmem hfree
    rcases List.mem_append.mp hmem with hmem | hmem
    · exact h.inside slot hmem hfree
    · rw [List.mem_singleton.mp hmem] at hfree
      exact absurd rfl hfree
  seen := by
    intro slot hmem status hseen
    rcases List.mem_append.mp hmem with hmem | hmem
    · exact h.seen slot hmem status hseen
    · rw [List.mem_singleton.mp hmem] at hseen
      cases hseen
  settled := by
    intro hnone
    apply h.settled
    intro slot hmem
    exact hnone slot (List.mem_append_left _ hmem)
  owed := by
    intro slot hmem howing
    rcases List.mem_append.mp hmem with hmem | hmem
    · exact h.owed slot hmem howing
    · rw [List.mem_singleton.mp hmem] at howing
      exact howing.elim
  unique := by
    have hold : ∀ (j : ℕ) slot, (slots ++ [(Phase.free, (none : Option Mark))])[j]? = some slot →
        slot.1.Owing → slots[j]? = some slot := by
      intro j slot hslot howing
      rcases Nat.lt_trichotomy j slots.length with hlt | rfl | hgt
      · rwa [List.getElem?_append_left hlt] at hslot
      · obtain rfl : (Phase.free, none) = slot := by simpa using hslot
        exact howing.elim
      · rw [List.getElem?_eq_none (by simp; omega)] at hslot
        cases hslot
    intro i j slot slot' hi hj howing howing'
    exact h.unique i j slot slot' (hold i slot hi howing) (hold j slot' hj howing') howing howing'

/-- Operation `i` executes a statement after which no other one may owe a row. -/
theorem Fits.set_sole (h : Fits t view slots) (hslot : slots[i]? = some slot)
    (hothers : ∀ other ∈ slots.eraseIdx i, ¬ other.1.Owing ∧
      ∀ status, other.1 = .seen status → view'.found = some status)
    (hlinked : Linked view'.rows) (hnormal : ∀ status ∈ view'.stored, Normal status)
    (hfits : slot'.1.Fits view') (hinside : slot'.1 ≠ .free → StandsAt t slot'.2) :
    Fits t view' (slots.set i slot') := by
  have hcases : ∀ other ∈ slots.set i slot', other = slot' ∨ other ∈ slots.eraseIdx i :=
    fun other hmem => List.mem_set_cases hmem
  have hnew : slot' ∈ slots.set i slot' :=
    List.mem_set (List.getElem?_eq_some_iff.mp hslot).1 slot'
  have howner : ∀ (j : ℕ) other, (slots.set i slot')[j]? = some other → other.1.Owing → i = j := by
    intro j other hother howing
    by_contra hij
    rw [List.getElem?_set_ne hij] at hother
    have hmem := List.mem_eraseIdx_iff_getElem?.mpr ⟨j, Ne.symm hij, hother⟩
    exact (hothers other hmem).1 howing
  refine ⟨hlinked, hnormal, ?_, ?_, ?_, ?_, ?_⟩
  · intro other hmem hfree
    rcases hcases other hmem with rfl | hother
    · exact hinside hfree
    · exact h.inside other (List.mem_of_mem_eraseIdx hother) hfree
  · intro other hmem status hseen
    rcases hcases other hmem with rfl | hother
    · rw [hseen] at hfits
      exact hfits.2
    · exact (hothers other hother).2 status hseen
  · intro hnone
    have hfree := hnone slot' hnew
    cases hphase : slot'.1 with
    | free => rwa [hphase] at hfits
    | seen status =>
        rw [hphase] at hfits
        exact hfits.1
    | owes fromState toState =>
        rw [hphase] at hfree
        exact (hfree trivial).elim
  · intro other hmem howing
    rcases hcases other hmem with rfl | hother
    · exact hfits
    · exact ((hothers other hother).1 howing).elim
  · intro j k other other' hj hk howing howing'
    rw [← howner j other hj howing, ← howner k other' hk howing']

/-- Operation `i` executes a statement that leaves the view as it is. -/
theorem Fits.set_same (h : Fits t view slots) (hslot : slots[i]? = some slot)
    (hold : ¬ slot.1.Owing) (hnew : ¬ slot'.1.Owing)
    (hseen : ∀ status, slot'.1 = .seen status → view.found = some status)
    (hinside : slot'.1 ≠ .free → StandsAt t slot'.2) : Fits t view (slots.set i slot') := by
  have hcases : ∀ other ∈ slots.set i slot', other = slot' ∨ other ∈ slots.eraseIdx i :=
    fun other hmem => List.mem_set_cases hmem
  have hkept : ∀ (j : ℕ) other, (slots.set i slot')[j]? = some other → other.1.Owing →
      slots[j]? = some other := by
    intro j other hother howing
    by_cases hij : i = j
    · subst hij
      rw [List.getElem?_set_self (List.getElem?_eq_some_iff.mp hslot).1] at hother
      obtain rfl := Option.some.inj hother
      exact (hnew howing).elim
    · rwa [List.getElem?_set_ne hij] at hother
  refine ⟨h.linked, h.normal, ?_, ?_, ?_, ?_, ?_⟩
  · intro other hmem hfree
    rcases hcases other hmem with rfl | hother
    · exact hinside hfree
    · exact h.inside other (List.mem_of_mem_eraseIdx hother) hfree
  · intro other hmem status hstatus
    rcases hcases other hmem with rfl | hother
    · exact hseen status hstatus
    · exact h.seen other (List.mem_of_mem_eraseIdx hother) status hstatus
  · intro hnone
    apply h.settled
    intro other hmem
    rcases List.mem_cases hslot hmem with rfl | hother
    · exact hold
    · exact hnone other (List.mem_set_of_mem_eraseIdx hother)
  · intro other hmem howing
    rcases hcases other hmem with rfl | hother
    · exact (hnew howing).elim
    · exact h.owed other (List.mem_of_mem_eraseIdx hother) howing
  · intro j k other other' hj hk howing howing'
    exact h.unique j k other other' (hkept j other hj howing) (hkept k other' hk howing')
      howing howing'

/-- While a status is written, the other operations know nothing about it. -/
theorem Fits.others_free (h : Fits t view slots) {mark : Mark}
    (hwrites : mark.tid = some t ∧ mark.writes = true)
    (hadmits : Admits t (slots.map Prod.snd) i mark) :
    ∀ other ∈ slots.eraseIdx i, other.1 = .free := by
  intro other hmem
  by_contra hfree
  have hlast : other.2 ∈ (slots.map Prod.snd).eraseIdx i := by
    rw [List.eraseIdx_map]
    exact List.mem_map_of_mem hmem
  exact (hadmits hwrites.1 hwrites.2).2 other.2 hlast
    (h.inside other (List.mem_of_mem_eraseIdx hmem) hfree)

end Slots

theorem lastState_eq_of_getLast? {rows : List TaskStateHistory} {status : ℤ}
    (h : rows.getLast?.map TaskStateHistory.toState = some status) : lastState rows = status := by
  simp [lastState, h]

/-- Every admitted statement keeps the operations and the history in step. -/
theorem Fits.advance {t : String} {slots : List (Pool.Slot Mark Phase)} {db db' : Database}
    {i : ℕ} {φ φ' : Phase} {last last' : Option Mark} {mark : Mark}
    (h : Fits t (db.view t) slots) (hslot : slots[i]? = some (φ, last))
    (hadmits : Admits t (slots.map Prod.snd) i mark) (hmove : Move t mark db db' φ φ')
    (hlast : last' = some mark ∨ last' = none ∧ φ' = .free) :
    Fits t (db'.view t) (slots.set i (φ', last')) := by
  have hmem : (φ, last) ∈ slots := List.mem_of_getElem? hslot
  have hinside : StandsAt t (some mark) → φ' ≠ .free → StandsAt t last' := by
    intro hstands hfree
    rcases hlast with rfl | ⟨-, rfl⟩
    · exact hstands
    · exact absurd rfl hfree
  -- nobody owes a row while an operation stands at the status that it writes
  have hwriting : ∀ other ∈ slots.eraseIdx i, mark.tid = some t ∧ mark.writes = true →
      ¬ other.1.Owing ∧ ∀ status, other.1 = .seen status →
        (db'.view t).found = some status := by
    intro other hother hwrites
    rw [h.others_free hwrites hadmits other hother]
    exact ⟨id, fun _ hseen => by cases hseen⟩
  have hsettled : ¬ φ.Owing → mark.tid = some t ∧ mark.writes = true →
      (db.view t).rows.getLast?.map TaskStateHistory.toState = (db.view t).stored := by
    intro hφ hwrites
    apply h.settled
    intro other hother
    rcases List.mem_cases hslot hother with rfl | hother
    · exact hφ
    · exact (hwriting other hother hwrites).1
  have hrecording : ∀ other ∈ slots.eraseIdx i, φ.Owing → ¬ other.1.Owing := by
    intro other hother howing howing'
    obtain ⟨j, hij, hj⟩ := List.mem_eraseIdx_iff_getElem?.mp hother
    exact hij (h.unique j i other (φ, last) hj hslot howing' howing)
  cases hmove with
  | rest hφ hview =>
      rw [hview]
      exact h.set_same hslot hφ id (fun _ hseen => by cases hseen) (absurd rfl ·)
  | keep hstands hview =>
      rw [hview]
      apply h.set_same hslot id id _ (hinside hstands)
      intro status hseen
      exact h.seen _ hmem status hseen
  | read hstands hview hfound =>
      rw [hview]
      apply h.set_same hslot id id _ (hinside hstands)
      intro status hseen
      cases hseen
      exact hfound
  | @change fromState toState rows hwrites hnormal hrows hview =>
      have hstored := db.stored_of_found (h.seen _ hmem fromState rfl)
      have hlastRow := (hsettled id hwrites).trans hstored
      apply h.set_sole hslot (fun other hother => hwriting other hother hwrites) _ _ _
        (absurd rfl ·)
      all_goals rw [hview]
      · split at hrows
        · rw [hrows, List.append_nil]
          exact h.linked
        · obtain ⟨row, rfl, rfl, rfl⟩ := hrows
          exact h.linked.append (lastState_eq_of_getLast? hlastRow).symm
      · rintro status ⟨⟩
        exact hnormal
      · split at hrows
        · rename_i heq
          rw [hrows, List.append_nil, ← heq]
          exact hlastRow
        · obtain ⟨row, rfl, rfl, rfl⟩ := hrows
          exact getLast?_map_append _ _
  | @write fromState toState hwrites hstands hnormal hview =>
      have hstored := db.stored_of_found (h.seen _ hmem fromState rfl)
      have hlastRow := (hsettled id hwrites).trans hstored
      apply h.set_sole hslot (fun other hother => hwriting other hother hwrites) _ _ _
        (hinside hstands)
      all_goals rw [hview]
      · exact h.linked
      · rintro status ⟨⟩
        exact hnormal
      · exact ⟨lastState_eq_of_getLast? hlastRow, rfl⟩
  | @create toState hwrites hstands hnormal hstored hview =>
      have hnoRow := (hsettled id hwrites).trans hstored
      apply h.set_sole hslot (fun other hother => hwriting other hother hwrites) _ _ _
        (hinside hstands)
      all_goals rw [hview]
      · exact h.linked
      · rintro status ⟨⟩
        exact hnormal
      · exact ⟨by simp [lastState, hnoRow], rfl⟩
  | @record fromState toState row hfrom hto hview =>
      obtain ⟨hlastRow, hfound⟩ := h.owed _ hmem trivial
      apply h.set_sole hslot _ _ _ _ (absurd rfl ·)
      · intro other hother
        rw [hview]
        exact ⟨hrecording other hother trivial,
          h.seen other (List.mem_of_mem_eraseIdx hother)⟩
      all_goals rw [hview]
      · exact h.linked.append (hfrom.trans hlastRow.symm)
      · exact h.normal
      · simp only [Phase.Fits, getLast?_map_append, hto, db.stored_of_found hfound]
  | @recordAndHold fromState toState row hfrom hto hstands hview =>
      obtain ⟨hlastRow, hfound⟩ := h.owed _ hmem trivial
      apply h.set_sole hslot _ _ _ _ (hinside hstands)
      · intro other hother
        rw [hview]
        exact ⟨hrecording other hother trivial,
          h.seen other (List.mem_of_mem_eraseIdx hother)⟩
      all_goals rw [hview]
      · exact h.linked.append (hfrom.trans hlastRow.symm)
      · exact h.normal
      · simp only [Phase.Fits, getLast?_map_append, hto, db.stored_of_found hfound]
        exact ⟨trivial, hfound⟩
  | lapse hwrites hunrecorded =>
      rw [(hadmits hwrites.1 hwrites.2).1] at hunrecorded
      cases hunrecorded

/-- The operations keep their promises about `t`, and the store fits what they know. -/
def discipline (t : String) : Pool.Discipline Mark Database Phase where
  toContract := contract t
  initial := .free
  final φ := φ = .free
  admits := Admits t
  fits slots db := Fits t (db.view t) slots
  fits_start _ _ h := h.start
  fits_knows := by
    intro slots db i φ last h hslot status hseen
    have hfound := h.seen _ (List.mem_of_getElem? hslot) status hseen
    exact ⟨hfound, h.normal status (db.stored_of_found hfound)⟩
  fits_advance := by
    intro slots db i φ last mark db' φ' last' h hslot hadmits hmove hlast
    exact h.advance hslot hadmits hmove hlast

end MiniDrop
