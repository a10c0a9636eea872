import Mathlib.Data.List.InsertIdx
import MiniDrop.Model.Deletion
import MiniDrop.Verification.Api.Tables

/-! # Deletion is final

A statement on a deleted task finds no row. A transition that has read the task before writes its
history all the same, and the object store does not know about rows. -/

namespace MiniDrop

/-! ## Statement -/

/-- Nothing of the task is written. -/
structure Untouched (tid : String) (s t : TaskServer) : Prop where
  row : t.db.tasks[tid]? = s.db.tasks[tid]?
  history : (t.db.history.filter fun row => row.tid = tid) =
    s.db.history.filter fun row => row.tid = tid
  analyses : t.analyses = s.analyses
  objects : ∀ key ∈ t.objects, key ∈ s.objects

/-- In all runs of deletions of a task and of loops that wait for it, as far as their steps satisfy
`ok`, no step writes anything of the task after a deletion has been answered. -/
def DeletionFinal (ok : String → TaskPool → Pool.Event TaskRequest → Prop) : Prop :=
  ∀ tid (start : TaskServer), start.deleted = false → ∀ (pool pool' : TaskPool) event,
    Transition.Reachable (Pool.step (TaskRequest.program tid)) (ok tid) { store := start } pool →
    ok tid pool event → Pool.step (TaskRequest.program tid) pool event = some pool' →
    pool.store.deleted = true → Untouched tid pool.store pool'.store

/-! ## The condition -/

/-- The task has been read, and the next statement acts on that. -/
def TaskMark.Relies (mark : TaskMark) : Prop := mark.table.holds = true ∨ mark.concludes = true

instance (mark : TaskMark) : Decidable mark.Relies :=
  inferInstanceAs (Decidable (_ ∨ _))

/-- An embedded file is stored while the task is there. -/
def StoresLive (tid : String) (mark : TaskMark) (s : TaskServer) (fails : Bool) : Prop :=
  mark.stores = true → fails = false → (s.db.task? tid).isSome

/-- The deletion does not fall between a read of the task and what is done about it. -/
def DeletesApart (marks : List (Option TaskMark)) (i : ℕ) (mark : TaskMark) : Prop :=
  mark.deletes = true → ∀ last ∈ marks.eraseIdx i, ∀ other ∈ last, ¬ other.Relies

instance (tid : String) (mark : TaskMark) (s : TaskServer) (fails : Bool) :
    Decidable (StoresLive tid mark s fails) :=
  inferInstanceAs (Decidable (_ → _))

instance (marks : List (Option TaskMark)) (i : ℕ) (mark : TaskMark) :
    Decidable (DeletesApart marks i mark) :=
  inferInstanceAs (Decidable (_ → _))

abbrev ApartStep (tid : String) : TaskPool → Pool.Event TaskRequest → Prop :=
  Pool.Lawful (fun _ => True) fun marks i mark s fails =>
    StoresLive tid mark s fails ∧ DeletesApart marks i mark

/-! ## Phases -/

/-- What a thread knows of the task. -/
inductive DeletionPhase where
  | free
  /-- It has found the task, and acts on that with its next statement. -/
  | found
  /-- It has deleted the task, or found it deleted. -/
  | gone
deriving DecidableEq

theorem Untouched.refl (tid : String) (s : TaskServer) : Untouched tid s s :=
  ⟨rfl, rfl, rfl, fun _ h => h⟩

/-- One statement of a thread. -/
inductive DeletionStep (tid : String) :
    DeletionPhase → TaskMark → TaskServer → TaskServer → DeletionPhase → Prop where
  | keep {φ φ' : DeletionPhase} {mark : TaskMark} {s t : TaskServer}
      (hlive : (t.db.task? tid).isSome = (s.db.task? tid).isSome)
      (hdeleted : t.deleted = s.deleted)
      (hgone : (s.db.task? tid).isSome = false → Untouched tid s t)
      (hfound : φ' = .found → (s.db.task? tid).isSome ∧ mark.Relies)
      (hφ' : φ' = .gone → (s.db.task? tid).isSome = false) :
      DeletionStep tid φ mark s t φ'
  | delete {mark : TaskMark} {s t : TaskServer} (hlive : (s.db.task? tid).isSome)
      (hgone : (t.db.task? tid).isSome = false) (hmark : mark.deletes = true) :
      DeletionStep tid .free mark s t .gone
  | answer {mark : TaskMark} {s : TaskServer} :
      DeletionStep tid .gone mark s { s with deleted := true } .free

def deletionLaw (tid : String) : Program.Law TaskMark TaskServer DeletionPhase where
  knows φ s := (φ = .found → (s.db.task? tid).isSome) ∧
    (φ = .gone → (s.db.task? tid).isSome = false)
  may := StoresLive tid
  allows := DeletionStep tid

/-- The phases of the threads fit the row, and an answered deletion has taken place. -/
structure DeletionFits (tid : String) (slots : List (Pool.Slot TaskMark DeletionPhase))
    (s : TaskServer) : Prop where
  deleted : s.deleted = true → (s.db.task? tid).isSome = false
  found : ∀ slot ∈ slots, slot.1 = .found →
    (s.db.task? tid).isSome ∧ ∃ mark, slot.2 = some mark ∧ mark.Relies
  gone : ∀ slot ∈ slots, slot.1 = .gone → (s.db.task? tid).isSome = false

/-- The order of the threads. -/
def deletionOrder (tid : String) : Pool.Order TaskMark TaskServer DeletionPhase where
  toLaw := deletionLaw tid
  initial := .free
  final φ := φ = .free
  permits marks i mark s fails := StoresLive tid mark s fails ∧ DeletesApart marks i mark
  permits_may _ _ _ _ _ h := h.1
  fits := DeletionFits tid
  fits_start slots s h := by
    refine ⟨h.deleted, ?_, ?_⟩ <;> intro slot hmem hphase <;>
      rcases List.mem_append.mp hmem with hmem | hmem
    · exact h.found slot hmem hphase
    · rw [List.mem_singleton.mp hmem] at hphase
      cases hphase
    · exact h.gone slot hmem hphase
    · rw [List.mem_singleton.mp hmem] at hphase
      cases hphase
  fits_knows slots s i φ last h hslot :=
    ⟨fun hφ => (h.found _ (List.mem_of_getElem? hslot) hφ).1,
      h.gone _ (List.mem_of_getElem? hslot)⟩
  fits_advance slots s i φ last mark fails t φ' last' h hslot hpermits _ hstep hlast := by
    obtain ⟨hdeleted, hfound, hgone⟩ := h
    cases hstep with
    | keep hlive hsame _ hφfound hφgone =>
        refine ⟨fun hd => ?_, ?_, ?_⟩
        · rw [hlive]
          exact hdeleted (hsame ▸ hd)
        · intro slot hmem hphase
          rw [hlive]
          rcases List.mem_set_cases hmem with rfl | hmem
          · rcases hlast with rfl | ⟨-, hfree⟩
            · exact ⟨(hφfound hphase).1, mark, rfl, (hφfound hphase).2⟩
            · rw [hfree] at hphase
              cases hphase
          · exact hfound slot (List.mem_of_mem_eraseIdx hmem) hphase
        · intro slot hmem hphase
          rw [hlive]
          rcases List.mem_set_cases hmem with rfl | hmem
          · exact hφgone hphase
          · exact hgone slot (List.mem_of_mem_eraseIdx hmem) hphase
    | delete hlive hnone hmark =>
        refine ⟨fun _ => hnone, ?_, fun _ _ _ => hnone⟩
        intro slot hmem hphase
        rcases List.mem_set_cases hmem with rfl | hmem
        · cases hphase
        · -- a thread that acts on the row would stand right before the deletion
          obtain ⟨-, other, hother, hrelies⟩ :=
            hfound slot (List.mem_of_mem_eraseIdx hmem) hphase
          have hmoved : slot.2 ∈ (slots.map Prod.snd).eraseIdx i := by
            rw [List.eraseIdx_map]
            exact List.mem_map_of_mem hmem
          exact absurd hrelies (hpermits.2 hmark slot.2 hmoved other hother)
    | answer =>
        have hnone := hgone _ (List.mem_of_getElem? hslot) rfl
        refine ⟨fun _ => hnone, ?_, fun _ _ _ => hnone⟩
        intro slot hmem hphase
        rcases List.mem_set_cases hmem with rfl | hmem
        · cases hphase
        · exact hfound slot (List.mem_of_mem_eraseIdx hmem) hphase

/-! ## Programs -/

section Programs

variable {tid : String} {mark : TaskMark} {φ : DeletionPhase} {α : Type}

theorem onTables_bind {β : Type} (p : Statements α) (k : α → Statements β) :
    onTables mark (p >>= k) = onTables mark p >>= fun a => onTables mark (k a) :=
  Program.lift_bind _ _ _ p k

/-- The thread ends with nothing known about the task. -/
abbrev EndsFree (tid : String) (p : TaskProgram α) : Prop :=
  p.Abides (deletionLaw tid) (fun φ _ => φ = .free) .free

theorem EndsFree.pure (result : α) : EndsFree tid (Pure.pure result) :=
  (rfl : DeletionPhase.free = .free)

theorem EndsFree.bind {β : Type} {p : TaskProgram α} {k : α → TaskProgram β} (h : EndsFree tid p)
    (hk : ∀ result, EndsFree tid (k result)) : EndsFree tid (p >>= k) := by
  refine Program.Abides.bind h ?_
  rintro _ result rfl
  exact hk result

theorem endsFree_reads {p : Statements α} (h : p.Preserves id) :
    EndsFree tid (onTables mark p) := by
  induction p with
  | done result => exact .pure result
  | stmt table act next failed ihnext ihfailed =>
      intro s _
      have hstays : ∀ m, DeletionStep tid .free m s s .free := fun m =>
        .keep rfl rfl (fun _ => .refl tid s) (fun h => by cases h) fun h => by cases h
      refine ⟨fun _ => ⟨.free, ?_, ihnext s.db (h.2.1 s.db)⟩,
        fun _ => ⟨.free, hstays _, ihfailed h.2.2⟩⟩
      have hsame : act s.db = s.db := h.1 s.db
      dsimp only
      rw [hsame]
      exact hstays _

/-- A query for the task, on which the next statement may rely. -/
theorem abides_find {holds : Bool} (hmark : holds = true ∨ mark.concludes = true) :
    (onTables mark (firstTask tid holds)).Abides (deletionLaw tid)
      (fun φ found => (∃ task, found = .ok task) ∧ φ = .found ∨
        (∃ error, found = .error error) ∧ φ = .free) .free := by
  intro s _
  constructor
  · intro _
    dsimp only [id_eq]
    cases hrow : s.db.task? tid with
    | none =>
        exact ⟨.free, .keep rfl rfl (fun _ => .refl tid s) (fun h => by cases h)
          (fun h => by cases h), .inr ⟨⟨_, rfl⟩, rfl⟩⟩
    | some task =>
        have hlive : (s.db.task? tid).isSome := by rw [hrow]; rfl
        exact ⟨.found, .keep rfl rfl (fun _ => .refl tid s) (fun _ => ⟨hlive, hmark⟩)
          (fun h => by cases h), .inl ⟨⟨_, rfl⟩, rfl⟩⟩
  · intro _
    exact ⟨.free, .keep rfl rfl (fun _ => .refl tid s) (fun h => by cases h)
      (fun h => by cases h), .inr ⟨⟨_, rfl⟩, rfl⟩⟩

/-- Having found the task, a thread does something about it. -/
theorem DeletionStep.act {s t : TaskServer} (hrow : (s.db.task? tid).isSome)
    (hlive : (t.db.task? tid).isSome = (s.db.task? tid).isSome) (hdeleted : t.deleted = s.deleted) :
    DeletionStep tid .found mark s t .free := by
  refine .keep hlive hdeleted (fun hnone => ?_) (fun h => by cases h) fun h => by cases h
  rw [hrow] at hnone
  cases hnone

theorem task?_applyTransition {now fromState toState : ℤ} {task : HotmethodTask} {reason : String}
    {endTime : Option ℤ} {db : Database} :
    ((applyTransition now tid task fromState toState reason endTime db).task? tid).isSome =
      (db.task? tid).isSome := by
  have hfound := db.task?_updateTask tid (fun row => { row with
    status := toState
    statusInfo := reason
    beginTime := if toState = taskStatusRunning ∧ task.beginTime = none then some now
      else row.beginTime
    endTime := endTime.or row.endTime }) (fun _ => rfl) tid
  unfold applyTransition
  dsimp only
  split <;> simp [hfound]

theorem endsFree_transitionTaskStatus {now toState : ℤ} {reason : String} {endTime : Option ℤ} :
    EndsFree tid (onTables mark (transitionTaskStatus now tid toState reason endTime)) := by
  unfold transitionTaskStatus
  dsimp only
  rw [onTables_bind]
  refine Program.Abides.bind (abides_find (.inl rfl)) ?_
  rintro φ found (⟨⟨task, rfl⟩, rfl⟩ | ⟨⟨error, rfl⟩, rfl⟩)
  · intro s hs
    have hrow : (s.db.task? tid).isSome := hs.1 rfl
    exact ⟨fun _ => ⟨.free, .act hrow task?_applyTransition rfl, rfl⟩,
      fun _ => ⟨.free, .act hrow rfl rfl, rfl⟩⟩
  · exact EndsFree.pure _

theorem endsFree_syncDropTaskStatus {now status : ℤ} {reason : String} :
    EndsFree tid (onTables mark (syncDropTaskStatus now tid status reason)) := by
  unfold syncDropTaskStatus
  dsimp only
  split
  · exact endsFree_transitionTaskStatus
  split <;> exact endsFree_transitionTaskStatus

theorem endsFree_ensureTaskReached {now state : ℤ} {reason : String} :
    EndsFree tid (onTables mark (ensureTaskReached now tid state reason)) := by
  unfold ensureTaskReached
  dsimp only
  rw [onTables_bind]
  refine EndsFree.bind (endsFree_reads (preserves_firstTask tid false)) ?_
  rintro (error | task)
  · exact EndsFree.pure _
  · dsimp only
    split
    · exact endsFree_transitionTaskStatus
    · exact EndsFree.pure _

theorem endsFree_storeResultFile {resp : FetchDataResponse} {storage : StorageReply} :
    EndsFree tid (TaskServer.storeResultFile tid resp storage) := by
  unfold TaskServer.storeResultFile
  split
  · split
    · exact EndsFree.pure _
    · refine EndsFree.bind (fun s _ => ⟨fun hmay => ⟨.free, ?_, rfl⟩,
        fun _ => ⟨.free, .keep rfl rfl (fun _ => .refl tid s) (fun h => by cases h)
          (fun h => by cases h), rfl⟩⟩) ?_
      · refine .keep rfl rfl (fun hnone => ?_) (fun h => by cases h) fun h => by cases h
        have hrow : (s.db.task? tid).isSome := hmay rfl rfl
        rw [hrow] at hnone
        cases hnone
      · rintro (_ | _) <;> exact EndsFree.pure _
  · exact EndsFree.pure _

theorem endsFree_settleResult {now : ℤ} {resp : FetchDataResponse} {storage : StorageReply} :
    EndsFree tid (TaskServer.settleResult now tid resp storage) := by
  unfold TaskServer.settleResult
  refine endsFree_storeResultFile.bind fun storage => ?_
  split
  · exact endsFree_ensureTaskReached.bind fun _ =>
      endsFree_transitionTaskStatus.bind fun _ => EndsFree.pure _
  · refine endsFree_ensureTaskReached.bind fun _ => endsFree_ensureTaskReached.bind fun _ =>
      endsFree_transitionTaskStatus.bind fun _ => ?_
    refine Program.Abides.bind (abides_find (.inr rfl)) ?_
    rintro φ found (⟨⟨task, rfl⟩, rfl⟩ | ⟨⟨error, rfl⟩, rfl⟩)
    · intro s hs
      have hrow : (s.db.task? tid).isSome := hs.1 rfl
      exact ⟨fun _ => ⟨.free, .act hrow rfl rfl, rfl⟩,
        fun _ => ⟨.free, .act hrow rfl rfl, rfl⟩⟩
    · exact EndsFree.pure _

theorem endsFree_pollOnce (poll : Poll) : EndsFree tid (TaskServer.pollOnce tid poll) := by
  -- a pass without a response only touches the tables
  have hfails (now : ℤ) (reason : String) : EndsFree tid (onTables {} do
      transitionTaskStatus now tid taskStatusFailed reason (some now)
      pure (PollResult.ended none none)) := by
    rw [onTables_bind]
    exact endsFree_transitionTaskStatus.bind fun _ => EndsFree.pure _
  cases poll with
  | cancelled now error => exact hfails _ _
  | expired now => exact hfails _ _
  | unreachable => exact EndsFree.pure _
  | fetched now resp storage =>
      unfold TaskServer.pollOnce
      dsimp only
      split
      · refine endsFree_syncDropTaskStatus.bind fun _ => ?_
        split
        · exact EndsFree.pure _
        split
        · exact endsFree_settleResult
        · exact EndsFree.pure _
      · next hmessage =>
          split
          · exact endsFree_settleResult
          · next hcode =>
              unfold MiniDrop.pollOnce
              simp only [hmessage, if_neg hcode]
              split
              · rw [onTables_bind]
                exact endsFree_ensureTaskReached.bind fun _ => hfails _ _
              · exact EndsFree.pure _

theorem endsFree_waitTaskResult (polls : List Poll) :
    EndsFree tid (TaskServer.waitTaskResult tid polls) := by
  induction polls with
  | nil => exact EndsFree.pure _
  | cons poll polls ih =>
      refine (endsFree_pollOnce poll).bind fun result => ?_
      cases result with
      | again => exact ih
      | ended artifact analysis => exact EndsFree.pure _

/-! ### Deletion -/

theorem abides_deleteKeys (keys : List String) :
    (TaskServer.deleteKeys keys).Abides (deletionLaw tid) (fun φ _ => φ = .gone) .gone := by
  induction keys with
  | nil => exact (rfl : DeletionPhase.gone = .gone)
  | cons key keys ih =>
      intro s hs
      have hnone : (s.db.task? tid).isSome = false := hs.2 rfl
      refine ⟨fun _ => ⟨.gone, ?_, ih⟩,
        fun _ => ⟨.gone, .keep rfl rfl (fun _ => .refl tid s) (fun h => by cases h)
          fun _ => hnone, ih⟩⟩
      exact .keep rfl rfl (fun _ => ⟨rfl, rfl, rfl, fun _ h => List.mem_of_mem_filter h⟩)
        (fun h => by cases h) fun _ => hnone

theorem abides_deleteObjects (starts : List String) :
    (TaskServer.deleteObjects starts).Abides (deletionLaw tid) (fun φ _ => φ = .gone) .gone := by
  induction starts with
  | nil => exact (rfl : DeletionPhase.gone = .gone)
  | cons start starts ih =>
      refine Program.Abides.bind (Q := fun φ _ => φ = .gone) (fun s hs => ?_) ?_
      · have hstays : DeletionStep tid .gone {} s s .gone :=
          .keep rfl rfl (fun _ => .refl tid s) (fun h => by cases h) fun _ => hs.2 rfl
        exact ⟨fun _ => ⟨.gone, hstays, rfl⟩, fun _ => ⟨.gone, hstays, rfl⟩⟩
      · rintro _ listed rfl
        cases listed with
        | none => exact ih
        | some keys =>
            refine Program.Abides.bind (abides_deleteKeys keys) ?_
            rintro _ _ rfl
            exact ih

theorem endsFree_deleteTask {storageConfigured : Bool} {uid : String} :
    EndsFree tid (TaskServer.deleteTask storageConfigured uid tid) := by
  unfold TaskServer.deleteTask
  refine (endsFree_reads (preserves_checkTaskAccess uid tid false)).bind fun found => ?_
  cases found with
  | none => exact EndsFree.pure _
  | some task =>
      intro s _
      have hstays : DeletionStep tid .free { deletes := true, table := { tid } } s s .free :=
        .keep rfl rfl (fun _ => .refl tid s) (fun h => by cases h) fun h => by cases h
      refine ⟨fun _ => ?_, fun _ => ⟨.free, hstays, EndsFree.pure _⟩⟩
      cases hrow : s.db.task? tid with
      | none =>
          have hnone : softDelete tid (fun _ => true) s.db = (false, s.db) := by
            simp [softDelete, hrow]
          dsimp only
          rw [hnone]
          exact ⟨.free, hstays, EndsFree.pure _⟩
      | some row =>
          have hsome : softDelete tid (fun _ => true) s.db =
              (true, s.db.updateTask tid fun row => { row with deleted := true }) := by
            simp [softDelete, hrow]
          dsimp only
          rw [hsome]
          refine ⟨.gone, .delete (by rw [hrow]; rfl) ?_ rfl, ?_⟩
          · simp [Database.task?_delete]
          · have hanswer : Program.Abides (deletionLaw tid) (fun φ _ => φ = .free) .gone (do
                let _ ← Program.update {} fun s => some { s with deleted := true }
                pure (some ⟨200, 0, "deleted"⟩) : TaskProgram (Option Answer)) := by
              intro s hs
              have hstays : DeletionStep tid .gone {} s s .free :=
                .keep rfl rfl (fun _ => .refl tid s) (fun h => by cases h) fun h => by cases h
              exact ⟨fun _ => ⟨.free, .answer, rfl⟩, fun _ => ⟨.free, hstays, rfl⟩⟩
            show Program.Abides _ _ _ (if storageConfigured then _ else _)
            split
            · refine Program.Abides.bind (abides_deleteObjects _) ?_
              rintro _ _ rfl
              exact hanswer
            · exact hanswer

theorem abides_taskRequest (request : TaskRequest) : EndsFree tid (request.program tid) := by
  cases request with
  | waitTaskResult polls => exact (endsFree_waitTaskResult polls).bind fun _ => EndsFree.pure ()
  | deleteTask storageConfigured uid =>
      exact endsFree_deleteTask.bind fun _ => EndsFree.pure ()

end Programs

/-! ## Undisturbed runs -/

/-- Undisturbed, both answer the same and leave the same tables. -/
def SameTables {α : Type} (p : TaskProgram α) (q : Statements α) : Prop :=
  ∀ s : TaskServer, (p.run s).1 = (q.run s.db).1 ∧ (p.run s).2.db = (q.run s.db).2

section Undisturbed

variable {tid : String}

@[simp] theorem run_onTables {α : Type} {mark : TaskMark} {s : TaskServer} (p : Statements α) :
    (onTables mark p).run s = ((p.run s.db).1, { s with db := (p.run s.db).2 }) := by
  unfold onTables
  rw [Program.run_lift] <;> intros <;> rfl

theorem run_storeResultFile (tid : String) (s : TaskServer) (resp : FetchDataResponse)
    (storage : StorageReply) :
    ((TaskServer.storeResultFile tid resp storage).run s).1 = storage ∧
      ((TaskServer.storeResultFile tid resp storage).run s).2.db = s.db := by
  unfold TaskServer.storeResultFile
  split
  · split <;> simp
  · simp

theorem sameTables_settleResult (now : ℤ) (resp : FetchDataResponse) (storage : StorageReply) :
    SameTables (TaskServer.settleResult now tid resp storage)
      (settleResult now tid resp storage) := by
  intro s
  obtain ⟨hreply, hdb⟩ := run_storeResultFile tid s resp storage
  unfold TaskServer.settleResult settleResult
  rw [Program.run_bind, hreply]
  cases persistFetchedResultFile storage tid resp with
  | error storeErr => simp [hdb]
  | ok cosKey =>
      simp only [Program.run_bind, run_onTables, hdb]
      generalize (Program.run (transitionTaskStatus _ _ _ _ _) _).2 = db
      generalize (firstTask tid false).run db = found
      rcases found with ⟨_ | task, db⟩ <;> simp

theorem sameTables_pollOnce (tid : String) (poll : Poll) :
    SameTables (TaskServer.pollOnce tid poll) (pollOnce tid poll) := by
  intro s
  cases poll with
  | cancelled now error => simp [TaskServer.pollOnce]
  | expired now => simp [TaskServer.pollOnce]
  | unreachable => simp [TaskServer.pollOnce]
  | fetched now resp storage =>
      unfold TaskServer.pollOnce
      dsimp only
      split
      · next hmessage =>
          unfold pollOnce
          simp only [hmessage, Program.run_bind, run_onTables]
          split
          · simp
          split
          · exact sameTables_settleResult now resp storage _
          · simp
      · next hmessage =>
          split
          · next hcode =>
              unfold pollOnce
              simp only [hmessage, if_pos hcode]
              exact sameTables_settleResult now resp storage s
          · simp

theorem sameTables_waitTaskResult (polls : List Poll) :
    SameTables (TaskServer.waitTaskResult tid polls) (waitTaskResult tid polls) := by
  induction polls with
  | nil => exact fun _ => ⟨rfl, rfl⟩
  | cons poll polls ih =>
      intro s
      obtain ⟨hresult, hdb⟩ := sameTables_pollOnce tid poll s
      unfold TaskServer.waitTaskResult waitTaskResult
      rw [Program.run_bind, Program.run_bind, hresult, ← hdb]
      cases ((pollOnce tid poll).run s.db).1 with
      | again => exact ih _
      | ended artifact analysis => exact ⟨rfl, rfl⟩

theorem run_deleteKeys {s : TaskServer} (keys : List String) :
    ((TaskServer.deleteKeys keys).run s).2.db = s.db := by
  induction keys generalizing s with
  | nil => rfl
  | cons key keys ih =>
      unfold TaskServer.deleteKeys
      simp [ih]

theorem run_deleteObjects {s : TaskServer} (starts : List String) :
    ((TaskServer.deleteObjects starts).run s).2.db = s.db := by
  induction starts generalizing s with
  | nil => rfl
  | cons start starts ih =>
      unfold TaskServer.deleteObjects
      simp [ih, run_deleteKeys]

theorem sameTables_deleteTask (storageConfigured : Bool) (uid : String) :
    SameTables (TaskServer.deleteTask storageConfigured uid tid) (deleteTask uid tid) := by
  intro s
  unfold TaskServer.deleteTask deleteTask
  simp only [Program.run_bind, run_onTables]
  cases ((checkTaskAccess uid tid false).run s.db).1 with
  | none => simp
  | some task =>
      simp only [Program.run_bind, run_onTables, Program.run_transact]
      cases (softDelete tid (fun _ => true) ((checkTaskAccess uid tid false).run s.db).2).1 <;>
        cases storageConfigured <;> simp [run_deleteObjects]

end Undisturbed

/-! ## Runs -/

/-- Once the task is gone, no statement writes anything of it. -/
theorem DeletionStep.untouched {tid : String} {φ φ' : DeletionPhase} {mark : TaskMark}
    {s t : TaskServer} (h : DeletionStep tid φ mark s t φ')
    (hnone : (s.db.task? tid).isSome = false) : Untouched tid s t := by
  cases h with
  | keep _ _ hgone _ _ => exact hgone hnone
  | delete hlive _ _ =>
      rw [hnone] at hlive
      cases hlive
  | answer => exact ⟨rfl, rfl, rfl, fun _ h => h⟩

theorem deletionFinal_of_apart {ok : String → TaskPool → Pool.Event TaskRequest → Prop}
    (h : ∀ tid pool event, ok tid pool event → ApartStep tid pool event) : DeletionFinal ok := by
  intro tid start hstart pool pool' event hreach hok hs hdeleted
  have habides : Pool.Abides (deletionOrder tid) pool := by
    have hlawful : Transition.Reachable (Pool.step (TaskRequest.program tid)) (ApartStep tid)
        { store := start } pool := hreach.mono fun pool event => h tid pool event
    refine Pool.Abides.of_reachable ?_ (fun request _ => abides_taskRequest request) hlawful
    exact ⟨fun hd => absurd (hstart.symm.trans hd) Bool.false_ne_true, by simp, by simp⟩
  have hnone : (pool.store.db.task? tid).isSome = false := by
    obtain ⟨slots, -, hfits, -⟩ := habides
    exact hfits.deleted hdeleted
  cases event with
  | start request =>
      obtain rfl := Option.some.inj hs
      exact .refl tid _
  | advance i fails =>
      obtain ⟨φ, mark, φ', -, hstep⟩ :=
        habides.exists_allows (h tid pool (.advance i fails) hok) hs
      exact hstep.untouched hnone

/-- A task of user u that runs. -/
def runningTask : HotmethodTask := { tid := "t", uid := "u", status := taskStatusRunning }

/-- Its file has been collected. -/
def runningServer : TaskServer where
  db := { tasks := (∅ : StdMap HotmethodTask).insert "t" runningTask }
  objects := ["profiler/t/perf.data"]

def taskPool (events : List (Pool.Event TaskRequest)) : TaskPool :=
  Transition.after (Pool.step (TaskRequest.program "t")) { store := runningServer } events

/-- The task is deleted between two statements of the loop that depend on no read. -/
def deletionBetween : List (Pool.Event TaskRequest) :=
  let resp := { code := 0, message := "ok", cosKey := "k" }
  .start (.waitTaskResult [.fetched 1 resp .notConfigured]) ::
    List.replicate 4 (.advance 0 false) ++ .start (.deleteTask true "u") ::
    List.replicate 6 (.advance 1 false)

theorem deletionFinal_deletionBetween :
    (taskPool deletionBetween).store.deleted = true ∧
      (taskPool deletionBetween).store.db.history.length = 1 ∧
      ∃ pool, Pool.step (TaskRequest.program "t") (taskPool deletionBetween) (.advance 0 false) =
        some pool ∧ Untouched "t" (taskPool deletionBetween).store pool.store := by
  have hrun : Transition.Along (Pool.step (TaskRequest.program "t")) (ApartStep "t")
        { store := runningServer } deletionBetween ∧
      (Transition.run (Pool.step (TaskRequest.program "t")) { store := runningServer }
        deletionBetween).isSome ∧
      (taskPool deletionBetween).store.deleted = true ∧
      (taskPool deletionBetween).store.db.history.length = 1 ∧
      ApartStep "t" (taskPool deletionBetween) (.advance 0 false) ∧
      (Pool.step (TaskRequest.program "t") (taskPool deletionBetween)
        (.advance 0 false)).isSome := by
    decide +kernel
  obtain ⟨halong, hsome, hdeleted, hlength, hok, hnext⟩ := hrun
  obtain ⟨pool, hs⟩ := Option.isSome_iff_exists.mp hnext
  exact ⟨hdeleted, hlength, pool, hs, deletionFinal_of_apart (fun _ _ _ h => h) "t" _ rfl _ _ _
    (halong.reachable hsome) hok hs hdeleted⟩

/-- The task is deleted after a transition has read it. -/
def deletionWithin : List (Pool.Event TaskRequest) :=
  .start (.waitTaskResult [.expired 1]) :: .advance 0 false :: .start (.deleteTask true "u") ::
    List.replicate 6 (.advance 1 false)

theorem not_deletionFinal : ¬ DeletionFinal fun _ _ _ => True := by
  intro h
  have hrun : Transition.Along (Pool.step (TaskRequest.program "t")) (fun _ _ => True)
        { store := runningServer } deletionWithin ∧
      (Transition.run (Pool.step (TaskRequest.program "t")) { store := runningServer }
        deletionWithin).isSome ∧
      (taskPool deletionWithin).store.deleted = true ∧
      (taskPool deletionWithin).store.db.history = [] ∧
      ∃ pool ∈ Pool.step (TaskRequest.program "t") (taskPool deletionWithin) (.advance 0 false),
        (pool.store.db.history.filter fun row => row.tid = "t").length = 1 := by
    decide +kernel
  obtain ⟨halong, hsome, hdeleted, hempty, pool, hs, hlength⟩ := hrun
  have huntouched : Untouched "t" (taskPool deletionWithin).store pool.store :=
    h "t" runningServer rfl _ _ _ (halong.reachable hsome) trivial hs hdeleted
  rw [huntouched.history, hempty] at hlength
  cases hlength

end MiniDrop
