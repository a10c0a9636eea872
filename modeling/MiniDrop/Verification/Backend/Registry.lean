import MiniDrop.Model.Backend

/-! # The entries of the cron engine -/

namespace MiniDrop

/-- The cron engine runs the row once it is loaded. -/
def HotmethodTask.Recurs (accepts : String → Bool) (row : HotmethodTask) : Prop :=
  textParam row.requestParams "cron_expr" ≠ "" ∧
    accepts (textParam row.requestParams "cron_expr") = true

instance (accepts : String → Bool) (row : HotmethodTask) : Decidable (row.Recurs accepts) :=
  inferInstanceAs (Decidable (_ ∧ _))

/-- A stored schedule with an expression that the cron engine takes. -/
def Scheduled (accepts : String → Bool) (db : Database) (tid : String) : Prop :=
  hasPrefix tid "sched-" ∧ ∃ row ∈ db.task? tid, row.Recurs accepts

instance (accepts : String → Bool) (db : Database) (tid : String) :
    Decidable (Scheduled accepts db tid) :=
  inferInstanceAs (Decidable (_ ∧ _))

namespace ScheduleManager

/-- The tids that the cron engine runs. -/
def tids (sm : ScheduleManager) : List String := sm.cron.map fun entry => entry.2.tid

/-- No tid runs twice, and the ids lead to the entries. -/
structure Consistent (sm : ScheduleManager) : Prop where
  nodup : sm.tids.Nodup
  known : ∀ entry ∈ sm.cron, sm.entries[entry.2.tid]? = some entry.1
  found : ∀ tid id, sm.entries[tid]? = some id → ∃ entry ∈ sm.cron, entry.1 = id ∧
    entry.2.tid = tid
  fresh : ∀ entry ∈ sm.cron, entry.1 ≤ sm.lastId
  distinct : ∀ entry ∈ sm.cron, ∀ other ∈ sm.cron, entry.1 = other.1 → entry = other

variable {sm : ScheduleManager} {tid : String} {task : HotmethodTask}

theorem Consistent.empty : ({} : ScheduleManager).Consistent where
  nodup := List.nodup_nil
  known := by simp
  found := by simp
  fresh := by simp
  distinct := by simp

theorem mem_tids : tid ∈ sm.tids ↔ ∃ entry ∈ sm.cron, entry.2.tid = tid := List.mem_map

/-! ## Adding -/

@[simp] theorem tids_register (accepts : String → Bool) (cronExpr : String) :
    (sm.register accepts cronExpr task).tids =
      sm.tids ++ if accepts cronExpr then [task.tid] else [] := by
  unfold register tids
  split <;> simp

theorem Consistent.register (h : sm.Consistent) {accepts : String → Bool} {cronExpr : String}
    (hnew : task.tid ∉ sm.tids) : (sm.register accepts cronExpr task).Consistent := by
  unfold ScheduleManager.register
  split
  · have hother : ∀ entry ∈ sm.cron, task.tid ≠ entry.2.tid := fun entry hentry heq =>
      hnew (mem_tids.mpr ⟨entry, hentry, heq.symm⟩)
    refine ⟨?_, ?_, ?_, ?_, ?_⟩
    · simp only [tids, List.map_append, List.map_cons, List.map_nil]
      refine List.nodup_append.mpr ⟨h.nodup, by simp, fun other hmem added hadded heq => ?_⟩
      rw [List.mem_singleton.mp hadded] at heq
      exact hnew (heq ▸ hmem)
    · intro entry hentry
      rcases List.mem_append.mp hentry with hold | hadded
      · simpa [Std.ExtTreeMap.getElem?_insert, hother entry hold] using h.known entry hold
      · rw [List.mem_singleton.mp hadded]
        simp
    · intro tid id hid
      by_cases htid : task.tid = tid
      · subst htid
        obtain rfl : sm.lastId + 1 = id := by simpa using hid
        exact ⟨(sm.lastId + 1, task), by simp, rfl, rfl⟩
      · obtain ⟨entry, hentry, heq, hfound⟩ := h.found tid id
          (by simpa [Std.ExtTreeMap.getElem?_insert, htid] using hid)
        exact ⟨entry, List.mem_append_left _ hentry, heq, hfound⟩
    · intro entry hentry
      rcases List.mem_append.mp hentry with hold | hadded
      · exact Nat.le_succ_of_le (h.fresh entry hold)
      · rw [List.mem_singleton.mp hadded]
    · intro entry hentry other hmem hids
      rcases List.mem_append.mp hentry with hold | hadded <;>
        rcases List.mem_append.mp hmem with hold' | hadded'
      · exact h.distinct entry hold other hold' hids
      · rw [List.mem_singleton.mp hadded'] at hids
        have := h.fresh entry hold
        omega
      · rw [List.mem_singleton.mp hadded] at hids
        have := h.fresh other hold'
        omega
      · rw [List.mem_singleton.mp hadded, List.mem_singleton.mp hadded']
  · exact h

/-! ## Removing -/

/-- The entry of a tid is the one with its id. -/
theorem Consistent.id_ne_iff (h : sm.Consistent) {id : ℕ} (hid : sm.entries[tid]? = some id)
    {entry : ℕ × HotmethodTask} (hentry : entry ∈ sm.cron) : entry.1 ≠ id ↔ entry.2.tid ≠ tid := by
  refine not_congr ⟨fun heq => ?_, fun heq => ?_⟩
  · obtain ⟨other, hother, hid', htid⟩ := h.found tid id hid
    rw [h.distinct entry hentry other hother (heq.trans hid'.symm), htid]
  · have hknown := h.known entry hentry
    rw [heq, hid] at hknown
    exact (Option.some.inj hknown).symm

theorem Consistent.tids_unregister (h : sm.Consistent) (tid : String) :
    (sm.unregister tid).tids = sm.tids.filter (· ≠ tid) := by
  unfold unregister
  cases hid : sm.entries[tid]? with
  | none =>
      refine (List.filter_eq_self.mpr fun other hother => ?_).symm
      obtain ⟨entry, hentry, rfl⟩ := mem_tids.mp hother
      refine decide_eq_true fun heq => ?_
      have hknown := h.known entry hentry
      rw [heq, hid] at hknown
      cases hknown
  | some id =>
      simp only [tids, List.filter_map]
      congr 1
      refine List.filter_congr fun entry hentry => ?_
      exact decide_eq_decide.mpr (h.id_ne_iff hid hentry)

theorem Consistent.mem_tids_unregister (h : sm.Consistent) {other : String} :
    other ∈ (sm.unregister tid).tids ↔ other ∈ sm.tids ∧ other ≠ tid := by
  rw [h.tids_unregister]
  simp

theorem Consistent.unregister (h : sm.Consistent) (tid : String) :
    (sm.unregister tid).Consistent := by
  have hnodup : (sm.unregister tid).tids.Nodup := by
    rw [h.tids_unregister]
    exact h.nodup.filter _
  unfold ScheduleManager.unregister at hnodup ⊢
  cases hid : sm.entries[tid]? with
  | none => exact h
  | some id =>
      rw [hid] at hnodup
      have hkept : ∀ entry ∈ sm.cron.filter (fun entry => entry.1 ≠ id),
          entry ∈ sm.cron ∧ entry.2.tid ≠ tid := by
        intro entry hentry
        obtain ⟨hmem, hne⟩ := List.mem_filter.mp hentry
        exact ⟨hmem, (h.id_ne_iff hid hmem).mp (of_decide_eq_true hne)⟩
      refine ⟨hnodup, ?_, ?_, ?_, ?_⟩
      · intro entry hentry
        obtain ⟨hmem, hne⟩ := hkept entry hentry
        simpa [Std.ExtTreeMap.getElem?_erase, hne.symm] using h.known entry hmem
      · intro other otherId hother
        have hne : tid ≠ other := by
          rintro rfl
          simp at hother
        obtain ⟨entry, hentry, heq, hfound⟩ := h.found other otherId
          (by simpa [Std.ExtTreeMap.getElem?_erase, hne] using hother)
        refine ⟨entry, List.mem_filter.mpr ⟨hentry, decide_eq_true ?_⟩, heq, hfound⟩
        exact (h.id_ne_iff hid hentry).mpr (hfound ▸ hne.symm)
      · exact fun entry hentry => h.fresh entry (hkept entry hentry).1
      · exact fun entry hentry other hother =>
          h.distinct entry (hkept entry hentry).1 other (hkept other hother).1

/-! ## Loading -/

/-- loadFromDB adds an entry for each row that has a valid expression. -/
theorem load_spec {accepts : String → Bool} {rows : List HotmethodTask}
    (hnodup : (rows.map HotmethodTask.tid).Nodup) :
    (load accepts rows).Consistent ∧
      ∀ tid, tid ∈ (load accepts rows).tids ↔ ∃ row ∈ rows, row.tid = tid ∧ row.Recurs accepts := by
  suffices hfold : ∀ (rows : List HotmethodTask) (sm : ScheduleManager), sm.Consistent →
      (rows.map HotmethodTask.tid).Nodup → (∀ row ∈ rows, row.tid ∉ sm.tids) →
      let loaded := rows.foldl (fun sm task =>
        let cronExpr := textParam task.requestParams "cron_expr"
        if cronExpr = "" then sm else sm.register accepts cronExpr task) sm
      loaded.Consistent ∧ ∀ tid, tid ∈ loaded.tids ↔
        tid ∈ sm.tids ∨ ∃ row ∈ rows, row.tid = tid ∧ row.Recurs accepts by
    obtain ⟨hconsistent, htids⟩ := hfold rows {} .empty hnodup (by simp [tids])
    refine ⟨hconsistent, fun tid => (htids tid).trans ?_⟩
    simp [tids]
  intro rows
  induction rows with
  | nil => exact fun sm h _ _ => ⟨h, by simp⟩
  | cons row rows ih =>
      intro sm h hnodup hnew
      obtain ⟨hrow, hrest⟩ := List.nodup_cons.mp hnodup
      by_cases hrecurs : row.Recurs accepts
      · have hadded : (sm.register accepts (textParam row.requestParams "cron_expr") row).tids =
            sm.tids ++ [row.tid] := by simp [hrecurs.2]
        obtain ⟨hconsistent, htids⟩ := ih _ (h.register (hnew row List.mem_cons_self)) hrest
          fun other hother => by
            rw [hadded, List.mem_append, not_or]
            refine ⟨hnew other (List.mem_cons_of_mem row hother), fun heq => hrow ?_⟩
            rw [← List.mem_singleton.mp heq]
            exact List.mem_map_of_mem hother
        simp only [List.foldl_cons, if_neg hrecurs.1]
        refine ⟨hconsistent, fun tid => ?_⟩
        rw [htids tid, hadded, List.mem_append, List.mem_singleton, List.exists_mem_cons_iff]
        constructor
        · rintro ((hold | rfl) | hlater)
          · exact .inl hold
          · exact .inr (.inl ⟨rfl, hrecurs⟩)
          · exact .inr (.inr hlater)
        · rintro (hold | ⟨rfl, -⟩ | hlater)
          · exact .inl (.inl hold)
          · exact .inl (.inr rfl)
          · exact .inr hlater
      · have hskip : (if textParam row.requestParams "cron_expr" = "" then sm
            else sm.register accepts (textParam row.requestParams "cron_expr") row) = sm := by
          unfold HotmethodTask.Recurs at hrecurs
          split
          · rfl
          · rename_i hne
            have hrefused : accepts (textParam row.requestParams "cron_expr") = false := by
              simpa [hne] using hrecurs
            simp [ScheduleManager.register, hrefused]
        obtain ⟨hconsistent, htids⟩ := ih sm h hrest fun other hother =>
          hnew other (List.mem_cons_of_mem row hother)
        simp only [List.foldl_cons, hskip]
        refine ⟨hconsistent, fun tid => ?_⟩
        rw [htids tid, List.exists_mem_cons_iff]
        refine or_congr_right ⟨.inr, ?_⟩
        rintro (⟨-, h'⟩ | hlater)
        · exact absurd h' hrecurs
        · exact hlater

end ScheduleManager

/-! ## Stored schedules -/

namespace Database

theorem nodup_scheduleRows (db : Database) : (db.scheduleRows.map HotmethodTask.tid).Nodup := by
  have hkeys : (db.tasks.toList.map Prod.fst).Nodup :=
    db.tasks.map_fst_toList_eq_keys ▸ db.tasks.nodup_keys
  refine List.Nodup.sublist (List.filter_sublist.map _) ?_
  simpa [List.map_map, Function.comp_def] using hkeys

theorem exists_scheduleRows_iff {accepts : String → Bool} {db : Database} {tid : String} :
    (∃ row ∈ db.scheduleRows, row.tid = tid ∧ row.Recurs accepts) ↔ Scheduled accepts db tid := by
  constructor
  · rintro ⟨_, hmem, rfl, hrecurs⟩
    obtain ⟨hmem, hlive⟩ := List.mem_filter.mp hmem
    obtain ⟨⟨tid, row⟩, hstored, rfl⟩ := List.mem_map.mp hmem
    simp only [Bool.and_eq_true, Bool.not_eq_true'] at hlive
    refine ⟨List.isPrefixOf_iff_prefix.mp hlive.2, row, ?_, hrecurs⟩
    have hrow := Std.ExtTreeMap.mem_toList_iff_getElem?_eq_some.mp hstored
    simp [task?, hrow, hlive.1]
  · rintro ⟨hsched, row, hrow, hrecurs⟩
    obtain ⟨hstored, hlive⟩ := Option.filter_eq_some_iff.mp hrow
    refine ⟨{ row with tid }, List.mem_filter.mpr ⟨List.mem_map.mpr ⟨(tid, row), ?_, rfl⟩, ?_⟩,
      rfl, hrecurs⟩
    · exact Std.ExtTreeMap.mem_toList_iff_getElem?_eq_some.mpr hstored
    · have hfound : "sched-".toList.isPrefixOf tid.toList = true :=
        List.isPrefixOf_iff_prefix.mpr hsched
      rw [hfound, Bool.and_true]
      exact hlive

end Database

end MiniDrop
