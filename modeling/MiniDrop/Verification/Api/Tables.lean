import MiniDrop.Model.Database

/-! # Reading the tables after a statement -/

namespace MiniDrop.Database

variable (db : Database) (tid : String) (change : HotmethodTask → HotmethodTask)
  (row : TaskStateHistory)

@[simp] theorem updateTask_history : (db.updateTask tid change).history = db.history := by
  unfold updateTask
  split <;> rfl

@[simp] theorem updateTask_windows : (db.updateTask tid change).windows = db.windows := by
  unfold updateTask
  split <;> rfl

@[simp] theorem taskRows_updateTask (t : String) :
    (db.updateTask tid change).taskRows t = db.taskRows t := by
  simp [taskRows]

theorem tasks_updateTask (t : String) :
    (db.updateTask tid change).tasks[t]? =
      if tid = t ∧ (db.task? tid).isSome then (db.tasks[t]?).map change else db.tasks[t]? := by
  unfold updateTask
  cases hrow : db.task? tid with
  | none => simp
  | some row =>
      have hstored : db.tasks[tid]? = some row := (Option.filter_eq_some_iff.mp hrow).1
      by_cases h : tid = t
      · subst h
        simp [hstored]
      · simp [h]

/-- A change that deletes nothing applies to the row that queries find. -/
theorem task?_updateTask (hkeep : ∀ row, (change row).deleted = row.deleted) (t : String) :
    (db.updateTask tid change).task? t =
      if tid = t then (db.task? t).map change else db.task? t := by
  simp only [task?, tasks_updateTask]
  by_cases h : tid = t
  · subst h
    simp only [true_and, if_true]
    cases db.tasks[tid]? with
    | none => simp
    | some row => cases hdeleted : row.deleted <;> simp [Option.filter, hdeleted, hkeep]
  · simp [h]

/-- No query finds a deleted row. -/
theorem task?_delete (t : String) :
    (db.updateTask tid fun row => { row with deleted := true }).task? t =
      if tid = t then none else db.task? t := by
  by_cases h : tid = t
  · subst h
    rw [if_pos rfl, task?, tasks_updateTask]
    cases hrow : db.task? tid with
    | none => simpa [task?] using hrow
    | some row => cases db.tasks[tid]? <;> simp
  · rw [if_neg h, task?, tasks_updateTask, if_neg fun hand => h hand.1, task?]

@[simp] theorem addHistory_tasks : (db.addHistory row).tasks = db.tasks := rfl

@[simp] theorem task?_addHistory (t : String) : (db.addHistory row).task? t = db.task? t := rfl

theorem taskRows_addHistory (t : String) :
    (db.addHistory row).taskRows t =
      db.taskRows t ++ if row.tid = t ∧ row.changeType = changeTypeTask then [row] else [] := by
  by_cases h : row.tid = t ∧ row.changeType = changeTypeTask <;>
    simp [taskRows, addHistory, h]

theorem createTask_eq_some {task : HotmethodTask} {db' : Database}
    (h : db.createTask task = some db') :
    task.tid ∉ db.tasks ∧ db' = { db with tasks := db.tasks.insert task.tid task } := by
  unfold createTask at h
  split at h
  · cases h
  · exact ⟨‹_›, (Option.some.inj h).symm⟩

variable {db} in
/-- A new task is the one that a query for its tid finds. -/
theorem task?_createTask {task : HotmethodTask} {db' : Database}
    (h : db.createTask task = some db') (hlive : task.deleted = false) (t : String) :
    db'.task? t = if task.tid = t then some task else db.task? t := by
  obtain ⟨-, rfl⟩ := createTask_eq_some db h
  by_cases htid : task.tid = t
  · simp [task?, htid, hlive]
  · simp [task?, Std.ExtTreeMap.getElem?_insert, htid]

variable {db} in
theorem mem_groupsOf {uid : String} {gid : ℕ} :
    gid ∈ db.groupsOf uid ↔ (⟨gid, uid⟩ : GroupMember) ∈ db.members := by
  simp only [groupsOf, List.mem_map, List.mem_filter, decide_eq_true_eq]
  constructor
  · rintro ⟨⟨gid, uid⟩, ⟨hmem, rfl⟩, rfl⟩
    exact hmem
  · exact fun h => ⟨_, ⟨h, rfl⟩, rfl⟩

end MiniDrop.Database

namespace MiniDrop

/-! # Statements that only read -/

section Reads

variable {α : Type} {f : Database → α}

theorem preserves_firstTask (tid : String) (holds : Bool) : (firstTask tid holds).Preserves f := by
  apply (Program.preserves_query _ _).bind
  rintro (_ | _ | task) <;> exact .pure _

theorem preserves_mayAccess (mark : Mark) (uid : String) (task : HotmethodTask) :
    (mayAccess mark uid task).Preserves f := by
  unfold mayAccess
  split
  · exact .pure _
  apply (Program.preserves_query _ _).bind
  intro gids
  dsimp only
  split
  · exact .pure _
  exact (Program.preserves_query _ _).bind fun _ => .pure _

theorem preserves_checkTaskAccess (uid tid : String) (holds : Bool) :
    (checkTaskAccess uid tid holds).Preserves f := by
  apply (preserves_firstTask tid holds).bind
  rintro (_ | task)
  · exact .pure _
  apply (preserves_mayAccess _ uid task).bind
  intro allowed
  split <;> exact .pure _

theorem preserves_canAccessAgentIP (uid ip : String) : (canAccessAgentIP uid ip).Preserves f := by
  unfold canAccessAgentIP
  split
  · exact .pure _
  apply (Program.preserves_query _ _).bind
  intro gids
  exact (Program.preserves_query _ _).bind fun _ => .pure _

end Reads

end MiniDrop
