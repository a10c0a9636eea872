import MiniDrop.Library.Runs
import MiniDrop.Model.Reporting

/-! # Collected data until it is acknowledged

The worker embeds a file in its report when the upload fails, and removes the file before it knows
whether the report arrives. -/

namespace MiniDrop

/-! ## The worker and its results -/

/-- The steps of the worker from the queue to the result. -/
def Circumstances.actions (task : TaskDesc) (c : Circumstances) (running uploading : ℕ) :
    List AgentAction :=
  [.take, .reportRunning running, .record c.ret] ++
    if recordCode task c.ret = 0 then
      [.reportUploading uploading, .upload c.postProcessed c.reply]
    else []

/-- The steps of the worker end with the result that it reports here. -/
theorem Agent.run_actions (a : Agent) (task : TaskDesc) (rest : List TaskDesc) (c : Circumstances)
    {running uploading : ℕ} (hrunning : running ≤ 3) (huploading : uploading ≤ 3)
    (hqueue : a.queue = task :: rest) (hworker : a.worker = .waiting) (hlive : a.running = true) :
    Transition.run (fun a action => (Agent.step a action).map Prod.fst) a
        (c.actions task running uploading) =
      some { a with queue := rest, worker := .finished (taskResult task c) } := by
  obtain ⟨queue, worker, live⟩ := a
  subst hqueue hworker hlive
  by_cases hcode : recordCode task c.ret = 0
  · simp [Circumstances.actions, hcode, Agent.step, Agent.reportStatus, Agent.attempts, hrunning,
      huploading, taskResult]
  · simp [Circumstances.actions, hcode, Agent.step, Agent.reportStatus, Agent.attempts, hrunning,
      taskResult]

/-! ## Attempts -/

section Attempts

variable {acknowledges : ℕ → Bool} {result : TaskResult}

theorem result_of_mem_reportResultFrom {n : Notification} {attempt left : ℕ}
    (h : n ∈ reportResultFrom acknowledges result attempt left) : n.result = result := by
  induction left generalizing attempt with
  | zero => simp [reportResultFrom] at h
  | succ left ih =>
      rw [reportResultFrom, List.mem_cons] at h
      rcases h with rfl | h
      · rfl
      · by_cases hack : acknowledges attempt
        · simp [hack] at h
        · rw [if_neg hack] at h
          exact ih h

theorem result_of_mem_reportResult {n : Notification} (h : n ∈ reportResult acknowledges result) :
    n.result = result :=
  result_of_mem_reportResultFrom h

/-- The attempts go on until one of them is acknowledged. -/
theorem exists_acknowledged_iff (attempt left : ℕ) :
    (∃ n ∈ reportResultFrom acknowledges result attempt left, n.acknowledged = true) ↔
      ∃ i < left, acknowledges (attempt + i) = true := by
  induction left generalizing attempt with
  | zero => simp [reportResultFrom]
  | succ left ih =>
      by_cases hack : acknowledges attempt
      · exact iff_of_true ⟨_, List.mem_cons_self, hack⟩ ⟨0, Nat.succ_pos left, hack⟩
      · rw [Nat.exists_lt_succ_left]
        simp only [reportResultFrom, hack, Bool.false_eq_true, if_false, List.mem_cons,
          exists_eq_or_imp, ih, Nat.add_zero, false_or]
        simp only [Nat.add_assoc, Nat.add_comm 1]

end Attempts

/-! ## What a result carries -/

/-- The result carries exactly one of a key, a file with content and an error message. -/
def TaskResult.CarriesOne (r : TaskResult) : Prop :=
  [decide (r.cosKey ≠ ""), r.file.any fun file => file.content ≠ [],
    decide (r.errorMessage ≠ "")].count true = 1

instance (r : TaskResult) : Decidable r.CarriesOne := inferInstanceAs (Decidable (_ = _))

theorem carriesOne_of_error {taskId message : String} (h : message ≠ "") :
    TaskResult.CarriesOne { taskId, errorMessage := message } := by
  simp [TaskResult.CarriesOne, h]

theorem carriesOne_uploadResult (task : TaskDesc) (postProcessed : Bool) (reply : UploadReply) :
    (uploadResult task postProcessed reply).CarriesOne := by
  cases reply with
  | notConfigured => exact carriesOne_of_error (by decide)
  | uploaded => simp [uploadResult, TaskResult.CarriesOne]
  | failed content =>
      cases content with
      | none => exact carriesOne_of_error (by simp)
      | some content =>
          by_cases hsize : 0 < content.length ∧ content.length ≤ maxEmbedSize
          · have hne : content ≠ [] := List.ne_nil_of_length_pos hsize.1
            simp [uploadResult, hsize, TaskResult.CarriesOne, hne]
          · simp only [uploadResult, hsize, if_false]
            exact carriesOne_of_error (by simp)

theorem carriesOne_taskResult (task : TaskDesc) (c : Circumstances) :
    (taskResult task c).CarriesOne := by
  unfold taskResult
  by_cases hcode : recordCode task c.ret = 0
  · simp only [hcode, if_true]
    exact carriesOne_uploadResult task c.postProcessed c.reply
  · simp only [hcode, if_false]
    exact carriesOne_of_error (by simp)

theorem sent_handleTask (task : TaskDesc) (c : Circumstances) :
    (handleTask task c).sent = reportResult c.acknowledges (taskResult task c) := by
  by_cases hcode : recordCode task c.ret = 0
  · cases hreply : c.reply with
    | notConfigured => simp [handleTask, hcode, hreply]
    | uploaded => simp [handleTask, hcode, hreply]
    | failed content =>
        cases content with
        | none => simp [handleTask, hcode, hreply]
        | some content =>
            by_cases hsize : 0 < content.length ∧ content.length ≤ maxEmbedSize <;>
              simp [handleTask, hcode, hreply, hsize]
  · simp [handleTask, hcode]

/-! ## Copies of the data -/

/-- When the worker has removed local files of the task, the file to upload is in the object store,
or was delivered by an acknowledged report. -/
def KeepsCopy (task : TaskDesc) (c : Circumstances) : Prop :=
  (handleTask task c).removed ≠ [] →
    (∃ key, (handleTask task c).stored = some ((uploadFile task c.postProcessed).1, key)) ∨
      ∃ n ∈ (handleTask task c).sent, n.acknowledged = true ∧
        ∃ file ∈ n.result.file, c.reply = .failed (some file.content)

/-- The file is embedded in a report, and no attempt is acknowledged. -/
def Discards (task : TaskDesc) (c : Circumstances) : Prop :=
  recordCode task c.ret = 0 ∧
    (∃ content, c.reply = .failed (some content) ∧ 0 < content.length ∧
      content.length ≤ maxEmbedSize) ∧
    ∀ attempt, 1 ≤ attempt → attempt ≤ 3 → c.acknowledges attempt = false

theorem exists_acknowledged_of_reportResult {acknowledges : ℕ → Bool} {result : TaskResult} :
    (∃ n ∈ reportResult acknowledges result, n.acknowledged = true) ↔
      ∃ attempt, 1 ≤ attempt ∧ attempt ≤ 3 ∧ acknowledges attempt = true := by
  unfold reportResult
  rw [exists_acknowledged_iff]
  constructor
  · rintro ⟨i, hi, hack⟩
    exact ⟨1 + i, by omega, by omega, hack⟩
  · rintro ⟨attempt, hone, hthree, hack⟩
    exact ⟨attempt - 1, by omega, by rwa [show 1 + (attempt - 1) = attempt by omega]⟩

theorem keepsCopy_iff (task : TaskDesc) (c : Circumstances) :
    KeepsCopy task c ↔ ¬ Discards task c := by
  unfold KeepsCopy Discards
  rcases ne_or_eq (recordCode task c.ret) 0 with hcode | hcode
  · simp [handleTask, hcode]
  cases hreply : c.reply with
  | notConfigured => simp [handleTask, hcode, hreply]
  | uploaded => simp [handleTask, hcode, hreply]
  | failed content =>
      cases content with
      | none => simp [handleTask, hcode, hreply]
      | some content =>
          by_cases hsize : 0 < content.length ∧ content.length ≤ maxEmbedSize
          · have hresult : taskResult task c = uploadResult task c.postProcessed c.reply := by
              simp [taskResult, hcode]
            have hfile : ∀ n ∈ reportResult c.acknowledges (taskResult task c),
                ∃ file ∈ n.result.file, UploadReply.failed (some content) =
                  .failed (some file.content) := by
              intro n hn
              rw [result_of_mem_reportResult hn, hresult, hreply]
              simp [uploadResult, hsize]
            have hremoved : outputFiles task c.postProcessed ≠ [] := by simp [outputFiles]
            have hcopy : (∃ n ∈ reportResult c.acknowledges (taskResult task c),
                n.acknowledged = true ∧ ∃ file ∈ n.result.file, UploadReply.failed (some content) =
                  .failed (some file.content)) ↔
                ∃ attempt, 1 ≤ attempt ∧ attempt ≤ 3 ∧ c.acknowledges attempt = true := by
              rw [← exists_acknowledged_of_reportResult]
              exact exists_congr fun n => ⟨fun ⟨hn, hack, _⟩ => ⟨hn, hack⟩,
                fun ⟨hn, hack⟩ => ⟨hn, hack, hfile n hn⟩⟩
            simp only [handleTask, hcode, hreply, hsize, and_self, if_true, hremoved, ne_eq,
              not_false_eq_true, true_imp_iff, reduceCtorEq, exists_false, false_or, hcopy]
            simp [hsize]
          · simp [handleTask, hcode, hreply, hsize]

/-! ## The life of a worker -/

/-- A worker keeps a copy of all that it collects exactly as long as it discards no file; each of
its reports carries one thing. -/
theorem keepsCopies_iff (done : List (TaskDesc × Circumstances))
    (left : List (TaskDesc × (ℕ → Bool))) :
    ((∀ handled ∈ done, KeepsCopy handled.1 handled.2) ∧
        ∀ handled ∈ handleAll done left, ∀ n ∈ handled.sent, n.result.CarriesOne) ↔
      ∀ handled ∈ done, ¬ Discards handled.1 handled.2 := by
  have hcarries : ∀ handled ∈ handleAll done left, ∀ n ∈ handled.sent, n.result.CarriesOne := by
    intro handled hmem n hn
    rcases List.mem_append.mp hmem with hmem | hmem
    · obtain ⟨⟨task, c⟩, -, rfl⟩ := List.mem_map.mp hmem
      rw [result_of_mem_reportResult (sent_handleTask task c ▸ hn)]
      exact carriesOne_taskResult task c
    · obtain ⟨⟨task, acknowledges⟩, -, rfl⟩ := List.mem_map.mp hmem
      rw [result_of_mem_reportResult hn]
      exact carriesOne_of_error (by decide)
  rw [and_iff_left hcarries]
  exact forall₂_congr fun handled _ => keepsCopy_iff handled.1 handled.2

/-- The upload fails, and so do all attempts at the report of the embedded file. -/
theorem not_keepsCopy : ¬ ∀ (done : List (TaskDesc × Circumstances)),
    ∀ handled ∈ done, KeepsCopy handled.1 handled.2 := by
  intro h
  have hkeeps := h [({ taskId := "t" }, ⟨0, true, .failed (some [1]), fun _ => false⟩)] _
    List.mem_cons_self
  exact (keepsCopy_iff _ _).mp hkeeps
    ⟨by decide, ⟨[1], rfl, by decide, by decide⟩, fun _ _ _ => rfl⟩

end MiniDrop
