import MiniDrop.Library.Guarantee
import MiniDrop.Verification.Api.StatusTexts

/-! # The key of a delivered result

waitTaskResult writes the key of a collected file into the status text. Updates of the analysis
status append to the text, and the handler of a failed analysis replaces it. -/

namespace MiniDrop

/-- A key that stands in a status text as it is. -/
structure PlainKey (key : String) : Prop where
  nonempty : key ≠ ""
  separators : ';' ∉ key.toList ∧ '\r' ∉ key.toList ∧ '\n' ∉ key.toList
  blanks : trimSpace key.toList = key.toList
  marker : ¬ containsText key resultMarker

/-- The statement with which waitTaskResult moves the task to DONE for this key has run. -/
def DeliveredAs (key tid : String) (db : Database) : Prop :=
  ∃ now task before, (Database.task? before tid).isSome ∧
    db = applyTransition now tid task (normalizeTaskStatus task.status) taskStatusSuccess
      (readyReason key) (some now) before

/-- The request updates analysis states, with a text that contains no marker. -/
def Request.UpdatesAnalysis : Request → Prop
  | updateAnalysisStatus _ _ _ statusInfo => ¬ containsText statusInfo resultMarker
  | triggerAnalysis .. | runAnalysis .. => True
  | _ => False

instance (request : Request) : Decidable request.UpdatesAnalysis := by
  unfold Request.UpdatesAnalysis
  split <;> infer_instance

/-- Only updates of analysis states begin. -/
def StartsUpdates : Pool.Event Request → Prop
  | .start request => request.UpdatesAnalysis
  | .advance .. => True

instance : DecidablePred StartsUpdates
  | .start request => inferInstanceAs (Decidable request.UpdatesAnalysis)
  | .advance .. => inferInstanceAs (Decidable True)

/-- In all runs of updates of analysis states after a delivery whose steps satisfy `ok`, the key
can be read back from the status text. -/
def KeepsKey (assigns analysisConfigured : Bool)
    (ok : String → ServerPool → Pool.Event Request → Prop) : Prop :=
  ∀ key tid db, PlainKey key → DeliveredAs key tid db → ∀ pool : ServerPool,
    Transition.Reachable (Pool.step (Request.program assigns analysisConfigured))
      (fun pool event => StartsUpdates event ∧ ok tid pool event) { store := db } pool →
    ∃ row, pool.store.task? tid = some row ∧ extractCollectorResultKey row.statusInfo = key

/-- The handler of a failed analysis does not write its text over that of the task. -/
abbrev SparesText (tid : String) : ServerPool → Pool.Event Request → Prop :=
  Pool.Lawful (fun _ => True) fun _ _ mark _ fails =>
    mark.overwrites = true → mark.tid = some tid → fails = true

/-! ## Texts with a key -/

/-- The key is read from the last marker in the text. -/
def HasKey (key text : String) : Prop :=
  containsText text resultMarker ∧ extractCollectorResultKey text = key

theorem HasKey.merge {key current reason : String} (h : HasKey key current)
    (hreason : ¬ containsText reason resultMarker) :
    HasKey key (mergeStatusInfo current reason) := by
  obtain ⟨hmarker, hkey⟩ := h
  have hcurrent : ¬ (current = "" ∨ ¬ containsText current resultMarker) := by
    rintro (rfl | hnone)
    · revert hmarker
      decide
    · exact hnone hmarker
  unfold mergeStatusInfo
  rw [if_neg hcurrent]
  by_cases hempty : reason = ""
  · rw [if_pos hempty]
    exact ⟨hmarker, hkey⟩
  · rw [if_neg hempty, if_neg hreason]
    refine ⟨?_, (extract_append hmarker hreason).trans hkey⟩
    rw [containsText, String.toList_append, String.toList_append, List.append_assoc]
    exact hmarker.trans (List.prefix_append _ _).isInfix

/-- No marker overlaps another one. -/
theorem rfind_marker_append {t : List Char} (ht : ¬ resultMarker.toList <:+: t) :
    Text.rfind resultMarker.toList (resultMarker.toList ++ t) = some 0 := by
  have hnone : ¬ resultMarker.toList <:+: "ollector result ready: ".toList ++ t := by
    simpa [resultMarker, List.infix_cons_iff] using ht
  show Text.rfind resultMarker.toList ('c' :: ("ollector result ready: ".toList ++ t)) = some 0
  rw [Text.rfind, Text.rfind_eq_none_iff.mpr hnone]
  exact if_pos (List.prefix_append _ _)

/-- The text of a delivery has its key. -/
theorem PlainKey.hasKey {key : String} (h : PlainKey key) : HasKey key (readyReason key) := by
  have htext : (readyReason key).toList = resultMarker.toList ++ key.toList := by
    rw [readyReason, if_pos h.nonempty]
    simp [resultMarker]
  refine ⟨?_, ?_⟩
  · rw [containsText, htext]
    exact (List.prefix_append _ _).isInfix
  · have hdrop : (readyReason key).toList.drop (0 + resultMarker.length) = key.toList := by
      rw [htext, Nat.zero_add]
      exact List.drop_left
    have hcut : cutAtSemicolon (trimSpace key.toList) = key.toList := by
      rw [h.blanks, cutAtSemicolon, if_neg h.separators.1]
    have hplain : ¬ (key.toList = [] ∨ '\r' ∈ key.toList ∨ '\n' ∈ key.toList) := by
      rintro (hnil | hreturn | hline)
      · exact h.nonempty (String.toList_eq_nil_iff.mp hnil)
      · exact h.separators.2.1 hreturn
      · exact h.separators.2.2 hline
    unfold extractCollectorResultKey
    rw [htext, rfind_marker_append h.marker, ← htext]
    dsimp only
    rw [hdrop, hcut, if_neg hplain, String.ofList_toList]

/-! ## Statements -/

/-- The row of the task is there, and its text has the key. -/
def keepsText (key tid : String) : Guarantee Database where
  inv db := ∃ row, db.task? tid = some row ∧ HasKey key row.statusInfo
  rel _ _ := True
  refl _ := trivial
  trans _ _ := trivial

/-- The handler of a failed analysis does not take place for the task. -/
abbrev sparesText (tid : String) : Mark → Database → Bool → Prop :=
  fun mark _ fails => mark.overwrites = true → mark.tid = some tid → fails = true

/-- The program keeps the key in the text. -/
abbrev KeepsText (key tid : String) {α : Type} (p : Statements α) : Prop :=
  (keepsText key tid).TripleIf (sparesText tid) (.top _) p fun _ => .top _

section KeepsText

variable {key tid : String} {α β : Type}

theorem KeepsText.pure (result : α) : KeepsText key tid (Pure.pure result) :=
  Guarantee.TripleIf.pure fun _ _ _ => trivial

theorem KeepsText.bind {p : Statements α} {k : α → Statements β} (h : KeepsText key tid p)
    (hk : ∀ result, KeepsText key tid (k result)) : KeepsText key tid (p >>= k) :=
  Guarantee.TripleIf.bind h hk

theorem keepsText_of_reads {p : Statements α} (h : p.Preserves id) : KeepsText key tid p :=
  Guarantee.Triple.restrict <| Guarantee.Triple.of_preserves (fun db db' hsame hinv => by
    obtain rfl : db' = db := hsame
    exact ⟨trivial, hinv⟩) h

/-- An update that keeps the key where the row is that of the task. -/
theorem stored_updateTask {db : Database} {t : String} {change : HotmethodTask → HotmethodTask}
    (h : (keepsText key tid).inv db) (hkeep : ∀ row, (change row).deleted = row.deleted)
    (htext : t = tid → ∀ row, HasKey key row.statusInfo → HasKey key (change row).statusInfo) :
    (keepsText key tid).inv (db.updateTask t change) := by
  obtain ⟨row, hrow, hkey⟩ := h
  have hfound := db.task?_updateTask t change hkeep tid
  by_cases ht : t = tid
  · rw [if_pos ht, hrow] at hfound
    exact ⟨change row, hfound, htext ht row hkey⟩
  · rw [if_neg ht, hrow] at hfound
    exact ⟨row, hfound, hkey⟩

/-- What a query for the task finds has the key. -/
theorem keepsText_firstTask {t : String} {holds : Bool} :
    (keepsText key tid).TripleIf (sparesText tid) (.top _) (firstTask t holds) fun found =>
      .pure (∀ task, found = .ok task → t = tid → HasKey key task.statusInfo) := by
  refine Guarantee.TripleIf.bind (Q := fun found => .pure (∀ task, found = some (some task) →
    t = tid → HasKey key task.statusInfo)) (Guarantee.TripleIf.query ?_ ?_) ?_
  · rintro db ⟨row, hrow, hkey⟩ _ _ task htask rfl
    obtain rfl : row = task := Option.some.inj (hrow.symm.trans (Option.some.inj htask))
    exact hkey
  · exact fun _ _ _ _ h => by cases h
  · rintro (_ | _ | task)
    · exact Guarantee.TripleIf.pure fun _ _ _ _ h => by cases h
    · exact Guarantee.TripleIf.pure fun _ _ _ _ h => by cases h
    · refine Guarantee.TripleIf.pure fun _ _ hkey task' htask => ?_
      obtain rfl := Except.ok.inj htask
      exact hkey task rfl

theorem keepsText_recordStateChange {t : String} {fromState toState changeType : ℤ}
    {reason : String} {holds : Bool} :
    KeepsText key tid (recordStateChange t fromState toState reason changeType holds) := by
  refine KeepsText.bind (Guarantee.TripleIf.update ?_ fun _ _ _ => trivial) fun _ => .pure _
  intro db _ hinv _ _ hs
  obtain rfl := Option.some.inj hs
  exact ⟨trivial, hinv, trivial⟩

theorem keepsText_updateAnalysisStatusInfo {t reason : String}
    (hreason : ¬ containsText reason resultMarker) :
    KeepsText key tid (updateAnalysisStatusInfo t reason) := by
  unfold updateAnalysisStatusInfo
  split
  · exact .pure _
  refine Guarantee.TripleIf.bind keepsText_firstTask ?_
  rintro (_ | task)
  · exact Guarantee.TripleIf.pure fun _ _ _ => trivial
  refine Guarantee.TripleIf.of_pure fun hkey => ?_
  refine KeepsText.bind (Guarantee.TripleIf.update ?_ fun _ _ _ => trivial) fun _ => .pure _
  intro db _ hinv _ _ hs
  obtain rfl := Option.some.inj hs
  refine ⟨trivial, stored_updateTask hinv ?_ ?_, trivial⟩
  · exact fun _ => rfl
  · exact fun ht _ _ => (hkey task rfl ht).merge hreason

theorem keepsText_transitionAnalysisStatus {assigns : Bool} {t reason : String} {toState : ℤ}
    (hreason : ¬ containsText reason resultMarker) :
    KeepsText key tid (transitionAnalysisStatus assigns t toState reason) := by
  unfold transitionAnalysisStatus
  refine Guarantee.TripleIf.bind keepsText_firstTask ?_
  rintro (_ | task)
  · exact Guarantee.TripleIf.pure fun _ _ _ => trivial
  refine Guarantee.TripleIf.of_pure fun hkey => ?_
  dsimp only
  split
  · split
    · exact keepsText_updateAnalysisStatusInfo hreason
    · exact KeepsText.pure _
  · refine KeepsText.bind (Guarantee.TripleIf.update ?_ fun _ _ _ => trivial) fun _ => .pure _
    intro db _ hinv _ _ hs
    obtain rfl := Option.some.inj hs
    refine ⟨trivial, stored_updateTask hinv ?_ ?_, trivial⟩
    · exact fun _ => rfl
    · exact fun ht _ _ => (hkey task rfl ht).merge hreason

theorem keepsText_updateAnalysisStatus {assigns : Bool} {uid t statusInfo : String}
    {analysisStatus : ℤ} (hinfo : ¬ containsText statusInfo resultMarker) :
    KeepsText key tid (updateAnalysisStatus assigns uid t analysisStatus statusInfo) := by
  apply (keepsText_of_reads (preserves_checkTaskAccess uid t false)).bind
  rintro (_ | task)
  · exact .pure _
  apply (keepsText_of_reads (preserves_firstTask t false)).bind
  rintro (_ | task)
  · exact .pure _
  exact (keepsText_transitionAnalysisStatus hinfo).bind fun _ => .pure _

theorem keepsText_triggerAnalysis {assigns analysisConfigured : Bool} {uid t : String} :
    KeepsText key tid (triggerAnalysis assigns analysisConfigured uid t) := by
  apply (keepsText_of_reads (preserves_checkTaskAccess uid t false)).bind
  rintro (_ | task)
  · exact .pure _
  have hqueued : ¬ containsText "analysis queued" resultMarker := by decide
  dsimp only
  split
  · exact .pure _
  split
  · exact .pure _
  split
  · exact .pure _
  exact (keepsText_transitionAnalysisStatus hqueued).bind fun _ => .pure _

/-- The handler of a failed analysis replaces the text of other tasks alone. -/
theorem keepsText_runAnalysis {t : String} {failure : Option (String × String)} :
    KeepsText key tid (runAnalysis t failure) := by
  unfold runAnalysis
  rcases failure with _ | ⟨error, stderr⟩
  · exact .pure _
  apply (keepsText_of_reads (preserves_firstTask t false)).bind
  rintro (_ | task)
  · exact .pure _
  dsimp only
  split
  · refine KeepsText.bind (Guarantee.TripleIf.update ?_ fun _ _ _ => trivial) fun _ =>
      keepsText_recordStateChange
    intro db _ hinv _ hspares hs
    obtain rfl := Option.some.inj hs
    refine ⟨trivial, stored_updateTask hinv (fun _ => rfl) fun ht => ?_, trivial⟩
    cases hspares rfl (congrArg some ht)
  · exact .pure _

/-- Every update of an analysis state keeps the key. -/
theorem keepsText_program {assigns analysisConfigured : Bool} {request : Request}
    (h : request.UpdatesAnalysis) :
    KeepsText key tid (request.program assigns analysisConfigured) := by
  cases request with
  | updateAnalysisStatus => exact (keepsText_updateAnalysisStatus h).bind fun _ => .pure _
  | triggerAnalysis => exact keepsText_triggerAnalysis.bind fun _ => .pure _
  | runAnalysis => exact keepsText_runAnalysis
  | _ => exact absurd h id

end KeepsText

/-! ## Runs -/

/-- The text of a delivery is that of the row. -/
theorem DeliveredAs.inv {key tid : String} {db : Database} (h : DeliveredAs key tid db)
    (hkey : PlainKey key) : (keepsText key tid).inv db := by
  obtain ⟨now, task, before, hstored, rfl⟩ := h
  obtain ⟨row, hrow⟩ := Option.isSome_iff_exists.mp hstored
  have hfound := before.task?_updateTask tid (fun row => { row with
    status := taskStatusSuccess
    statusInfo := readyReason key
    beginTime := if taskStatusSuccess = taskStatusRunning ∧ task.beginTime = none then some now
      else row.beginTime
    endTime := (some now).or row.endTime }) (fun _ => rfl) tid
  rw [if_pos rfl, hrow] at hfound
  unfold applyTransition
  dsimp only
  split <;> exact ⟨_, hfound, hkey.hasKey⟩

/-- In runs whose handlers of failed analyses leave the task alone the key is kept. -/
theorem keepsKey_of_sparesText {assigns analysisConfigured : Bool}
    {ok : String → ServerPool → Pool.Event Request → Prop}
    (h : ∀ tid pool event, ok tid pool event → SparesText tid pool event) :
    KeepsKey assigns analysisConfigured ok := by
  intro key tid db hkey hdelivered pool hreach
  have hlawful : ∀ pool event, StartsUpdates event ∧ ok tid pool event →
      Pool.Lawful Request.UpdatesAnalysis (fun _ _ => sparesText tid) (pool : ServerPool)
        event := by
    intro pool event hok
    cases event with
    | start request => exact hok.1
    | advance i fails => exact h tid pool _ hok.2
  obtain ⟨row, hrow, -, hfound⟩ := (keepsText key tid).inv_of_reachable (hdelivered.inv hkey)
    (fun request hrequest => keepsText_program hrequest) (hreach.mono hlawful)
  exact ⟨row, hrow, hfound⟩

/-- A task of user u whose file is about to be delivered. -/
def uploadedTask : HotmethodTask := { tid := "t", uid := "u", status := taskStatusUploading }

def deliveredTask : Database :=
  applyTransition 9 "t" uploadedTask (normalizeTaskStatus uploadedTask.status) taskStatusSuccess
    (readyReason "profiler/t/perf.data") (some 9)
    { tasks := (∅ : StdMap HotmethodTask).insert "t" uploadedTask }

theorem plainKey_perfData : PlainKey "profiler/t/perf.data" where
  nonempty := by decide
  separators := by decide
  blanks := by decide
  marker := by decide

theorem deliveredAs_deliveredTask : DeliveredAs "profiler/t/perf.data" "t" deliveredTask :=
  ⟨9, uploadedTask, _, by decide +kernel, rfl⟩

/-- An analysis ends well, and then the process of another one fails. -/
def analysedTwice : List (Pool.Event Request) :=
  [.start (.updateAnalysisStatus "u" "t" 1 "analysis started"), .advance 0 false,
    .advance 0 false, .advance 0 false, .advance 0 false,
    .start (.updateAnalysisStatus "u" "t" 2 "analysis completed"), .advance 1 false,
    .advance 1 false, .advance 1 false, .advance 1 false,
    .start (.runAnalysis "t" (some ("exit status 1", "no input"))), .advance 2 false]

def analysisPool (events : List (Pool.Event Request)) : ServerPool :=
  Transition.after (Pool.step (Request.program false true)) { store := deliveredTask } events

theorem keepsKey_analysedTwice :
    (analysisPool analysedTwice).store.history.length = 3 ∧
      ∃ row, (analysisPool analysedTwice).store.task? "t" = some row ∧
        extractCollectorResultKey row.statusInfo = "profiler/t/perf.data" := by
  have hrun : Transition.Along (Pool.step (Request.program false true))
        (fun pool event => StartsUpdates event ∧ SparesText "t" pool event)
        { store := deliveredTask } analysedTwice ∧
      (Transition.run (Pool.step (Request.program false true)) { store := deliveredTask }
        analysedTwice).isSome ∧
      (analysisPool analysedTwice).store.history.length = 3 := by
    decide +kernel
  obtain ⟨halong, hsome, hlength⟩ := hrun
  exact ⟨hlength, keepsKey_of_sparesText (fun _ _ _ h => h) _ _ _ plainKey_perfData
    deliveredAs_deliveredTask _ (halong.reachable hsome)⟩

/-- The process of an analysis fails. -/
def analysisFails : List (Pool.Event Request) :=
  [.start (.runAnalysis "t" (some ("exit status 1", "no input"))), .advance 0 false,
    .advance 0 false]

/-- The text of the failure has no key. -/
theorem not_keepsKey : ¬ KeepsKey false true fun _ _ _ => True := by
  intro h
  have hrun : Transition.Along (Pool.step (Request.program false true))
        (fun _ event => StartsUpdates event ∧ True) { store := deliveredTask } analysisFails ∧
      (Transition.run (Pool.step (Request.program false true)) { store := deliveredTask }
        analysisFails).isSome ∧
      ∀ row ∈ (analysisPool analysisFails).store.task? "t",
        extractCollectorResultKey row.statusInfo ≠ "profiler/t/perf.data" := by
    decide +kernel
  obtain ⟨halong, hsome, hlost⟩ := hrun
  obtain ⟨row, hrow, hkey⟩ := h _ _ _ plainKey_perfData deliveredAs_deliveredTask _
    (halong.reachable hsome)
  exact hlost row hrow hkey

end MiniDrop
