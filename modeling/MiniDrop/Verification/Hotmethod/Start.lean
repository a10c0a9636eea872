import MiniDrop.Verification.Hotmethod.Stop

/-! # Starting a continuous task

StartContinuousTask registers the task before it looks at the queue, and leaves it registered where
the queue is full. -/

namespace MiniDrop.HotmethodService

/-- A start that answers with no id leaves the service as it was. -/
def StartsAtomically (s : HotmethodService) (now : ℤ) (request : StartContinuousRequest) : Prop :=
  (s.startContinuousTask now request).2 = "" → (s.startContinuousTask now request).1 = s

/-- The id that is drawn belongs to a task with this configuration, which runs and has no window
yet. -/
def AlreadyStarted (s : HotmethodService) (now : ℤ) (request : StartContinuousRequest) : Prop :=
  s.continuousTasks[parentTidAt now]? = some (continuousConfig (parentTidAt now) request) ∧
    s.continuousWindows[parentTidAt now]? = some []

instance (s : HotmethodService) (now : ℤ) (request : StartContinuousRequest) :
    Decidable (s.AlreadyStarted now request) :=
  inferInstanceAs (Decidable (_ ∧ _))

variable {s : HotmethodService} {now : ℤ} {request : StartContinuousRequest}

/-- No id means that the queue is full. -/
theorem startContinuousTask_eq_empty_iff :
    (s.startContinuousTask now request).2 = "" ↔ s.hasRoom request.targetIp = false := by
  cases hroom : s.hasRoom request.targetIp with
  | true =>
      rw [s.startContinuousTask_of_hasRoom now hroom]
      exact iff_of_false (parentTidAt_ne now) Bool.true_eq_false.mp
  | false =>
      rw [s.startContinuousTask_of_full now hroom]
      exact iff_of_true rfl rfl

/-- Registering changes nothing only where it has been done before. -/
theorem registerContinuous_eq_self_iff {config : ContinuousTaskConfig} :
    s.registerContinuous config = s ↔
      s.continuousTasks[config.parentTid]? = some config ∧
        s.continuousWindows[config.parentTid]? = some [] := by
  constructor
  · intro h
    have htasks := congrArg (fun s => s.continuousTasks[config.parentTid]?) h
    have hwindows := congrArg (fun s => s.continuousWindows[config.parentTid]?) h
    simp only [registerContinuous, Std.ExtTreeMap.getElem?_insert_self] at htasks hwindows
    exact ⟨htasks.symm, hwindows.symm⟩
  · rintro ⟨htasks, hwindows⟩
    have hsame : ∀ {α : Type} (m : StdMap α) {id : String} {value : α}, m[id]? = some value →
        m.insert id value = m := by
      intro α m id value hvalue
      refine Std.ExtTreeMap.ext_getElem? fun k => ?_
      rw [Std.ExtTreeMap.getElem?_insert]
      split
      · next hk => rw [← Std.LawfulEqCmp.eq_of_compare hk, hvalue]
      · rfl
    unfold registerContinuous
    rw [hsame _ htasks, hsame _ hwindows]

/-- A start is atomic while the queue has room, and otherwise where it only repeats another one. -/
theorem startsAtomically_iff :
    s.StartsAtomically now request ↔
      s.hasRoom request.targetIp = true ∨ s.AlreadyStarted now request := by
  unfold StartsAtomically AlreadyStarted
  rw [startContinuousTask_eq_empty_iff]
  cases hroom : s.hasRoom request.targetIp with
  | true => simp
  | false =>
      rw [s.startContinuousTask_of_full now hroom]
      have hfalse : ¬ false = true := Bool.false_ne_true
      exact (forall_prop_of_true rfl).trans
        (registerContinuous_eq_self_iff.trans (or_iff_right hfalse).symm)

/-- The agent stays away until its queue is full. -/
def fullQueueRun : List Event :=
  (List.range 100).map fun i => ⟨i, .pushTask "a" { taskId := "t" ++ toString i }⟩

/-- A task runs under an id that nobody was told. -/
theorem not_startsAtomically : ¬ ∀ s, Transition.Reachable step (fun _ _ => True) {} s →
    ∀ now request, s.StartsAtomically now request := by
  intro h
  have hreach : Transition.Reachable step (fun _ _ => True) {}
      (Transition.after step {} fullQueueRun) :=
    Transition.Along.reachable (by decide +kernel) (by decide +kernel)
  have hsame := h _ hreach 100 ⟨"a", 1, 99, 10, 0, "", ""⟩ (by decide +kernel)
  have htask := congrArg (fun s : HotmethodService => s.continuousTasks["cp_100"]?.isSome) hsame
  revert htask
  decide +kernel

end MiniDrop.HotmethodService
