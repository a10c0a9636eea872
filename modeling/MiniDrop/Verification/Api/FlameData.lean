import MiniDrop.Model.FlameData
import MiniDrop.Verification.Api.Artifacts
import MiniDrop.Verification.Api.Tenants
import MiniDrop.Verification.Flame.Reanalysis

/-! # The flame graph that is shown

GetFlameData and FlameDiff look for folded stacks under the same keys, but only GetFlameData knows
the key that the collector gave. -/

namespace MiniDrop

/-- The store works, and has these objects. -/
structure FlameStorage.Holds (storage : FlameStorage) (files : Files) : Prop where
  isExist : ∀ key, storage.isExist key = .ok (files.get? key.toList).isSome
  read : ∀ key, storage.read key = files.get? key.toList
  preSign : ∀ key, ∃ url, storage.preSign key = .ok url

/-- The user may see the task, or the task of the window; its record names this key. -/
inductive Shown (db : Database) (uid tid : String) : String → Prop where
  | task {row : HotmethodTask} (hplain : windowParent tid = none) (haccess : CanAccess db uid tid)
    (hrow : db.task? tid = some row) : Shown db uid tid (extractCollectorResultKey row.statusInfo)
  | window {parentTid : String} {window : ContinuousWindow}
    (hparent : windowParent tid = some parentTid) (haccess : CanAccess db uid parentTid)
    (hrow : db.windows[tid]? = some window) : Shown db uid tid window.cosKey

/-- The folded stacks that are shown: those of the collector, if its key says that they are some. -/
def shownKey (files : Files) (tid cosKey : String) : String :=
  if isCollapsedObjectKey cosKey ∧ (files.get? cosKey.toList).isSome then cosKey
  else tid ++ "/collapsed.txt"

/-! ## The search -/

section Search

variable {storage : FlameStorage} {files : Files} {tid cosKey key : String}

theorem firstExisting_eq (h : storage.Holds files) (keys : List String) :
    storage.firstExisting keys =
      .ok ((keys.find? fun key => key ≠ "" ∧ (files.get? key.toList).isSome).getD "") := by
  induction keys with
  | nil => rfl
  | cons key keys ih =>
      rw [FlameStorage.firstExisting, List.find?_cons, h.isExist]
      by_cases hkey : key = ""
      · simpa [hkey] using ih
      · cases (files.get? key.toList).isSome with
        | true => simp [hkey]
        | false => simpa [hkey] using ih

/-- The first of equal values stays. -/
theorem find?_dedupeStrings {p : String → Bool} (hempty : p "" = false) (values : List String) :
    (dedupeStrings values).find? p = values.find? p := by
  suffices h : ∀ out : List String, (values.foldl (fun out value =>
      if value = "" ∨ value ∈ out then out else out ++ [value]) out).find? p =
        (out ++ values).find? p from h []
  induction values with
  | nil => simp
  | cons value values ih =>
      intro out
      rw [List.foldl_cons, ih]
      split
      · next hskip =>
        rw [List.find?_append, List.find?_append, List.find?_cons]
        rcases hskip with rfl | hmem
        · rw [hempty]
        · cases hp : p value with
          | false => rfl
          | true =>
              obtain ⟨found, hfound⟩ := Option.isSome_iff_exists.mp
                (List.find?_isSome.mpr ⟨value, hmem, hp⟩)
              rw [hfound]
              rfl
      · rw [List.append_assoc, List.singleton_append]

theorem not_isCollapsedObjectKey_empty : isCollapsedObjectKey "" = false := by decide

theorem ne_of_isCollapsedObjectKey (h : isCollapsedObjectKey key = true) : key ≠ "" := by
  rintro rfl
  rw [not_isCollapsedObjectKey_empty] at h
  cases h

theorem append_ne_empty (tid : String) : tid ++ "/collapsed.txt" ≠ "" := by
  intro h
  have hlength := congrArg String.length h
  rw [String.length_append] at hlength
  have htail : "/collapsed.txt".length = 14 := rfl
  have hnone : "".length = 0 := rfl
  omega

/-- An analysed task has folded stacks. -/
theorem firstExisting_candidates (h : storage.Holds files)
    (hthere : (files.get? (tid ++ "/collapsed.txt").toList).isSome) :
    storage.firstExisting (flameCollapsedCandidateKeys tid cosKey) =
      .ok (shownKey files tid cosKey) := by
  have hfound : ∀ key, key ≠ "" → (files.get? key.toList).isSome = true → ∀ rest,
      (key :: rest).find? (fun key => decide (key ≠ "" ∧ (files.get? key.toList).isSome)) =
        some key := fun key hne hsome rest => List.find?_cons_of_pos (decide_eq_true ⟨hne, hsome⟩)
  have hfirst := hfound (tid ++ "/collapsed.txt") (append_ne_empty tid) hthere
  rw [firstExisting_eq h, flameCollapsedCandidateKeys, find?_dedupeStrings (by simp), shownKey]
  by_cases hcollapsed : isCollapsedObjectKey cosKey = true
  · have hcos := ne_of_isCollapsedObjectKey hcollapsed
    rw [if_pos hcollapsed]
    by_cases hfile : (files.get? cosKey.toList).isSome = true
    · rw [hfound cosKey hcos hfile, if_pos ⟨hcollapsed, hfile⟩]
      rfl
    · rw [List.find?_cons_of_neg (by simp [hfile]), hfirst, if_neg fun hboth => hfile hboth.2]
      rfl
  · rw [if_neg hcollapsed, hfirst, if_neg fun hboth => hcollapsed hboth.1]
    rfl

end Search

/-! ## After an analysis -/

section Analysed

variable {storage : FlameStorage} {db : Database} {uid tid cosKey : String}

theorem eq_of_checkTaskAccess {row task : HotmethodTask} (hrow : db.task? tid = some row)
    (h : ((checkTaskAccess uid tid false).run db).1 = some task) : task = row := by
  unfold checkTaskAccess firstTask at h
  simp only [Program.run_bind, Program.run_query, hrow, Program.run_pure] at h
  cases hmay : ((mayAccess { tid, holds := false } uid row).run db).1 with
  | true =>
      rw [hmay] at h
      exact (Option.some.inj h).symm
  | false =>
      rw [hmay] at h
      cases h

/-- The answer for what the user may see. -/
theorem run_getFlameData (h : Shown db uid tid cosKey) :
    ((getFlameData storage uid tid).run db).1 = storage.flameData tid cosKey := by
  cases h with
  | @task row hplain haccess hrow =>
      obtain ⟨task, htask⟩ := Option.isSome_iff_exists.mp haccess
      obtain rfl := eq_of_checkTaskAccess hrow htask
      rw [getFlameData, hplain]
      simp only [Program.run_bind, htask, Program.run_pure]
  | @window parentTid window hparent haccess hrow =>
      obtain ⟨task, htask⟩ := Option.isSome_iff_exists.mp haccess
      rw [getFlameData, hparent]
      simp only [Program.run_bind, Program.run_query, hrow, htask, Program.run_pure]

/-- Anyone else learns nothing. -/
theorem refused_getFlameData (h : ¬∃ cosKey, Shown db uid tid cosKey) :
    ∃ answer, ((getFlameData storage uid tid).run db).1 = .refused answer := by
  cases hparent : windowParent tid with
  | none =>
      rw [getFlameData, hparent]
      cases htask : ((checkTaskAccess uid tid false).run db).1 with
      | none =>
          refine ⟨taskNotFound, ?_⟩
          simp only [Program.run_bind, htask, Program.run_pure]
      | some task =>
          have haccess : CanAccess db uid tid := Option.isSome_iff_exists.mpr ⟨task, htask⟩
          obtain ⟨row, hrow, -⟩ := canAccess_iff.mp haccess
          exact absurd ⟨_, .task hparent haccess hrow⟩ h
  | some parentTid =>
      rw [getFlameData, hparent]
      cases hrow : db.windows[tid]? with
      | none =>
          refine ⟨⟨404, 4040001, "window not found"⟩, ?_⟩
          simp only [Program.run_bind, Program.run_query, hrow, Program.run_pure]
      | some window =>
          cases htask : ((checkTaskAccess uid parentTid false).run db).1 with
          | none =>
              refine ⟨taskNotFound, ?_⟩
              simp only [Program.run_bind, Program.run_query, hrow, htask, Program.run_pure]
          | some task =>
              have haccess : CanAccess db uid parentTid :=
                Option.isSome_iff_exists.mpr ⟨task, htask⟩
              exact absurd ⟨_, .window hparent haccess hrow⟩ h

theorem shownKey_ne_empty (files : Files) (tid cosKey : String) : shownKey files tid cosKey ≠ "" := by
  rw [shownKey]
  split
  · next hboth => exact ne_of_isCollapsedObjectKey hboth.1
  · exact append_ne_empty tid

/-- No other product passes for folded stacks. -/
theorem eq_of_isCollapsedObjectKey {key : String} {start name : List Char}
    (hname : name ∈ productNames) (h : isCollapsedObjectKey key = true)
    (hkey : key.toList = start ++ '/' :: name) : name = "collapsed.txt".toList := by
  have hends : ∀ name ∈ productNames, 2 ≤ (name.map Go.lowerRune).length ∧
      (['e', 'd'] <:+ name.map Go.lowerRune ∨ ['x', 't'] <:+ name.map Go.lowerRune →
        name = "collapsed.txt".toList) := by
    decide
  obtain ⟨hlength, hend⟩ := hends name hname
  have hsuffix : name.map Go.lowerRune <:+ key.toList.map Go.lowerRune := by
    rw [hkey, List.map_append, List.map_cons]
    exact (List.suffix_cons _ _).trans (List.suffix_append _ _)
  rw [isCollapsedObjectKey, Bool.or_eq_true, List.isSuffixOf_iff_suffix,
    List.isSuffixOf_iff_suffix] at h
  refine hend ?_
  rcases h with h | h
  · have htext : ['x', 't'] <:+ "/collapsed.txt".toList := by decide
    exact .inr (List.suffix_of_suffix_length_le (htext.trans h) hsuffix hlength)
  · have htext : ['e', 'd'] <:+ ".collapsed".toList := by decide
    exact .inl (List.suffix_of_suffix_length_le (htext.trans h) hsuffix hlength)

/-- Behind a successful analysis the user is shown folded stacks: those that the collector named, as
they are, or else those that the analysis has cut down. FlameDiff compares the latter. -/
theorem flame_of_analyzeCpuTask (tools : CpuTools) (tid : String) (taskType : ℤ)
    (reported : List (List Char)) (store store' : Files) (storage : FlameStorage)
    (h : analyzeCpuTask tools tid.toList taskType reported store = .ok store')
    (hstorage : storage.Holds store') :
    ∃ file collapsed,
      (collectInputs store tid.toList taskType reported).collapse tools = .ok file ∧
      truncateFile file = .ok collapsed ∧ storage.loadCollapsed tid = collapsed ∧
      ∀ db uid,
        (∀ cosKey, Shown db uid tid cosKey → ∃ url,
          ((getFlameData storage uid tid).run db).1 =
              .data "collapsed" (shownKey store' tid cosKey) url ∧
            storage.preSign (shownKey store' tid cosKey) = .ok url ∧
            store'.get? (shownKey store' tid cosKey).toList =
              if shownKey store' tid cosKey = tid ++ "/collapsed.txt" then some collapsed
              else store.get? cosKey.toList) ∧
        ((¬∃ cosKey, Shown db uid tid cosKey) → ∃ answer,
          ((getFlameData storage uid tid).run db).1 = .refused answer) := by
  obtain ⟨file, collapsed, products, hfile, hcut, hproducts, rfl⟩ := of_analyzeCpuTask_eq_ok h
  obtain ⟨hnames, hmem⟩ := cpuProducts_names hproducts
  have hkey : (tid ++ "/collapsed.txt").toList = tid.toList ++ '/' :: "collapsed.txt".toList := by
    simp
  have hthere : (uploadProducts tid.toList store products).get? (tid ++ "/collapsed.txt").toList =
      some collapsed := by
    rw [hkey]
    exact get?_uploadProducts hnames hmem
  have hsome := Option.isSome_of_eq_some hthere
  refine ⟨file, collapsed, hfile, hcut, ?_, fun db uid => ⟨fun cosKey hshown => ?_,
    refused_getFlameData⟩⟩
  · rw [FlameStorage.loadCollapsed, firstExisting_candidates hstorage hsome, shownKey,
      if_neg (by simp [not_isCollapsedObjectKey_empty])]
    dsimp only
    rw [if_neg (append_ne_empty tid), hstorage.read, hthere]
    rfl
  · obtain ⟨url, hurl⟩ := hstorage.preSign
      (shownKey (uploadProducts tid.toList store products) tid cosKey)
    refine ⟨url, ?_, hurl, ?_⟩
    · rw [run_getFlameData hshown, FlameStorage.flameData, firstExisting_candidates hstorage hsome]
      dsimp only
      rw [if_pos (shownKey_ne_empty _ tid cosKey), FlameStorage.serve, hurl]
    · split
      · next heq => rw [heq, hthere]
      · next hne =>
        have hcos : shownKey (uploadProducts tid.toList store products) tid cosKey = cosKey ∧
            isCollapsedObjectKey cosKey = true := by
          rw [shownKey] at hne ⊢
          split at hne
          · next hboth => exact ⟨if_pos hboth, hboth.1⟩
          · exact absurd rfl hne
        rw [hcos.1] at hne ⊢
        refine get?_uploadProducts_of_notMem hnames fun hproduct => hne ?_
        obtain ⟨name, hname, heq⟩ := List.mem_map.mp hproduct
        rw [eq_of_isCollapsedObjectKey hname hcos.2 heq.symm, ← hkey] at heq
        exact (String.toList_injective heq).symm

/-- An object store that works. -/
def FlameStorage.ofFiles (files : Files) : FlameStorage where
  isExist key := .ok (files.get? key.toList).isSome
  read key := files.get? key.toList
  preSign key := .ok ("https://" ++ key)

theorem FlameStorage.holds_ofFiles (files : Files) : (ofFiles files).Holds files :=
  ⟨fun _ => rfl, fun _ => rfl, fun key => ⟨"https://" ++ key, rfl⟩⟩

/-- The user `u` has a task. -/
def ownTask : Database where
  tasks := (∅ : StdMap HotmethodTask).insert "t" { tid := "t", uid := "u" }

theorem flame_of_analyzeCpuTask_perf : ∃ store',
    analyzeCpuTask steadyTools ['t'] 0 [] perfStore = .ok store' ∧
      ((getFlameData (.ofFiles store') "u" "t").run ownTask).1 =
        .data "collapsed" "t/collapsed.txt" "https://t/collapsed.txt" := by
  have hok : (analyzeCpuTask steadyTools ['t'] 0 [] perfStore).toOption.isSome = true := by
    decide +kernel
  cases h : analyzeCpuTask steadyTools ['t'] 0 [] perfStore with
  | error e =>
      rw [h] at hok
      cases hok
  | ok store' =>
      obtain ⟨_, _, -, -, -, hserves⟩ := flame_of_analyzeCpuTask steadyTools "t" 0 [] perfStore store'
        (.ofFiles store') h (FlameStorage.holds_ofFiles store')
      have hrow : ownTask.task? "t" = some { tid := "t", uid := "u" } := by decide +kernel
      have hnone : extractCollectorResultKey "" = "" := by decide +kernel
      have hshown : Shown ownTask "u" "t" (extractCollectorResultKey "") :=
        .task (by decide +kernel) (by decide +kernel) hrow
      obtain ⟨url, hdata, hurl, -⟩ := (hserves ownTask "u").1 _ hshown
      have hkey : shownKey store' "t" (extractCollectorResultKey "") = "t/collapsed.txt" := by
        rw [hnone]
        exact if_neg (by simp [not_isCollapsedObjectKey_empty])
      rw [hkey] at hdata hurl
      refine ⟨store', rfl, hdata.trans ?_⟩
      rw [← Except.ok.inj hurl]
      rfl

end Analysed

/-! ## Keys of other tasks -/

section Confined

variable {storage : FlameStorage} {listed : List (String × String)} {db : Database}
  {uid tid cosKey type key url : String} {keys : List String} {otherwise : FlameAnswer}

theorem mem_of_firstExisting (h : storage.firstExisting keys = .ok key) : key = "" ∨ key ∈ keys := by
  induction keys with
  | nil => exact .inl (Except.ok.inj h).symm
  | cons other keys ih =>
      rw [FlameStorage.firstExisting] at h
      split at h
      · exact (ih h).imp_right (List.mem_cons_of_mem _)
      · split at h
        · cases h
        · rw [Except.ok.inj h]
          exact .inr List.mem_cons_self
        · exact (ih h).imp_right (List.mem_cons_of_mem _)

theorem mem_of_mem_dedupeStrings (h : key ∈ dedupeStrings keys) : key ∈ keys := by
  suffices hmem : ∀ out : List String, key ∈ keys.foldl (fun out value =>
      if value = "" ∨ value ∈ out then out else out ++ [value]) out → key ∈ out ∨ key ∈ keys from
    (hmem [] h).resolve_left List.not_mem_nil
  clear h
  induction keys with
  | nil => exact fun out h => .inl h
  | cons value keys ih =>
      intro out h
      rw [List.foldl_cons] at h
      rcases ih _ h with hout | hrest
      · split at hout
        · exact .inl hout
        · rcases List.mem_append.mp hout with hmem | hvalue
          · exact .inl hmem
          · rw [List.mem_singleton.mp hvalue]
            exact .inr List.mem_cons_self
      · exact .inr (List.mem_cons_of_mem _ hrest)

theorem key_of_mem_candidates (h : key ∈ flameCollapsedCandidateKeys tid cosKey) :
    OwnKey tid key ∨ key = cosKey := by
  have hown : key ∈ [tid ++ "/collapsed.txt", "profiler/" ++ tid ++ "/" ++ tid ++ ".collapsed",
      "profiler/" ++ tid ++ "/collapsed.txt"] → OwnKey tid key := by
    intro hmem
    simp only [List.mem_cons, List.not_mem_nil, or_false] at hmem
    rcases hmem with rfl | rfl | rfl
    · exact .inl (by simp [hasPrefix])
    · exact .inr (by simp [hasPrefix])
    · exact .inr (by simp [hasPrefix])
  rw [flameCollapsedCandidateKeys] at h
  have hmem := mem_of_mem_dedupeStrings h
  split at hmem
  · rcases List.mem_cons.mp hmem with rfl | hmem
    · exact .inr rfl
    · exact .inl (hown hmem)
  · exact .inl (hown hmem)

theorem eq_of_serve {kind : String} (h : storage.serve kind cosKey = .data type key url) :
    key = cosKey := by
  rw [FlameStorage.serve] at h
  split at h
  · cases h
  · exact (FlameAnswer.data.inj h).2.1.symm

theorem key_of_serveIf {kind : String} (h : storage.serveIf kind cosKey otherwise = .data type key url) :
    key = cosKey ∨ otherwise = .data type key url := by
  rw [FlameStorage.serveIf] at h
  split at h
  · cases h
  · exact .inl (eq_of_serve h)
  · exact .inr h

theorem key_of_flameData (h : storage.flameData tid cosKey = .data type key url) :
    OwnKey tid key ∨ key = cosKey ∧ key ≠ "" := by
  rw [FlameStorage.flameData] at h
  split at h
  · cases h
  · next found hfound =>
    split at h
    · next hne =>
      obtain rfl := eq_of_serve h
      have hmem := (mem_of_firstExisting hfound).resolve_left hne
      exact (key_of_mem_candidates hmem).imp_right fun heq => ⟨heq, hne⟩
    · rcases key_of_serveIf h with rfl | h
      · exact .inl (.inl (by simp [hasPrefix]))
      · rcases key_of_serveIf h with rfl | h
        · exact .inl (.inl (by simp [hasPrefix]))
        · cases h

theorem shown_of_data (h : ((getFlameData storage uid tid).run db).1 = .data type key url) :
    ∃ cosKey, Shown db uid tid cosKey ∧ storage.flameData tid cosKey = .data type key url := by
  by_cases hshown : ∃ cosKey, Shown db uid tid cosKey
  · obtain ⟨cosKey, hshown⟩ := hshown
    exact ⟨cosKey, hshown, (run_getFlameData hshown).symm.trans h⟩
  · obtain ⟨answer, hrefused⟩ : ∃ answer,
        ((getFlameData storage uid tid).run db).1 = .refused answer := refused_getFlameData hshown
    rw [hrefused] at h
    cases h

/-- The user may see what is served, and it belongs to the task or the window. -/
theorem key_of_getFlameData (hdb : Confined listed db)
    (h : ((getFlameData storage uid tid).run db).1 = .data type key url) :
    ∃ cosKey, Shown db uid tid cosKey ∧ (OwnKey tid key ∨
      if windowParent tid = none then (tid, key) ∈ listed else key = cosKey) := by
  obtain ⟨cosKey, hshown, hdata⟩ := shown_of_data h
  refine ⟨cosKey, hshown, ?_⟩
  rcases key_of_flameData hdata with hown | ⟨rfl, hne⟩
  · exact .inl hown
  · cases hshown with
    | @task row hplain haccess hrow =>
        rw [if_pos hplain]
        rcases (hdb tid row (Option.filter_eq_some_iff.mp hrow).1).2 with hempty | hown | hlisted
        · exact absurd hempty hne
        · exact .inl hown
        · exact .inr hlisted
    | window hparent haccess hrow =>
        rw [if_neg (by simp [hparent])]
        exact .inr rfl

/-- In all runs of requests whose texts name no foreign key, GetFlameData serves users who may see
the task, and objects that belong to it. -/
theorem key_of_reachable (assigns analysisConfigured : Bool) (db : Database) (pool : ServerPool)
    (hempty : ∀ tid : String, db.tasks[tid]? = none)
    (hreach : Transition.Reachable (Pool.step (Request.program assigns analysisConfigured))
      StartsOwnKeys { store := db } pool)
    (storage : FlameStorage) (uid tid type key url : String)
    (h : ((getFlameData storage uid tid).run pool.store).1 = .data type key url) :
    ∃ cosKey, Shown pool.store uid tid cosKey ∧ (OwnKey tid key ∨
      if windowParent tid = none then (tid, key) ∈ pool.returnedKeys else key = cosKey) := by
  have hinit : Confined pool.returnedKeys db := by
    intro t row hrow
    rw [hempty t] at hrow
    cases hrow
  have hconforms := Pool.Conforms.of_reachable (d := confining pool.returnedKeys) hinit
    (fun request hrequest => ?_) (Pool.reachable_started hreach)
  · obtain ⟨slots, -, hfits, -⟩ := hconforms
    exact key_of_getFlameData hfits h
  · apply (confines_program assigns analysisConfigured request _ : Confines _ _ _)
    intro entry hentry
    apply (hrequest.1 entry hentry).mono
    intro listedKey hkey
    exact List.mem_flatMap.mpr ⟨request, hrequest.2, hkey⟩

/-- A task whose collector has uploaded folded stacks. -/
def collectedStacks : List (Pool.Event Request) :=
  [.start (.createTask 0 "t" "u" "user" ⟨"n", 0, 0, "a", 1, 10, 0, "", false, ""⟩
      (.answered 0 "OK")),
    .advance 0 false, .advance 0 false, .advance 0 false, .advance 0 false, .advance 0 false,
    .start (.updateAnalysisStatus "u" "t" 2 "collector result ready: profiler/t/t.collapsed"),
    .advance 1 false, .advance 1 false, .advance 1 false, .advance 1 false]

/-- The server behind these requests. -/
def collectedPool : ServerPool :=
  Transition.after (Pool.step (Request.program true true))
    { store := { agents := [{ ipAddr := "a" }] } } collectedStacks

def collectedStorage : FlameStorage :=
  .ofFiles (.ofList [("profiler/t/t.collapsed".toList, .mk #[])])

theorem key_of_reachable_collected :
    ((getFlameData collectedStorage "u" "t").run collectedPool.store).1 =
        .data "collapsed" "profiler/t/t.collapsed" "https://profiler/t/t.collapsed" ∧
      ∃ cosKey, Shown collectedPool.store "u" "t" cosKey ∧
        (OwnKey "t" "profiler/t/t.collapsed" ∨ if windowParent "t" = none then
          ("t", "profiler/t/t.collapsed") ∈ collectedPool.returnedKeys
        else "profiler/t/t.collapsed" = cosKey) := by
  have hdata : ((getFlameData collectedStorage "u" "t").run collectedPool.store).1 =
      .data "collapsed" "profiler/t/t.collapsed" "https://profiler/t/t.collapsed" := by
    decide +kernel
  exact ⟨hdata, key_of_reachable true true { agents := [{ ipAddr := "a" }] } collectedPool
    (fun tid => Std.ExtTreeMap.getElem?_empty)
    (Transition.Along.reachable (by decide +kernel) (by decide +kernel)) _ _ _ _ _ _ hdata⟩

end Confined

end MiniDrop
