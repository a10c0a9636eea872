import MiniDrop.Library.Paging
import MiniDrop.Verification.Api.Listing

/-! # The pages of the task list

Each page is a query of its own, and queries may order tasks with the same creation time
differently. -/

namespace MiniDrop

open Paging

variable {sql : SqlComparison} {db : Database} {uid : String} {filter : TaskFilter}

/-- The size of a page. -/
def TaskFilter.pageSize (filter : TaskFilter) : ℕ := (parseIntDefault filter.size 20).toNat

/-- What the queries list for pages 1, 2, … up to the last by the reported total. -/
def listedPages (orders : ℕ → TaskOrder) (sql : SqlComparison) (uid : String) (filter : TaskFilter)
    (db : Database) : List (String × HotmethodTask) :=
  let total := ((getTasksIn (orders 0) sql uid filter).run db).1.total
  (List.range ((total + filter.pageSize - 1) / filter.pageSize)).flatMap fun k =>
    ((getTasksIn (orders k) sql uid { filter with page := toString (k + 1) }).run db).1.list

/-- A task that the user may see and that passes the filter. -/
def Matches (sql : SqlComparison) (db : Database) (uid : String) (filter : TaskFilter) (tid : String)
    (task : HotmethodTask) : Prop :=
  (db.task? tid = some task ∧ CanAccess db uid tid) ∧
    ((filter.status = "" ∨ sql.status filter.status task.status) ∧
      (filter.keyword = "" ∨ sql.like ("%" ++ filter.keyword ++ "%") task.name ∨
        sql.like ("%" ++ filter.keyword ++ "%") task.targetIp) ∧
      (filter.includeWindows = true ∨ task.masterTaskTid = ""))

/-- The pages show every matching task once, later ones first. -/
structure PagesComplete (orders : ℕ → TaskOrder) (sql : SqlComparison) (db : Database)
    (uid : String) (filter : TaskFilter) : Prop where
  once : (listedPages orders sql uid filter db).Nodup
  mem_iff : ∀ tid task, (tid, task) ∈ listedPages orders sql uid filter db ↔
    Matches sql db uid filter tid task
  descending : (listedPages orders sql uid filter db).Pairwise fun a b =>
    b.2.createTime ≤ a.2.createTime

/-! ## One query -/

/-- GetTasks is the request whose ties come in the order of the tids. -/
def tidOrder : TaskOrder where
  sort rows := rows.mergeSort fun a b => decide (b.2.createTime ≤ a.2.createTime)
  sorts rows := {
    perm := List.mergeSort_perm rows _
    descending := by
      have hsorted : (rows.mergeSort fun a b => decide (b.2.createTime ≤ a.2.createTime)).Pairwise
          fun a b => decide (b.2.createTime ≤ a.2.createTime) = true := List.pairwise_mergeSort
        (fun a b c hab hbc => by simp only [decide_eq_true_eq] at *; omega)
        (fun a b => by simp only [Bool.or_eq_true, decide_eq_true_eq]; omega) rows
      simpa using hsorted }

theorem getTasks_eq (sql : SqlComparison) (uid : String) (filter : TaskFilter) :
    getTasks sql uid filter = getTasksIn tidOrder sql uid filter := rfl

/-- The rows that count for the total. -/
def matchingRows (sql : SqlComparison) (uid : String) (filter : TaskFilter) (db : Database) :
    List (String × HotmethodTask) :=
  filter.rows sql uid (db.groupsOf uid) db

theorem total_getTasksIn (order : TaskOrder) : ((getTasksIn order sql uid filter).run db).1.total =
    (matchingRows sql uid filter db).length := by
  simp [getTasksIn, matchingRows]

theorem list_getTasksIn (order : TaskOrder) : ((getTasksIn order sql uid filter).run db).1.list =
    paginate (((parseIntDefault filter.page 1 - 1) * parseIntDefault filter.size 20).bmod (2 ^ 64))
      (parseIntDefault filter.size 20) (order.sort (matchingRows sql uid filter db)) := by
  simp [getTasksIn, matchingRows]

theorem parseIntDefault_toString {n : ℕ} (h : n < 2 ^ 63) (default : ℤ) :
    parseIntDefault (toString n) default = n := by
  have htext : (toString n).toList = Nat.toDigits 10 n := Nat.toList_repr
  have hne : toString n ≠ "" := by
    intro hempty
    rw [hempty] at htext
    exact Nat.toDigits_ne_nil htext.symm
  have hread := Text.signed?_toDigits Text.digits? (Text.digits?_toDigits n)
  rw [parseIntDefault, if_neg hne, atoi, htext, hread, Option.filter_some, if_pos, Option.getD_some]
  simp only [decide_eq_true_eq]
  omega

/-- A page of the list is a page of the sorted rows. -/
theorem list_page (order : TaskOrder) {k : ℕ} (hsize : 1 ≤ parseIntDefault filter.size 20)
    (hk : k * filter.pageSize + 1 < 2 ^ 63) :
    ((getTasksIn order sql uid { filter with page := toString (k + 1) }).run db).1.list =
      page filter.pageSize k (order.sort (matchingRows sql uid filter db)) := by
  have hpageSize : (filter.pageSize : ℤ) = parseIntDefault filter.size 20 :=
    Int.toNat_of_nonneg (by omega)
  have hle : k ≤ k * filter.pageSize := Nat.le_mul_of_pos_right k (by omega)
  have hpage : parseIntDefault (toString (k + 1)) 1 = k + 1 :=
    parseIntDefault_toString (n := k + 1) (by omega) 1
  have hoffset : (((k : ℤ) + 1 - 1) * filter.pageSize).bmod (2 ^ 64) =
      ((k * filter.pageSize : ℕ) : ℤ) := by
    rw [Int.add_sub_cancel, ← Int.natCast_mul, Int.bmod_eq_of_le_mul_two (by omega) (by omega)]
  rw [list_getTasksIn]
  change paginate (((parseIntDefault (toString (k + 1)) 1 - 1) * parseIntDefault filter.size 20).bmod
    (2 ^ 64)) (parseIntDefault filter.size 20) (order.sort (matchingRows sql uid filter db)) = _
  rw [hpage, ← hpageSize, hoffset, paginate]
  rw [if_neg (by omega), Int.toNat_natCast, Int.toNat_natCast, page]

/-! ## All pages -/

theorem length_matchingRows_le (sql : SqlComparison) (db : Database) (uid : String)
    (filter : TaskFilter) : (matchingRows sql uid filter db).length ≤ db.tasks.size := by
  unfold matchingRows TaskFilter.rows
  exact (List.length_filter_le _ _).trans_eq Std.ExtTreeMap.length_toList

section Pages

variable (hsize : 1 ≤ parseIntDefault filter.size 20) (hcount : db.tasks.size < 2 ^ 63)

include hsize hcount

theorem listedPages_eq (orders : ℕ → TaskOrder) : listedPages orders sql uid filter db =
    pages filter.pageSize (((matchingRows sql uid filter db).length + filter.pageSize - 1) /
      filter.pageSize) fun k => (orders k).sort (matchingRows sql uid filter db) := by
  have hpos : 0 < filter.pageSize := by
    unfold TaskFilter.pageSize
    omega
  have hle := length_matchingRows_le sql db uid filter
  unfold listedPages pages
  dsimp only
  rw [total_getTasksIn, List.flatMap_def, List.flatMap_def]
  refine congrArg List.flatten (List.map_congr_left fun k hk => list_page _ hsize ?_)
  have hmem := List.mem_range.mp hk
  rw [Nat.lt_div_iff_mul_lt hpos] at hmem
  omega

/-- Later tasks come first, whatever the queries do with ties. -/
theorem descending_listedPages (orders : ℕ → TaskOrder) :
    (listedPages orders sql uid filter db).Pairwise fun a b => b.2.createTime ≤ a.2.createTime := by
  rw [listedPages_eq hsize hcount]
  exact pairwise_pages (fun k => (orders k).sorts _) _

theorem pagesComplete_iff_perm (orders : ℕ → TaskOrder) : PagesComplete orders sql db uid filter ↔
    (listedPages orders sql uid filter db).Perm (matchingRows sql uid filter db) := by
  have hrows : (matchingRows sql uid filter db).Nodup := nodup_rows
  constructor
  · intro h
    refine (List.perm_ext_iff_of_nodup h.once hrows).mpr fun row => ?_
    exact (h.mem_iff row.1 row.2).trans mem_rows_iff.symm
  · intro hperm
    exact ⟨hperm.nodup_iff.mpr hrows, fun tid task => hperm.mem_iff.trans mem_rows_iff,
      descending_listedPages hsize hcount orders⟩

end Pages

/-- A query that orders these rows so. -/
def TaskOrder.ofSorts {rows order : List (String × HotmethodTask)}
    (h : Ranking.Sorts (fun row : String × HotmethodTask => row.2.createTime) rows order) :
    TaskOrder where
  sort l := if l = rows then order else tidOrder.sort l
  sorts l := by
    split
    · rename_i heq
      exact heq ▸ h
    · exact tidOrder.sorts l

theorem TaskOrder.sort_ofSorts {rows order : List (String × HotmethodTask)}
    (h : Ranking.Sorts (fun row : String × HotmethodTask => row.2.createTime) rows order) :
    (TaskOrder.ofSorts h).sort rows = order := if_pos rfl

/-- Paging is complete when tasks with one creation time are on one page. -/
theorem forall_perm_listedPages_iff (hsize : 1 ≤ parseIntDefault filter.size 20)
    (hcount : db.tasks.size < 2 ^ 63) :
    (∀ orders, (listedPages orders sql uid filter db).Perm (matchingRows sql uid filter db)) ↔
      Unsplit (fun row => row.2.createTime) (matchingRows sql uid filter db) filter.pageSize := by
  have hpos : 0 < filter.pageSize := by
    unfold TaskFilter.pageSize
    omega
  have hrows : (matchingRows sql uid filter db).Nodup := nodup_rows
  have hpages : (matchingRows sql uid filter db).length ≤
      ((matchingRows sql uid filter db).length + filter.pageSize - 1) / filter.pageSize *
        filter.pageSize := by
    generalize (matchingRows sql uid filter db).length = total
    have hmod := Nat.div_add_mod' (total + filter.pageSize - 1) filter.pageSize
    have hlt := Nat.mod_lt (total + filter.pageSize - 1) hpos
    omega
  rw [← forall_perm_pages_iff hrows (tidOrder.sorts _) hpos hpages]
  constructor
  · intro hperm orders horders
    have hlisted := hperm fun k => TaskOrder.ofSorts (horders k)
    rw [listedPages_eq hsize hcount] at hlisted
    simpa only [TaskOrder.sort_ofSorts] using hlisted
  · intro hperm orders
    rw [listedPages_eq hsize hcount]
    exact hperm _ fun k => (orders k).sorts _

/-! ## Scheduled tasks -/

/-- Two scheduled tasks, which have no creation time. -/
def twoSchedules : Database :=
  { tasks := ((∅ : StdMap HotmethodTask).insert "sched-1" { tid := "sched-1", uid := "u" }).insert
      "sched-2" { tid := "sched-2", uid := "u" } }

/-- One task a page. -/
def singly : TaskFilter := { size := "1" }

/-- Both pages may show the same task. -/
theorem not_pagesComplete : ¬ ∀ (sql : SqlComparison) (db : Database) (uid : String)
    (filter : TaskFilter), 1 ≤ parseIntDefault filter.size 20 → db.tasks.size < 2 ^ 63 →
      ∀ orders, PagesComplete orders sql db uid filter := by
  intro h
  have hsize : 1 ≤ parseIntDefault singly.size 20 := by decide
  have hcount : twoSchedules.tasks.size < 2 ^ 63 := by decide +kernel
  have hcomplete := h ⟨fun _ _ => true, fun _ _ => true⟩ twoSchedules "u" singly hsize hcount
  have hunsplit := (forall_perm_listedPages_iff hsize hcount).mp fun orders =>
    (pagesComplete_iff_perm hsize hcount orders).mp (hcomplete orders)
  exact absurd hunsplit (by decide +kernel)

theorem pagesComplete_iff (hsize : 1 ≤ parseIntDefault filter.size 20)
    (hcount : db.tasks.size < 2 ^ 63) :
    (∀ orders, PagesComplete orders sql db uid filter) ↔
      Unsplit (fun row => row.2.createTime) (matchingRows sql uid filter db) filter.pageSize := by
  rw [← forall_perm_listedPages_iff hsize hcount]
  exact forall_congr' fun orders => pagesComplete_iff_perm hsize hcount orders

/-- Both schedules are on the one page of the default size. -/
theorem pagesComplete_twoSchedules :
    PagesComplete (fun _ => tidOrder) ⟨fun _ _ => true, fun _ _ => true⟩ twoSchedules "u" {} :=
  (pagesComplete_iff (by decide) (by decide +kernel)).mpr (by decide +kernel) fun _ => tidOrder

end MiniDrop
