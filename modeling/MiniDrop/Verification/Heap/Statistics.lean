import MiniDrop.Verification.Flame.Lines
import MiniDrop.Verification.Heap.Reading
import Mathlib.Algebra.BigOperators.Ring.Finset

/-! # The statistics of a dump

An instance is counted under its class, which has to be in the map by then. -/

namespace MiniDrop

/-! ## What a file holds -/

/-- What the statistics are about, in the order of the file. -/
inductive HeapItem where
  | declared (classID : ℕ)
  | root
  | instanceOf (classID size : ℕ)
  | array (size : ℕ)
deriving DecidableEq

namespace HeapItem

def declaredID : HeapItem → Option ℕ
  | declared classID => some classID
  | _ => none

def instanceSize : HeapItem → Option ℕ
  | .instanceOf _ size => some size
  | _ => none

def arraySize : HeapItem → Option ℕ
  | array size => some size
  | _ => none

/-- An instance comes after its class. -/
def Follows (before : List HeapItem) : HeapItem → Prop
  | instanceOf classID _ => declared classID ∈ before
  | _ => True

/-- The size of an instance that comes after its class. -/
def countedSize (before : List HeapItem) : HeapItem → List ℕ
  | instanceOf classID size => if declared classID ∈ before then [size] else []
  | _ => []

end HeapItem

def SubRecord.item {idSize : ℕ} : SubRecord idSize → HeapItem
  | root _ _ _ => .root
  | classDump dump => .declared dump.head.id.value
  | instanceDump dump => .instanceOf dump.classID.value (dump.dataLen.value + idSize + 4)
  | objArrayDump dump => .array (dump.length.value * idSize + 16)
  | primArrayDump dump => .array (dump.length.value * dump.type.size + 16)

def RecordBody.items {idSize : ℕ} : RecordBody idSize → List HeapItem
  | string _ _ | other _ _ _ => []
  | loadClass _ id _ _ => [.declared id.value]
  | heapDump _ subs => subs.map SubRecord.item

def HPROFFile.items (f : HPROFFile) : List HeapItem := f.records.flatMap fun r => r.body.items

/-- All bytes of instances and arrays. -/
def heapSize (items : List HeapItem) : ℕ :=
  (items.filterMap HeapItem.instanceSize).sum + (items.filterMap HeapItem.arraySize).sum

/-- The statistics are those of the items. -/
structure HeapStats.Describes (stats : HeapStats) (items : List HeapItem) : Prop where
  gcRoots : stats.gcRoots = items.count .root
  classCount : stats.classCount = (items.filterMap HeapItem.declaredID).toFinset.card
  arrayCount : stats.arrayCount = (items.filterMap HeapItem.arraySize).length
  instanceCount : stats.instanceCount = (items.filterMap HeapItem.instanceSize).length
  totalObjects : stats.totalObjects = (items.filterMap HeapItem.instanceSize).length +
    (items.filterMap HeapItem.arraySize).length
  totalSize : stats.totalSize = heapSize items

/-- The file is read, and the statistics are its own. -/
def ReportsDump (go : GoRuntime) (f : HPROFFile) : Prop :=
  ∃ stats, (analyzeHPROF go f.bytes).1 = .ok stats ∧ stats.Describes f.items

/-- Each instance comes after its class. -/
def DeclaresFirst (items : List HeapItem) : Prop :=
  ∀ front item back, items = front ++ item :: back → item.Follows front

/-! ## Counted instances -/

/-- The sizes of the instances that come after their classes. -/
def countedSizes : List HeapItem → List HeapItem → List ℕ
  | _, [] => []
  | before, item :: items => item.countedSize before ++ countedSizes (before ++ [item]) items

section Counted

variable {before items : List HeapItem}

theorem countedSizes_append (item : HeapItem) :
    countedSizes before (items ++ [item]) =
      countedSizes before items ++ item.countedSize (before ++ items) := by
  induction items generalizing before with
  | nil => simp [countedSizes]
  | cons head items ih =>
      rw [List.cons_append, countedSizes, ih, countedSizes, List.append_assoc, List.append_assoc,
        List.singleton_append]

theorem HeapItem.countedSize_eq_iff (item : HeapItem) :
    item.countedSize before = item.instanceSize.toList ↔ item.Follows before := by
  cases item with
  | instanceOf classID size =>
      by_cases h : .declared classID ∈ before <;> simp [countedSize, instanceSize, Follows, h]
  | declared classID => exact iff_of_true rfl trivial
  | root => exact iff_of_true rfl trivial
  | array size => exact iff_of_true rfl trivial

theorem HeapItem.countedSize_sublist (item : HeapItem) :
    (item.countedSize before).Sublist item.instanceSize.toList := by
  cases item with
  | instanceOf classID size =>
      rw [countedSize]
      split
      · exact .refl _
      · exact List.nil_sublist _
  | declared classID => exact .refl _
  | root => exact .refl _
  | array size => exact .refl _

theorem filterMap_instanceSize_cons (item : HeapItem) :
    (item :: items).filterMap HeapItem.instanceSize =
      item.instanceSize.toList ++ items.filterMap HeapItem.instanceSize := by
  cases item <;> rfl

theorem countedSizes_sublist :
    (countedSizes before items).Sublist (items.filterMap HeapItem.instanceSize) := by
  induction items generalizing before with
  | nil => exact .refl _
  | cons item items ih =>
      rw [filterMap_instanceSize_cons]
      exact item.countedSize_sublist.append ih

/-- All instances are counted exactly if each comes after its class. -/
theorem length_countedSizes_eq_iff :
    (countedSizes before items).length = (items.filterMap HeapItem.instanceSize).length ↔
      ∀ front item back, items = front ++ item :: back → item.Follows (before ++ front) := by
  induction items generalizing before with
  | nil => simp [countedSizes]
  | cons item items ih =>
      have hhead : (item.countedSize before).length ≤ item.instanceSize.toList.length :=
        item.countedSize_sublist.length_le
      have htail : (countedSizes (before ++ [item]) items).length ≤
          (items.filterMap HeapItem.instanceSize).length := countedSizes_sublist.length_le
      have hsplit : (countedSizes before (item :: items)).length =
          ((item :: items).filterMap HeapItem.instanceSize).length ↔
          item.Follows before ∧ (countedSizes (before ++ [item]) items).length =
            (items.filterMap HeapItem.instanceSize).length := by
        rw [filterMap_instanceSize_cons, countedSizes, List.length_append, List.length_append,
          ← item.countedSize_eq_iff]
        refine ⟨fun h => ⟨item.countedSize_sublist.eq_of_length (by omega), by omega⟩, fun h => ?_⟩
        rw [h.1, h.2]
      rw [hsplit, ih]
      constructor
      · rintro ⟨hitem, hitems⟩ front item' back heq
        cases front with
        | nil =>
            obtain ⟨rfl, -⟩ := List.cons.inj heq
            rwa [List.append_nil]
        | cons head front =>
            obtain ⟨rfl, hrest⟩ := List.cons.inj heq
            have h := hitems front item' back hrest
            rwa [List.append_assoc, List.singleton_append] at h
      · intro h
        refine ⟨?_, fun front item' back heq => ?_⟩
        · simpa using h [] item items rfl
        · have h := h (item :: front) item' back (by rw [heq]; rfl)
          rwa [List.append_assoc, List.singleton_append]

end Counted

/-! ## What the parser has counted -/

/-- The parser has counted these items. -/
structure HPROFParser.Tallies (p : HPROFParser) (items : List HeapItem) : Prop where
  roots : p.gcRoots = items.count .root
  classes : ∀ id, (p.classes.get? id).isSome ↔ .declared id ∈ items
  arrays : p.arrays.map ArrayInfo.size = items.filterMap HeapItem.arraySize
  counts : p.classes.sumOf ClassInfo.instanceCount = (countedSizes [] items).length
  sizes : int64 (p.classes.sumOf ClassInfo.totalSize) = int64 (countedSizes [] items).sum
  unused : ∀ id info, p.classes.get? id = some info → info.instanceCount = 0 → info.totalSize = 0

section Tallies

variable {idSize : ℕ} {p : HPROFParser} {items : List HeapItem}

theorem tallies_empty : HPROFParser.Tallies {} [] := by
  refine ⟨rfl, fun id => ?_, rfl, rfl, rfl, fun id info h => ?_⟩
  · simp [Dict.get?, Dict.lookup]
  · simp [Dict.get?, Dict.lookup] at h

theorem HPROFParser.Tallies.root (h : p.Tallies items) :
    { p with gcRoots := p.gcRoots + 1 : HPROFParser }.Tallies (items ++ [.root]) where
  roots := by simp [h.roots]
  classes id := by simpa using h.classes id
  arrays := by
    rw [List.filterMap_append, ← h.arrays]
    exact (List.append_nil _).symm
  counts := by simpa [countedSizes_append, HeapItem.countedSize] using h.counts
  sizes := by simpa [countedSizes_append, HeapItem.countedSize] using h.sizes
  unused := h.unused

theorem HPROFParser.Tallies.addArray (h : p.Tallies items) (array : ArrayInfo) :
    (p.addArray array).Tallies (items ++ [.array array.size]) where
  roots := by simpa [HPROFParser.addArray] using h.roots
  classes id := by simpa [HPROFParser.addArray] using h.classes id
  arrays := by
    rw [HPROFParser.addArray, List.map_append, h.arrays, List.filterMap_append]
    rfl
  counts := by
    simpa [HPROFParser.addArray, countedSizes_append, HeapItem.countedSize] using h.counts
  sizes := by
    simpa [HPROFParser.addArray, countedSizes_append, HeapItem.countedSize] using h.sizes
  unused := h.unused

/-- A class may change in all but its counts. -/
theorem HPROFParser.Tallies.setClass (h : p.Tallies items) {id : ℕ} {info : ClassInfo}
    (hcount : info.instanceCount = ((p.classes.get? id).map ClassInfo.instanceCount).getD 0)
    (hsize : info.totalSize = ((p.classes.get? id).map ClassInfo.totalSize).getD 0) :
    { p with classes := p.classes.set id info : HPROFParser }.Tallies
      (items ++ [.declared id]) where
  roots := by simpa using h.roots
  classes id' := by
    rw [Dict.get?_set, List.mem_append, List.mem_singleton, HeapItem.declared.injEq, ← h.classes]
    by_cases heq : id = id'
    · simp [heq]
    · rw [if_neg heq, or_iff_left (Ne.symm heq)]
  arrays := by
    rw [List.filterMap_append, ← h.arrays]
    exact (List.append_nil _).symm
  counts := by
    have hset := Dict.sumOf_set ClassInfo.instanceCount p.classes id info
    rw [← hcount, add_left_inj] at hset
    rw [hset, countedSizes_append, h.counts]
    simp [HeapItem.countedSize]
  sizes := by
    have hset := Dict.sumOf_set ClassInfo.totalSize p.classes id info
    rw [← hsize, add_left_inj] at hset
    rw [hset, countedSizes_append, h.sizes]
    simp [HeapItem.countedSize]
  unused id' info' hget hzero := by
    rw [Dict.get?_set] at hget
    split at hget
    · cases hget
      cases hold : p.classes.get? id with
      | none => simpa [hold] using hsize
      | some old =>
          rw [hold, Option.map_some, Option.getD_some] at hcount hsize
          rw [hsize]
          exact h.unused id old hold (hcount.symm.trans hzero)
    · exact h.unused id' info' hget hzero

/-- Declaring a class once more changes nothing. -/
theorem HPROFParser.tallies_declared_iff {id : ℕ} (hmem : .declared id ∈ items) :
    p.Tallies (items ++ [.declared id]) ↔ p.Tallies items := by
  have hcount : (items ++ [HeapItem.declared id]).count HeapItem.root = items.count HeapItem.root := by
    simp
  have hdeclared : ∀ id', .declared id' ∈ items ++ [.declared id] ↔ .declared id' ∈ items := by
    intro id'
    rw [List.mem_append, List.mem_singleton, or_iff_left_iff_imp, HeapItem.declared.injEq]
    rintro rfl
    exact hmem
  have harrays : (items ++ [HeapItem.declared id]).filterMap HeapItem.arraySize =
      items.filterMap HeapItem.arraySize := by
    rw [List.filterMap_append]
    exact List.append_nil _
  have hsizes : countedSizes [] (items ++ [.declared id]) = countedSizes [] items := by
    rw [countedSizes_append]
    exact List.append_nil _
  constructor
  · rintro ⟨h1, h2, h3, h4, h5, h6⟩
    rw [hcount] at h1
    rw [harrays] at h3
    rw [hsizes] at h4 h5
    exact ⟨h1, fun id' => (h2 id').trans (hdeclared id'), h3, h4, h5, h6⟩
  · rintro ⟨h1, h2, h3, h4, h5, h6⟩
    rw [← hcount] at h1
    rw [← harrays] at h3
    rw [← hsizes] at h4 h5
    exact ⟨h1, fun id' => (h2 id').trans (hdeclared id').symm, h3, h4, h5, h6⟩

theorem HPROFParser.Tallies.registerClass (h : p.Tallies items) (id : ℕ) :
    (p.registerClass id).Tallies (items ++ [.declared id]) := by
  rw [HPROFParser.registerClass]
  cases hget : p.classes.get? id with
  | none => exact h.setClass (by rw [hget]; rfl) (by rw [hget]; rfl)
  | some info =>
      refine (HPROFParser.tallies_declared_iff ((h.classes id).mp ?_)).mpr h
      rw [hget, Option.isSome_some]

theorem HPROFParser.Tallies.setFields (h : p.Tallies items) (id : ℕ) (types : List UInt8) :
    (p.setFields idSize id types).Tallies items := by
  rw [HPROFParser.setFields]
  cases hget : p.classes.get? id with
  | none => exact h
  | some info =>
      refine (HPROFParser.tallies_declared_iff ((h.classes id).mp ?_)).mp
        (h.setClass (by rw [hget]; rfl) (by rw [hget]; rfl))
      rw [hget, Option.isSome_some]

theorem HPROFParser.Tallies.loadClass (h : p.Tallies items) (id nameID : ℕ) :
    (p.loadClass id nameID).Tallies (items ++ [.declared id]) := by
  rw [HPROFParser.loadClass]
  refine h.setClass ?_ ?_ <;> cases p.classes.get? id <;> rfl

section Instances

variable {id size : ℕ} {instances : List InstanceInfo}

theorem filterMap_arraySize_instanceOf :
    (items ++ [HeapItem.instanceOf id size]).filterMap HeapItem.arraySize =
      items.filterMap HeapItem.arraySize := by
  rw [List.filterMap_append]
  exact List.append_nil _

/-- The class is not there yet, and the instance is lost. -/
theorem HPROFParser.Tallies.loseInstance (h : p.Tallies items) (hget : p.classes.get? id = none) :
    { p with instances := instances : HPROFParser }.Tallies (items ++ [.instanceOf id size]) := by
  have hnot : .declared id ∉ items := by
    rw [← h.classes, hget]
    simp
  have hsizes : countedSizes [] (items ++ [.instanceOf id size]) = countedSizes [] items := by
    simp [countedSizes_append, HeapItem.countedSize, hnot]
  refine ⟨by simpa using h.roots, fun id' => by simpa using h.classes id',
    h.arrays.trans filterMap_arraySize_instanceOf.symm, ?_, ?_, h.unused⟩
  · rw [hsizes]
    exact h.counts
  · rw [hsizes]
    exact h.sizes

theorem HPROFParser.Tallies.countInstance (h : p.Tallies items) {info info' : ClassInfo}
    (hget : p.classes.get? id = some info) (hcount : info'.instanceCount = info.instanceCount + 1)
    (hsize : info'.totalSize = int64 (info.totalSize + size)) :
    { p with instances := instances, classes := p.classes.set id info' : HPROFParser }.Tallies
      (items ++ [.instanceOf id size]) := by
  have hmem : .declared id ∈ items := by
    rw [← h.classes, hget, Option.isSome_some]
  have hsizes : countedSizes [] (items ++ [.instanceOf id size]) =
      countedSizes [] items ++ [size] := by
    simp [countedSizes_append, HeapItem.countedSize, hmem]
  refine ⟨by simpa using h.roots, fun id' => ?_,
    h.arrays.trans filterMap_arraySize_instanceOf.symm, ?_, ?_, fun id' info'' hset hzero => ?_⟩
  · rw [Dict.get?_set]
    by_cases heq : id = id'
    · subst heq
      simp [hmem]
    · simpa [heq] using h.classes id'
  · have hset := Dict.sumOf_set ClassInfo.instanceCount p.classes id info'
    rw [hget, Option.map_some, Option.getD_some, h.counts, hcount] at hset
    rw [hsizes, List.length_append, List.length_singleton]
    show (p.classes.set id info').sumOf ClassInfo.instanceCount = _
    omega
  · have hset := Dict.sumOf_set ClassInfo.totalSize p.classes id info'
    rw [hget, Option.map_some, Option.getD_some, hsize] at hset
    calc int64 ((p.classes.set id info').sumOf ClassInfo.totalSize)
        = int64 (int64 (info.totalSize + size) +
            (p.classes.sumOf ClassInfo.totalSize - info.totalSize)) := by
          rw [eq_sub_of_add_eq hset]
          congr 1
          ring
      _ = int64 (p.classes.sumOf ClassInfo.totalSize + size) := by
          rw [int64_add]
          congr 1
          ring
      _ = int64 ((countedSizes [] items).sum + size) := by
          rw [← int64_add, h.sizes, int64_add]
      _ = _ := by rw [hsizes, List.sum_append, List.sum_singleton, Nat.cast_add]
  · rw [Dict.get?_set] at hset
    split at hset
    · cases hset
      omega
    · exact h.unused id' info'' hset hzero

end Instances

theorem HPROFParser.Tallies.addInstance (h : p.Tallies items) (id size : ℕ) :
    (p.addInstance id size).Tallies (items ++ [.instanceOf id size]) := by
  rw [HPROFParser.addInstance]
  cases hget : p.classes.get? id with
  | none => exact h.loseInstance hget
  | some info => exact h.countInstance hget rfl rfl

theorem SubRecord.tallies_apply (sub : SubRecord idSize) (h : p.Tallies items) :
    (sub.apply p).Tallies (items ++ [sub.item]) := by
  cases sub with
  | root kind object extra => exact h.root
  | classDump dump => exact (h.registerClass _).setFields _ _
  | instanceDump dump => exact h.addInstance _ _
  | objArrayDump dump => exact h.addArray _
  | primArrayDump dump => exact h.addArray _

theorem RecordBody.tallies_apply (body : RecordBody idSize) (h : p.Tallies items) :
    (body.apply p).Tallies (items ++ body.items) := by
  cases body with
  | string id text =>
      rw [RecordBody.items, List.append_nil]
      exact ⟨h.roots, h.classes, h.arrays, h.counts, h.sizes, h.unused⟩
  | loadClass serial id trace nameID => exact h.loadClass _ _
  | heapDump segment subs =>
      rw [RecordBody.items, RecordBody.apply]
      induction subs generalizing p items with
      | nil => simpa using h
      | cons sub subs ih => simpa using ih (sub.tallies_apply h)
  | other tag hne content =>
      rw [RecordBody.items, List.append_nil]
      exact h

theorem HPROFFile.tallies_parsed (f : HPROFFile) : f.parsed.Tallies f.items := by
  have hrun : ∀ (records : List (HPROFRecord f.header.idSize.value)) (p : HPROFParser)
      (items : List HeapItem), p.Tallies items →
        (records.foldl (fun p r => r.body.apply p) p).Tallies
          (items ++ records.flatMap fun r => r.body.items) := by
    intro records
    induction records with
    | nil => simp
    | cons r records ih =>
        intro p items h
        have h := ih _ _ (r.body.tallies_apply h)
        rwa [List.append_assoc] at h
  exact hrun f.records {} [] tallies_empty

end Tallies

/-! ## The statistics -/

theorem sum_map_filter_of_zero {α M : Type} [AddCommMonoid M] {l : List α} {f : α → M}
    {P : α → Bool} (h : ∀ x ∈ l, P x = false → f x = 0) :
    ((l.filter P).map f).sum = (l.map f).sum := by
  induction l with
  | nil => rfl
  | cons x l ih =>
      obtain ⟨hx, hl⟩ := List.forall_mem_cons.mp h
      rw [List.map_cons, List.sum_cons, ← ih hl]
      cases hP : P x with
      | false => rw [List.filter_cons_of_neg (by simp [hP]), hx hP, zero_add]
      | true => rw [List.filter_cons_of_pos hP, List.map_cons, List.sum_cons]

section Statistics

variable {p : HPROFParser} {items : List HeapItem} {go : GoRuntime}

/-- No class is lost when those without instances are left out. -/
theorem HPROFParser.Tallies.sum_counted {M : Type} [AddCommMonoid M] {f : ClassInfo → M}
    (hf : ∀ id info, p.classes.get? id = some info → info.instanceCount = 0 → f info = 0) :
    ((((go.order p.classes).map Prod.snd).filter fun info => 0 < info.instanceCount).map f).sum =
      p.classes.sumOf f := by
  have hperm := go.perm p.classes
  rw [sum_map_filter_of_zero, List.map_map]
  · exact (hperm.map _).sum_eq
  · intro info hinfo hzero
    obtain ⟨⟨id, info'⟩, hmem, rfl⟩ := List.mem_map.mp hinfo
    exact hf id info' (Dict.get?_eq_some_iff.mpr (hperm.mem_iff.mp hmem)) (by simpa using hzero)

theorem HPROFParser.Tallies.classCount (h : p.Tallies items) :
    p.classes.entries.length = (items.filterMap HeapItem.declaredID).toFinset.card := by
  have hkeys : (p.classes.entries.map Prod.fst).toFinset =
      (items.filterMap HeapItem.declaredID).toFinset := by
    ext id
    have hdeclared : id ∈ items.filterMap HeapItem.declaredID ↔ .declared id ∈ items := by
      rw [List.mem_filterMap]
      constructor
      · rintro ⟨item, hitem, hid⟩
        cases item with
        | declared id' =>
            cases hid
            exact hitem
        | _ => cases hid
      · exact fun hmem => ⟨.declared id, hmem, rfl⟩
    have hget : id ∈ p.classes.entries.map Prod.fst ↔ (p.classes.get? id).isSome := by
      rw [Option.isSome_iff_ne_none, Dict.get?, ne_eq, Dict.lookup_eq_none_iff, not_not]
    rw [List.mem_toFinset, List.mem_toFinset, hget, hdeclared, h.classes]
  rw [← hkeys, List.toFinset_card_of_nodup p.classes.nodup, List.length_map]

theorem HPROFParser.Tallies.instanceCount (h : p.Tallies items) :
    (p.buildStats go).instanceCount = (countedSizes [] items).length :=
  (HPROFParser.Tallies.sum_counted fun _ _ _ hzero => hzero).trans h.counts

theorem HPROFParser.Tallies.totalSize (h : p.Tallies items) :
    (p.buildStats go).totalSize =
      int64 ((countedSizes [] items).sum + (items.filterMap HeapItem.arraySize).sum : ℕ) := by
  have hzero : int64 0 = 0 := int64_of_lt le_rfl (by decide)
  have harrays : (p.arrays.map fun arr => (arr.size : ℤ)).sum =
      ((items.filterMap HeapItem.arraySize).sum : ℕ) := by
    rw [← h.arrays, Nat.cast_list_sum, List.map_map]
    rfl
  rw [HPROFParser.buildStats]
  show List.foldl _ 0 _ = _
  nth_rewrite 1 [← hzero]
  rw [foldl_int64, List.sum_append, HPROFParser.Tallies.sum_counted h.unused, harrays, zero_add,
    ← int64_add, h.sizes, int64_add, Nat.cast_add]

end Statistics

/-- The statistics are right exactly for a dump that declares each class before its instances, with
a size that fits. -/
theorem reportsDump_iff (go : GoRuntime) (f : HPROFFile) :
    ReportsDump go f ↔ DeclaresFirst f.items ∧ heapSize f.items < 9223372036854775808 := by
  obtain ⟨requests, hparse⟩ := f.analyzeHPROF_bytes go
  have htallies := f.tallies_parsed
  have hcounted : (countedSizes [] f.items).length =
      (f.items.filterMap HeapItem.instanceSize).length ↔ DeclaresFirst f.items :=
    length_countedSizes_eq_iff
  constructor
  · rintro ⟨stats, hstats, hdescribes⟩
    rw [hparse] at hstats
    cases hstats
    have hfirst := hcounted.mp (htallies.instanceCount.symm.trans hdescribes.instanceCount)
    refine ⟨hfirst, ?_⟩
    have hsize : int64 (heapSize f.items) = heapSize f.items := by
      have h := hdescribes.totalSize
      rw [htallies.totalSize, countedSizes_sublist.eq_of_length (hcounted.mpr hfirst)] at h
      exact h
    have hlt : int64 (heapSize f.items) < 9223372036854775808 := by
      rw [int64, Int.bmod_def]
      omega
    omega
  · rintro ⟨hfirst, hfits⟩
    have hall : countedSizes [] f.items = f.items.filterMap HeapItem.instanceSize :=
      countedSizes_sublist.eq_of_length (hcounted.mpr hfirst)
    have hcount : (f.parsed.buildStats go).instanceCount =
        (f.items.filterMap HeapItem.instanceSize).length := by
      rw [htallies.instanceCount, hall]
    have harrays : f.parsed.arrays.length = (f.items.filterMap HeapItem.arraySize).length := by
      rw [← htallies.arrays, List.length_map]
    refine ⟨f.parsed.buildStats go, by rw [hparse], htallies.roots, htallies.classCount, harrays,
      hcount, ?_, ?_⟩
    · show (f.parsed.buildStats go).instanceCount + f.parsed.arrays.length = _
      rw [hcount, harrays]
    · rw [htallies.totalSize, hall]
      exact int64_of_lt (by omega) (by rw [heapSize] at hfits; omega)

/-- A segment with an instance, before the class of the instance is loaded. -/
def instanceFirst : HPROFFile where
  header := quadHeader
  records :=
    [⟨.heapDump true [.instanceDump
        { id := .quad 0 0 0 1
          trace := .quad 0 0 0 0
          classID := .quad 0 0 0 9
          dataLen := .quad 0 0 0 2
          data := ⟨[5, 6], rfl⟩ }], .quad 0 0 0 0, .quad 0 0 0 19, rfl⟩,
      ⟨.loadClass (.quad 0 0 0 1) (.quad 0 0 0 9) (.quad 0 0 0 0) (.quad 0 0 0 7),
        .quad 0 0 0 0, .quad 0 0 0 16, rfl⟩]

theorem not_reportsDump : ¬ ∀ go f, ReportsDump go f := by
  intro h
  obtain ⟨stats, hstats, hdescribes⟩ :=
    h ⟨Dict.entries, fun _ => .refl _, fun _ => ""⟩ instanceFirst
  have hcount : stats.instanceCount = 1 := hdescribes.instanceCount.trans (by decide)
  obtain ⟨requests, hparse⟩ := instanceFirst.analyzeHPROF_bytes
    ⟨Dict.entries, fun _ => .refl _, fun _ => ""⟩
  rw [hparse] at hstats
  cases hstats
  exact absurd hcount (by decide)

end MiniDrop
