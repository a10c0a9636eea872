import MiniDrop.Library.Folds
import Mathlib.Algebra.BigOperators.Group.List.Basic
import Mathlib.Algebra.Order.BigOperators.Group.List
import Mathlib.Data.Int.Notation
import Mathlib.Data.List.Dedup
import Mathlib.Data.List.Induction
import Mathlib.Data.List.Nodup
import Mathlib.Data.List.Perm.Basic
import Mathlib.Tactic.Abel

/-! # Dictionaries that keep the order of insertion

Setting a key that is there replaces its value in place; a new key goes to the end. -/

structure Dict (κ α : Type) where
  entries : List (κ × α) := []
  nodup : (entries.map Prod.fst).Nodup := by first | exact List.nodup_nil | simp

namespace Dict

def empty {κ α : Type} : Dict κ α := {}

variable {κ α : Type} [DecidableEq κ]

/-- The value of a key among these entries. -/
def lookup (k : κ) : List (κ × α) → Option α
  | [] => none
  | e :: es => if e.1 = k then some e.2 else lookup k es

def get? (d : Dict κ α) (k : κ) : Option α := lookup k d.entries

/-- Sets the value of a key among these entries. -/
def assign (k : κ) (v : α) : List (κ × α) → List (κ × α)
  | [] => [(k, v)]
  | e :: es => if e.1 = k then (k, v) :: es else e :: assign k v es

theorem mem_map_fst_assign {k j : κ} {v : α} {es : List (κ × α)} :
    j ∈ (assign k v es).map Prod.fst ↔ j = k ∨ j ∈ es.map Prod.fst := by
  induction es with
  | nil => simp [assign]
  | cons e es ih =>
      unfold assign
      split
      · next h => simp [h]
      · rw [List.map_cons, List.mem_cons, ih, List.map_cons, List.mem_cons]
        exact or_left_comm

theorem nodup_assign {k : κ} {v : α} {es : List (κ × α)} (h : (es.map Prod.fst).Nodup) :
    ((assign k v es).map Prod.fst).Nodup := by
  induction es with
  | nil => simp [assign]
  | cons e es ih =>
      obtain ⟨hnot, htail⟩ := List.nodup_cons.mp h
      unfold assign
      split
      · next heq =>
        subst heq
        exact List.nodup_cons.mpr ⟨hnot, htail⟩
      · next hne =>
        refine List.nodup_cons.mpr ⟨fun hmem => ?_, ih htail⟩
        exact (mem_map_fst_assign.mp hmem).elim hne hnot

def set (d : Dict κ α) (k : κ) (v : α) : Dict κ α :=
  ⟨assign k v d.entries, nodup_assign d.nodup⟩

theorem lookup_assign {k j : κ} {v : α} {es : List (κ × α)} :
    lookup j (assign k v es) = if k = j then some v else lookup j es := by
  induction es with
  | nil => simp [assign, lookup]
  | cons e es ih =>
      unfold assign
      split
      · next h =>
        subst h
        unfold lookup
        split <;> rfl
      · next h =>
        unfold lookup
        rw [ih]
        split
        · next hj => rw [if_neg (fun hkj => h (hj.trans hkj.symm))]
        · rfl

@[simp] theorem get?_set (d : Dict κ α) (k j : κ) (v : α) :
    (d.set k v).get? j = if k = j then some v else d.get? j := lookup_assign

theorem lookup_eq_none_iff {k : κ} {es : List (κ × α)} :
    lookup k es = none ↔ k ∉ es.map Prod.fst := by
  induction es with
  | nil => simp [lookup]
  | cons e es ih =>
      unfold lookup
      split
      · next h => simp [h]
      · next h =>
        rw [ih, List.map_cons, List.mem_cons, not_or]
        exact ⟨fun hnot => ⟨fun heq => h heq.symm, hnot⟩, And.right⟩

theorem mem_of_lookup {k : κ} {v : α} {es : List (κ × α)} (h : lookup k es = some v) :
    (k, v) ∈ es := by
  induction es with
  | nil => cases h
  | cons e es ih =>
      unfold lookup at h
      split at h
      · next heq =>
        cases h
        rw [← heq]
        exact List.mem_cons_self
      · exact List.mem_cons_of_mem _ (ih h)

theorem lookup_of_mem {k : κ} {v : α} {es : List (κ × α)} (hnodup : (es.map Prod.fst).Nodup)
    (h : (k, v) ∈ es) : lookup k es = some v := by
  induction es with
  | nil => cases h
  | cons e es ih =>
      obtain ⟨hnot, htail⟩ := List.nodup_cons.mp hnodup
      unfold lookup
      rcases List.mem_cons.mp h with rfl | h
      · exact if_pos rfl
      · have hne : ¬ e.1 = k := fun heq => hnot (List.mem_map.mpr ⟨(k, v), h, heq.symm⟩)
        rw [if_neg hne, ih htail h]

theorem get?_eq_some_iff {d : Dict κ α} {k : κ} {v : α} :
    d.get? k = some v ↔ (k, v) ∈ d.entries :=
  ⟨mem_of_lookup, lookup_of_mem d.nodup⟩

/-- Dictionaries with the same values differ in the order only. -/
theorem perm_of_get?_eq {d d' : Dict κ α} (h : ∀ k, d.get? k = d'.get? k) :
    d.entries.Perm d'.entries := by
  refine (List.perm_ext_iff_of_nodup d.nodup.of_map d'.nodup.of_map).mpr fun e => ?_
  rw [← get?_eq_some_iff (k := e.1), ← get?_eq_some_iff (k := e.1), h]

/-- A new key goes to the end. -/
theorem assign_of_notMem {k : κ} {v : α} {es : List (κ × α)} (h : k ∉ es.map Prod.fst) :
    assign k v es = es ++ [(k, v)] := by
  induction es with
  | nil => rfl
  | cons e es ih =>
      rw [List.map_cons, List.mem_cons, not_or] at h
      rw [assign, if_neg (fun heq => h.1 heq.symm), ih h.2, List.cons_append]

theorem map_fst_assign (k : κ) (v : α) (es : List (κ × α)) :
    (assign k v es).map Prod.fst =
      if k ∈ es.map Prod.fst then es.map Prod.fst else es.map Prod.fst ++ [k] := by
  by_cases h : k ∈ es.map Prod.fst
  · rw [if_pos h]
    induction es with
    | nil => cases h
    | cons e es ih =>
        unfold assign
        split
        · next heq => rw [List.map_cons, List.map_cons, heq]
        · next hne =>
          rw [List.map_cons, List.mem_cons] at h
          rw [List.map_cons, List.map_cons, ih (h.resolve_left fun heq => hne heq.symm)]
  · rw [if_neg h, assign_of_notMem h, List.map_append]
    rfl

/-- The same keys with other values. -/
def mapValues {β : Type} (f : α → β) (d : Dict κ α) : Dict κ β where
  entries := d.entries.map fun e => (e.1, f e.2)
  nodup := by simpa [List.map_map, Function.comp_def] using d.nodup

/-! ## Values that are added up -/

section Sums

/-- What the values have of something, added up. -/
def sumOf {M : Type} [AddCommMonoid M] (f : α → M) (d : Dict κ α) : M :=
  (d.entries.map fun e => f e.2).sum

theorem sumOf_set {M : Type} [AddCommMonoid M] (f : α → M) (d : Dict κ α) (k : κ) (v : α) :
    (d.set k v).sumOf f + ((d.get? k).map f).getD 0 = d.sumOf f + f v := by
  obtain ⟨es, hnodup⟩ := d
  show ((assign k v es).map fun e => f e.2).sum + ((lookup k es).map f).getD 0 =
    (es.map fun e => f e.2).sum + f v
  clear hnodup
  induction es with
  | nil => simp [assign, lookup]
  | cons e es ih =>
      unfold assign lookup
      split
      · rw [List.map_cons, List.map_cons, List.sum_cons, List.sum_cons, Option.map_some,
          Option.getD_some]
        abel
      · rw [List.map_cons, List.map_cons, List.sum_cons, List.sum_cons, add_assoc, ih, add_assoc]

omit [DecidableEq κ] in
theorem sumOf_mapValues {M β : Type} [AddCommMonoid M] (g : β → M) (f : α → β) (d : Dict κ α) :
    (d.mapValues f).sumOf g = d.sumOf fun v => g (f v) := by
  rw [sumOf, mapValues, List.map_map]
  rfl

variable [AddCommGroup α]

/-- Adds to the value of a key, which is zero where there is none. -/
def add (d : Dict κ α) (k : κ) (v : α) : Dict κ α := d.set k ((d.get? k).getD 0 + v)

/-- The sum of all values. -/
def sum (d : Dict κ α) : α := (d.entries.map Prod.snd).sum

theorem get?_add (d : Dict κ α) (k j : κ) (v : α) :
    (d.add k v).get? j = if k = j then some ((d.get? j).getD 0 + v) else d.get? j := by
  rw [add, get?_set]
  split
  · next h => rw [h]
  · rfl

theorem sum_set (d : Dict κ α) (k : κ) (v : α) :
    (d.set k v).sum + (d.get? k).getD 0 = d.sum + v := by
  have h := sumOf_set (fun v => v) d k v
  rwa [Option.map_id_fun'] at h

@[simp] theorem sum_add (d : Dict κ α) (k : κ) (v : α) : (d.add k v).sum = d.sum + v := by
  have h := sum_set d k ((d.get? k).getD 0 + v)
  rw [add, ← add_left_inj ((d.get? k).getD 0), h]
  abel

end Sums

/-! ## Loops that set one key after another -/

/-- The dictionary after these assignments. -/
def ofList (es : List (κ × α)) : Dict κ α := es.foldl (fun d e => d.set e.1 e.2) {}

theorem foldl_set_entries_of_nodup {es : List (κ × α)} {d : Dict κ α}
    (h : (d.entries.map Prod.fst ++ es.map Prod.fst).Nodup) :
    (es.foldl (fun d e => d.set e.1 e.2) d).entries = d.entries ++ es := by
  induction es generalizing d with
  | nil => simp
  | cons e es ih =>
      have hnew : e.1 ∉ d.entries.map Prod.fst := by
        intro hmem
        exact (List.disjoint_of_nodup_append h) hmem (by simp)
      have hset : (d.set e.1 e.2).entries = d.entries ++ [e] := assign_of_notMem hnew
      rw [List.foldl_cons, ih, hset, List.append_assoc, List.singleton_append]
      rw [hset, List.map_append, List.append_assoc]
      exact h

/-- Different keys keep their values in order. -/
theorem ofList_entries_of_nodup {es : List (κ × α)} (h : (es.map Prod.fst).Nodup) :
    (ofList es).entries = es := by
  rw [ofList, foldl_set_entries_of_nodup] <;> simp [h]

/-- The last value of a key stands. -/
theorem get?_foldl_set_append {es : List (κ × α)} {d : Dict κ α} {k : κ} {v : α}
    {later : List (κ × α)} (hlater : k ∉ later.map Prod.fst) :
    ((es ++ (k, v) :: later).foldl (fun d e => d.set e.1 e.2) d).get? k = some v := by
  rw [List.foldl_append, List.foldl_cons]
  generalize es.foldl (fun d e => d.set e.1 e.2) d = d'
  have hkeep : ∀ d : Dict κ α, d.get? k = some v →
      (later.foldl (fun d e => d.set e.1 e.2) d).get? k = some v := by
    clear d' es d
    induction later with
    | nil => exact fun d hd => hd
    | cons e later ih =>
        rw [List.map_cons, List.mem_cons, not_or] at hlater
        intro d hd
        refine ih hlater.2 (d.set e.1 e.2) ?_
        rw [get?_set, if_neg (fun heq => hlater.1 heq.symm), hd]
  exact hkeep _ (by simp)

theorem mem_of_get?_foldl_set {es : List (κ × α)} {d : Dict κ α} {k : κ} {v : α}
    (h : (es.foldl (fun d e => d.set e.1 e.2) d).get? k = some v) :
    (k, v) ∈ es ∨ d.get? k = some v := by
  induction es generalizing d with
  | nil => exact .inr h
  | cons e es ih =>
      rcases ih h with hmem | hget
      · exact .inl (List.mem_cons_of_mem _ hmem)
      · rw [get?_set] at hget
        split at hget
        · next heq =>
            obtain rfl := Option.some.inj hget
            subst heq
            exact .inl List.mem_cons_self
        · exact .inr hget

theorem get?_foldl_set_of_notMem {es : List (κ × α)} {d : Dict κ α} {k : κ}
    (h : k ∉ es.map Prod.fst) : (es.foldl (fun d e => d.set e.1 e.2) d).get? k = d.get? k := by
  induction es generalizing d with
  | nil => rfl
  | cons e es ih =>
      rw [List.map_cons, List.mem_cons, not_or] at h
      rw [List.foldl_cons, ih h.2, get?_set, if_neg (Ne.symm h.1)]

/-- Different keys have the values assigned to them. -/
theorem get?_foldl_set_of_nodup {es : List (κ × α)} {d : Dict κ α} {e : κ × α}
    (hnodup : (es.map Prod.fst).Nodup) (h : e ∈ es) :
    (es.foldl (fun d e => d.set e.1 e.2) d).get? e.1 = some e.2 := by
  obtain ⟨front, later, rfl⟩ := List.append_of_mem h
  rw [List.map_append, List.map_cons, List.nodup_append] at hnodup
  exact get?_foldl_set_append (List.nodup_cons.mp hnodup.2.1).1

theorem assign_of_lookup {k : κ} {v : α} {es : List (κ × α)} (h : lookup k es = some v) :
    assign k v es = es := by
  induction es with
  | nil => cases h
  | cons e es ih =>
      obtain ⟨j, w⟩ := e
      rw [lookup] at h
      rw [assign]
      split at h
      · next heq =>
        obtain rfl := Option.some.inj h
        rw [if_pos heq, ← heq]
      · next hne => rw [if_neg hne, ih h]

theorem set_of_get? {d : Dict κ α} {k : κ} {v : α} (h : d.get? k = some v) : d.set k v = d := by
  obtain ⟨es, hnodup⟩ := d
  have hes : assign k v es = es := assign_of_lookup h
  simp only [set, hes]

/-- Assignments of values that are there already. -/
theorem foldl_set_self {es : List (κ × α)} {d : Dict κ α} (h : ∀ e ∈ es, d.get? e.1 = some e.2) :
    es.foldl (fun d e => d.set e.1 e.2) d = d := by
  induction es with
  | nil => rfl
  | cons e es ih =>
      obtain ⟨he, hes⟩ := List.forall_mem_cons.mp h
      rw [List.foldl_cons, set_of_get? he, ih hes]

/-- A value that was set is one of those assigned to the key. -/
theorem mem_of_get?_ofList {es : List (κ × α)} {k : κ} {v : α} (h : (ofList es).get? k = some v) :
    (k, v) ∈ es :=
  (mem_of_get?_foldl_set h).resolve_right (by simp [get?, lookup])

/-! ## Sums over such loops -/

section SumLoops

/-- A loop that adds each entry to the value of its key, which begins with nothing. -/
theorem sumOf_foldl_update {ε M : Type} [AddCancelCommMonoid M] (key : ε → κ) {init : α}
    {add : α → ε → α} {f : α → M} {g : ε → M} (hinit : f init = 0)
    (hadd : ∀ v e, f (add v e) = f v + g e) (es : List ε) (d : Dict κ α) :
    (es.foldl (fun d e => d.set (key e) (add ((d.get? (key e)).getD init) e)) d).sumOf f =
      d.sumOf f + (es.map g).sum := by
  induction es generalizing d with
  | nil => simp
  | cons e es ih =>
      have hstep : (d.set (key e) (add ((d.get? (key e)).getD init) e)).sumOf f =
          d.sumOf f + g e := by
        have hset := sumOf_set f d (key e) (add ((d.get? (key e)).getD init) e)
        have hold : ((d.get? (key e)).map f).getD 0 = f ((d.get? (key e)).getD init) := by
          cases d.get? (key e) with
          | none => exact hinit.symm
          | some v => rfl
        rw [hadd, hold, add_comm (f _) (g e), ← add_assoc] at hset
        exact add_right_cancel hset
      rw [List.foldl_cons, ih, hstep, List.map_cons, List.sum_cons, add_assoc]

/-- Adds these values up by key. -/
def sumUp [AddCommGroup α] (es : List (κ × α)) : Dict κ α :=
  es.foldl (fun d e => d.add e.1 e.2) {}

section AddCommGroup

variable [AddCommGroup α]

theorem sum_foldl_add {es : List (κ × α)} {d : Dict κ α} :
    (es.foldl (fun d e => d.add e.1 e.2) d).sum = d.sum + (es.map Prod.snd).sum := by
  induction es generalizing d with
  | nil => simp
  | cons e es ih => rw [List.foldl_cons, ih, sum_add, List.map_cons, List.sum_cons, add_assoc]

/-- Nothing is lost when values are added up by key. -/
theorem sum_sumUp (es : List (κ × α)) : (sumUp es).sum = (es.map Prod.snd).sum := by
  rw [sumUp, sum_foldl_add]
  simp [sum]

/-- The values of a key are added up. -/
theorem get?_sumUp (es : List (κ × α)) (k : κ) :
    ((sumUp es).get? k).getD 0 = ((es.filter fun e => e.1 = k).map Prod.snd).sum := by
  have hobserve := Folds.foldl_observe (fun (d : Dict κ α) => d.get?) Prod.fst
    (fun (o : Option α) (e : κ × α) => some (o.getD 0 + e.2))
    (fun (d : Dict κ α) e j => get?_add d e.1 j e.2)
  have hfold : ∀ (es : List (κ × α)) (o : Option α),
      (es.foldl (fun o e => some (o.getD 0 + e.2)) o).getD 0 =
        o.getD 0 + (es.map Prod.snd).sum := by
    intro es
    induction es with
    | nil => simp
    | cons e es ih =>
        intro o
        rw [List.foldl_cons, ih, Option.getD_some, List.map_cons, List.sum_cons, add_assoc]
  have hempty : ((({} : Dict κ α).get? k).getD 0 : α) = 0 := rfl
  rw [sumUp, hobserve, hfold, hempty, zero_add]

/-- The keys stand in the order in which they come first. -/
theorem keys_sumUp (es : List (κ × α)) :
    (sumUp es).entries.map Prod.fst = (es.map Prod.fst).reverse.dedup.reverse := by
  induction es using List.reverseRecOn with
  | nil => rfl
  | append_singleton es e ih =>
      have hlast : sumUp (es ++ [e]) = (sumUp es).add e.1 e.2 := by simp [sumUp]
      have hkeys := map_fst_assign e.1 (((sumUp es).get? e.1).getD 0 + e.2) (sumUp es).entries
      rw [ih] at hkeys
      rw [hlast, add, set, hkeys, List.map_append, List.reverse_append]
      simp only [List.mem_reverse, List.mem_dedup]
      split
      · next hmem =>
        rw [List.map_singleton, List.reverse_singleton, List.singleton_append,
          List.dedup_cons_of_mem (List.mem_reverse.mpr hmem)]
      · next hnot =>
        rw [List.map_singleton, List.reverse_singleton, List.singleton_append,
          List.dedup_cons_of_notMem (fun h => hnot (List.mem_reverse.mp h)), List.reverse_cons]

/-- The order of the values does not matter. -/
theorem get?_sumUp_perm {es es' : List (κ × α)} (h : es.Perm es') (k : κ) :
    (sumUp es).get? k = (sumUp es').get? k := by
  have : RightCommutative fun (o : Option α) (e : κ × α) => some (o.getD 0 + e.2) :=
    ⟨fun o e f => by rw [Option.getD_some, Option.getD_some, add_right_comm]⟩
  have hobserve := Folds.foldl_observe (fun (d : Dict κ α) => d.get?) Prod.fst
    (fun (o : Option α) (e : κ × α) => some (o.getD 0 + e.2))
    (fun (d : Dict κ α) e j => get?_add d e.1 j e.2)
  rw [sumUp, sumUp, hobserve, hobserve]
  exact (h.filter _).foldl_eq _

theorem get?_foldl_add {es : List (κ × α)} (h : (es.map Prod.fst).Nodup) {d : Dict κ α} {k : κ} :
    (es.foldl (fun d e => d.add e.1 e.2) d).get? k =
      (lookup k es).elim (d.get? k) fun v => some ((d.get? k).getD 0 + v) := by
  induction es generalizing d with
  | nil => rfl
  | cons e es ih =>
      rw [List.map_cons, List.nodup_cons] at h
      rw [List.foldl_cons, ih h.2, get?_add, lookup]
      by_cases hk : e.1 = k
      · have hnone : lookup k es = none := lookup_eq_none_iff.mpr (hk ▸ h.1)
        rw [if_pos hk, if_pos hk, hnone]
        rfl
      · rw [if_neg hk, if_neg hk]

theorem mem_keys_foldl_add {es : List (κ × α)} {d : Dict κ α} {k : κ}
    (h : k ∈ (es.foldl (fun d e => d.add e.1 e.2) d).entries.map Prod.fst) :
    k ∈ d.entries.map Prod.fst ∨ k ∈ es.map Prod.fst := by
  induction es generalizing d with
  | nil => exact .inl h
  | cons e es ih =>
      rw [List.map_cons, List.mem_cons]
      rcases ih h with hmem | hmem
      · rcases mem_map_fst_assign.mp hmem with rfl | hmem
        · exact .inr (.inl rfl)
        · exact .inl hmem
      · exact .inr (.inr hmem)

end AddCommGroup

/-! ## Counters -/

/-- Each key stands with the number of its occurrences. -/
def Tallies (d : Dict κ ℤ) (ks : List κ) : Prop :=
  ∀ k, d.get? k = if k ∈ ks then some (ks.count k : ℤ) else none

section Tallies

variable {d d' : Dict κ ℤ} {ks ks' : List κ}

theorem tallies_empty : (empty : Dict κ ℤ).Tallies [] := fun _ => rfl

theorem Tallies.getD (h : d.Tallies ks) (k : κ) : (d.get? k).getD 0 = ks.count k := by
  rw [h k]
  split
  · rfl
  · next hk => rw [List.count_eq_zero_of_not_mem hk, Option.getD_none, Nat.cast_zero]

/-- Counters are added up. -/
theorem Tallies.update (h : d.Tallies ks) (h' : d'.Tallies ks') :
    (d'.entries.foldl (fun d e => d.add e.1 e.2) d).Tallies (ks ++ ks') := by
  intro k
  have hlookup : lookup k d'.entries = if k ∈ ks' then some (ks'.count k : ℤ) else none := h' k
  rw [get?_foldl_add d'.nodup, hlookup, h.getD, List.count_append, Nat.cast_add]
  by_cases hk : k ∈ ks'
  · rw [if_pos hk, if_pos (List.mem_append_right ks hk)]
    rfl
  · rw [if_neg hk, h k, List.count_eq_zero_of_not_mem hk, Nat.cast_zero, add_zero]
    simp [hk]

theorem Tallies.add (h : d.Tallies ks) (k : κ) : (d.add k 1).Tallies (ks ++ [k]) := by
  have hone : ((empty : Dict κ ℤ).add k 1).Tallies [k] := by
    intro j
    rw [get?_add]
    by_cases hj : k = j
    · subst hj
      simp
      rfl
    · have hnot : j ∉ [k] := by simpa using Ne.symm hj
      rw [if_neg hj, if_neg hnot]
      rfl
  exact h.update hone

theorem tallies_foldl {ε : Type} (key : ε → κ) (xs : List ε) :
    (xs.foldl (fun d x => d.add (key x) 1) (empty : Dict κ ℤ)).Tallies (xs.map key) := by
  induction xs using List.reverseRecOn with
  | nil => exact tallies_empty
  | append_singleton xs x ih =>
      rw [List.foldl_append, List.map_append]
      exact ih.add (key x)

end Tallies

variable [AddCommGroup α] [PartialOrder α] [IsOrderedAddMonoid α]

/-- A value that is replaced is lost. -/
theorem sum_foldl_set_le {es : List (κ × α)} {d : Dict κ α} (hd : ∀ e ∈ d.entries, 0 < e.2)
    (hes : ∀ e ∈ es, 0 < e.2) :
    (es.foldl (fun d e => d.set e.1 e.2) d).sum ≤ d.sum + (es.map Prod.snd).sum ∧
      ((es.foldl (fun d e => d.set e.1 e.2) d).sum = d.sum + (es.map Prod.snd).sum →
        (d.entries.map Prod.fst ++ es.map Prod.fst).Nodup) := by
  induction es generalizing d with
  | nil => simpa using d.nodup
  | cons e es ih =>
      obtain ⟨he, hrest⟩ := List.forall_mem_cons.mp hes
      have hset : ∀ f ∈ (d.set e.1 e.2).entries, 0 < f.2 := by
        rintro ⟨k, v⟩ hf
        have hget := get?_eq_some_iff.mpr hf
        rw [get?_set] at hget
        split at hget
        · cases hget
          exact he
        · exact hd _ (get?_eq_some_iff.mp hget)
      obtain ⟨hle, heq⟩ := ih hset hrest
      have hsum := sum_set d e.1 e.2
      rw [List.foldl_cons, List.map_cons, List.sum_cons, ← add_assoc]
      cases hget : d.get? e.1 with
      | none =>
          rw [hget, Option.getD_none, add_zero] at hsum
          rw [← hsum]
          refine ⟨hle, fun h => ?_⟩
          have hentries : (d.set e.1 e.2).entries = d.entries ++ [e] :=
            assign_of_notMem (lookup_eq_none_iff.mp hget)
          have hnodup := heq h
          rw [hentries] at hnodup
          simpa using hnodup
      | some old =>
          have hold : 0 < old := hd (e.1, old) (get?_eq_some_iff.mp hget)
          rw [hget, Option.getD_some] at hsum
          have hlt : (es.foldl (fun d e => d.set e.1 e.2) (d.set e.1 e.2)).sum <
              d.sum + e.2 + (es.map Prod.snd).sum := by
            rw [← hsum]
            exact hle.trans_lt (add_lt_add_left (lt_add_of_pos_right _ hold) _)
          exact ⟨hlt.le, fun h => absurd h hlt.ne⟩

/-- Exactly what repeats a key is lost. -/
theorem sum_ofList_eq_iff {es : List (κ × α)} (h : ∀ e ∈ es, 0 < e.2) :
    (ofList es).sum = (es.map Prod.snd).sum ↔ (es.map Prod.fst).Nodup := by
  constructor
  · intro hsum
    have hnodup := (sum_foldl_set_le (d := {}) (by simp) h).2
    rw [← ofList, hsum] at hnodup
    simpa [sum] using hnodup
  · intro hnodup
    rw [sum, ofList_entries_of_nodup hnodup]

end SumLoops

end Dict
