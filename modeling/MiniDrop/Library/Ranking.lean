import Mathlib.Data.List.Sort
import Mathlib.Data.Nat.Notation

/-! # The entries with the largest keys

A list is ranked by a stable sort in descending order, and cut behind the first entries. -/

namespace Ranking

variable {α β γ : Type*} [LinearOrder β]

/-- `top` has the `n` entries with the largest keys, in descending order. -/
structure IsTop (n : ℕ) (key : α → β) (all top : List α) : Prop where
  length : top.length = min n all.length
  descending : top.Pairwise fun a b => key b ≤ key a
  largest : ∃ rest, (top ++ rest).Perm all ∧ ∀ a ∈ top, ∀ b ∈ rest, key b ≤ key a

/-- The entries in descending order of their keys. -/
structure Sorts (key : α → β) (all sorted : List α) : Prop where
  perm : sorted.Perm all
  descending : sorted.Pairwise fun a b => key b ≤ key a

/-- Entries with the same key keep their order. -/
structure Ranks (key : α → β) (all ranked : List α) : Prop where
  perm : ranked.Perm all
  descending : ranked.Pairwise fun a b => key b ≤ key a
  stable : ∀ k, ranked.filter (key · = k) = all.filter (key · = k)

/-- How many entries have a larger key. -/
def above (key : α → β) (all : List α) (k : β) : ℕ := all.countP fun c => k < key c

/-- How many entries have the key or a larger one. -/
def atLeast (key : α → β) (all : List α) (k : β) : ℕ := all.countP fun c => k ≤ key c

section Counts

variable {key : α → β} {all : List α} {k : β}

theorem above_eq_length_filter : above key all k = (all.filter (k < key ·)).length :=
  List.countP_eq_length_filter

theorem atLeast_eq : atLeast key all k = above key all k + (all.filter (key · = k)).length := by
  induction all with
  | nil => rfl
  | cons c all ih =>
      unfold atLeast above at ih ⊢
      rw [List.countP_cons, List.countP_cons, List.filter_cons, ih]
      rcases lt_trichotomy k (key c) with h | h | h
      · simp [h, h.le, h.ne']
        omega
      · simp [h]
        omega
      · simp [h.not_ge, h.not_gt, h.ne]

theorem above_perm {all' : List α} (h : all.Perm all') : above key all k = above key all' k :=
  h.countP_eq _

theorem atLeast_perm {all' : List α} (h : all.Perm all') : atLeast key all k = atLeast key all' k :=
  h.countP_eq _

end Counts

/-! ## Ranked lists -/

section Ranks

variable {key : α → β} {all ranked : List α} {n : ℕ} {a b : α}

theorem Ranks.sorts (h : Ranks key all ranked) : Sorts key all ranked := ⟨h.perm, h.descending⟩

theorem Ranks.map {f : α → γ} {key' : γ → β} (h : Ranks key all ranked)
    (hkey : ∀ a, key' (f a) = key a) : Ranks key' (all.map f) (ranked.map f) where
  perm := h.perm.map f
  descending := by
    rw [List.pairwise_map]
    exact h.descending.imp fun hle => by rwa [hkey, hkey]
  stable k := by
    have hfilter : ∀ l : List α, (l.map f).filter (key' · = k) = (l.filter (key · = k)).map f := by
      intro l
      rw [List.filter_map]
      exact congrArg (List.map f) (List.filter_congr fun a _ => by rw [Function.comp_apply, hkey])
    rw [hfilter, hfilter, h.stable]

theorem Sorts.le_of_mem (h : Sorts key all ranked) (ha : a ∈ ranked.take n)
    (hb : b ∈ ranked.drop n) : key b ≤ key a := by
  have hdescending := h.descending
  rw [← ranked.take_append_drop n] at hdescending
  exact (List.pairwise_append.mp hdescending).2.2 a ha b hb

theorem Sorts.isTop_take (h : Sorts key all ranked) (n : ℕ) : IsTop n key all (ranked.take n) where
  length := by rw [List.length_take, h.perm.length_eq]
  descending := h.descending.sublist (List.take_sublist n ranked)
  largest := ⟨ranked.drop n, by rw [List.take_append_drop]; exact h.perm,
    fun _ ha _ hb => h.le_of_mem ha hb⟩

theorem sorts_mergeSort (key : α → β) (all : List α) :
    Sorts key all (all.mergeSort fun a b => key b ≤ key a) where
  perm := List.mergeSort_perm all _
  descending := by
    have hsorted : (all.mergeSort fun a b => key b ≤ key a).Pairwise
        fun a b => decide (key b ≤ key a) = true :=
      List.pairwise_mergeSort (fun a b c hab hbc => by simp at hab hbc ⊢; exact hbc.trans hab)
        (fun a b => by simpa using le_total (key b) (key a)) all
    exact hsorted.imp of_decide_eq_true

/-- Fewer than `n` entries are above one of the first `n`. -/
theorem Sorts.above_lt (h : Sorts key all ranked) (ha : a ∈ ranked.take n) :
    above key all (key a) < n := by
  have hdrop : (ranked.drop n).countP (fun c => decide (key a < key c)) = 0 :=
    List.countP_eq_zero.mpr fun b hb => by simpa using h.le_of_mem ha hb
  have htake : (ranked.take n).countP (fun c => decide (key a < key c)) < (ranked.take n).length :=
    lt_of_le_of_ne List.countP_le_length fun heq => by
      simpa using List.countP_eq_length.mp heq a ha
  rw [← above_perm h.perm, above, ← ranked.take_append_drop n, List.countP_append, hdrop]
  exact htake.trans_le (by simp)

/-- At most `n` entries are above the first one behind them. -/
theorem Sorts.above_le {rest : List α} (h : Sorts key all ranked)
    (hdrop : ranked.drop n = b :: rest) : above key all (key b) ≤ n := by
  have hrest : (b :: rest).Pairwise fun a b => key b ≤ key a :=
    hdrop ▸ h.descending.sublist (List.drop_sublist n ranked)
  have hnone : (b :: rest).countP (fun c => decide (key b < key c)) = 0 := by
    refine List.countP_eq_zero.mpr (List.forall_mem_cons.mpr ⟨by simp, fun c hc => ?_⟩)
    simpa using List.rel_of_pairwise_cons hrest hc
  rw [← above_perm h.perm, above, ← ranked.take_append_drop n, List.countP_append, hdrop, hnone]
  exact List.countP_le_length.trans (List.length_take_le n ranked)

/-- The first `n` entries are not below one behind them. -/
theorem Sorts.lt_atLeast (h : Sorts key all ranked) (hb : b ∈ ranked.drop n) :
    n < atLeast key all (key b) := by
  have htake : (ranked.take n).countP (fun c => decide (key b ≤ key c)) = (ranked.take n).length :=
    List.countP_eq_length.mpr fun a ha => by simpa using h.le_of_mem ha hb
  have hdrop : 0 < (ranked.drop n).countP (fun c => decide (key b ≤ key c)) :=
    List.countP_pos_iff.mpr ⟨b, hb, by simp⟩
  have hlength : n < ranked.length := by
    have hpos := List.length_pos_of_mem hb
    rw [List.length_drop] at hpos
    omega
  rw [← atLeast_perm h.perm, atLeast, ← ranked.take_append_drop n, List.countP_append, htake,
    List.length_take]
  omega

end Ranks

/-! ## Ties -/

section Ties

variable {key : α → β} {all ranked rest : List α} {n : ℕ} {a : α}

/-- Larger keys, the key, and smaller ones. -/
theorem eq_of_descending (h : ranked.Pairwise fun a b => key b ≤ key a) (k : β) :
    ranked = ranked.filter (k < key ·) ++ (ranked.filter (key · = k) ++
      ranked.filter (key · < k)) := by
  induction ranked with
  | nil => rfl
  | cons c ranked ih =>
      obtain ⟨hle, htail⟩ := List.pairwise_cons.mp h
      have hrest := ih htail
      rcases lt_trichotomy k (key c) with hk | hk | hk
      · rw [List.filter_cons_of_pos (by simpa using hk), List.filter_cons_of_neg (by simpa using hk.ne'),
          List.filter_cons_of_neg (by simpa using hk.le), List.cons_append, ← hrest]
      · have hnone : ranked.filter (k < key ·) = [] :=
          List.filter_eq_nil_iff.mpr fun d hd => by simpa [hk] using hle d hd
        rw [hnone, List.nil_append] at hrest
        rw [List.filter_cons_of_neg (by simp [hk]), List.filter_cons_of_pos (by simp [hk]),
          List.filter_cons_of_neg (by simp [hk]), hnone, List.nil_append, List.cons_append, ← hrest]
      · have hless : ∀ d ∈ ranked, key d < k := fun d hd => (hle d hd).trans_lt hk
        have hnone : ranked.filter (k < key ·) = [] :=
          List.filter_eq_nil_iff.mpr fun d hd => by simpa using (hless d hd).le
        have hequal : ranked.filter (key · = k) = [] :=
          List.filter_eq_nil_iff.mpr fun d hd => by simpa using (hless d hd).ne
        rw [hnone, hequal, List.nil_append, List.nil_append] at hrest
        rw [List.filter_cons_of_neg (by simpa using hk.le), List.filter_cons_of_neg (by simpa using hk.ne),
          List.filter_cons_of_pos (by simpa using hk), hnone, hequal, List.nil_append,
          List.nil_append, ← hrest]

/-- The first entry is the first of those with its key. -/
theorem Ranks.mem_take_of_first (h : Ranks key (a :: rest) ranked)
    (habove : above key (a :: rest) (key a) < n) : a ∈ ranked.take n := by
  have hsplit := eq_of_descending h.descending (key a)
  rw [← above_perm h.perm, above_eq_length_filter] at habove
  rw [h.stable, List.filter_cons_of_pos (by simp), List.cons_append] at hsplit
  generalize ranked.filter (key a < key ·) = larger at hsplit habove
  obtain ⟨m, rfl⟩ := Nat.exists_eq_add_of_lt habove
  rw [hsplit, List.take_append, Nat.add_assoc, Nat.add_sub_cancel_left, List.take_succ_cons]
  exact List.mem_append_right _ List.mem_cons_self

/-- The last entry is the last of those with its key. -/
theorem Ranks.mem_drop_of_last (h : Ranks key (rest ++ [a]) ranked)
    (hatLeast : n < atLeast key (rest ++ [a]) (key a)) : a ∈ ranked.drop n := by
  have hsplit := eq_of_descending h.descending (key a)
  rw [← atLeast_perm h.perm, atLeast_eq, above_eq_length_filter, h.stable, List.filter_append,
    List.filter_cons_of_pos (by simp), List.filter_nil, List.length_append,
    List.length_singleton] at hatLeast
  rw [h.stable, List.filter_append, List.filter_cons_of_pos (by simp), List.filter_nil,
    List.append_assoc, List.singleton_append, ← List.append_assoc] at hsplit
  rw [hsplit, List.drop_append_of_le_length (by rw [List.length_append]; omega)]
  exact List.mem_append_right _ List.mem_cons_self

end Ties

/-! ## Two orders of the same entries -/

section Orders

variable {key : α → β} {rows order order' : List α} {c : ℕ}

/-- The keys come in the same order in every query. -/
theorem Sorts.map_key (h : Sorts key rows order) (h' : Sorts key rows order') :
    order.map key = order'.map key := by
  have hperm : (order.map key).Perm (order'.map key) := (h.perm.trans h'.perm.symm).map key
  refine hperm.eq_of_pairwise (fun a b _ _ hab hba => le_antisymm hba hab) ?_ ?_
  · exact List.pairwise_map.mpr h.descending
  · exact List.pairwise_map.mpr h'.descending

theorem Sorts.above_eq (h : Sorts key rows order) (k : β) :
    (order.filter (k < key ·)).length = above key rows k := by
  rw [← above_eq_length_filter, above_perm h.perm]

/-- The rows in front of a cut between different keys. -/
theorem Sorts.take_eq_filter (h : Sorts key rows order) (k : β) :
    order.take (above key rows k) = order.filter (k < key ·) := by
  conv_lhs => rw [eq_of_descending h.descending k]
  rw [← h.above_eq k, List.take_left]

/-- Without a tie at the cut, all queries have the same rows in front of it. -/
theorem Sorts.take_perm (h : Sorts key rows order) (h' : Sorts key rows order')
    (hcut : ∀ row ∈ rows, above key rows (key row) < c → atLeast key rows (key row) ≤ c) :
    (order.take c).Perm (order'.take c) := by
  by_cases hc : c < order.length
  · have hmem : order[c] ∈ rows := h.perm.mem_iff.mp (List.getElem_mem hc)
    have hdrop : order.drop c = order[c] :: order.drop (c + 1) := List.drop_eq_getElem_cons hc
    have heq : above key rows (key order[c]) = c := by
      have hbehind : c < atLeast key rows (key order[c]) :=
        h.lt_atLeast (hdrop ▸ List.mem_cons_self)
      refine (h.above_le hdrop).antisymm ?_
      by_contra hlt
      exact absurd (hcut _ hmem (not_le.mp hlt)) (not_le.mpr hbehind)
    have htake := h.take_eq_filter (key order[c])
    have htake' := h'.take_eq_filter (key order[c])
    rw [heq] at htake htake'
    rw [htake, htake']
    exact (h.perm.trans h'.perm.symm).filter _
  · have hlength : order'.length = order.length := h'.perm.length_eq.trans h.perm.length_eq.symm
    rw [List.take_of_length_le (by omega), List.take_of_length_le (by omega)]
    exact h.perm.trans h'.perm.symm

end Orders

/-! ## Insertion sort -/

section InsertionSort

variable {key : α → β}

theorem filter_orderedInsert (x : α) (l : List α) (k : β) :
    (l.orderedInsert (key · ≤ key ·) x).filter (key · = k) = (x :: l).filter (key · = k) := by
  induction l with
  | nil => rfl
  | cons y l ih =>
      by_cases h : key x ≤ key y
      · rw [List.orderedInsert_cons_of_le _ l h]
      · have hne : key x = k → key y ≠ k := fun hx hy => h (by rw [hx, hy])
        rw [List.orderedInsert_of_not_le _ l h, List.filter_cons, ih, List.filter_cons,
          List.filter_cons, List.filter_cons]
        by_cases hx : key x = k
        · simp [hx, hne hx]
        · simp [hx]

theorem filter_insertionSort (l : List α) (k : β) :
    (l.insertionSort (key · ≤ key ·)).filter (key · = k) = l.filter (key · = k) := by
  induction l with
  | nil => rfl
  | cons x l ih =>
      rw [List.insertionSort_cons, filter_orderedInsert, List.filter_cons, List.filter_cons, ih]

/-- Entries are taken from the front, and each goes behind those that it is not above. -/
theorem ranks_insertionSort (l : List α) :
    Ranks key l (l.reverse.insertionSort (key · ≤ key ·)).reverse where
  perm := ((List.reverse_perm _).trans (List.perm_insertionSort _ _)).trans l.reverse_perm
  descending := by
    have htotal : Std.Total fun a b : α => key a ≤ key b := ⟨fun a b => le_total (key a) (key b)⟩
    have htrans : IsTrans α fun a b => key a ≤ key b := ⟨fun _ _ _ => le_trans⟩
    exact List.pairwise_reverse.mpr (List.pairwise_insertionSort _ _)
  stable k := by
    rw [List.filter_reverse, filter_insertionSort, List.filter_reverse, List.reverse_reverse]

end InsertionSort

end Ranking
