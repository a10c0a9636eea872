import MiniDrop.Library.Ranking
import Mathlib.Data.List.Flatten

/-! # Pages of a sorted list

Each page is cut from the rows as one query sorts them, in descending order of a key. Queries may
order rows with the same key differently. -/

namespace Paging

open Ranking

variable {α β : Type*} [LinearOrder β]

/-- Page `k`, the first being page 0. -/
def page (size k : ℕ) (order : List α) : List α := (order.drop (k * size)).take size

/-- The first `n` pages, each cut from an order of its own. -/
def pages (size n : ℕ) (orders : ℕ → List α) : List α :=
  (List.range n).flatMap fun k => page size k (orders k)

/-- The rows with one key are on one page. -/
def Unsplit (key : α → β) (rows : List α) (size : ℕ) : Prop :=
  ∀ row ∈ rows, above key rows (key row) / size = (atLeast key rows (key row) - 1) / size

instance (key : α → β) (rows : List α) (size : ℕ) : Decidable (Unsplit key rows size) :=
  inferInstanceAs (Decidable (∀ row ∈ rows, _))

section Pages

variable {key : α → β} {rows order order' : List α} {orders : ℕ → List α} {size n c : ℕ}

theorem take_append_page (size k : ℕ) (order : List α) :
    order.take (k * size) ++ page size k order = order.take ((k + 1) * size) := by
  rw [page, Nat.succ_mul, List.take_add]

theorem pages_succ (size n : ℕ) (orders : ℕ → List α) :
    pages size (n + 1) orders = pages size n orders ++ page size n (orders n) := by
  simp [pages, List.range_succ]

/-! ## The keys -/

theorem map_key_pages (h : ∀ k, Sorts key rows (orders k)) (hall : Sorts key rows order) (n : ℕ) :
    (pages size n orders).map key = (order.map key).take (n * size) := by
  induction n with
  | zero => simp [pages]
  | succ n ih =>
      rw [pages_succ, List.map_append, ih, page, List.map_take, List.map_drop,
        (h n).map_key hall, ← page, take_append_page]

/-- Pages never break the order. -/
theorem pairwise_pages (h : ∀ k, Sorts key rows (orders k)) (n : ℕ) :
    (pages size n orders).Pairwise fun a b => key b ≤ key a := by
  have hkeys : ((pages size n orders).map key).Pairwise fun a b => b ≤ a := by
    rw [map_key_pages h (h 0)]
    exact (List.pairwise_map.mpr (h 0).descending).sublist (List.take_sublist _ _)
  exact List.pairwise_map.mp hkeys

/-! ## Complete pages -/

theorem above_lt_atLeast (key : α → β) {row : α} (hrow : row ∈ rows) :
    above key rows (key row) < atLeast key rows (key row) := by
  rw [atLeast_eq]
  have hpos : 0 < (rows.filter (key · = key row)).length :=
    List.length_pos_of_mem (List.mem_filter.mpr ⟨hrow, by simp⟩)
  omega

/-- No page ends between rows with one key. -/
theorem unsplit_iff (hsize : 0 < size) : Unsplit key rows size ↔ ∀ row ∈ rows, ∀ k,
    above key rows (key row) < k * size → atLeast key rows (key row) ≤ k * size := by
  refine forall₂_congr fun row hrow => ?_
  have hlt := above_lt_atLeast key hrow
  constructor
  · intro hpage k hk
    have hpage' : (atLeast key rows (key row) - 1) / size < k := by
      rwa [← hpage, Nat.div_lt_iff_lt_mul hsize]
    rw [Nat.div_lt_iff_lt_mul hsize] at hpage'
    omega
  · intro hcut
    refine (Nat.div_le_div_right (by omega)).antisymm ?_
    by_contra hpage
    have hk := hcut ((atLeast key rows (key row) - 1) / size)
      ((Nat.div_lt_iff_lt_mul hsize).mp (by omega))
    have hfloor := Nat.div_mul_le_self (atLeast key rows (key row) - 1) size
    omega

theorem pages_perm_take (h : ∀ k, Sorts key rows (orders k)) (hall : Sorts key rows order)
    (hcut : ∀ row ∈ rows, ∀ k, above key rows (key row) < k * size →
      atLeast key rows (key row) ≤ k * size) (n : ℕ) :
    (pages size n orders).Perm (order.take (n * size)) := by
  induction n with
  | zero => simp [pages]
  | succ n ih =>
      have hfront : (order.take (n * size)).Perm ((orders n).take (n * size)) :=
        hall.take_perm (h n) fun row hrow => hcut row hrow n
      have hnext : ((orders n).take ((n + 1) * size)).Perm (order.take ((n + 1) * size)) :=
        (h n).take_perm hall fun row hrow => hcut row hrow (n + 1)
      rw [pages_succ]
      refine ((ih.trans hfront).append_right _).trans ?_
      rwa [take_append_page]

/-! ## Split ties -/

/-- Two rows with the same key at the cut. -/
theorem exists_tie_at (h : Sorts key rows order) {row : α} (habove : above key rows (key row) < c)
    (hatLeast : c < atLeast key rows (key row)) : ∃ front a b back,
      order = front ++ a :: b :: back ∧ front.length + 1 = c ∧ key a = key b := by
  have hsplit := eq_of_descending h.descending (key row)
  rw [← atLeast_perm h.perm, atLeast_eq, above_perm h.perm] at hatLeast
  have hlarger := h.above_eq (key row)
  have hkeys : ∀ a ∈ order.filter (key · = key row), key a = key row := fun a ha => by
    simpa using (List.mem_filter.mp ha).2
  generalize order.filter (key row < key ·) = larger at hsplit hlarger
  generalize order.filter (key · = key row) = ties at hsplit hatLeast hkeys
  obtain ⟨i, rfl⟩ := Nat.exists_eq_add_of_lt habove
  have hi : i + 1 < ties.length := by omega
  have hties : ties = ties.take i ++ ties[i] :: ties[i + 1] :: ties.drop (i + 2) := by
    rw [← List.drop_eq_getElem_cons hi, ← List.drop_eq_getElem_cons (by omega),
      List.take_append_drop]
  refine ⟨larger ++ ties.take i, ties[i], ties[i + 1],
    ties.drop (i + 2) ++ order.filter (key · < key row), ?_, ?_, ?_⟩
  · refine hsplit.trans ?_
    generalize order.filter (key · < key row) = smaller
    generalize ties[i] = a at hties
    generalize ties[i + 1] = b at hties
    conv_lhs => rw [hties]
    simp
  · rw [List.length_append, List.length_take, hlarger]
    omega
  · rw [hkeys _ (List.getElem_mem _), hkeys _ (List.getElem_mem _)]

theorem swap_tie {front back : List α} {a b : α}
    (h : Sorts key rows (front ++ a :: b :: back)) (hkey : key a = key b) :
    Sorts key rows (front ++ b :: a :: back) where
  perm := (List.Perm.append_left front (List.Perm.swap a b back)).trans h.perm
  descending := by
    have hkeys : ((front ++ a :: b :: back).map key).Pairwise fun a b => b ≤ a :=
      List.pairwise_map.mpr h.descending
    have hswap : (front ++ a :: b :: back).map key = (front ++ b :: a :: back).map key := by
      simp [hkey]
    rw [hswap] at hkeys
    exact List.pairwise_map.mp hkeys

/-- Pages that are cut from one order. -/
theorem pages_of_forall_lt (h : ∀ j < n, orders j = order) :
    pages size n orders = order.take (n * size) := by
  induction n with
  | zero => simp [pages]
  | succ n ih =>
      rw [pages_succ, ih fun j hj => h j (by omega), h n (by omega), take_append_page]

theorem nodup_pages_of_le {m : ℕ} (hle : m ≤ n) (hnodup : (pages size n orders).Nodup) :
    (pages size m orders).Nodup :=
  hnodup.sublist ((List.range_sublist.mpr hle).flatMap _)

/-- If a tie is split, two queries may list one row twice. -/
theorem exists_not_nodup_pages (h : Sorts key rows order) (hsize : 0 < size)
    (hall : rows.length ≤ n * size) (hsplit : ¬Unsplit key rows size) :
    ∃ orders, (∀ k, Sorts key rows (orders k)) ∧ ¬(pages size n orders).Nodup := by
  rw [unsplit_iff hsize] at hsplit
  push Not at hsplit
  obtain ⟨row, -, k, habove, hatLeast⟩ := hsplit
  obtain ⟨front, a, b, back, rfl, hlength, hkey⟩ := exists_tie_at h habove hatLeast
  have hk : k < n := by
    have hcut : k * size < n * size := (hatLeast.trans_le List.countP_le_length).trans_le hall
    exact Nat.lt_of_mul_lt_mul_right hcut
  -- the pages in front of the cut come from the one order, those behind it from the other
  refine ⟨fun j => if j < k then front ++ a :: b :: back else front ++ b :: a :: back, fun j => ?_,
    fun hnodup => ?_⟩
  · dsimp only
    split
    · exact h
    · exact swap_tie h hkey
  · have hnodup' := nodup_pages_of_le (m := k + 1) hk hnodup
    rw [pages_succ, pages_of_forall_lt fun j hj => if_pos hj, if_neg (lt_irrefl k)] at hnodup'
    have hfirst : a ∈ (front ++ a :: b :: back).take (k * size) := by
      rw [← hlength, List.take_append]
      simp
    have hsecond : a ∈ page size k (front ++ b :: a :: back) := by
      have hdrop : (front ++ b :: a :: back).drop (front.length + 1) = a :: back := by
        rw [List.drop_append]
        simp
      rw [page, ← hlength, hdrop]
      obtain ⟨size, rfl⟩ := Nat.exists_eq_succ_of_ne_zero hsize.ne'
      exact List.mem_cons_self
    exact (List.nodup_append.mp hnodup').2.2 a hfirst a hsecond rfl

/-- When every page shows each row once, whatever the queries do with ties. -/
theorem forall_perm_pages_iff (hrows : rows.Nodup) (h : Sorts key rows order) (hsize : 0 < size)
    (hall : rows.length ≤ n * size) :
    (∀ orders, (∀ k, Sorts key rows (orders k)) → (pages size n orders).Perm rows) ↔
      Unsplit key rows size := by
  refine ⟨fun hperm => ?_, fun hunsplit orders horders => ?_⟩
  · by_contra hsplit
    obtain ⟨orders, horders, hnodup⟩ := exists_not_nodup_pages h hsize hall hsplit
    exact hnodup ((hperm orders horders).nodup_iff.mpr hrows)
  · have hpages := pages_perm_take horders h ((unsplit_iff hsize).mp hunsplit) n
    rw [List.take_of_length_le (h.perm.length_eq.trans_le hall)] at hpages
    exact hpages.trans h.perm

end Pages

end Paging
