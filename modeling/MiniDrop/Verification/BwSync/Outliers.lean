import Mathlib.Analysis.Real.Sqrt
import MiniDrop.Model.BwSync

/-! # How many blocking events can be outliers -/

namespace MiniDrop.BwSync

/-! ## Scores -/

/-- The test on squares is that of a score against the threshold. -/
theorem reachesScore_iff {d v t : ℚ} (hv : 0 < v) :
    reachesScore d v t = true ↔ (t : ℝ) ≤ (d : ℝ) / √(v : ℝ) := by
  have hv' : (0 : ℝ) < v := by exact_mod_cast hv
  have hroot : (t * √(v : ℝ)) ^ 2 = ((t ^ 2 * v : ℚ) : ℝ) := by
    rw [mul_pow, Real.sq_sqrt hv'.le]
    push_cast
    rfl
  rw [le_div_iff₀ (Real.sqrt_pos.mpr hv'), reachesScore]
  split_ifs with ht
  · have hnonneg : 0 ≤ (t : ℝ) * √(v : ℝ) :=
      mul_nonneg (by exact_mod_cast ht) (Real.sqrt_nonneg _)
    rw [decide_eq_true_iff]
    constructor
    · rintro ⟨hd, hle⟩
      refine le_of_sq_le_sq ?_ (by exact_mod_cast hd)
      rw [hroot]
      exact_mod_cast hle
    · intro hle
      refine ⟨by exact_mod_cast hnonneg.trans hle, ?_⟩
      have hsq := pow_le_pow_left₀ hnonneg hle 2
      rw [hroot] at hsq
      exact_mod_cast hsq
  · have hneg : (t : ℝ) * √(v : ℝ) ≤ 0 :=
      mul_nonpos_of_nonpos_of_nonneg (by exact_mod_cast (not_le.mp ht).le) (Real.sqrt_nonneg _)
    rw [decide_eq_true_iff]
    constructor
    · rintro (hd | hle)
      · exact hneg.trans (by exact_mod_cast hd)
      · refine le_of_neg_le_neg (le_trans (neg_le_abs _) (abs_le_of_sq_le_sq ?_ (by linarith)))
        rw [neg_sq, hroot]
        exact_mod_cast hle
    · intro hle
      rcases le_or_gt 0 d with hd | hd
      · exact Or.inl hd
      · right
        have hd' : (d : ℝ) ≤ 0 := by exact_mod_cast hd.le
        have hsq := pow_le_pow_left₀ (neg_nonneg.mpr hd') (neg_le_neg hle) 2
        rw [neg_sq, neg_sq, hroot] at hsq
        exact_mod_cast hsq

/-! ## Blocking events -/

theorem analyzeEvents_syncEvents (events : List SyncEvent) (threshold : ℚ) :
    (analyzeEvents events threshold).syncEvents =
      events.filter fun e => threshold ≤ e.latencyMs := by
  cases events <;> rfl

theorem length_detectAnomalies_le {t : ℚ} (ht : 0 ≤ t) (result : BwSyncResult) :
    (1 + t ^ 2) * (detectAnomalies result t).length ≤ result.syncEvents.length := by
  have hnone : (1 + t ^ 2) * ([] : List SyncEvent).length ≤ result.syncEvents.length := by simp
  rw [detectAnomalies]
  split_ifs with hfew hflat
  · exact hnone
  · exact hnone
  · set latencies := result.syncEvents.map SyncEvent.latencyMs with hlatencies
    have hvar := lt_of_le_of_ne (Deviation.variance_nonneg latencies) (Ne.symm hflat)
    have hbound := Deviation.length_filter_le (t := t) hvar
      (p := fun x => reachesScore (x - Deviation.mean latencies) (Deviation.variance latencies) t)
      fun x _ hx => by
        rw [reachesScore, if_pos ht, decide_eq_true_iff] at hx
        exact hx
    rw [hlatencies, List.filter_map, List.length_map, List.length_map, ← hlatencies] at hbound
    exact hbound

/-! ## Events of two latencies -/

/-- Events of the lowest blocking latency, and some that take a millisecond more. -/
def plateau (threshold : ℚ) (m k : ℕ) : List SyncEvent :=
  (List.replicate m threshold ++ List.replicate k (threshold + 1)).map fun l => { latencyMs := l }

variable {threshold t : ℚ} {m k : ℕ}

theorem syncEvents_plateau :
    (analyzeEvents (plateau threshold m k) threshold).syncEvents = plateau threshold m k := by
  rw [analyzeEvents_syncEvents, List.filter_eq_self]
  intro e he
  obtain ⟨l, hl, rfl⟩ := List.mem_map.mp he
  rw [decide_eq_true_iff]
  rcases List.mem_append.mp hl with hl | hl
  · exact (List.eq_of_mem_replicate hl).ge
  · rw [List.eq_of_mem_replicate hl]
    exact le_add_of_nonneg_right zero_le_one

theorem length_plateau : (plateau threshold m k).length = m + k := by
  simp [plateau]

theorem latencies_plateau : (plateau threshold m k).map SyncEvent.latencyMs =
    List.replicate m threshold ++ List.replicate k (threshold + 1) := by
  rw [plateau, List.map_map]
  exact List.map_id _

/-- Only the events above the lowest latency can be outliers. -/
theorem not_reachesScore_low (ht : 0 < t) (hk : 0 < k) {v : ℚ} :
    reachesScore (threshold - (threshold + k * 1 / (m + k))) v t = false := by
  have hpos : (0 : ℚ) < k * 1 / (m + k) := by positivity
  rw [reachesScore, if_pos ht.le, decide_eq_false_iff_not]
  rintro ⟨hd, -⟩
  linarith

theorem reachesScore_high (ht : 0 < t) (hk : 0 < k) (hle : t ^ 2 * k ≤ m) :
    reachesScore (threshold + 1 - (threshold + k * 1 / (m + k)))
      (m * k * 1 ^ 2 / (m + k) ^ 2) t = true := by
  have hk' : (0 : ℚ) < k := by exact_mod_cast hk
  have hdistance : threshold + 1 - (threshold + k * 1 / (m + k)) = (m : ℚ) / (m + k) := by
    field_simp
    ring
  rw [reachesScore, if_pos ht.le, decide_eq_true_iff, hdistance]
  refine ⟨by positivity, ?_⟩
  calc t ^ 2 * (m * k * 1 ^ 2 / (m + k) ^ 2) = m * (t ^ 2 * k) / ((m : ℚ) + k) ^ 2 := by ring
    _ ≤ m * m / ((m : ℚ) + k) ^ 2 := by gcongr
    _ = ((m : ℚ) / (m + k)) ^ 2 := by rw [div_pow, sq (m : ℚ)]

theorem length_detectAnomalies_plateau (ht : 0 < t) (hle : t ^ 2 * k ≤ m) :
    (detectAnomalies (analyzeEvents (plateau threshold m k) threshold) t).length = k := by
  rcases Nat.eq_zero_or_pos k with rfl | hk
  · have hflat := Deviation.variance_plateau (K := ℚ) (m := m) (k := 0) (a := threshold) (d := 1)
    rw [detectAnomalies, syncEvents_plateau, latencies_plateau]
    split_ifs with hfew hvar
    · rfl
    · rfl
    · rw [List.length_append, List.length_replicate, List.length_replicate] at hfew
      exact absurd ((hflat (by omega)).trans (by simp)) hvar
  · have hm : 0 < m := by
      have hpos : 0 < t ^ 2 * (k : ℚ) := by positivity
      exact_mod_cast hpos.trans_le hle
    have hmpos : (0 : ℚ) < m := by exact_mod_cast hm
    have hkpos : (0 : ℚ) < k := by exact_mod_cast hk
    have hspread : Deviation.variance
        (List.replicate m threshold ++ List.replicate k (threshold + 1)) ≠ 0 := by
      rw [Deviation.variance_plateau (by omega)]
      positivity
    rw [detectAnomalies, syncEvents_plateau, latencies_plateau]
    rw [if_neg (by rw [List.length_append, List.length_replicate, List.length_replicate]; omega),
      if_neg hspread, Deviation.variance_plateau (by omega), Deviation.mean_plateau (by omega),
      plateau, List.filter_map, List.length_map, List.filter_append, List.filter_replicate_of_neg,
      List.filter_replicate_of_pos, List.nil_append, List.length_replicate]
    · exact reachesScore_high ht hk hle
    · exact Bool.not_eq_true _ ▸ not_reachesScore_low ht hk

/-! ## Main theorem -/

end MiniDrop.BwSync
