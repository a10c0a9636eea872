import MiniDrop.Library.Numerals
import MiniDrop.Model.ServiceRuns

/-! # Window ids are read back as they are written -/

namespace MiniDrop

/-! ## Decimal sequence numbers -/

theorem underscore_notMem_toString (k : ℤ) : '_' ∉ (toString k).toList := by
  rw [toList_toString_int]
  split <;> simp [Nat.underscore_not_in_toDigits]

theorem stoi_toString {k : ℤ} (hnonneg : 0 ≤ k) (hmax : k ≤ 2147483647) :
    stoi (toString k).toList = some k := by
  obtain ⟨n, rfl⟩ := Int.eq_ofNat_of_zero_le hnonneg
  have hdigits : (toString (n : ℤ)).toList = Nat.toDigits 10 n := by
    rw [toList_toString_int, if_neg (by omega)]
    rfl
  have hall : ∀ c ∈ Nat.toDigits 10 n, c.isDigit = true := fun c hc =>
    Nat.isDigit_of_mem_toDigits (by omega) (by omega) hc
  have htake : (Nat.toDigits 10 n).takeWhile Char.isDigit = Nat.toDigits 10 n :=
    List.takeWhile_eq_self_iff.mpr hall
  have hdrop : (Nat.toDigits 10 n).dropWhile isSpaceC = Nat.toDigits 10 n := by
    cases hd : Nat.toDigits 10 n with
    | nil => rfl
    | cons c ds =>
        have hc : c.isDigit = true := hall c (by simp [hd])
        have hspace : isSpaceC c = false := by
          by_contra hne
          simp only [isSpaceC, Bool.not_eq_false, Bool.or_eq_true, decide_eq_true_eq] at hne
          rcases hne with ((((rfl | rfl) | rfl) | rfl) | rfl) | rfl <;> simp at hc
        rw [List.dropWhile_cons, hspace]
        rfl
  have hread := Text.signed?_toDigits (n := n)
    (fun ds => Text.digits? (ds.takeWhile Char.isDigit)) (by rw [htake, Text.digits?_toDigits])
  simp only [stoi, hdigits, hdrop, hread, Option.filter_some]
  rw [if_pos]
  simp only [decide_eq_true_eq]
  omega

theorem stoi_toString_of_neg {k : ℤ} (hneg : k < 0) (hmin : -2147483648 ≤ k) :
    stoi (toString k).toList = some k := by
  have htext : (toString k).toList = '-' :: Nat.toDigits 10 k.natAbs := by
    rw [toList_toString_int, if_pos hneg]
  have htake : (Nat.toDigits 10 k.natAbs).takeWhile Char.isDigit = Nat.toDigits 10 k.natAbs :=
    List.takeWhile_eq_self_iff.mpr fun c hc =>
      Nat.isDigit_of_mem_toDigits (by omega) (by omega) hc
  have hsign : isSpaceC '-' = false := by decide
  have habs : -((k.natAbs : ℕ) : ℤ) = k := by omega
  simp only [stoi, htext, List.dropWhile_cons, hsign, Bool.false_eq_true, if_false, Text.signed?,
    htake, Text.digits?_toDigits]
  change Option.filter _ (some (-((k.natAbs : ℕ) : ℤ))) = some k
  rw [habs, Option.filter_some, if_pos]
  simp only [decide_eq_true_eq]
  omega

/-- What `stoi` answers fits into an `int`. -/
theorem stoi_range {l : List Char} {n : ℤ} (h : stoi l = some n) :
    -2147483648 ≤ n ∧ n ≤ 2147483647 := by
  have hfits := (Option.filter_eq_some_iff.mp h).2
  simpa using hfits

/-! ## Splitting -/

private theorem toList_mark : "_w".toList = ['_', 'w'] := rfl

theorem toList_windowTid (parentTid : String) (seq : ℤ) :
    (windowTid parentTid seq).toList =
      parentTid.toList ++ ('_' :: 'w' :: (toString seq).toList) := by
  simp only [windowTid, String.toList_append, toList_mark, List.append_assoc, List.cons_append,
    List.nil_append]

theorem rfind_windowTid (parentTid : String) (seq : ℤ) :
    Text.rfind "_w".toList (windowTid parentTid seq).toList =
      some parentTid.toList.length := by
  have hout : '_' ∉ ['w'] ++ (toString seq).toList := by
    intro h
    rcases List.mem_append.mp h with h | h
    · simp at h
    · exact underscore_notMem_toString seq h
  rw [toList_windowTid, toList_mark]
  exact Text.rfind_append (Text.rfind_cons_self hout) parentTid.toList

theorem splitWindowTid_windowTid {parentTid : String} (hne : parentTid ≠ "") (seq : ℤ) :
    splitWindowTid (windowTid parentTid seq) =
      some (parentTid, (stoi (toString seq).toList).getD 0) := by
  have hpos : parentTid.toList.length > 0 := by
    rw [gt_iff_lt, List.length_pos_iff, ne_eq, String.toList_eq_nil_iff]
    exact hne
  unfold splitWindowTid
  rw [rfind_windowTid]
  simp only [hpos, if_true, toList_windowTid, List.take_left, String.ofList_toList]
  rw [List.drop_append, List.drop_of_length_le (Nat.le_add_right _ 2)]
  simp

theorem splitWindowTid_windowTid_of_le {parentTid : String} (hne : parentTid ≠ "") {seq : ℤ}
    (hnonneg : 0 ≤ seq) (hmax : seq ≤ 2147483647) :
    splitWindowTid (windowTid parentTid seq) = some (parentTid, seq) := by
  rw [splitWindowTid_windowTid hne, stoi_toString hnonneg hmax]
  rfl

/-- No id is that of the window after it. -/
theorem windowTid_ne_of_split {taskId p : String} {seq next : ℤ}
    (hsplit : splitWindowTid taskId = some (p, seq)) (hnext : nextSeq seq = some next)
    (hne : p ≠ "") : windowTid p next ≠ taskId := by
  rintro rfl
  rw [splitWindowTid_windowTid hne, Option.some.injEq, Prod.mk.injEq] at hsplit
  have hseq : -2147483648 ≤ seq := by
    cases hread : stoi (toString next).toList with
    | none =>
        rw [← hsplit.2, hread]
        decide
    | some n =>
        rw [← hsplit.2, hread]
        exact (stoi_range hread).1
  have hstep : next = seq + 1 ∧ next ≤ 2147483647 := by
    unfold nextSeq at hnext
    split at hnext
    · rw [Option.some.injEq] at hnext
      omega
    · cases hnext
  have hread : stoi (toString next).toList = some next := by
    by_cases hneg : next < 0
    · exact stoi_toString_of_neg hneg (by omega)
    · exact stoi_toString (by omega) hstep.2
  rw [hread, Option.getD_some] at hsplit
  omega

theorem isWindowOf_windowTid {parentTid : String} (hne : parentTid ≠ "") (seq : ℤ) :
    IsWindowOf parentTid (windowTid parentTid seq) := by
  rw [IsWindowOf, parentOf, splitWindowTid_windowTid hne]
  rfl

theorem IsWindowOf.parent_ne {parentTid taskId : String} (h : IsWindowOf parentTid taskId) :
    parentTid ≠ "" := by
  obtain ⟨⟨p, seq⟩, hsplit, rfl⟩ := Option.map_eq_some_iff.mp h
  unfold splitWindowTid at hsplit
  split at hsplit
  · rename_i wpos hfind
    split at hsplit
    · rename_i hpos
      have heq := Text.eq_of_rfind hfind
      simp only [Option.some.injEq, Prod.mk.injEq] at hsplit
      rw [← hsplit.1]
      intro hnil
      have htake : taskId.toList.take wpos = [] := by simpa using congrArg String.toList hnil
      have hzero : taskId.toList = [] := by
        rcases List.take_eq_nil_iff.mp htake with h | h
        · omega
        · exact h
      rw [hzero] at hfind
      simp [Text.rfind] at hfind
    · simp at hsplit
  · simp at hsplit

theorem IsWindowOf.unique {p q taskId : String} (hp : IsWindowOf p taskId)
    (hq : IsWindowOf q taskId) : p = q :=
  Option.some.inj (hp.symm.trans hq)

theorem isWindowOf_of_split {p taskId : String} {seq : ℤ}
    (h : splitWindowTid taskId = some (p, seq)) : IsWindowOf p taskId := by
  simp [IsWindowOf, parentOf, h]

theorem windowTid_inj {p : String} (hne : p ≠ "") {j k : ℤ} (hj : 0 ≤ j ∧ j ≤ 2147483647)
    (hk : 0 ≤ k ∧ k ≤ 2147483647) (h : windowTid p j = windowTid p k) : j = k := by
  have hsplit := splitWindowTid_windowTid_of_le hne hj.1 hj.2
  rw [h, splitWindowTid_windowTid_of_le hne hk.1 hk.2] at hsplit
  simpa using hsplit.symm

theorem parentTidAt_ne (now : ℤ) : HotmethodService.parentTidAt now ≠ "" := by
  intro h
  have := congrArg String.toList h
  simp [HotmethodService.parentTidAt, String.toList_append] at this

end MiniDrop
