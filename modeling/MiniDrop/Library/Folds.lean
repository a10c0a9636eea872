import Std.Data.ExtTreeMap.Lemmas
import Mathlib.Logic.Basic
import Mathlib.Tactic.TypeStar

/-! # Loops over the entries of an ordered map

The loops considered here visit every entry of a map once, in key order, and each pass
through the body touches the map at most at the key it visits. -/

namespace Folds

open Std

section Entries

variable {σ α β : Type*} {cmp : α → α → Ordering} [TransCmp cmp] [LawfulEqCmp cmp]
  [DecidableEq α] {get : σ → ExtTreeMap α β cmp} {body : σ → α × β → σ}
  {f : α → β → Option β}

/-- The body sets the entry it visits to `f` and keeps the other entries. -/
def VisitsEntry (get : σ → ExtTreeMap α β cmp) (body : σ → α × β → σ)
    (f : α → β → Option β) : Prop :=
  ∀ s k v a, (get s)[k]? = some v →
    (get (body s (k, v)))[a]? = if k = a then f k v else (get s)[a]?

private theorem foldl_getElem?_of_notMem (hbody : VisitsEntry get body f)
    (l : List (α × β)) (s : σ) (a : α) (hnodup : l.Pairwise fun x y => ¬cmp x.1 y.1 = .eq)
    (hmem : ∀ e ∈ l, (get s)[e.1]? = some e.2) (ha : ∀ e ∈ l, e.1 ≠ a) :
    (get (l.foldl body s))[a]? = (get s)[a]? := by
  induction l generalizing s with
  | nil => rfl
  | cons e l ih =>
      obtain ⟨hhead, htail⟩ := List.pairwise_cons.mp hnodup
      have he := hmem e (by simp)
      have hvisit := hbody s e.1 e.2
      rw [List.foldl_cons, ih (body s e) htail]
      · rw [hvisit a he, if_neg (ha e (by simp))]
      · intro e' he'
        have hne : e.1 ≠ e'.1 := fun h => hhead e' he' (by simp [h])
        rw [hvisit e'.1 he, if_neg hne]
        exact hmem e' (by simp [he'])
      · intro e' he'
        exact ha e' (by simp [he'])

private theorem foldl_getElem?_of_mem (hbody : VisitsEntry get body f)
    (l : List (α × β)) (s : σ) (a : α) (v : β)
    (hnodup : l.Pairwise fun x y => ¬cmp x.1 y.1 = .eq)
    (hmem : ∀ e ∈ l, (get s)[e.1]? = some e.2) (ha : (a, v) ∈ l) :
    (get (l.foldl body s))[a]? = f a v := by
  induction l generalizing s with
  | nil => simp at ha
  | cons e l ih =>
      obtain ⟨hhead, htail⟩ := List.pairwise_cons.mp hnodup
      have he := hmem e (by simp)
      have hvisit := hbody s e.1 e.2
      have hkeep : ∀ e' ∈ l, (get (body s e))[e'.1]? = some e'.2 := by
        intro e' he'
        have hne : e.1 ≠ e'.1 := fun h => hhead e' he' (by simp [h])
        rw [hvisit e'.1 he, if_neg hne]
        exact hmem e' (by simp [he'])
      rw [List.foldl_cons]
      rcases List.mem_cons.mp ha with rfl | ha
      · have hother : ∀ e' ∈ l, e'.1 ≠ a := fun e' he' h => hhead e' he' (by simp [h])
        rw [foldl_getElem?_of_notMem hbody l _ a htail hkeep hother, hvisit a he, if_pos rfl]
      · exact ih (body s e) htail hkeep ha

/-- A loop over all entries of the map applies `f` to each of them. -/
theorem foldl_toList_getElem? (hbody : VisitsEntry get body f) (s : σ) (a : α) :
    (get ((get s).toList.foldl body s))[a]? = (get s)[a]?.bind (f a) := by
  have hnodup := (get s).distinct_keys_toList
  have hmem : ∀ e ∈ (get s).toList, (get s)[e.1]? = some e.2 := fun e he =>
    ExtTreeMap.mem_toList_iff_getElem?_eq_some.mp he
  cases hlook : (get s)[a]? with
  | none =>
      rw [foldl_getElem?_of_notMem hbody _ s a hnodup hmem, hlook, Option.bind_none]
      rintro e he rfl
      simp [hmem e he] at hlook
  | some v =>
      exact foldl_getElem?_of_mem hbody _ s a v hnodup hmem
        (ExtTreeMap.mem_toList_iff_getElem?_eq_some.mpr hlook)

/-- The entry of a key. -/
theorem filter_toList (m : ExtTreeMap α β cmp) (a : α) :
    m.toList.filter (fun e => e.1 = a) = m[a]?.toList.map fun v => (a, v) := by
  have hnodup : m.toList.Nodup := by
    refine List.Pairwise.imp ?_ m.distinct_keys_toList
    rintro e _ hne rfl
    exact hne ReflCmp.compare_self
  have hmem : ∀ e, e ∈ m.toList.filter (fun e => e.1 = a) ↔
      e ∈ m[a]?.toList.map fun v => (a, v) := by
    rintro ⟨k, v⟩
    rw [List.mem_filter, ExtTreeMap.mem_toList_iff_getElem?_eq_some, decide_eq_true_eq,
      List.mem_map]
    constructor
    · rintro ⟨hv, rfl⟩
      exact ⟨v, by rw [hv]; exact List.mem_singleton_self v, rfl⟩
    · rintro ⟨w, hw, heq⟩
      obtain ⟨rfl, rfl⟩ := Prod.mk.inj heq
      exact ⟨Option.mem_toList.mp hw, rfl⟩
  cases hlook : m[a]? with
  | none =>
      rw [hlook] at hmem
      exact List.eq_nil_iff_forall_not_mem.mpr fun e he => List.not_mem_nil ((hmem e).mp he)
  | some v =>
      rw [hlook] at hmem
      exact List.perm_singleton.mp
        ((List.perm_ext_iff_of_nodup (hnodup.filter _) (List.pairwise_singleton _ _)).mpr hmem)

/-- What a loop over all entries writes about a key, where each pass writes about its own. -/
theorem filter_flatMap_toList {γ : Type*} (m : ExtTreeMap α β cmp) {write : α × β → List γ}
    {key : γ → α} (hkey : ∀ e, ∀ x ∈ write e, key x = e.1) (a : α) :
    (m.toList.flatMap write).filter (fun x => key x = a) =
      m[a]?.toList.flatMap fun v => write (a, v) := by
  have hpass : ∀ e, (write e).filter (fun x => key x = a) = if e.1 = a then write e else [] := by
    intro e
    split
    · next heq =>
      exact List.filter_eq_self.mpr fun x hx => decide_eq_true ((hkey e x hx).trans heq)
    · next hne =>
      exact List.filter_eq_nil_iff.mpr fun x hx h =>
        hne ((hkey e x hx).symm.trans (of_decide_eq_true h))
  have hloop : ∀ es : List (α × β), (es.flatMap write).filter (fun x => key x = a) =
      (es.filter fun e => e.1 = a).flatMap write := by
    intro es
    induction es with
    | nil => rfl
    | cons e es ih =>
        rw [List.flatMap_cons, List.filter_append, hpass, ih, List.filter_cons]
        by_cases heq : e.1 = a <;> simp [heq]
  rw [hloop, filter_toList, List.flatMap_map]

end Entries

/-- A component that the body never changes is the same after the loop. -/
theorem foldl_eq_of_step {σ ε γ : Type*} (get : σ → γ) {body : σ → ε → σ}
    (hbody : ∀ s e, get (body s e) = get s) (l : List ε) (s : σ) :
    get (l.foldl body s) = get s := by
  induction l generalizing s with
  | nil => rfl
  | cons e l ih => rw [List.foldl_cons, ih, hbody]

/-- If each pass filters a list, the loop keeps what every pass keeps. -/
theorem foldl_filter {σ ε γ : Type*} (get : σ → List γ) {body : σ → ε → σ}
    {keep : ε → γ → Bool} (hbody : ∀ s e, get (body s e) = (get s).filter (keep e))
    (l : List ε) (s : σ) :
    get (l.foldl body s) = (get s).filter fun x => l.all fun e => keep e x := by
  induction l generalizing s with
  | nil => exact (List.filter_eq_self.mpr (by simp)).symm
  | cons e l ih =>
      rw [List.foldl_cons, ih, hbody, List.filter_filter]
      simp only [List.all_cons, Bool.and_comm]

/-- If each pass changes what is observed at its own key only, what the loop makes of a key depends
on the passes at that key. -/
theorem foldl_observe {σ ε κ γ : Type*} [DecidableEq κ] (get : σ → κ → γ) (key : ε → κ)
    (f : γ → ε → γ) {body : σ → ε → σ}
    (hbody : ∀ s e a, get (body s e) a = if key e = a then f (get s a) e else get s a)
    (l : List ε) (s : σ) (a : κ) :
    get (l.foldl body s) a = (l.filter fun e => key e = a).foldl f (get s a) := by
  induction l generalizing s with
  | nil => rfl
  | cons e l ih =>
      rw [List.foldl_cons, ih, hbody]
      by_cases h : key e = a <;> simp [h]

end Folds
