import MiniDrop.Model.Attribution
import Mathlib.Data.List.Induction

/-! # The ids of the evidence

The calls of the tools hold every id of the evidence once. -/

namespace MiniDrop

section Ids

variable {F : Type}

/-- The id that a dictionary has. -/
def ownId : Option (PyValue F) → List String
  | some (.str evidenceId) => [evidenceId]
  | _ => []

mutual

/-- All ids in a value, from front to back. -/
def evidenceIds : PyValue F → List String
  | .dict fields => ownId (Dict.lookup "evidence_id" fields) ++ fieldIds fields
  | .list items => itemIds items
  | .str _ | .int _ | .num _ => []

def itemIds : List (PyValue F) → List String
  | [] => []
  | item :: items => evidenceIds item ++ itemIds items

def fieldIds : List (String × PyValue F) → List String
  | [] => []
  | (_, item) :: fields => evidenceIds item ++ fieldIds fields

end

/-- Adds an id unless it is there. -/
def addNew (ids : List String) (evidenceId : String) : List String :=
  if evidenceId ∉ ids then ids ++ [evidenceId] else ids

theorem addEvidenceId_eq (ids : List String) (value : Option (PyValue F)) :
    addEvidenceId ids value = (ownId value).foldl addNew ids := by
  cases value with
  | none => rfl
  | some value => cases value <;> rfl

mutual

/-- The tools add the ids of a value one by one. -/
theorem visit_eq (ids : List String) (value : PyValue F) :
    visit ids value = (evidenceIds value).foldl addNew ids := by
  cases value with
  | dict fields =>
      rw [visit, visitFields_eq, evidenceIds, addEvidenceId_eq, List.foldl_append]
  | list items => rw [visit, visitItems_eq, evidenceIds]
  | str s => rfl
  | int n => rfl
  | num x => rfl

theorem visitItems_eq (ids : List String) (items : List (PyValue F)) :
    visitItems ids items = (itemIds items).foldl addNew ids := by
  cases items with
  | nil => rfl
  | cons item items =>
      rw [visitItems, visit_eq, visitItems_eq, itemIds, List.foldl_append]

theorem visitFields_eq (ids : List String) (fields : List (String × PyValue F)) :
    visitFields ids fields = (fieldIds fields).foldl addNew ids := by
  cases fields with
  | nil => rfl
  | cons field fields =>
      obtain ⟨key, item⟩ := field
      rw [visitFields, visit_eq, visitFields_eq, fieldIds, List.foldl_append]

end

theorem foldl_addNew_of_nodup {ids new : List String} (h : (ids ++ new).Nodup) :
    new.foldl addNew ids = ids ++ new := by
  induction new generalizing ids with
  | nil => simp
  | cons evidenceId new ih =>
      rw [List.append_cons] at h
      have hnew : evidenceId ∉ ids := fun hmem =>
        (List.nodup_append.mp (List.nodup_append.mp h).1).2.2 _ hmem _ (by simp) rfl
      rw [List.foldl_cons, addNew, if_pos hnew, ih h, List.append_assoc, List.singleton_append]

/-- Distinct ids are all found, in their order. -/
theorem extractEvidenceIds_eq {value : PyValue F} (h : (evidenceIds value).Nodup) :
    extractEvidenceIds value = evidenceIds value := by
  rw [extractEvidenceIds, visit_eq, foldl_addNew_of_nodup (by simpa using h), List.nil_append]

/-! ## The ids of the five kinds -/

theorem itemIds_eq (items : List (PyValue F)) : itemIds items = items.flatMap evidenceIds := by
  induction items with
  | nil => rfl
  | cons item items ih => rw [itemIds, ih, List.flatMap_cons]

theorem itemIds_map_str (texts : List String) :
    itemIds (texts.map (PyValue.str (F := F))) = [] := by
  induction texts with
  | nil => rfl
  | cons text texts ih => rw [List.map_cons, itemIds, ih]; rfl

@[simp] theorem evidenceIds_metaValue (value : MetaValue) :
    evidenceIds (value.value (F := F)) = [] := by
  cases value <;> rfl

theorem evidenceIds_metadata (e : MetadataEvidence) :
    evidenceIds (e.value (F := F)) = ["E1"] := by
  simp [MetadataEvidence.value, evidenceIds, fieldIds, ownId, Dict.lookup]

theorem evidenceIds_topn (e : TopnEvidence F) : evidenceIds e.value = [e.evidenceId] := by
  simp [TopnEvidence.value, evidenceIds, fieldIds, ownId, Dict.lookup]

theorem evidenceIds_path (e : PathEvidence F) : evidenceIds e.value = [e.evidenceId] := by
  simp [PathEvidence.value, evidenceIds, fieldIds, ownId, Dict.lookup, itemIds_map_str]

theorem evidenceIds_concentration (e : ConcentrationEvidence F) :
    evidenceIds e.value = ["E4"] := by
  simp [ConcentrationEvidence.value, evidenceIds, fieldIds, ownId, Dict.lookup]

theorem evidenceIds_rule (e : RuleEvidence) :
    evidenceIds (e.value (F := F)) = [e.evidenceId] := by
  simp [RuleEvidence.value, evidenceIds, fieldIds, ownId, Dict.lookup]

/-- A list of evidence has the ids of its parts. -/
theorem evidenceIds_list {α : Type} {value : α → PyValue F} {evidenceId : α → String}
    (h : ∀ e, evidenceIds (value e) = [evidenceId e]) (es : List α) :
    evidenceIds (.list (es.map value)) = es.map evidenceId := by
  rw [evidenceIds, itemIds_eq]
  induction es with
  | nil => rfl
  | cons e es ih => rw [List.map_cons, List.flatMap_cons, h, ih]; rfl

/-- Distinct ids of a list of evidence are all found. -/
theorem extractEvidenceIds_list {α : Type} {value : α → PyValue F} {evidenceId : α → String}
    (h : ∀ e, evidenceIds (value e) = [evidenceId e]) {es : List α} {ids : List String}
    (hids : es.map evidenceId = ids) (hnodup : ids.Nodup) :
    extractEvidenceIds (.list (es.map value)) = ids := by
  have hlist := evidenceIds_list h es
  rw [hids] at hlist
  rw [extractEvidenceIds_eq (by rwa [hlist]), hlist]

end Ids

/-! ## Numbered ids -/

/-- The first ids of a kind. -/
def numbered (kind : String) (n : ℕ) : List String :=
  (List.range' 1 n).map fun i => kind ++ toString i

theorem nodup_numbered (kind : String) (n : ℕ) : (numbered kind n).Nodup := by
  refine List.Nodup.map (fun i j heq => ?_) List.nodup_range'
  have hdigits : Nat.toDigits 10 i = Nat.toDigits 10 j := by
    have hlists := congrArg String.toList heq
    rw [String.toList_append, String.toList_append, List.append_cancel_left_eq] at hlists
    exact Nat.toList_repr.symm.trans (hlists.trans Nat.toList_repr)
  rw [← Nat.ofDigitChars_ten_toDigits (n := i), hdigits, Nat.ofDigitChars_ten_toDigits]

theorem prefix_of_mem_numbered {kind evidenceId : String} {n : ℕ}
    (h : evidenceId ∈ numbered kind n) : kind.toList <+: evidenceId.toList := by
  obtain ⟨i, -, rfl⟩ := List.mem_map.mp h
  rw [String.toList_append]
  exact List.prefix_append _ _

/-- Ids of kinds with different texts are different. -/
theorem disjoint_numbered {kind kind' : String} (hlength : kind.length = kind'.length)
    (hne : kind ≠ kind') (m n : ℕ) : (numbered kind m).Disjoint (numbered kind' n) := by
  intro evidenceId hmem hmem'
  rw [← String.length_toList, ← String.length_toList] at hlength
  have hle := List.prefix_of_prefix_length_le (prefix_of_mem_numbered hmem)
    (prefix_of_mem_numbered hmem') hlength.le
  exact hne (String.toList_injective (hle.eq_of_length hlength))

theorem mem_numbered_one {kind : String} {n : ℕ} : kind ++ "1" ∈ numbered kind n ↔ n ≠ 0 := by
  constructor
  · rintro hmem rfl
    cases hmem
  · intro hne
    exact List.mem_map.mpr ⟨1, List.mem_range'_1.mpr ⟨le_rfl, by omega⟩, rfl⟩

theorem head?_numbered (kind : String) (n : ℕ) :
    (numbered kind n).head?.getD (kind ++ "1") = kind ++ "1" := by
  cases n <;> rfl

/-- Parts that are counted from one have the first ids of their kind. -/
theorem map_zipIdx_eq_numbered {α β : Type} {make : α × ℕ → β} {evidenceId : β → String}
    {kind : String} (h : ∀ a i, evidenceId (make (a, i)) = kind ++ toString i) (items : List α) :
    ((items.zipIdx 1).map make).map evidenceId = numbered kind items.length := by
  rw [numbered, ← List.zipIdx_map_snd 1 items, List.map_map, List.map_map]
  exact List.map_congr_left fun entry _ => h entry.1 entry.2

end MiniDrop
