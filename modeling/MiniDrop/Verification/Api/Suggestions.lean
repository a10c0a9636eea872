import Mathlib.Data.List.Nodup
import MiniDrop.Library.Guarantee
import MiniDrop.Model.Suggestions
import MiniDrop.Verification.Api.Tables

/-! # One suggestion for each function

A request looks the row of its function up and inserts one, or updates the one that it found, in a
separate statement. Requests of one function whose lookups both come before the first INSERT create
the row twice. -/

namespace MiniDrop

/-! ## Statement -/

def AnalysisSuggestion.texts (row : AnalysisSuggestion) : String × String :=
  (row.suggestion, row.aiSuggestion)

def CreateSuggestionReq.texts (req : CreateSuggestionReq) : String × String :=
  (req.suggestion, req.aiSuggestion)

/-- The row holds what such a request brought for its function. -/
def AnalysisSuggestion.Requested (requests : CreateSuggestionReq → Prop)
    (row : AnalysisSuggestion) : Prop :=
  ∃ req, requests req ∧ req.pair = row.pair ∧ req.texts = row.texts

/-- A function of a task has one row at most, with the texts of one request for it. -/
structure Upserted (pool : SuggestionPool) : Prop where
  single : (pool.store.suggestions.map AnalysisSuggestion.pair).Nodup
  requested : ∀ row ∈ pool.store.suggestions, row.Requested (· ∈ pool.started)

/-! ## The condition -/

/-- An INSERT takes place only while its function has no row. -/
def InsertsNew (mark : SuggestionMark) (s : SuggestionStore) (fails : Bool) : Prop :=
  fails = false → ∀ pair ∈ mark.inserts, ∀ row ∈ s.suggestions, row.pair ≠ pair

instance (mark : SuggestionMark) (s : SuggestionStore) (fails : Bool) :
    Decidable (InsertsNew mark s fails) :=
  inferInstanceAs (Decidable (fails = false → _))

/-! ## Writes -/

namespace SuggestionStore

/-- Ids and functions are unique, and each row has the texts of a request for it. -/
structure Sound (requests : CreateSuggestionReq → Prop) (s : SuggestionStore) : Prop where
  keyed : (s.suggestions.map AnalysisSuggestion.id).Nodup
  assigned : ∀ row ∈ s.suggestions, row.id ≤ s.lastId
  single : (s.suggestions.map AnalysisSuggestion.pair).Nodup
  requested : ∀ row ∈ s.suggestions, row.Requested requests

/-- Under this id there is a row of the function. -/
def Has (s : SuggestionStore) (id : ℕ) (pair : String × String) : Prop :=
  ∃ row ∈ s.suggestions, row.id = id ∧ row.pair = pair

variable {requests : CreateSuggestionReq → Prop} {s t : SuggestionStore}

theorem first_eq_some {tid func : String} {row : AnalysisSuggestion}
    (h : s.first tid func = some row) : row ∈ s.suggestions ∧ row.pair = (tid, func) :=
  ⟨List.mem_of_find?_eq_some h, by simpa using List.find?_some h⟩

/-- The columns that identify a row stay, when it is saved under the id that it has. -/
theorem Sound.map_save {β : Type} (h : s.Sound requests) {saved : AnalysisSuggestion}
    (hhas : s.Has saved.id saved.pair) (column : AnalysisSuggestion → β)
    (hcolumn : ∀ row : AnalysisSuggestion, row.id = saved.id → row.pair = saved.pair →
      column saved = column row) :
    (s.save saved).suggestions.map column = s.suggestions.map column := by
  obtain ⟨found, hfound, hid, hpair⟩ := hhas
  simp only [save, List.map_map]
  refine List.map_congr_left fun row hrow => ?_
  rw [Function.comp_apply]
  split
  · next hsame =>
      obtain rfl : row = found :=
        List.inj_on_of_nodup_map h.keyed hrow hfound (hsame.trans hid.symm)
      exact hcolumn row hid hpair
  · rfl

theorem Sound.save (h : s.Sound requests) {saved : AnalysisSuggestion}
    (hhas : s.Has saved.id saved.pair) (hrequested : saved.Requested requests) :
    (s.save saved).Sound requests := by
  have hids := h.map_save hhas AnalysisSuggestion.id fun _ hid _ => hid.symm
  refine ⟨hids ▸ h.keyed, fun row hrow => ?_,
    h.map_save hhas AnalysisSuggestion.pair (fun _ _ hpair => hpair.symm) ▸ h.single,
    fun row hrow => ?_⟩
  · have hid := List.mem_map_of_mem (f := AnalysisSuggestion.id) hrow
    rw [hids] at hid
    obtain ⟨other, hother, hsame⟩ := List.mem_map.mp hid
    exact hsame ▸ h.assigned other hother
  · obtain ⟨other, hother, rfl⟩ := List.mem_map.mp hrow
    split
    · exact hrequested
    · exact h.requested other hother

theorem Sound.create (h : s.Sound requests) {row : AnalysisSuggestion}
    (ht : s.create row = some t) (hnew : ∀ other ∈ s.suggestions, other.pair ≠ row.pair)
    (hrequested : row.Requested requests) : t.Sound requests := by
  unfold SuggestionStore.create at ht
  split at ht
  · cases ht
  obtain rfl := Option.some.inj ht
  refine ⟨?_, fun other hother => ?_, ?_, fun other hother => ?_⟩
  · simp only [List.map_append, List.map_cons, List.map_nil]
    refine List.nodup_append.mpr ⟨h.keyed, by simp, fun id hid id' hid' => ?_⟩
    obtain ⟨other, hother, rfl⟩ := List.mem_map.mp hid
    have hle := h.assigned other hother
    rw [List.mem_singleton.mp hid']
    omega
  · rcases List.mem_append.mp hother with hother | hother
    · exact (h.assigned other hother).trans (Nat.le_succ _)
    · rw [List.mem_singleton.mp hother]
  · simp only [List.map_append, List.map_cons, List.map_nil]
    refine List.nodup_append.mpr ⟨h.single, by simp, fun pair hpair pair' hpair' => ?_⟩
    obtain ⟨other, hother, rfl⟩ := List.mem_map.mp hpair
    rw [List.mem_singleton.mp hpair']
    exact hnew other hother
  · rcases List.mem_append.mp hother with hother | hother
    · exact h.requested other hother
    · rw [List.mem_singleton.mp hother]
      exact hrequested

end SuggestionStore

/-! ## Threads -/

/-- Statements keep the store sound, and each row under its id and for its function. -/
def suggesting (requests : CreateSuggestionReq → Prop) : Guarantee SuggestionStore where
  inv := SuggestionStore.Sound requests
  rel s t := ∀ id pair, s.Has id pair → t.Has id pair
  refl _ _ _ h := h
  trans h₁ h₂ id pair h := h₂ id pair (h₁ id pair h)

def hasSuggestion (requests : CreateSuggestionReq → Prop) (id : ℕ) (pair : String × String) :
    (suggesting requests).Fact where
  holds s := s.Has id pair
  stable _ _ h hrel := hrel id pair h

theorem SuggestionStore.has_save {s : SuggestionStore} {requests : CreateSuggestionReq → Prop}
    (h : s.Sound requests) {saved : AnalysisSuggestion} (hhas : s.Has saved.id saved.pair) {id : ℕ}
    {pair : String × String} (hid : s.Has id pair) : (s.save saved).Has id pair := by
  have hcolumns := h.map_save hhas (fun row => (row.id, row.pair)) fun row hid hpair => by
    rw [hid, hpair]
  obtain ⟨row, hrow, rfl, rfl⟩ := hid
  have hmem := List.mem_map_of_mem (f := fun row => (row.id, row.pair)) hrow
  rw [← hcolumns] at hmem
  obtain ⟨other, hother, hsame⟩ := List.mem_map.mp hmem
  exact ⟨other, hother, congrArg Prod.fst hsame, congrArg Prod.snd hsame⟩

theorem SuggestionStore.has_create {s t : SuggestionStore} {row : AnalysisSuggestion}
    (ht : s.create row = some t) {id : ℕ} {pair : String × String} (hid : s.Has id pair) :
    t.Has id pair := by
  unfold SuggestionStore.create at ht
  split at ht
  · cases ht
  obtain rfl := Option.some.inj ht
  obtain ⟨other, hother, h⟩ := hid
  exact ⟨other, List.mem_append_left _ hother, h⟩

section Requests

variable {requests : CreateSuggestionReq → Prop}

/-- Checking the access to a task leaves the suggestions alone. -/
theorem tripleIf_taskAccess {P : (suggesting requests).Fact} (uid tid : String) :
    (suggesting requests).TripleIf InsertsNew P
      ((checkTaskAccess uid tid false).lift SuggestionStore.db (fun db s => { s with db })
        fun _ _ => ({} : SuggestionMark)) fun _ => P := by
  have hmoves : (checkTaskAccess uid tid false).Moves fun _ _ => True :=
    (preserves_checkTaskAccess (f := id) uid tid false).moves fun _ _ _ => trivial
  refine Guarantee.Triple.restrict (Guarantee.Triple.of_moves
    (R := fun s t : SuggestionStore => t.suggestions = s.suggestions ∧ t.lastId = s.lastId) ?_
    (hmoves.lift fun _ _ _ => ⟨rfl, rfl⟩))
  rintro s t ⟨hsuggestions, hlast⟩ hsound
  refine ⟨fun id pair h => ?_, ⟨?_, ?_, ?_, ?_⟩⟩
  · simpa only [SuggestionStore.Has, hsuggestions] using h
  · simpa only [hsuggestions] using hsound.keyed
  · simpa only [hsuggestions, hlast] using hsound.assigned
  · simpa only [hsuggestions] using hsound.single
  · simpa only [hsuggestions] using hsound.requested

/-- A row that the search found is still there. -/
def foundSuggestion (requests : CreateSuggestionReq → Prop) (pair : String × String) :
    Option (Option AnalysisSuggestion) → (suggesting requests).Fact
  | some (some row) => .and (.pure (row.pair = pair)) (hasSuggestion requests row.id row.pair)
  | _ => .top _

/-- A request whose INSERT takes place for a new function only keeps the suggestions sound. -/
theorem tripleIf_createSuggestion {req : CreateSuggestionReq} (hreq : requests req) :
    (suggesting requests).TripleIf InsertsNew (.top _) (createSuggestion req) fun _ => .top _ := by
  unfold createSuggestion
  refine Guarantee.TripleIf.bind (tripleIf_taskAccess req.uid req.tid) ?_
  rintro (_ | task)
  · exact Guarantee.TripleIf.pure fun _ _ _ => trivial
  dsimp only
  split
  · exact Guarantee.TripleIf.pure fun _ _ _ => trivial
  refine Guarantee.TripleIf.bind (Q := foundSuggestion requests req.pair)
    (Guarantee.TripleIf.query ?_ fun _ _ _ => trivial) ?_
  · intro s _ _ _
    cases hfirst : s.first req.tid req.func with
    | none => trivial
    | some row =>
        obtain ⟨hmem, hpair⟩ := SuggestionStore.first_eq_some hfirst
        exact ⟨hpair, row, hmem, rfl, rfl⟩
  rintro (_ | _ | row)
  · exact Guarantee.TripleIf.pure fun _ _ _ => trivial
  · refine Guarantee.TripleIf.bind (Q := fun _ => .top _)
      (Guarantee.TripleIf.update ?_ fun _ _ _ => trivial) fun ok => ?_
    · intro s t hsound _ hnew ht
      exact ⟨fun id pair => SuggestionStore.has_create ht,
        hsound.create ht (hnew rfl req.pair rfl) ⟨req, hreq, rfl, rfl⟩, trivial⟩
    · cases ok <;> exact Guarantee.TripleIf.pure fun _ _ _ => trivial
  · refine Guarantee.TripleIf.bind (Q := fun _ => .top _)
      (Guarantee.TripleIf.update ?_ fun _ _ _ => trivial) fun ok => ?_
    · rintro s t hsound ⟨hpair, hhas⟩ - ht
      obtain rfl := Option.some.inj ht
      refine ⟨fun id pair h => ?_, hsound.save hhas ⟨req, hreq, hpair.symm, rfl⟩, trivial⟩
      apply SuggestionStore.has_save hsound
      · exact hhas
      · exact h
    · cases ok <;> exact Guarantee.TripleIf.pure fun _ _ _ => trivial

end Requests

/-! ## Runs -/

def suggestedTask : Database :=
  { tasks := (∅ : StdMap HotmethodTask).insert "t" { tid := "t", uid := "u" } }

/-- What two runs of the analyzer suggest for a function. -/
def suggestPool : CreateSuggestionReq :=
  { uid := "u", tid := "t", func := "malloc", suggestion := "use a pool" }

def suggestArena : CreateSuggestionReq :=
  { uid := "u", tid := "t", func := "malloc", suggestion := "use an arena" }

def suggestionPool (events : List (Pool.Event CreateSuggestionReq)) : SuggestionPool :=
  Transition.after SuggestionPool.step { store := { db := suggestedTask } } events

/-- The second request looks the function up when the first one has ended. -/
def suggestedInTurn : List (Pool.Event CreateSuggestionReq) :=
  .start suggestPool :: .start suggestArena ::
    List.replicate 3 (.advance 0 false) ++ List.replicate 3 (.advance 1 false)

/-- Both requests look the function up before either of them inserts a row. -/
def suggestedAtOnce : List (Pool.Event CreateSuggestionReq) :=
  .start suggestPool :: .start suggestArena ::
    List.replicate 2 (.advance 0 false) ++ List.replicate 3 (.advance 1 false) ++
      [.advance 0 false]

end MiniDrop
