import MiniDrop.Model.Requests
import MiniDrop.Verification.Api.Tables

/-! # The key in a status text

The key that is read back from a status text is the one in the last marker. Texts that are
appended to it do not change the key. -/

namespace MiniDrop

/-! ## Reading the key -/

theorem cutAtSemicolon_append {a : List Char} (ha : ';' ∉ a) (rest : List Char) :
    cutAtSemicolon (a ++ ';' :: rest) = trimSpace a := by
  rw [cutAtSemicolon, if_pos (by simp), Text.takeWhile_append_cons_of_notMem ha]

theorem cut_trim_append (tail rest : List Char) :
    cutAtSemicolon (trimSpace (tail ++ ';' :: rest)) = cutAtSemicolon (trimSpace tail) := by
  have hsemicolon : isSpace ';' = false := by decide
  have htrim : trimSpace (tail ++ ';' :: rest) =
      tail.dropWhile isSpace ++ ';' :: rest.rdropWhile isSpace :=
    Text.trim_append_cons isSpace hsemicolon
  have htail : trimSpace tail = (tail.dropWhile isSpace).rdropWhile isSpace := rfl
  have hidem : trimSpace (tail.dropWhile isSpace) = trimSpace tail :=
    Text.trim_dropWhile isSpace tail
  rw [htrim]
  generalize tail.dropWhile isSpace = d at htail hidem ⊢
  by_cases hmem : ';' ∈ d
  · -- the first semicolon of the tail cuts both texts
    obtain ⟨a, b, rfl, ha⟩ := List.eq_append_cons_of_mem hmem
    rw [htail, Text.rdropWhile_append_of_neg isSpace hsemicolon, List.append_assoc,
      List.cons_append, cutAtSemicolon_append ha, cutAtSemicolon_append ha]
  · have hnone : ';' ∉ trimSpace tail := by
      rw [htail]
      exact fun h => hmem ((List.rdropWhile_prefix isSpace d).subset h)
    rw [cutAtSemicolon_append hmem, hidem, cutAtSemicolon, if_neg hnone]

/-- A text without a marker may be appended. -/
theorem extract_append {current reason : String} (hcurrent : containsText current resultMarker)
    (hreason : ¬ containsText reason resultMarker) :
    extractCollectorResultKey (current ++ "; " ++ reason) =
      extractCollectorResultKey current := by
  have happend : (current ++ "; " ++ reason).toList =
      current.toList ++ ';' :: (' ' :: reason.toList) := by simp
  have hrest : ¬ resultMarker.toList <:+: ' ' :: reason.toList := by
    rw [List.infix_cons_iff]
    rintro (hstart | hinfix)
    · rw [show resultMarker.toList = 'c' :: "ollector result ready: ".toList by decide,
        List.cons_prefix_cons] at hstart
      exact absurd hstart.1 (by decide)
    · exact hreason hinfix
  cases hfind : Text.rfind resultMarker.toList current.toList with
  | none => exact absurd hcurrent (Text.rfind_eq_none_iff.mp hfind)
  | some idx =>
      have hfind' : Text.rfind resultMarker.toList (current.toList ++ ';' :: ' ' ::
          reason.toList) = some idx := by
        rw [Text.rfind_append_cons_of_notMem (by decide) (by decide) current.toList hrest, hfind]
      have hlen : idx + resultMarker.length ≤ current.toList.length :=
        Text.le_length_of_rfind hfind
      simp only [extractCollectorResultKey, happend, hfind', hfind]
      rw [List.drop_append_of_le_length hlen, cut_trim_append]

/-- The merged text has the key of one of the two. -/
theorem extract_merge (current reason : String) :
    extractCollectorResultKey (mergeStatusInfo current reason) =
        extractCollectorResultKey current ∨
      extractCollectorResultKey (mergeStatusInfo current reason) =
        extractCollectorResultKey reason := by
  unfold mergeStatusInfo
  split
  · exact .inr rfl
  · rename_i hcurrent
    split
    · exact .inl rfl
    · split
      · exact .inr rfl
      · rename_i hreason
        have hmarker : containsText current resultMarker := by
          by_contra hnone
          exact hcurrent (.inr hnone)
        exact .inl (extract_append hmarker hreason)

/-! ## Confined tables -/

/-- The key lies under one of the two prefixes of the task. -/
def OwnKey (tid key : String) : Prop :=
  hasPrefix key (tid ++ "/") ∨ hasPrefix key ("profiler/" ++ tid ++ "/")

instance (tid key : String) : Decidable (OwnKey tid key) := inferInstanceAs (Decidable (_ ∨ _))

/-- The text names no key, a key of the task, or a key that is listed for the task. -/
def NamesOwnKey (listed : List (String × String)) (tid text : String) : Prop :=
  extractCollectorResultKey text = "" ∨ OwnKey tid (extractCollectorResultKey text) ∨
    (tid, extractCollectorResultKey text) ∈ listed

instance (listed : List (String × String)) (tid text : String) :
    Decidable (NamesOwnKey listed tid text) :=
  inferInstanceAs (Decidable (_ ∨ _ ∨ _))

variable {listed : List (String × String)}

/-- Texts that the code writes to `status_info` as they are. -/
def fixedTexts : List String :=
  ["", "collector ran before result was fetched", "collector uploaded result",
    "collector started before failure", "timeout waiting for drop_server result",
    "queued in drop_server", "queued in drop_server (cron)", "analysis queued",
    "continuous profiling running", "continuous window failed", "continuous window completed",
    "用户停止"]

theorem extract_fixed :
    ∀ text ∈ fixedTexts, extractCollectorResultKey text = "" := by
  decide +kernel

theorem NamesOwnKey.fixed {tid text : String} (h : text ∈ fixedTexts) :
    NamesOwnKey listed tid text :=
  .inl (extract_fixed text h)

@[simp] theorem NamesOwnKey.empty (tid : String) : NamesOwnKey listed tid "" :=
  .fixed (by simp [fixedTexts])

theorem NamesOwnKey.mono {listed' : List (String × String)} {tid text : String}
    (h : NamesOwnKey listed tid text) (hsub : listed ⊆ listed') : NamesOwnKey listed' tid text :=
  h.imp_right fun h => h.imp_right fun h => hsub h

theorem NamesOwnKey.merge {tid current reason : String} (hcurrent : NamesOwnKey listed tid current)
    (hreason : NamesOwnKey listed tid reason) :
    NamesOwnKey listed tid (mergeStatusInfo current reason) := by
  unfold NamesOwnKey at *
  rcases extract_merge current reason with h | h
  · rwa [h]
  · rwa [h]

/-- Every status text names a key that its task may have. -/
def Confined (listed : List (String × String)) (db : Database) : Prop :=
  ∀ tid row, db.tasks[tid]? = some row → row.tid = tid ∧ NamesOwnKey listed tid row.statusInfo

theorem Confined.updateTask {db : Database} (h : Confined listed db) (tid : String)
    (change : HotmethodTask → HotmethodTask) (htid : ∀ row, (change row).tid = row.tid)
    (htext : ∀ row, NamesOwnKey listed tid row.statusInfo →
      NamesOwnKey listed tid (change row).statusInfo) :
    Confined listed (db.updateTask tid change) := by
  intro t row hrow
  rw [db.tasks_updateTask] at hrow
  split at hrow
  · rename_i hsame
    obtain ⟨old, hold, rfl⟩ := Option.map_eq_some_iff.mp hrow
    obtain ⟨rfl, hnames⟩ := h t old hold
    exact ⟨htid old, by rw [← hsame.1] at hnames ⊢; exact htext old hnames⟩
  · exact h t row hrow

theorem Confined.createTask {db db' : Database} (h : Confined listed db) {task : HotmethodTask}
    (hcreate : db.createTask task = some db')
    (htext : NamesOwnKey listed task.tid task.statusInfo) :
    Confined listed db' := by
  obtain ⟨-, rfl⟩ := db.createTask_eq_some hcreate
  intro t row hrow
  by_cases ht : task.tid = t
  · subst ht
    obtain rfl : task = row := by simpa using hrow
    exact ⟨rfl, htext⟩
  · rw [Std.ExtTreeMap.getElem?_insert, if_neg (by simpa using ht)] at hrow
    exact h t row hrow

/-! ## What a statement may write -/

/-- Every statement leaves the tables confined. -/
def confinement (listed : List (String × String)) : Program.Contract Mark Database Unit where
  knows _ db := Confined listed db
  allows _ _ _ db' _ := Confined listed db'
  mayFail _ := True

section Programs

variable (listed) {α β : Type}

/-- The program keeps the tables confined and ends with such a result. -/
def Confines (Q : α → Prop) (p : Statements α) : Prop :=
  p.Follows (confinement listed) (fun _ result => Q result) ()

variable {listed} {Q : α → Prop} {R : β → Prop}

theorem Confines.pure {result : α} (h : Q result) : Confines listed Q (Pure.pure result) := h

theorem Confines.bind {p : Statements α} {k : α → Statements β} (h : Confines listed Q p)
    (hk : ∀ result, Q result → Confines listed R (k result)) : Confines listed R (p >>= k) := by
  apply Program.Follows.bind h
  intro _ result hresult
  exact hk result hresult

theorem confines_query {mark : Mark} {read : Database → β}
    (hread : ∀ db, Confined listed db → R (read db)) :
    Confines listed (fun answer => ∀ result, answer = some result → R result)
      (Program.query mark read) := by
  intro db hdb
  refine ⟨⟨(), hdb, ?_⟩, fun _ => ⟨(), hdb, ?_⟩⟩
  · intro result hresult
    obtain rfl := Option.some.inj hresult
    exact hread db hdb
  · intro result hresult
    cases hresult

theorem confines_update {mark : Mark} {change : Database → Option Database}
    (hchange : ∀ db db', Confined listed db → change db = some db' → Confined listed db') :
    Confines listed (fun _ => True) (Program.update mark change) := by
  intro db hdb
  refine ⟨⟨(), ?_, trivial⟩, fun _ => ⟨(), hdb, trivial⟩⟩
  show Confined listed ((change db).getD db)
  cases hc : change db with
  | none => exact hdb
  | some db' => exact hchange db db' hdb hc

theorem confines_transact {mark : Mark} {change : Database → β × Database}
    (hchange : ∀ db, Confined listed db → Confined listed (change db).2) :
    Confines listed (fun _ => True) (Program.transact mark change) := by
  intro db hdb
  exact ⟨⟨(), hchange db hdb, trivial⟩, fun _ => ⟨(), hdb, trivial⟩⟩

end Programs

end MiniDrop
