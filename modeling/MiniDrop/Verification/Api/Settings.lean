import MiniDrop.Verification.Api.Accounts

/-! # The settings that an update leaves

The table stands for one value per user and key. An update sets the keys that it brings and leaves
alone those of others, and the token where it brings none. -/

namespace MiniDrop

namespace UserStore

/-- What the table says under a key. -/
def setting (s : UserStore) (uid key : String) : Option String :=
  (s.firstConfig uid key).map UserConfig.value

/-- `t` has this value under one key, and what `s` has under the others. -/
def Sets (s t : UserStore) (uid key value : String) : Prop :=
  ∀ uid' key', t.setting uid' key' =
    if uid' = uid ∧ key' = key then some value else s.setting uid' key'

variable {s t : UserStore} {uid key value : String} {writer : ℕ}

theorem sets_updateConfig (hs : s.Keyed) {row : UserConfig} (hrow : s.firstConfig uid key = some row) :
    s.Sets (s.updateConfig row.id value writer) uid key value := by
  obtain ⟨hmem, hpair⟩ := mem_of_firstConfig hrow
  intro uid' key'
  have hfind : (s.updateConfig row.id value writer).firstConfig uid' key' =
      (s.firstConfig uid' key').map fun other =>
        if other.id = row.id then { other with value, writer } else other := by
    rw [firstConfig, updateConfig, List.find?_map]
    refine congrArg (Option.map _) (congrArg (List.find? · s.configs) (funext fun other => ?_))
    rw [Function.comp_apply]
    split <;> rfl
  rw [setting, hfind, Option.map_map]
  split_ifs with hsame
  · rw [hsame.1, hsame.2, hrow, Option.map_some, Function.comp_apply, if_pos rfl]
  · rw [setting]
    cases hother : s.firstConfig uid' key' with
    | none => rfl
    | some other =>
        obtain ⟨hmem', hpair'⟩ := mem_of_firstConfig hother
        have hid : other.id ≠ row.id := by
          intro hid
          obtain rfl := List.inj_on_of_nodup_map hs.ids hmem' hmem hid
          exact hsame (Prod.mk.inj (hpair'.symm.trans hpair))
        rw [Option.map_some, Option.map_some, Function.comp_apply, if_neg hid]

theorem exists_createConfig (hfree : s.firstConfig uid key = none) (huid : uid.length ≤ 64)
    (hkey : key.length ≤ 128) (value : String) (writer : ℕ) :
    ∃ t, s.createConfig uid key value writer = some t ∧ s.Sets t uid key value := by
  have hunused : (uid, key) ∉ s.configs.map UserConfig.pair := by
    intro hmem
    obtain ⟨row, hrow, hpair⟩ := List.mem_map.mp hmem
    exact absurd (List.find?_eq_none.mp hfree row hrow) (by simpa using hpair)
  rw [createConfig, if_neg hunused, if_neg (by omega)]
  refine ⟨_, rfl, fun uid' key' => ?_⟩
  rw [setting, firstConfig, List.find?_append]
  split_ifs with hsame
  · obtain ⟨rfl, rfl⟩ := hsame
    rw [firstConfig] at hfree
    rw [hfree, List.find?_singleton]
    simp [UserConfig.pair]
  · have hnew : [(⟨s.lastId + 1, uid, key, value, writer⟩ : UserConfig)].find?
        (fun row => row.pair = (uid', key')) = none := by
      refine List.find?_eq_none.mpr fun row hrow => ?_
      rw [List.mem_singleton.mp hrow, decide_eq_true_iff, UserConfig.pair, Prod.mk.injEq]
      exact fun h => hsame ⟨h.1.symm, h.2.symm⟩
    rw [hnew, Option.or_none]
    rfl

end UserStore

/-! ## Statements -/

open UserStore

variable {s : UserStore} {uid : String}

theorem run_getUserConfig (s : UserStore) (uid key : String) :
    (getUserConfig uid key).run s = ((s.setting uid key).getD "", s) := by
  rw [getUserConfig, Program.run_bind, Program.run_query, setting]
  cases s.firstConfig uid key <;> rfl

theorem run_setUserConfig (hs : s.Keyed) (huid : uid.length ≤ 64) (id : ℕ) {key : String}
    (hkey : key.length ≤ 128) (value : String) :
    ∃ t, (setUserConfig id uid key value).run s = (true, t) ∧ t.Keyed ∧ s.Sets t uid key value := by
  rw [setUserConfig, Program.run_bind, Program.run_query]
  cases hrow : s.firstConfig uid key with
  | none =>
      obtain ⟨t, ht, hsets⟩ := exists_createConfig hrow huid hkey value id
      refine ⟨t, ?_, hs.createConfig ht, hsets⟩
      show (Program.update () fun s : UserStore => s.createConfig uid key value id).run s = (true, t)
      rw [Program.run_update, ht]
      rfl
  | some row => exact ⟨_, rfl, hs.updateConfig row.id value id, sets_updateConfig hs hrow⟩

theorem run_getLLMConfig (s : UserStore) (uid : String) :
    (getLLMConfig uid).run s =
      ({ baseURL := (s.setting uid llmBaseURLKey).getD ""
         token := (s.setting uid llmTokenKey).getD ""
         model := defaultModel ((s.setting uid llmModelKey).getD "") }, s) := by
  simp only [getLLMConfig, Program.run_bind, run_getUserConfig, Program.run_pure]

/-! ## Main theorem -/

/-- An address of the service that UpdateLLMSettings accepts. -/
def UpdateLLMSettingsReq.Valid (req : UpdateLLMSettingsReq) : Prop :=
  ¬(trimmed req.baseURL ≠ "" ∧ ¬(trimmed req.baseURL).startsWith "http://" ∧
    ¬(trimmed req.baseURL).startsWith "https://")

/-- The settings after the update. -/
def UpdateLLMSettingsReq.config (req : UpdateLLMSettingsReq) (old : Option String) : LLMConfig where
  baseURL := trimmed req.baseURL
  token := (req.tokenWrite.or old).getD ""
  model := defaultModel (trimmed req.model)

theorem defaultModel_idem (model : String) : defaultModel (defaultModel model) = defaultModel model := by
  rw [defaultModel, defaultModel]
  split_ifs with h
  · rfl
  · rfl
  · rfl

/-- What a request writes under a key. -/
theorem lookup_writes (req : UpdateLLMSettingsReq) (key : String) : req.writes.lookup key =
    if key = llmBaseURLKey then some (trimmed req.baseURL)
    else if key = llmModelKey then some (defaultModel (trimmed req.model))
    else if key = llmTokenKey then req.tokenWrite
    else none := by
  have hcons : ∀ (k v : String) (rest : List (String × String)),
      ((k, v) :: rest).lookup key = if key = k then some v else rest.lookup key := by
    intro k v rest
    rw [List.lookup_cons]
    by_cases h : key = k
    · rw [if_pos h, h, beq_self_eq_true]
    · rw [if_neg h, beq_eq_false_iff_ne.mpr h]
  have htoken : (req.tokenWrite.toList.map fun token => (llmTokenKey, token)).lookup key =
      if key = llmTokenKey then req.tokenWrite else none := by
    cases req.tokenWrite with
    | none => simp
    | some token =>
        rw [Option.toList_some, List.map_singleton, hcons]
        rfl
  rw [UpdateLLMSettingsReq.writes, List.cons_append, List.cons_append, List.nil_append, hcons, hcons,
    htoken]

theorem run_writeToken (hs : s.Keyed) (huid : uid.length ≤ 64) (id : ℕ)
    (update : UpdateLLMSettingsReq) :
    ∃ t, (writeToken id uid update).run s = (true, t) ∧
      ∀ uid' key', t.setting uid' key' = if uid' = uid ∧ key' = llmTokenKey
        then update.tokenWrite.or (s.setting uid' key') else s.setting uid' key' := by
  rw [writeToken]
  cases update.tokenWrite with
  | none => exact ⟨s, rfl, by simp⟩
  | some token =>
      obtain ⟨t, hrun, -, hsets⟩ :=
        run_setUserConfig hs huid id (show llmTokenKey.length ≤ 128 by decide) token
      exact ⟨t, hrun, hsets⟩

end MiniDrop
