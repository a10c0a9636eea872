import Mathlib.Data.List.Chain
import MiniDrop.Verification.Api.Integrity

/-! # The rows of an agent and their audit trail

A sync looks an address up, records a change of the flag, and writes the row, in separate
statements. Overlapping syncs may create the address twice, record one change twice, or record one
that does not take place. -/

namespace MiniDrop

/-! ## Statement -/

/-- The recorded changes of an address, oldest first. -/
def Database.auditTrail (db : Database) (ip : String) : List AgentStateHistory :=
  db.agentHistory.filter fun row => row.ipAddr = ip

/-- The flags of the rows of an address. -/
def Database.flags (db : Database) (ip : String) : List Bool :=
  (db.agents.filter fun agent => agent.ipAddr = ip).map AgentInfo.online

/-- Each row is a change, and starts where the one before it ends. -/
structure Alternates (rows : List AgentStateHistory) : Prop where
  changes : ∀ row ∈ rows, row.fromState = !row.toState
  contiguous : rows.IsChain fun a b => b.fromState = a.toState

/-- The last change of an address led to the flag of its row. -/
def Database.LeadsToFlag (db : Database) (ip : String) : Prop :=
  ∀ row ∈ (db.auditTrail ip).getLast?, (db.flags ip).head? = some row.toState

/-- Agents have distinct ids, as the primary key of the table has it, no two rows share an address,
and the trails lead to the flags. -/
structure AgentsAudited (db : Database) : Prop where
  keyed : AgentsKeyed db
  unique : ∀ ip, (db.flags ip).length ≤ 1
  alternates : ∀ ip, Alternates (db.auditTrail ip)
  leads : ∀ ip, db.LeadsToFlag ip

/-- In all runs of group requests whose steps satisfy `ok`, an address has one row at most and its
trail alternates. When everything has ended, it has led to the flag. -/
def KeepsAgentAudit (ok : GroupPool → Pool.Event GroupRequest → Prop) : Prop :=
  ∀ start, AgentsAudited start → ∀ pool : GroupPool,
    Transition.Reachable (Pool.step GroupRequest.program) ok { store := start } pool →
      ∀ ip, (pool.store.flags ip).length ≤ 1 ∧ Alternates (pool.store.auditTrail ip) ∧
        (pool.Quiet → pool.store.LeadsToFlag ip)

/-! ## The condition -/

/-- A row is written while it is as it was read, and created while there is none. Once the address
has a trail, neither a record nor the write that it announces fails. -/
structure SyncsSoundly (mark : Mark) (s : Database) (fails : Bool) : Prop where
  current : fails = false → ∀ agent ∈ mark.agent,
    (s.agent? agent.ip).map AgentInfo.online = agent.saw
  recorded : fails = true → ∀ agent ∈ mark.agent, agent.audits = true ∨ agent.audited = true →
    s.auditTrail agent.ip = []

/-- No change is recorded while another sync has recorded one of the address and not written it. -/
def WaitsForWrite (marks : List (Option Mark)) (i : ℕ) (mark : Mark) (fails : Bool) : Prop :=
  fails = false → ∀ agent ∈ mark.agent, agent.audits = true → ∀ last ∈ marks.eraseIdx i,
    ∀ other ∈ last, ∀ pending ∈ other.agent, pending.audits = true → pending.ip ≠ agent.ip

instance (mark : Mark) (s : Database) (fails : Bool) : Decidable (SyncsSoundly mark s fails) :=
  decidable_of_iff
    ((fails = false → ∀ agent ∈ mark.agent,
        (s.agent? agent.ip).map AgentInfo.online = agent.saw) ∧
      (fails = true → ∀ agent ∈ mark.agent, agent.audits = true ∨ agent.audited = true →
        s.auditTrail agent.ip = []))
    ⟨fun h => ⟨h.1, h.2⟩, fun h => ⟨h.current, h.recorded⟩⟩

instance (marks : List (Option Mark)) (i : ℕ) (mark : Mark) (fails : Bool) :
    Decidable (WaitsForWrite marks i mark fails) :=
  inferInstanceAs (Decidable (fails = false → _))

abbrev SoundSync : GroupPool → Pool.Event GroupRequest → Prop :=
  Pool.Lawful (fun _ => True) fun marks i mark s fails =>
    SyncsSoundly mark s fails ∧ WaitsForWrite marks i mark fails

/-! ## Phases -/

/-- How far a thread is with an agent, seen from one address. -/
inductive SyncPhase where
  | idle
  /-- It has found the row of an address. -/
  | seen (id : ℕ) (addr : String)
  /-- It has recorded a change of the address. -/
  | pending (id : ℕ) (saw : Bool)
  /-- It could not record a change of the address, which has no trail. -/
  | lost (id : ℕ)
deriving DecidableEq

namespace SyncPhase

/-- The row that the thread is about to write. -/
def row? (ip : String) : SyncPhase → Option (ℕ × String)
  | idle => none
  | seen id addr => some (id, addr)
  | pending id _ | lost id => some (id, ip)

def isPending : SyncPhase → Bool
  | pending .. => true
  | _ => false

def isLost : SyncPhase → Bool
  | lost _ => true
  | _ => false

end SyncPhase

/-- The agent has this id and address. -/
def HasRow (db : Database) (row : ℕ × String) : Prop :=
  ∃ agent ∈ db.agents, agent.id = row.1 ∧ agent.ipAddr = row.2

/-- The statement records a change of the address. -/
def Mark.Audits (mark : Mark) (ip : String) : Prop :=
  ∃ agent, mark.agent = some agent ∧ agent.audits = true ∧ agent.ip = ip

/-- One statement of a thread, by what it does to the flag and the trail of the address. -/
inductive SyncStep (ip : String) : SyncPhase → Mark → Database → Database → SyncPhase → Prop where
  | keep {φ φ' : SyncPhase} {mark : Mark} {s t : Database} (hφ : φ.isPending = false)
      (hφ' : φ'.isPending = false ∧ φ'.isLost = false) (hflags : t.flags ip = s.flags ip)
      (htrail : t.auditTrail ip = s.auditTrail ip) : SyncStep ip φ mark s t φ'
  | audit {id : ℕ} {mark : Mark} {s t : Database} {row : AgentStateHistory}
      (hmark : mark.Audits ip) (hflag : (s.flags ip).head? = some row.fromState)
      (hrow : row.fromState = !row.toState) (hflags : t.flags ip = s.flags ip)
      (htrail : t.auditTrail ip = s.auditTrail ip ++ [row]) :
      SyncStep ip (.seen id ip) mark s t (.pending id row.fromState)
  | lose {id : ℕ} {mark : Mark} {s : Database} (hmark : mark.Audits ip)
      (hempty : s.auditTrail ip = []) : SyncStep ip (.seen id ip) mark s s (.lost id)
  | settle {id : ℕ} {saw : Bool} {mark : Mark} {s t : Database} (hflags : t.flags ip = [!saw])
      (htrail : t.auditTrail ip = s.auditTrail ip) : SyncStep ip (.pending id saw) mark s t .idle
  | change {φ : SyncPhase} {mark : Mark} {s t : Database} (hφ : φ.isPending = false)
      (hempty : s.auditTrail ip = [] ∨ s.flags ip = []) (hunique : (t.flags ip).length ≤ 1)
      (htrail : t.auditTrail ip = s.auditTrail ip) : SyncStep ip φ mark s t .idle

def syncLaw (ip : String) : Program.Law Mark Database SyncPhase where
  knows φ s := AgentsKeyed s ∧ (s.flags ip).length ≤ 1 ∧ (∀ row ∈ φ.row? ip, HasRow s row) ∧
    (φ.isLost = true → s.auditTrail ip = []) ∧ (φ.isPending = true → s.auditTrail ip ≠ [])
  may := SyncsSoundly
  allows φ mark s t φ' := AgentsKeyed t ∧ (∀ row, HasRow s row → HasRow t row) ∧
    (∀ row ∈ φ'.row? ip, HasRow t row) ∧ SyncStep ip φ mark s t φ'

/-! ## All threads -/

/-- The phases of the threads fit the rows and the trail of the address. -/
structure SyncsFit (ip : String) (slots : List (Pool.Slot Mark SyncPhase)) (s : Database) :
    Prop where
  keyed : AgentsKeyed s
  rows : ∀ slot ∈ slots, ∀ row ∈ slot.1.row? ip, HasRow s row
  marked : ∀ slot ∈ slots, slot.1.isPending = true ∨ slot.1.isLost = true →
    ∃ mark, slot.2 = some mark ∧ mark.Audits ip
  unique : (s.flags ip).length ≤ 1
  alternates : Alternates (s.auditTrail ip)
  single : Pool.tally SyncPhase.isPending slots ≤ 1
  settled : Pool.tally SyncPhase.isPending slots = 0 →
    ∀ row ∈ (s.auditTrail ip).getLast?, (s.flags ip).head? = some row.toState
  pending : ∀ slot ∈ slots, ∀ id saw, slot.1 = .pending id saw →
    ∃ row, (s.auditTrail ip).getLast? = some row ∧ row.toState = !saw ∧ s.flags ip = [saw]
  lost : ∀ slot ∈ slots, slot.1.isLost = true → s.auditTrail ip = []

theorem Alternates.append {rows : List AgentStateHistory} {row : AgentStateHistory}
    (h : Alternates rows) (hrow : row.fromState = !row.toState)
    (hlast : ∀ last ∈ rows.getLast?, row.fromState = last.toState) :
    Alternates (rows ++ [row]) where
  changes := by
    intro other hmem
    rcases List.mem_append.mp hmem with hmem | hmem
    · exact h.changes other hmem
    · rw [List.mem_singleton.mp hmem]
      exact hrow
  contiguous := by
    refine List.isChain_append.mpr ⟨h.contiguous, .singleton _, fun last hmem other hother => ?_⟩
    rw [List.head?_cons, Option.mem_def, Option.some.injEq] at hother
    rw [← hother]
    exact hlast last hmem

section SyncsFit

variable {ip : String} {slots : List (Pool.Slot Mark SyncPhase)} {s t : Database} {i : ℕ}
  {φ φ' : SyncPhase} {last last' : Option Mark} {mark : Mark}

/-- The only flag of an address. -/
theorem flags_eq {flag : Bool} (hunique : (s.flags ip).length ≤ 1)
    (hflag : (s.flags ip).head? = some flag) : s.flags ip = [flag] := by
  cases hflags : s.flags ip with
  | nil => simp [hflags] at hflag
  | cons b rest =>
      rw [hflags] at hunique hflag
      obtain rfl := Option.some.inj hflag
      rw [List.length_cons] at hunique
      have hrest : rest = [] := List.length_eq_zero_iff.mp (by omega)
      rw [hrest]

theorem SyncsFit.noPending (h : SyncsFit ip slots s)
    (hempty : s.auditTrail ip = [] ∨ s.flags ip = []) :
    Pool.tally SyncPhase.isPending slots = 0 := by
  by_contra htally
  obtain ⟨slot, hmem, hpending⟩ := Pool.tally_pos.mp (Nat.pos_of_ne_zero htally)
  cases hslot : slot.1 with
  | idle | seen | lost => simp [hslot, SyncPhase.isPending] at hpending
  | pending id saw =>
      obtain ⟨row, hrow, -, hflags⟩ := h.pending slot hmem id saw hslot
      rcases hempty with hempty | hempty
      · simp [hempty] at hrow
      · simp [hempty] at hflags

/-- Where no thread is pending, none has recorded anything. -/
theorem ne_pending_of_tally (hzero : Pool.tally SyncPhase.isPending slots = 0)
    {slot : Pool.Slot Mark SyncPhase} (hmem : slot ∈ slots) (id : ℕ) (saw : Bool) :
    slot.1 ≠ .pending id saw := by
  intro hphase
  have hpending : slot.1.isPending = true := by
    rw [hphase]
    rfl
  have hpos := Pool.tally_pos.mpr ⟨slot, hmem, hpending⟩
  omega

theorem SyncsFit.step (h : SyncsFit ip slots s) (hslot : slots[i]? = some (φ, last))
    (hwaits : t ≠ s → mark.Audits ip → ∀ slot ∈ slots.eraseIdx i, ∀ other, slot.2 = some other →
      ¬ other.Audits ip)
    (hallows : (syncLaw ip).allows φ mark s t φ')
    (hlast : last' = some mark ∨ last' = none ∧ φ' = .idle) :
    SyncsFit ip (slots.set i (φ', last')) t := by
  obtain ⟨hkeyed, hmono, hrow', hstep⟩ := hallows
  have htally : Pool.tally SyncPhase.isPending (slots.set i (φ', last')) + φ.isPending.toNat =
      Pool.tally SyncPhase.isPending slots + φ'.isPending.toNat := Pool.tally_set hslot
  have hrows : ∀ slot ∈ slots.set i (φ', last'), ∀ row ∈ slot.1.row? ip, HasRow t row := by
    intro slot hmem row hrow
    rcases List.mem_set_cases hmem with rfl | hmem
    · exact hrow' row hrow
    · exact hmono row (h.rows slot (List.mem_of_mem_eraseIdx hmem) row hrow)
  have hmarked : (φ'.isPending = true ∨ φ'.isLost = true → mark.Audits ip) →
      ∀ slot ∈ slots.set i (φ', last'), slot.1.isPending = true ∨ slot.1.isLost = true →
        ∃ mark, slot.2 = some mark ∧ mark.Audits ip := by
    intro hnew slot hmem hphase
    rcases List.mem_set_cases hmem with rfl | hmem
    · rcases hlast with rfl | ⟨-, rfl⟩
      · exact ⟨mark, rfl, hnew hphase⟩
      · simp [SyncPhase.isPending, SyncPhase.isLost] at hphase
    · exact h.marked slot (List.mem_of_mem_eraseIdx hmem) hphase
  have hlost : φ'.isLost = false → t.auditTrail ip = s.auditTrail ip →
      ∀ slot ∈ slots.set i (φ', last'), slot.1.isLost = true → t.auditTrail ip = [] := by
    intro hφ' htrail slot hmem hphase
    rw [htrail]
    rcases List.mem_set_cases hmem with rfl | hmem
    · simp [hφ'] at hphase
    · exact h.lost slot (List.mem_of_mem_eraseIdx hmem) hphase
  cases hstep with
  | keep hφ hφ' hflags htrail =>
      rw [hφ, hφ'.1] at htally
      refine ⟨hkeyed, hrows, hmarked ?_, hflags ▸ h.unique, htrail ▸ h.alternates, ?_, ?_, ?_,
        hlost hφ'.2 htrail⟩
      · simp [hφ']
      · have hsingle := h.single
        omega
      · rw [hflags, htrail]
        exact fun hzero => h.settled (by omega)
      · rw [hflags, htrail]
        intro slot hmem id saw hphase
        rcases List.mem_set_cases hmem with rfl | hmem
        · simp [show φ' = _ from hphase, SyncPhase.isPending] at hφ'
        · exact h.pending slot (List.mem_of_mem_eraseIdx hmem) id saw hphase
  | @audit id _ _ _ row hmark hflag hrow hflags htrail =>
      have hchanged : t ≠ s := fun heq => by simp [heq] at htrail
      -- no other thread stands between a record and its write
      have hothers : ∀ slot ∈ slots.eraseIdx i,
          ¬ (slot.1.isPending = true ∨ slot.1.isLost = true) := by
        intro slot hmem hphase
        obtain ⟨other, hother, haudits⟩ := h.marked slot (List.mem_of_mem_eraseIdx hmem) hphase
        exact hwaits hchanged hmark slot hmem other hother haudits
      have hzero : Pool.tally SyncPhase.isPending slots = 0 := by
        by_contra htally
        obtain ⟨slot, hmem, hpending⟩ := Pool.tally_pos.mp (Nat.pos_of_ne_zero htally)
        rcases List.mem_cases hslot hmem with rfl | hmem
        · simp [SyncPhase.isPending] at hpending
        · exact hothers slot hmem (.inl hpending)
      simp only [SyncPhase.isPending, Bool.toNat_false, Bool.toNat_true] at htally
      refine ⟨hkeyed, hrows, hmarked fun _ => hmark, hflags ▸ h.unique, ?_, by omega,
        fun hnone => by omega, ?_, ?_⟩
      · rw [htrail]
        refine h.alternates.append hrow fun before hbefore => ?_
        have hsettled := h.settled hzero before hbefore
        exact Option.some.inj (hflag.symm.trans hsettled)
      · intro slot hmem id' saw hphase
        rcases List.mem_set_cases hmem with rfl | hmem
        · obtain ⟨rfl, rfl⟩ := SyncPhase.pending.inj hphase
          refine ⟨row, by simp [htrail], by rw [hrow, Bool.not_not], ?_⟩
          rw [hflags]
          exact flags_eq h.unique hflag
        · exact absurd (.inl (by rw [hphase]; rfl)) (hothers slot hmem)
      · intro slot hmem hphase
        rcases List.mem_set_cases hmem with rfl | hmem
        · simp [SyncPhase.isLost] at hphase
        · exact absurd (.inr hphase) (hothers slot hmem)
  | @lose id _ _ hmark hempty =>
      simp only [SyncPhase.isPending, Bool.toNat_false, Nat.add_zero] at htally
      have hsingle := h.single
      refine ⟨hkeyed, hrows, hmarked fun _ => hmark, h.unique, h.alternates, by omega,
        fun hnone => h.settled (by omega), ?_, fun _ _ _ => hempty⟩
      intro slot hmem id' saw hphase
      rcases List.mem_set_cases hmem with rfl | hmem
      · cases hphase
      · exact h.pending slot (List.mem_of_mem_eraseIdx hmem) id' saw hphase
  | @settle id saw _ _ _ hflags htrail =>
      simp only [SyncPhase.isPending, Bool.toNat_false, Bool.toNat_true] at htally
      have hsingle := h.single
      have hnone : Pool.tally SyncPhase.isPending (slots.set i (.idle, last')) = 0 := by omega
      obtain ⟨row, hrow, hto, -⟩ := h.pending _ (List.mem_of_getElem? hslot) id saw rfl
      refine ⟨hkeyed, hrows, hmarked ?_, by simp [hflags], htrail ▸ h.alternates, by omega, ?_,
        fun slot hmem id saw hphase => absurd hphase (ne_pending_of_tally hnone hmem id saw),
        hlost rfl htrail⟩
      · simp [SyncPhase.isPending, SyncPhase.isLost]
      · intro _ other hother
        rw [htrail, hrow, Option.mem_def, Option.some.injEq] at hother
        rw [hflags, ← hother, hto]
        rfl
  | change hφ hempty hunique htrail =>
      have hzero := h.noPending hempty
      have hidle : SyncPhase.idle.isPending = false := rfl
      rw [hφ, hidle] at htally
      have hnone : Pool.tally SyncPhase.isPending (slots.set i (.idle, last')) = 0 := by omega
      refine ⟨hkeyed, hrows, hmarked ?_, hunique, htrail ▸ h.alternates, by omega, ?_,
        fun slot hmem id saw hphase => absurd hphase (ne_pending_of_tally hnone hmem id saw),
        hlost rfl htrail⟩
      · simp [SyncPhase.isPending, SyncPhase.isLost]
      · intro _ row hrow
        rw [htrail] at hrow
        rcases hempty with hempty | hempty
        · simp [hempty] at hrow
        · have hsettled := h.settled hzero row hrow
          simp [hempty] at hsettled

end SyncsFit

/-- The order of the threads, seen from one address. -/
def syncOrder (ip : String) : Pool.Order Mark Database SyncPhase where
  toLaw := syncLaw ip
  initial := .idle
  final φ := φ = .idle
  permits marks i mark s fails := SyncsSoundly mark s fails ∧ WaitsForWrite marks i mark fails
  permits_may _ _ _ _ _ h := h.1
  fits := SyncsFit ip
  fits_start slots s h := by
    have hmem : ∀ slot ∈ slots ++ [(SyncPhase.idle, none)],
        slot ∈ slots ∨ slot = (.idle, none) := by
      simp
    refine ⟨h.keyed, ?_, ?_, h.unique, h.alternates, by simpa [SyncPhase.isPending] using h.single,
      fun hzero => h.settled (by simpa [SyncPhase.isPending] using hzero), ?_, ?_⟩ <;>
      intro slot hslot <;> rcases hmem slot hslot with hslot | rfl
    · exact h.rows slot hslot
    · exact fun _ hrow => by cases hrow
    · exact h.marked slot hslot
    · exact fun hphase => by simp [SyncPhase.isPending, SyncPhase.isLost] at hphase
    · exact h.pending slot hslot
    · exact fun _ _ hphase => by cases hphase
    · exact h.lost slot hslot
    · exact fun hphase => by simp [SyncPhase.isLost] at hphase
  fits_knows slots s i φ last h hslot := by
    have hmem := List.mem_of_getElem? hslot
    refine ⟨h.keyed, h.unique, h.rows _ hmem, h.lost _ hmem, fun hpending hempty => ?_⟩
    cases φ with
    | idle | seen | lost => simp [SyncPhase.isPending] at hpending
    | pending id saw =>
        obtain ⟨row, hrow, -⟩ := h.pending _ hmem id saw rfl
        simp [hempty] at hrow
  fits_advance slots s i φ last mark fails t φ' last' h hslot hpermits hfails hallows hlast := by
    refine h.step hslot (fun hchanged ⟨agent, hagent, haudits, haddr⟩ slot hmem other hother => ?_)
      hallows hlast
    rintro ⟨pending, hpending, hpendingaudits, hpendingaddr⟩
    have htook : fails = false := by
      by_contra hfailed
      exact hchanged (hfails (by simpa using hfailed))
    have hmoved : slot.2 ∈ (slots.map Prod.snd).eraseIdx i := by
      rw [List.eraseIdx_map]
      exact List.mem_map_of_mem hmem
    exact hpermits.2 htook agent hagent haudits slot.2 hmoved other hother pending hpending
      hpendingaudits (hpendingaddr.trans haddr.symm)

/-! ## Programs -/

section Programs

variable {ip : String} {s t : Database} {φ : SyncPhase} {α β : Type}

/-- A thread that starts and ends without an agent. -/
abbrev SyncsIdle (ip : String) (p : Statements α) : Prop :=
  p.Abides (syncLaw ip) (fun φ _ => φ = .idle) .idle

theorem SyncsIdle.pure (result : α) : SyncsIdle ip (Pure.pure result) :=
  (rfl : SyncPhase.idle = .idle)

theorem SyncsIdle.bind {p : Statements α} {k : α → Statements β} (h : SyncsIdle ip p)
    (hk : ∀ result, SyncsIdle ip (k result)) : SyncsIdle ip (p >>= k) := by
  refine Program.Abides.bind h ?_
  rintro _ result rfl
  exact hk result

/-- Id, address and flag of each agent, and the trails. -/
def Database.registry (db : Database) : List (ℕ × String × Bool) × List AgentStateHistory :=
  (db.agents.map fun agent => (agent.id, agent.ipAddr, agent.online), db.agentHistory)

/-- What other columns hold does not matter. -/
theorem registry_frame (ip : String) (h : t.registry = s.registry) :
    (AgentsKeyed s → AgentsKeyed t) ∧ (∀ row, HasRow s row → HasRow t row) ∧
      t.flags ip = s.flags ip ∧ t.auditTrail ip = s.auditTrail ip := by
  obtain ⟨hagents, hhistory⟩ := Prod.ext_iff.mp h
  dsimp only [Database.registry] at hagents hhistory
  refine ⟨fun hkeys => ?_, fun row hrow => ?_, ?_, ?_⟩
  · have hids := congrArg (List.map Prod.fst) hagents
    simp only [List.map_map, Function.comp_def] at hids
    unfold AgentsKeyed
    rw [hids]
    exact hkeys
  · obtain ⟨agent, hmem, hid, haddr⟩ := hrow
    have hmoved := List.mem_map_of_mem (f := fun agent : AgentInfo =>
      (agent.id, agent.ipAddr, agent.online)) hmem
    rw [← hagents] at hmoved
    obtain ⟨agent', hmem', heq⟩ := List.mem_map.mp hmoved
    simp only [Prod.mk.injEq] at heq
    exact ⟨agent', hmem', heq.1.trans hid, heq.2.1.trans haddr⟩
  · have hflags := congrArg (fun rows => (rows.filter fun row : ℕ × String × Bool =>
      row.2.1 = ip).map fun row => row.2.2) hagents
    unfold Database.flags
    simpa only [List.filter_map, List.map_map, Function.comp_def] using hflags
  · unfold Database.auditTrail
    rw [hhistory]

theorem syncLaw_keep {mark : Mark} (hφ : φ.isPending = false) (hs : (syncLaw ip).knows φ s)
    (h : t.registry = s.registry) : (syncLaw ip).allows φ mark s t .idle := by
  obtain ⟨hkeys, hrows, hflags, htrail⟩ := registry_frame ip h
  exact ⟨hkeys hs.1, hrows, (fun _ hrow => by cases hrow), .keep hφ ⟨rfl, rfl⟩ hflags htrail⟩

theorem syncsIdle_of_preserves {p : Statements α} (h : p.Preserves Database.registry) :
    SyncsIdle ip p := by
  induction p with
  | done result => exact SyncsIdle.pure _
  | stmt mark act next failed ihnext ihfailed =>
      intro s hs
      exact ⟨fun _ => ⟨.idle, syncLaw_keep rfl hs (h.1 s), ihnext s (h.2.1 s)⟩,
        fun _ => ⟨.idle, syncLaw_keep rfl hs rfl, ihfailed h.2.2⟩⟩

/-! ### One agent -/

theorem mem_agents_of_agent? {addr : String} {agent : AgentInfo}
    (h : s.agent? addr = some agent) : HasRow s (agent.id, addr) :=
  ⟨agent, List.mem_of_find?_eq_some h, rfl, by simpa using List.find?_some h⟩

theorem head?_flags (addr : String) :
    (s.flags addr).head? = (s.agent? addr).map AgentInfo.online := by
  unfold Database.flags Database.agent?
  rw [List.head?_map, List.head?_filter]

theorem abides_lookup (addr : String) :
    (Program.query {} fun db : Database => db.agent? addr).Abides (syncLaw ip) (fun φ found =>
      φ = found.join.elim .idle fun agent => .seen agent.id addr) .idle := by
  intro s hs
  refine ⟨fun _ => ?_, fun _ => ⟨.idle, syncLaw_keep rfl hs rfl, rfl⟩⟩
  cases hagent : s.agent? addr with
  | none =>
      refine ⟨.idle, syncLaw_keep rfl hs rfl, ?_⟩
      show SyncPhase.idle = ((some (s.agent? addr)).join).elim _ _
      rw [hagent]
      rfl
  | some agent =>
      refine ⟨.seen agent.id addr, ⟨hs.1, fun _ h => h, ?_, .keep rfl ⟨rfl, rfl⟩ rfl rfl⟩, ?_⟩
      · intro row hrow
        obtain rfl := Option.some.inj hrow
        exact mem_agents_of_agent? hagent
      · show SyncPhase.seen agent.id addr = ((some (s.agent? addr)).join).elim _ _
        rw [hagent]
        rfl

/-- The row of an agent is written. -/
theorem flags_updateAgent (ip : String) {id : ℕ} {addr : String} {flag : Bool}
    {change : AgentInfo → AgentInfo} (hkeys : AgentsKeyed s) (hrow : HasRow s (id, addr))
    (haddr : ∀ row, (change row).ipAddr = row.ipAddr)
    (honline : ∀ row, (change row).online = flag) :
    (addr ≠ ip → (s.updateAgent id change).flags ip = s.flags ip) ∧
      (addr = ip → (s.flags ip).length ≤ 1 → (s.updateAgent id change).flags ip = [flag]) := by
  obtain ⟨agent, hmem, rfl, rfl⟩ := hrow
  have hsame : ∀ row, ((if row.id = agent.id then change row else row).ipAddr = ip) ↔
      row.ipAddr = ip := by
    intro row
    split
    · rw [haddr]
    · exact Iff.rfl
  constructor
  · intro hother
    unfold Database.flags Database.updateAgent
    rw [List.filter_map_of_fixed]
    · intro row
      simp only [hsame]
    · intro row hrow hip
      refine if_neg fun hid => hother ?_
      rw [← List.inj_on_of_nodup_map hkeys hrow hmem hid]
      exact of_decide_eq_true hip
  · rintro rfl hunique
    have honly : s.agents.filter (fun row => row.ipAddr = agent.ipAddr) = [agent] := by
      have hin : agent ∈ s.agents.filter fun row => row.ipAddr = agent.ipAddr :=
        List.mem_filter.mpr ⟨hmem, decide_eq_true rfl⟩
      unfold Database.flags at hunique
      rw [List.length_map] at hunique
      obtain ⟨row, hrow⟩ := List.length_eq_one_iff.mp
        (Nat.le_antisymm hunique (List.length_pos_of_mem hin))
      rw [hrow] at hin ⊢
      rw [List.mem_singleton.mp hin]
    unfold Database.flags Database.updateAgent
    rw [List.filter_map]
    simp only [Function.comp_def, hsame, honly, List.map_cons, List.map_nil, if_true, honline]

/-- How far a sync is after it has tried to record a change. -/
def ChangeTried (ip addr : String) (agent : AgentInfo) (φ : SyncPhase) : Prop :=
  addr ≠ ip ∧ φ = .seen agent.id addr ∨
    addr = ip ∧ (φ = .pending agent.id agent.online ∨ φ = .lost agent.id)

theorem abides_audit {addr : String} {agent : AgentInfo} {row : AgentStateHistory}
    (haddr : row.ipAddr = addr) (hfrom : row.fromState = agent.online)
    (hchange : row.fromState = !row.toState) :
    (Program.update { agent := some { ip := addr, saw := some agent.online, audits := true } }
      fun db : Database => some { db with agentHistory := db.agentHistory ++ [row] }).Abides
        (syncLaw ip) (fun φ _ => ChangeTried ip addr agent φ) (.seen agent.id addr) := by
  rintro s ⟨hkeys, hunique, hrows, -, -⟩
  have hrow : HasRow s (agent.id, addr) := hrows _ rfl
  have htrail : ∀ t : Database, t.agentHistory = s.agentHistory ++ [row] →
      t.auditTrail ip = s.auditTrail ip ++ if addr = ip then [row] else [] := by
    intro t ht
    unfold Database.auditTrail
    rw [ht, List.filter_append, List.filter_singleton, haddr]
    by_cases hip : addr = ip <;> simp [hip]
  by_cases hip : addr = ip
  · subst hip
    constructor
    · intro hmay
      have hflag : (s.flags addr).head? = some row.fromState := by
        rw [head?_flags, hfrom]
        exact hmay.current rfl _ rfl
      refine ⟨.pending agent.id row.fromState, ⟨hkeys, fun _ h => h, ?_, .audit ⟨_, rfl, rfl, rfl⟩
        hflag hchange rfl ?_⟩, .inr ⟨rfl, .inl (by rw [hfrom])⟩⟩
      · intro other hother
        obtain rfl := Option.some.inj hother
        exact hrow
      · rw [htrail _ rfl, if_pos rfl]
    · intro hmay
      refine ⟨.lost agent.id, ⟨hkeys, fun _ h => h, ?_, .lose ⟨_, rfl, rfl, rfl⟩ ?_⟩,
        .inr ⟨rfl, .inr rfl⟩⟩
      · intro other hother
        obtain rfl := Option.some.inj hother
        exact hrow
      · exact hmay.recorded rfl _ rfl (.inl rfl)
  · have hkeep : ∀ mark history, Database.auditTrail { s with agentHistory := history } ip =
        s.auditTrail ip → (syncLaw ip).allows (.seen agent.id addr) mark s
          { s with agentHistory := history } (.seen agent.id addr) := by
      intro mark history htrail
      refine ⟨hkeys, fun _ h => h, fun other hother => ?_, .keep rfl ⟨rfl, rfl⟩ rfl htrail⟩
      obtain rfl := Option.some.inj hother
      exact hrow
    refine ⟨fun _ => ⟨_, hkeep _ _ ?_, .inl ⟨hip, rfl⟩⟩, fun _ => ⟨_, hkeep _ s.agentHistory rfl,
      .inl ⟨hip, rfl⟩⟩⟩
    rw [htrail _ rfl, if_neg hip, List.append_nil]

/-- The row is written after the change was recorded, or where there is none. -/
theorem abides_write {now : ℤ} {gid : ℕ} {remote : AgentStatus} {agent : AgentInfo} {mark : Mark}
    (hmark : mark.agent = some ⟨remote.ipAddr, some agent.online, false,
      decide (agent.online ≠ remote.online)⟩)
    (hφ : φ = .seen agent.id remote.ipAddr ∧ (remote.ipAddr ≠ ip ∨ agent.online = remote.online) ∨
      ChangeTried ip remote.ipAddr agent φ ∧ agent.online ≠ remote.online) :
    (Program.update mark fun db : Database =>
      some (db.updateAgent agent.id fun row => row.sync now gid remote)).Abides (syncLaw ip)
        (fun φ _ => φ = .idle) φ := by
  intro s hs
  obtain ⟨hkeys, hunique, hrows, hlost, hpending⟩ := hs
  have hrow : HasRow s (agent.id, remote.ipAddr) := by
    refine hrows _ ?_
    rcases hφ with ⟨rfl, -⟩ | ⟨⟨-, rfl⟩ | ⟨hip, rfl | rfl⟩, -⟩
    · rfl
    · rfl
    · rw [hip]
      rfl
    · rw [hip]
      rfl
  have hstays : φ.isPending = false → (syncLaw ip).allows φ mark s s .idle := fun hφ =>
    syncLaw_keep hφ ⟨hkeys, hunique, hrows, hlost, hpending⟩ rfl
  have hallows : ∀ t : Database, t = (s.updateAgent agent.id fun row => row.sync now gid remote) →
      SyncStep ip φ mark s t .idle → (syncLaw ip).allows φ mark s t .idle := by
    rintro t rfl hstep
    refine ⟨hkeys.updateAgent fun _ => rfl, fun other hother => ?_, (fun _ hrow => by cases hrow),
      hstep⟩
    obtain ⟨row, hmem, hid, haddr⟩ := hother
    refine ⟨_, List.mem_map_of_mem hmem, ?_⟩
    split
    · exact ⟨hid, haddr⟩
    · exact ⟨hid, haddr⟩
  have hchange : ∀ row : AgentInfo, (row.sync now gid remote).ipAddr = row.ipAddr := fun _ => rfl
  have honline : ∀ row : AgentInfo, (row.sync now gid remote).online = remote.online :=
    fun _ => rfl
  obtain ⟨hother, hsame⟩ := flags_updateAgent ip hkeys hrow hchange honline
  rcases hφ with ⟨rfl, hquiet⟩ | ⟨⟨hip, rfl⟩ | ⟨hip, rfl | rfl⟩, hne⟩
  · refine ⟨fun hmay => ⟨.idle, hallows _ rfl (.keep rfl ⟨rfl, rfl⟩ ?_ rfl), rfl⟩,
      fun _ => ⟨.idle, hstays rfl, rfl⟩⟩
    by_cases hip : remote.ipAddr = ip
    · -- the flag is what it was
      have hflag := hmay.current rfl _ hmark
      rw [← head?_flags] at hflag
      subst hip
      rw [flags_eq hunique hflag, hquiet.resolve_left (not_not.mpr rfl)]
      exact hsame rfl hunique
    · exact hother hip
  · exact ⟨fun _ => ⟨.idle, hallows _ rfl (.keep rfl ⟨rfl, rfl⟩ (hother hip) rfl), rfl⟩,
      fun _ => ⟨.idle, hstays rfl, rfl⟩⟩
  · refine ⟨fun _ => ⟨.idle, hallows _ rfl (.settle ?_ rfl), rfl⟩, fun hmay => ?_⟩
    · show (s.updateAgent agent.id _).flags ip = _
      rw [hsame hip hunique]
      cases hbefore : agent.online <;> cases hafter : remote.online <;> simp_all
    · have hempty := hmay.recorded rfl _ hmark (.inr (decide_eq_true hne))
      rw [show remote.ipAddr = ip from hip] at hempty
      exact absurd hempty (hpending rfl)
  · refine ⟨fun _ => ⟨.idle, hallows _ rfl (.change rfl (.inl (hlost rfl)) ?_ rfl), rfl⟩,
      fun _ => ⟨.idle, hstays rfl, rfl⟩⟩
    show ((s.updateAgent agent.id _).flags ip).length ≤ 1
    rw [hsame hip hunique]
    exact Nat.le_refl 1

theorem abides_create {now : ℤ} {gid : ℕ} {remote : AgentStatus} {mark : Mark}
    (hmark : mark.agent = some { ip := remote.ipAddr, saw := none }) :
    SyncsIdle ip (Program.update mark fun db : Database => some (db.createAgent
      (AgentInfo.sync { ipAddr := remote.ipAddr, environment := "default" } now gid remote))) := by
  intro s hs
  refine ⟨fun hmay => ⟨.idle, ⟨hs.1.createAgent, fun row ⟨agent, hmem, hrow⟩ =>
    ⟨agent, List.mem_append_left _ hmem, hrow⟩, (fun _ hrow => by cases hrow), ?_⟩, rfl⟩,
    fun _ => ⟨.idle, syncLaw_keep rfl hs rfl, rfl⟩⟩
  have hflags : ∀ agent : AgentInfo, (s.createAgent agent).flags ip =
      s.flags ip ++ if agent.ipAddr = ip then [agent.online] else [] := by
    intro agent
    unfold Database.flags Database.createAgent
    rw [List.filter_append, List.filter_singleton, List.map_append]
    by_cases hip : agent.ipAddr = ip <;> simp [hip]
  have haddr : (AgentInfo.sync { ipAddr := remote.ipAddr, environment := "default" } now gid
    remote).ipAddr = remote.ipAddr := rfl
  by_cases hip : remote.ipAddr = ip
  · have hnone := hmay.current rfl _ hmark
    rw [← head?_flags, show remote.ipAddr = ip from hip] at hnone
    have hempty : s.flags ip = [] := List.head?_eq_none_iff.mp hnone
    refine .change rfl (.inr hempty) ?_ rfl
    show ((s.createAgent _).flags ip).length ≤ 1
    rw [hflags, haddr, hempty, if_pos hip]
    exact Nat.le_refl 1
  · refine .keep rfl ⟨rfl, rfl⟩ ?_ rfl
    show (s.createAgent _).flags ip = _
    rw [hflags, haddr, if_neg hip, List.append_nil]

/-! ### Syncs -/

theorem syncsIdle_syncAgent (now : ℤ) (ownerGid : ℕ) (remote : AgentStatus) :
    SyncsIdle ip (syncAgent now ownerGid remote) := by
  unfold syncAgent
  split
  · exact SyncsIdle.pure _
  refine (syncsIdle_of_preserves (preserves_firstGroupOf _)).bind fun group => ?_
  refine Program.Abides.bind (abides_lookup _) ?_
  rintro φ found rfl
  rcases found with _ | _ | agent
  · exact SyncsIdle.pure _
  · exact abides_create rfl
  · dsimp only
    split
    · next hchange =>
        refine Program.Abides.bind (abides_audit rfl rfl ?_) fun φ _ hφ => ?_
        · cases hbefore : agent.online <;> cases hafter : remote.online <;> simp_all
        · exact abides_write rfl (.inr ⟨hφ, hchange⟩)
    · next hquiet => exact abides_write rfl (.inl ⟨rfl, .inr (not_not.mp hquiet)⟩)

theorem syncsIdle_syncEach (now : ℤ) (ownerGid : ℕ) (remotes : List AgentStatus) :
    SyncsIdle ip (syncEach now ownerGid remotes) := by
  induction remotes with
  | nil => exact SyncsIdle.pure _
  | cons remote rest ih =>
      refine (syncsIdle_syncAgent now ownerGid remote).bind fun goesOn => ?_
      split
      · exact ih
      · exact SyncsIdle.pure _

theorem syncsIdle_addAgent (uid : String) (gid agentId : ℕ) :
    SyncsIdle ip (addAgent uid gid agentId) := by
  refine syncsIdle_of_preserves ?_
  unfold addAgent
  split
  · exact .pure _
  apply (preserves_ownedGroup uid gid).bind
  intro group
  cases group with
  | none => exact .pure _
  | some group =>
      apply (Program.preserves_query _ _).bind
      intro row
      split
      · exact .pure _
      · exact .pure _
      · apply (preserves_canAccessAgentIP uid _).bind
        intro allowed
        split
        · exact .pure _
        refine (Program.preserves_update fun s t hs => ?_).bind fun updated => ?_
        · rw [← Option.some.inj hs]
          simp only [Database.registry, Database.updateAgent, List.map_map, Function.comp_def]
          congr 2
          funext row
          split <;> rfl
        · split <;> exact .pure _

/-- What leaves the agents and the audit log alone. -/
theorem syncsIdle_of_fleet {p : Statements α} (h : p.Preserves Database.fleet) : SyncsIdle ip p :=
  syncsIdle_of_preserves (h.comp fun fleet =>
    (fleet.1.map fun agent => (agent.id, agent.ipAddr, agent.online), fleet.2))

theorem syncsIdle_program (request : GroupRequest) : SyncsIdle ip request.program := by
  cases request with
  | createGroup gid uid name =>
      exact (syncsIdle_of_fleet (preserves_fleet_createGroup uid name)).bind fun _ =>
        SyncsIdle.pure _
  | deleteGroup uid gid =>
      exact (syncsIdle_of_fleet (preserves_fleet_deleteGroup uid)).bind fun _ => SyncsIdle.pure _
  | addMember uid gid memberUid =>
      exact (syncsIdle_of_fleet (preserves_fleet_addMember uid memberUid)).bind fun _ =>
        SyncsIdle.pure _
  | removeMember uid gid targetUid =>
      exact (syncsIdle_of_fleet (preserves_fleet_removeMember uid targetUid)).bind fun _ =>
        SyncsIdle.pure _
  | addAgent uid gid agentId =>
      exact (syncsIdle_addAgent uid gid agentId).bind fun _ => SyncsIdle.pure _
  | syncAgents now uid remotes =>
      cases remotes with
      | none => exact SyncsIdle.pure _
      | some remotes =>
          exact (syncsIdle_of_preserves (preserves_firstGroupOf uid)).bind fun _ =>
            syncsIdle_syncEach now _ remotes

end Programs

/-! ## Runs -/

theorem AgentsAudited.fits {db : Database} (h : AgentsAudited db) (ip : String) :
    SyncsFit ip [] db where
  keyed := h.keyed
  rows _ hmem := by cases hmem
  marked _ hmem := by cases hmem
  unique := h.unique ip
  alternates := h.alternates ip
  single := Nat.zero_le 1
  settled _ := h.leads ip
  pending _ hmem := by cases hmem
  lost _ hmem := by cases hmem

/-- Syncs keep rows and trails where each writes the row that it has read. -/
theorem keepsAgentAudit_of_sound {ok : GroupPool → Pool.Event GroupRequest → Prop}
    (h : ∀ pool event, ok pool event → SoundSync pool event) : KeepsAgentAudit ok := by
  intro start hstart pool hreach ip
  have habides : Pool.Abides (syncOrder ip) pool :=
    Pool.Abides.of_reachable (hstart.fits ip) (fun request _ => syncsIdle_program request)
      (hreach.mono h)
  refine ⟨?_, ?_, fun hquiet => ?_⟩
  · obtain ⟨slots, -, hfits, -⟩ := habides
    exact hfits.unique
  · obtain ⟨slots, -, hfits, -⟩ := habides
    exact hfits.alternates
  · obtain ⟨slots, hfits, hidle⟩ := habides.final_of_quiet hquiet
    refine hfits.settled (List.countP_eq_zero.mpr fun slot hmem => ?_)
    rw [hidle slot hmem]
    exact Bool.false_ne_true

theorem audited_sharedGroup : AgentsAudited sharedGroup where
  keyed := by decide +kernel
  unique ip := by
    unfold Database.flags
    rw [List.length_map]
    exact List.length_filter_le _ _
  alternates ip := ⟨(fun _ hmem => by cases hmem), .nil⟩
  leads ip _ hlast := by cases hlast

/-- What drop_server reports when the agent is online. -/
def agentOnline : AgentStatus := { ipAddr := "10.0.0.7", online := true, uid := "a" }

/-- The agent comes online and goes offline again. A new agent is found while the first of these
changes is written. -/
def syncedInTurn : List (Pool.Event GroupRequest) :=
  .start (.syncAgents 0 "b" (some [agentOnline])) :: List.replicate 4 (.advance 0 false) ++
    .start (.syncAgents 0 "a" (some [{ agentOnline with ipAddr := "10.0.0.8" }])) ::
    List.replicate 4 (.advance 1 false) ++ .advance 0 false ::
    .start (.syncAgents 0 "b" (some [{ agentOnline with online := false }])) ::
    List.replicate 5 (.advance 2 false)

theorem keepsAgentAudit_syncedInTurn :
    ((groupPool syncedInTurn).store.auditTrail "10.0.0.7").map AgentStateHistory.toState =
        [true, false] ∧
      (groupPool syncedInTurn).store.LeadsToFlag "10.0.0.7" := by
  have hrun : Transition.Along (Pool.step GroupRequest.program) SoundSync
        { store := sharedGroup } syncedInTurn ∧
      (Transition.run (Pool.step GroupRequest.program) { store := sharedGroup }
        syncedInTurn).isSome ∧
      (groupPool syncedInTurn).threads.all (·.program.mark? = none) = true ∧
      ((groupPool syncedInTurn).store.auditTrail "10.0.0.7").map AgentStateHistory.toState =
        [true, false] := by
    decide +kernel
  obtain ⟨halong, hsome, hquiet, htrail⟩ := hrun
  refine ⟨htrail, (keepsAgentAudit_of_sound (fun _ _ h => h) _ audited_sharedGroup _
    (halong.reachable hsome) "10.0.0.7").2.2 fun thread hmem => ?_⟩
  simpa using List.all_eq_true.mp hquiet thread hmem

/-- Two syncs look for the address before either of them creates it. -/
def syncedAtOnce : List (Pool.Event GroupRequest) :=
  .start (.syncAgents 0 "a" (some [{ agentOnline with ipAddr := "10.0.0.8" }])) ::
    .start (.syncAgents 0 "b" (some [{ agentOnline with ipAddr := "10.0.0.8" }])) ::
    List.replicate 3 (.advance 0 false) ++ List.replicate 4 (.advance 1 false) ++
    [.advance 0 false]

theorem not_keepsAgentAudit : ¬ KeepsAgentAudit fun _ _ => True := by
  intro h
  have hrun : Transition.Along (Pool.step GroupRequest.program) (fun _ _ => True)
        { store := sharedGroup } syncedAtOnce ∧
      (Transition.run (Pool.step GroupRequest.program) { store := sharedGroup }
        syncedAtOnce).isSome ∧
      ((groupPool syncedAtOnce).store.flags "10.0.0.8").length = 2 := by
    decide +kernel
  obtain ⟨halong, hsome, htwice⟩ := hrun
  have hone : ((groupPool syncedAtOnce).store.flags "10.0.0.8").length ≤ 1 :=
    (h _ audited_sharedGroup _ (halong.reachable hsome) "10.0.0.8").1
  omega

end MiniDrop
