import MiniDrop.Library.Program

/-! # Pools of threads

A pool runs any number of programs against one store. An event starts the program of an
operation or lets one thread execute its next statement. -/

namespace List

variable {α : Type*} {l : List α} {i : ℕ} {a b : α}

theorem mem_cases (ha : l[i]? = some a) (h : b ∈ l) : b = a ∨ b ∈ l.eraseIdx i := by
  obtain ⟨j, hj⟩ := mem_iff_getElem?.mp h
  by_cases hij : i = j
  · subst hij
    exact .inl (Option.some.inj (hj.symm.trans ha))
  · exact .inr (mem_eraseIdx_iff_getElem?.mpr ⟨j, Ne.symm hij, hj⟩)

theorem mem_set_cases (h : b ∈ l.set i a) : b = a ∨ b ∈ l.eraseIdx i := by
  by_cases hi : i < l.length
  · rcases mem_cases (getElem?_set_self hi) h with hb | hb
    · exact .inl hb
    · exact .inr (by simpa [eraseIdx_set_eq] using hb)
  · rw [set_eq_of_length_le (Nat.le_of_not_lt hi)] at h
    exact .inr (by rwa [eraseIdx_of_length_le (Nat.le_of_not_lt hi)])

theorem mem_set_of_mem_eraseIdx (h : b ∈ l.eraseIdx i) : b ∈ l.set i a := by
  obtain ⟨j, hij, hj⟩ := mem_eraseIdx_iff_getElem?.mp h
  exact mem_iff_getElem?.mpr ⟨j, by rwa [getElem?_set_ne (Ne.symm hij)]⟩

end List

/-- The mark of the next statement. -/
def Program.mark? {ι σ α : Type} : Program ι σ α → Option ι
  | done _ => none
  | stmt mark _ _ _ => some mark

/-- A running program and the mark of its last statement; a finished one has none. -/
structure Thread (ι σ : Type) where
  program : Program ι σ Unit
  last : Option ι := none

/-- The store, the threads, and the operations started so far. -/
structure Pool (ω ι σ : Type) where
  store : σ
  threads : List (Thread ι σ) := []
  started : List ω := []

namespace Pool

variable {ω ι σ Φ : Type}

inductive Event (ω : Type) where
  | start (op : ω)
  | advance (i : ℕ) (fails : Bool)
deriving DecidableEq

/-- The thread and the store after the next statement of `p`. -/
def execute (p : Program ι σ Unit) (fails : Bool) (s : σ) : Option (Thread ι σ × σ) :=
  match p with
  | .done _ => none
  | .stmt mark act next failed =>
    let rest := if fails then failed else next s
    some (⟨rest, rest.mark?.map fun _ => mark⟩, if fails then s else act s)

def step (program : ω → Program ι σ Unit) (pool : Pool ω ι σ) :
    Event ω → Option (Pool ω ι σ)
  | .start op =>
    some { pool with
      threads := pool.threads ++ [⟨program op, none⟩]
      started := pool.started ++ [op] }
  | .advance i fails => do
    let thread ← pool.threads[i]?
    let (thread, store) ← execute thread.program fails pool.store
    some { pool with store, threads := pool.threads.set i thread }

/-- No operation is under way. -/
def Quiet (pool : Pool ω ι σ) : Prop := ∀ thread ∈ pool.threads, thread.program.mark? = none

instance [DecidableEq ι] (pool : Pool ω ι σ) : Decidable pool.Quiet :=
  inferInstanceAs (Decidable (∀ thread ∈ pool.threads, thread.program.mark? = none))

/-- The marks that the threads stand at. -/
def marks (pool : Pool ω ι σ) : List (Option ι) := pool.threads.map Thread.last

/-- Only operations that satisfy `starts` begin, and a thread executes its next statement as far
as `admits` says, which sees where the other threads stand; only statements that may fail do. -/
def Permits (starts : ω → Prop) (admits : List (Option ι) → ℕ → ι → Prop) (mayFail : ι → Prop)
    (pool : Pool ω ι σ) : Event ω → Prop
  | .start op => starts op
  | .advance i fails => ∀ thread ∈ pool.threads[i]?, ∀ mark ∈ thread.program.mark?,
      admits pool.marks i mark ∧ (fails = true → mayFail mark)

instance Permits.decidable (starts : ω → Prop) (admits : List (Option ι) → ℕ → ι → Prop)
    (mayFail : ι → Prop) [DecidablePred starts] [∀ marks i mark, Decidable (admits marks i mark)]
    [DecidablePred mayFail] (pool : Pool ω ι σ) :
    ∀ event, Decidable (Permits starts admits mayFail pool event)
  | .start op => inferInstanceAs (Decidable (starts op))
  | .advance i _ => inferInstanceAs (Decidable (∀ thread ∈ pool.threads[i]?,
      ∀ mark ∈ thread.program.mark?, _))

/-! ## Threads under a law -/

/-- The phase of a thread and the mark that it stands at. -/
abbrev Slot (ι Φ : Type) := Φ × Option ι

/-- What has to hold across the threads of a pool. -/
structure Order (ι σ Φ : Type) extends Program.Law ι σ Φ where
  initial : Φ
  final : Φ → Prop
  /-- A thread may execute a statement, or the statement may fail, in this store and with the
  threads at these marks. -/
  permits : List (Option ι) → ℕ → ι → σ → Bool → Prop
  permits_may : ∀ marks i mark s fails, permits marks i mark s fails → may mark s fails
  /-- The store fits the phases. -/
  fits : List (Slot ι Φ) → σ → Prop
  fits_start : ∀ slots s, fits slots s → fits (slots ++ [(initial, none)]) s
  fits_knows : ∀ (slots : List (Slot ι Φ)) s (i : ℕ) φ last, fits slots s →
    slots[i]? = some (φ, last) → knows φ s
  fits_advance : ∀ (slots : List (Slot ι Φ)) s (i : ℕ) φ last mark fails s' φ' last',
    fits slots s → slots[i]? = some (φ, last) → permits (slots.map Prod.snd) i mark s fails →
    (fails = true → s' = s) → allows φ mark s s' φ' →
    (last' = some mark ∨ last' = none ∧ final φ') → fits (slots.set i (φ', last')) s'

/-- Only operations that satisfy `starts` begin, and statements happen as far as `permits` says,
which sees the store and where the threads stand. -/
def Lawful (starts : ω → Prop) (permits : List (Option ι) → ℕ → ι → σ → Bool → Prop)
    (pool : Pool ω ι σ) : Event ω → Prop
  | .start op => starts op
  | .advance i fails => ∀ thread ∈ pool.threads[i]?, ∀ mark ∈ thread.program.mark?,
      permits pool.marks i mark pool.store fails

instance Lawful.decidable (starts : ω → Prop)
    (permits : List (Option ι) → ℕ → ι → σ → Bool → Prop) [DecidablePred starts]
    [∀ marks i mark s fails, Decidable (permits marks i mark s fails)] (pool : Pool ω ι σ) :
    ∀ event, Decidable (Lawful starts permits pool event)
  | .start op => inferInstanceAs (Decidable (starts op))
  | .advance i _ => inferInstanceAs (Decidable (∀ thread ∈ pool.threads[i]?,
      ∀ mark ∈ thread.program.mark?, _))

/-- The threads abide by the law from phases that fit the store. -/
def Abides (d : Order ι σ Φ) (pool : Pool ω ι σ) : Prop :=
  ∃ slots : List (Slot ι Φ), slots.map Prod.snd = pool.marks ∧ d.fits slots pool.store ∧
    ∀ (i : ℕ) φ last thread, slots[i]? = some (φ, last) → pool.threads[i]? = some thread →
      thread.program.Abides d.toLaw (fun φ _ => d.final φ) φ

theorem Abides.empty {d : Order ι σ Φ} {s : σ} (h : d.fits [] s) :
    Abides d ({ store := s } : Pool ω ι σ) :=
  ⟨[], rfl, h, by simp⟩

section Abides

variable {d : Order ι σ Φ} {pool pool' : Pool ω ι σ} {program : ω → Program ι σ Unit}

private theorem getElem?_slots {slots : List (Slot ι Φ)} {i : ℕ} {thread : Thread ι σ}
    (hmarks : slots.map Prod.snd = pool.marks) (hthread : pool.threads[i]? = some thread) :
    ∃ φ, slots[i]? = some (φ, thread.last) := by
  have hlast : (slots.map Prod.snd)[i]? = some thread.last := by
    simp [hmarks, marks, hthread]
  rw [List.getElem?_map, Option.map_eq_some_iff] at hlast
  obtain ⟨⟨φ, last⟩, hslot, rfl⟩ := hlast
  exact ⟨φ, hslot⟩

/-- An operation joins whose program abides by the law from the initial phase on. -/
theorem Abides.start (h : Abides d pool) {op : ω}
    (hop : (program op).Abides d.toLaw (fun φ _ => d.final φ) d.initial)
    (hs : step program pool (.start op) = some pool') : Abides d pool' := by
  obtain ⟨slots, hmarks, hfits, hslots⟩ := h
  obtain rfl := Option.some.inj hs
  have hlen : slots.length = pool.threads.length := by
    simpa [marks] using congrArg List.length hmarks
  refine ⟨slots ++ [(d.initial, none)], by simp [hmarks, marks], d.fits_start _ _ hfits, ?_⟩
  intro i φ last thread hslot hthread
  rcases Nat.lt_or_ge i slots.length with hi | hi
  · rw [List.getElem?_append_left hi] at hslot
    rw [List.getElem?_append_left (hlen ▸ hi)] at hthread
    exact hslots i φ last thread hslot hthread
  · rw [List.getElem?_append_right hi] at hslot
    rw [List.getElem?_append_right (hlen ▸ hi), ← hlen] at hthread
    cases hk : i - slots.length with
    | zero =>
        simp only [hk, List.getElem?_cons_zero, Option.some.injEq, Prod.mk.injEq] at hslot hthread
        obtain ⟨rfl, rfl⟩ := hslot
        obtain rfl := hthread
        exact hop
    | succ k => simp [hk] at hslot

/-- A thread executes a statement that the law covers. -/
theorem Abides.advance (h : Abides d pool) {i : ℕ} {fails : Bool} {starts : ω → Prop}
    (hlawful : Lawful starts d.permits pool (.advance i fails))
    (hs : step program pool (.advance i fails) = some pool') : Abides d pool' := by
  obtain ⟨slots, hmarks, hfits, hslots⟩ := h
  simp only [step, Option.bind_eq_bind, Option.bind_eq_some_iff] at hs
  obtain ⟨thread, hthread, ⟨thread', store⟩, hexec, hs⟩ := hs
  obtain rfl := Option.some.inj hs
  obtain ⟨φ, hslot⟩ := getElem?_slots hmarks hthread
  have hfollows := hslots i φ _ thread hslot hthread
  cases hprogram : thread.program with
  | done result => simp [execute, hprogram] at hexec
  | stmt mark act next failed =>
      rw [hprogram] at hfollows hexec
      have hpermits := hlawful thread hthread mark (by rw [hprogram]; rfl)
      have hmay := d.permits_may _ _ _ _ _ hpermits
      obtain ⟨hnext, hfailed⟩ := hfollows pool.store
        (d.fits_knows slots pool.store i φ _ hfits hslot)
      simp only [execute, Option.some.injEq, Prod.mk.injEq] at hexec
      obtain ⟨rfl, rfl⟩ := hexec
      -- the phase after the statement, whether it fails or not
      obtain ⟨φ', hallows, hrest⟩ : ∃ φ',
          d.allows φ mark pool.store (if fails then pool.store else act pool.store) φ' ∧
            (if fails then failed else next pool.store).Abides d.toLaw
              (fun φ _ => d.final φ) φ' := by
        cases fails with
        | false => exact hnext hmay
        | true => exact hfailed hmay
      generalize (if fails then failed else next pool.store) = rest at hrest ⊢
      have hlast : (rest.mark?.map fun _ => mark) = some mark ∨
          (rest.mark?.map fun _ => mark) = none ∧ d.final φ' := by
        cases rest with
        | done result => exact .inr ⟨rfl, hrest⟩
        | stmt _ _ _ _ => exact .inl rfl
      refine ⟨slots.set i (φ', rest.mark?.map fun _ => mark), ?_,
        d.fits_advance slots pool.store i φ _ mark fails _ φ' _ hfits hslot
          (hmarks ▸ hpermits) (fun hfails => if_pos hfails) hallows hlast, ?_⟩
      · simp [marks, List.map_set, hmarks]
      · intro j ψ last other hslot' hother
        by_cases hij : i = j
        · subst hij
          have hi := (List.getElem?_eq_some_iff.mp hslot).1
          have hi' := (List.getElem?_eq_some_iff.mp hthread).1
          simp only [List.getElem?_set_self hi, List.getElem?_set_self hi', Option.some.injEq,
            Prod.mk.injEq] at hslot' hother
          obtain ⟨rfl, rfl⟩ := hslot'
          obtain rfl := hother
          exact hrest
        · rw [List.getElem?_set_ne hij] at hslot' hother
          exact hslots j ψ last other hslot' hother

/-- What a thread executes is what the law allows. -/
theorem Abides.exists_allows (h : Abides d pool) {i : ℕ} {fails : Bool} {starts : ω → Prop}
    (hlawful : Lawful starts d.permits pool (.advance i fails))
    (hs : step program pool (.advance i fails) = some pool') :
    ∃ φ mark φ', d.knows φ pool.store ∧ d.allows φ mark pool.store pool'.store φ' := by
  obtain ⟨slots, hmarks, hfits, hslots⟩ := h
  simp only [step, Option.bind_eq_bind, Option.bind_eq_some_iff] at hs
  obtain ⟨thread, hthread, ⟨thread', store⟩, hexec, hs⟩ := hs
  obtain rfl := Option.some.inj hs
  obtain ⟨φ, hslot⟩ := getElem?_slots hmarks hthread
  have hfollows := hslots i φ _ thread hslot hthread
  have hknows := d.fits_knows slots pool.store i φ _ hfits hslot
  cases hprogram : thread.program with
  | done result => simp [execute, hprogram] at hexec
  | stmt mark act next failed =>
      rw [hprogram] at hfollows hexec
      have hmay := d.permits_may _ _ _ _ _ (hlawful thread hthread mark (by rw [hprogram]; rfl))
      obtain ⟨hnext, hfailed⟩ := hfollows pool.store hknows
      simp only [execute, Option.some.injEq, Prod.mk.injEq] at hexec
      obtain ⟨rfl, rfl⟩ := hexec
      cases fails with
      | false =>
          obtain ⟨φ', hallows, -⟩ := hnext hmay
          exact ⟨φ, mark, φ', hknows, hallows⟩
      | true =>
          obtain ⟨φ', hallows, -⟩ := hfailed hmay
          exact ⟨φ, mark, φ', hknows, hallows⟩

/-- The threads of a quiet pool are at their end. -/
theorem Abides.final_of_quiet (h : Abides d pool) (hquiet : pool.Quiet) :
    ∃ slots : List (Slot ι Φ), d.fits slots pool.store ∧ ∀ slot ∈ slots, d.final slot.1 := by
  obtain ⟨slots, hmarks, hfits, hslots⟩ := h
  refine ⟨slots, hfits, fun (φ, last) hmem => ?_⟩
  obtain ⟨i, hslot⟩ := List.mem_iff_getElem?.mp hmem
  have hlength : slots.length = pool.threads.length := by
    simpa [marks] using congrArg List.length hmarks
  have hi : i < pool.threads.length := hlength ▸ (List.getElem?_eq_some_iff.mp hslot).1
  have hthread : pool.threads[i]? = some pool.threads[i] := List.getElem?_eq_getElem hi
  have hfinal := hslots i φ last _ hslot hthread
  have hended := hquiet _ (List.mem_of_getElem? hthread)
  cases hprogram : pool.threads[i].program with
  | done result =>
      rw [hprogram] at hfinal
      exact hfinal
  | stmt mark act next failed =>
      rw [hprogram] at hended
      cases hended

/-- Threads of operations that abide by the law keep their order throughout a lawful run. -/
theorem Abides.of_reachable {starts : ω → Prop} {s : σ} (hinit : d.fits [] s)
    (hop : ∀ op, starts op → (program op).Abides d.toLaw (fun φ _ => d.final φ) d.initial)
    (hreach : Transition.Reachable (step program) (Lawful starts d.permits)
      { store := s } pool) : Abides d pool := by
  induction hreach with
  | start => exact .empty hinit
  | next event _ hlawful hs ih =>
      cases event with
      | start op => exact ih.start (hop op hlawful) hs
      | advance i fails => exact ih.advance hlawful hs

end Abides

/-! ## Counting threads -/

section Tally

variable {p : Φ → Bool} {slots : List (Slot ι Φ)} {i : ℕ} {φ φ' : Φ} {last last' : Option ι}

/-- How many threads are in such a phase. -/
def tally (p : Φ → Bool) (slots : List (Slot ι Φ)) : ℕ := slots.countP fun slot => p slot.1

theorem tally_pos : 0 < tally p slots ↔ ∃ slot ∈ slots, p slot.1 = true := List.countP_pos_iff

@[simp] theorem tally_append : tally p (slots ++ [(φ, last)]) = tally p slots + (p φ).toNat := by
  cases hp : p φ <;> simp [tally, List.countP_append, hp]

/-- A thread goes from one phase to another. -/
theorem tally_set (h : slots[i]? = some (φ, last)) :
    tally p (slots.set i (φ', last')) + (p φ).toNat = tally p slots + (p φ').toNat := by
  obtain ⟨hi, hslot⟩ := List.getElem?_eq_some_iff.mp h
  have hcounted : (p φ).toNat ≤ tally p slots := by
    cases hp : p φ with
    | false => simp
    | true => exact tally_pos.mpr ⟨(φ, last), List.mem_of_getElem? h, hp⟩
  have hset := List.countP_set (p := fun slot : Slot ι Φ => p slot.1) (a := (φ', last')) hi
  rw [hslot] at hset
  dsimp only [tally] at hset hcounted ⊢
  generalize (slots.countP fun slot => p slot.1) = count at hset hcounted
  cases hp : p φ <;> cases hp' : p φ' <;>
    simp only [hp, hp', Bool.toNat_true, Bool.toNat_false, if_true, if_false,
      Bool.false_eq_true] at hset hcounted ⊢ <;> omega

end Tally

/-! ## Blocking statements -/

/-- A step whose statement is not kept from happening. -/
def stepWhen (program : ω → Program ι σ Unit) (enabled : ι → σ → Bool → Prop)
    [∀ mark s fails, Decidable (enabled mark s fails)] (pool : Pool ω ι σ) (event : Event ω) :
    Option (Pool ω ι σ) :=
  if Lawful (fun _ => True) (fun _ _ => enabled) pool event then step program pool event else none

/-- A run with blocking statements is one without, whose statements were enabled. -/
theorem reachable_of_stepWhen {program : ω → Program ι σ Unit} {enabled : ι → σ → Bool → Prop}
    [∀ mark s fails, Decidable (enabled mark s fails)] {ok : Pool ω ι σ → Event ω → Prop}
    {start pool : Pool ω ι σ}
    (hreach : Transition.Reachable (stepWhen program enabled) ok start pool) :
    Transition.Reachable (step program) (fun pool event => ok pool event ∧
      Lawful (fun _ => True) (fun _ _ => enabled) pool event) start pool := by
  induction hreach with
  | start => exact .start
  | next event _ hok hs ih =>
      unfold stepWhen at hs
      split at hs
      · next henabled => exact .next event ih ⟨hok, henabled⟩ hs
      · cases hs

/-! ## Resets -/

variable {ρ : Type}

/-- A step, or a reset: all threads are gone, and the store starts over from what was there. -/
def stepOrReset (program : ω → Program ι σ Unit) (reset : ρ → σ → σ) (pool : Pool ω ι σ) :
    Event ω ⊕ ρ → Option (Pool ω ι σ)
  | .inl event => step program pool event
  | .inr r => some { store := reset r pool.store, started := pool.started }

/-- Lawful steps, and resets that satisfy `resets`. -/
def LawfulOrReset (starts : ω → Prop) (permits : List (Option ι) → ℕ → ι → σ → Bool → Prop)
    (resets : ρ → Prop) (pool : Pool ω ι σ) : Event ω ⊕ ρ → Prop
  | .inl event => Lawful starts permits pool event
  | .inr r => resets r

instance LawfulOrReset.decidable (starts : ω → Prop)
    (permits : List (Option ι) → ℕ → ι → σ → Bool → Prop) (resets : ρ → Prop)
    [DecidablePred starts] [DecidablePred resets]
    [∀ marks i mark s fails, Decidable (permits marks i mark s fails)] (pool : Pool ω ι σ) :
    ∀ event, Decidable (LawfulOrReset starts permits resets pool event)
  | .inl event => inferInstanceAs (Decidable (Lawful starts permits pool event))
  | .inr r => inferInstanceAs (Decidable (resets r))

/-- The order lasts through resets after which the store fits no thread at all. -/
theorem Abides.of_reachable_reset {d : Order ι σ Φ} {pool : Pool ω ι σ}
    {program : ω → Program ι σ Unit} {reset : ρ → σ → σ} {starts : ω → Prop}
    {resets : ρ → Prop} {s : σ} (hinit : d.fits [] s)
    (hop : ∀ op, starts op → (program op).Abides d.toLaw (fun φ _ => d.final φ) d.initial)
    (hreset : ∀ r slots s, resets r → d.fits slots s → d.fits [] (reset r s))
    (hreach : Transition.Reachable (stepOrReset program reset)
      (LawfulOrReset starts d.permits resets) { store := s } pool) : Abides d pool := by
  induction hreach with
  | start => exact .empty hinit
  | @next pool pool' event _ hlawful hs ih =>
      rcases event with (op | ⟨i, fails⟩) | r
      · exact ih.start (hop op hlawful) hs
      · have hadvance : Lawful starts d.permits pool (.advance i fails) := hlawful
        have hstep : step program pool (.advance i fails) = some pool' := hs
        exact ih.advance hadvance hstep
      · obtain rfl := Option.some.inj hs
        obtain ⟨slots, -, hfits, -⟩ := ih
        exact ⟨[], rfl, hreset r slots _ hlawful hfits, by simp⟩

/-! ## Threads under a contract -/

/-- What has to hold across the threads of a pool, with no regard to the store. -/
structure Discipline (ι σ Φ : Type) extends Program.Contract ι σ Φ where
  initial : Φ
  final : Φ → Prop
  /-- A thread may execute a statement, seeing the marks that the threads stand at. -/
  admits : List (Option ι) → ℕ → ι → Prop
  /-- The store fits the phases. -/
  fits : List (Slot ι Φ) → σ → Prop
  fits_start : ∀ slots s, fits slots s → fits (slots ++ [(initial, none)]) s
  fits_knows : ∀ (slots : List (Slot ι Φ)) s (i : ℕ) φ last, fits slots s →
    slots[i]? = some (φ, last) → knows φ s
  fits_advance : ∀ (slots : List (Slot ι Φ)) s (i : ℕ) φ last mark s' φ' last', fits slots s →
    slots[i]? = some (φ, last) → admits (slots.map Prod.snd) i mark → allows φ mark s s' φ' →
    (last' = some mark ∨ last' = none ∧ final φ') → fits (slots.set i (φ', last')) s'

/-- The threads follow the contract from phases that fit the store. -/
def Conforms (d : Discipline ι σ Φ) (pool : Pool ω ι σ) : Prop :=
  ∃ slots : List (Slot ι Φ), slots.map Prod.snd = pool.marks ∧ d.fits slots pool.store ∧
    ∀ (i : ℕ) φ last thread, slots[i]? = some (φ, last) → pool.threads[i]? = some thread →
      thread.program.Follows d.toContract (fun φ _ => d.final φ) φ

/-- A discipline is an order that does not look at the store. -/
def Discipline.order (d : Discipline ι σ Φ) : Order ι σ Φ where
  toLaw := d.toContract.law
  initial := d.initial
  final := d.final
  permits marks i mark _ fails := d.admits marks i mark ∧ (fails = true → d.mayFail mark)
  permits_may _ _ _ _ _ h := h.2
  fits := d.fits
  fits_start := d.fits_start
  fits_knows := d.fits_knows
  fits_advance slots s i φ last mark _ s' φ' last' h hslot hpermits _ :=
    d.fits_advance slots s i φ last mark s' φ' last' h hslot hpermits.1

variable {d : Discipline ι σ Φ} {pool pool' : Pool ω ι σ} {program : ω → Program ι σ Unit}

theorem abides_order_iff : Abides d.order pool ↔ Conforms d pool := by
  refine exists_congr fun slots => and_congr_right fun _ => and_congr_right fun _ => ?_
  refine forall_congr' fun i => forall_congr' fun φ => forall_congr' fun last => ?_
  exact forall₃_congr fun thread _ _ => Program.abides_law_iff

/-! ## Runs -/

/-- Where every statement takes the store as a transitive relation says, so does every run. -/
theorem moves_of_reachable {R : σ → σ → Prop} (hrefl : ∀ s, R s s)
    (htrans : ∀ {s t u}, R s t → R t u → R s u) (hop : ∀ op, (program op).Moves R)
    {ok : Pool ω ι σ → Event ω → Prop}
    (hstart : ∀ thread ∈ pool.threads, thread.program.Moves R)
    (hreach : Transition.Reachable (step program) ok pool pool') :
    R pool.store pool'.store ∧ ∀ thread ∈ pool'.threads, thread.program.Moves R := by
  induction hreach with
  | start => exact ⟨hrefl _, hstart⟩
  | next event _ _ hs ih =>
      obtain ⟨hrel, hthreads⟩ := ih
      cases event with
      | start op =>
          obtain rfl := Option.some.inj hs
          refine ⟨hrel, fun thread hmem => ?_⟩
          rcases List.mem_append.mp hmem with hmem | hmem
          · exact hthreads thread hmem
          · rw [List.mem_singleton.mp hmem]
            exact hop op
      | advance i fails =>
          simp only [step, Option.bind_eq_bind, Option.bind_eq_some_iff] at hs
          obtain ⟨thread, hthread, ⟨thread', store⟩, hexec, hs⟩ := hs
          obtain rfl := Option.some.inj hs
          have hmoves := hthreads thread (List.mem_of_getElem? hthread)
          cases hprogram : thread.program with
          | done result => simp [execute, hprogram] at hexec
          | stmt mark act next failed =>
              rw [hprogram] at hmoves
              simp only [execute, hprogram, Option.some.injEq, Prod.mk.injEq] at hexec
              obtain ⟨rfl, rfl⟩ := hexec
              constructor
              · cases fails with
                | false => exact htrans hrel (hmoves.1 _)
                | true => exact hrel
              · intro other hmem
                rcases List.mem_or_eq_of_mem_set hmem with hmem | rfl
                · exact hthreads other hmem
                · cases fails with
                  | false => exact hmoves.2.1 _
                  | true => exact hmoves.2.2

/-- Threads of operations that follow the contract conform to the discipline throughout a
permitted run. -/
theorem Conforms.of_reachable {starts : ω → Prop} {s : σ} (hinit : d.fits [] s)
    (hop : ∀ op, starts op → (program op).Follows d.toContract (fun φ _ => d.final φ) d.initial)
    (hreach : Transition.Reachable (step program) (Permits starts d.admits d.mayFail)
      { store := s } pool) : Conforms d pool := by
  refine abides_order_iff.mp (Abides.of_reachable (d := d.order) hinit
    (fun op hstarts => Program.abides_law_iff.mpr (hop op hstarts)) (hreach.mono ?_))
  intro pool event hpermits
  cases event with
  | start op => exact hpermits
  | advance i fails => exact hpermits

/-- A lawful run only starts operations that its last pool counts as started. -/
theorem lawful_started {starts : ω → Prop} {permits : List (Option ι) → ℕ → ι → σ → Bool → Prop}
    {s : σ} (hreach : Transition.Reachable (step program) (Lawful starts permits)
      { store := s } pool) :
    Transition.Reachable (step program)
      (Lawful (fun op => starts op ∧ op ∈ pool.started) permits) { store := s } pool := by
  induction hreach with
  | start => exact .start
  | @next pool pool' event _ hlawful hs ih =>
      cases event with
      | start op =>
          obtain rfl := Option.some.inj hs
          refine .next (.start op) (ih.mono ?_) ⟨hlawful, by simp⟩ rfl
          intro pool event hlawful
          cases event with
          | start op => exact ⟨hlawful.1, List.mem_append_left _ hlawful.2⟩
          | advance i fails => exact hlawful
      | advance i fails =>
          have hstarted : pool'.started = pool.started := by
            simp only [step, Option.bind_eq_bind, Option.bind_eq_some_iff] at hs
            obtain ⟨thread, _, ⟨thread', store⟩, _, hs⟩ := hs
            obtain rfl := Option.some.inj hs
            rfl
          rw [hstarted]
          exact .next (.advance i fails) ih hlawful hs

/-- A permitted run only starts operations that its last pool counts as started. -/
theorem reachable_started {starts : ω → Prop} {admits : List (Option ι) → ℕ → ι → Prop}
    {mayFail : ι → Prop} {s : σ}
    (hreach : Transition.Reachable (step program) (Permits starts admits mayFail)
      { store := s } pool) :
    Transition.Reachable (step program)
      (Permits (fun op => starts op ∧ op ∈ pool.started) admits mayFail) { store := s } pool := by
  have hlawful : Transition.Reachable (step program)
      (Lawful starts fun marks i mark _ fails => admits marks i mark ∧ (fails = true → mayFail mark))
      { store := s } pool := by
    refine hreach.mono fun pool event hpermits => ?_
    cases event with
    | start op => exact hpermits
    | advance i fails => exact hpermits
  refine (lawful_started hlawful).mono fun pool event hlawful => ?_
  cases event with
  | start op => exact hlawful
  | advance i fails => exact hlawful

/-- In a quiet pool no thread stands at a mark. -/
theorem marks_eq_none_of_quiet {s : σ} {ok : Pool ω ι σ → Event ω → Prop}
    (hreach : Transition.Reachable (step program) ok { store := s } pool) (hquiet : pool.Quiet) :
    ∀ last ∈ pool.marks, last = none := by
  have hlast : ∀ thread ∈ pool.threads, thread.program.mark? = none → thread.last = none := by
    refine hreach.invariant (I := fun pool => ∀ thread ∈ pool.threads,
      thread.program.mark? = none → thread.last = none) (by simp) ?_
    intro pool event pool' ih _ hs
    cases event with
    | start op =>
        obtain rfl := Option.some.inj hs
        intro thread hmem hnone
        rcases List.mem_append.mp hmem with hmem | hmem
        · exact ih thread hmem hnone
        · rw [List.mem_singleton.mp hmem]
    | advance i fails =>
        simp only [step, Option.bind_eq_bind, Option.bind_eq_some_iff] at hs
        obtain ⟨thread, _, ⟨thread', store⟩, hexec, hs⟩ := hs
        obtain rfl := Option.some.inj hs
        intro other hmem hnone
        rcases List.mem_or_eq_of_mem_set hmem with hmem | rfl
        · exact ih other hmem hnone
        · cases hprogram : thread.program with
          | done result => simp [execute, hprogram] at hexec
          | stmt mark act next failed =>
              simp only [execute, hprogram, Option.some.injEq, Prod.mk.injEq] at hexec
              obtain ⟨rfl, -⟩ := hexec
              exact Option.map_eq_none_iff.mpr hnone
  intro last hmem
  obtain ⟨thread, hthread, rfl⟩ := List.mem_map.mp hmem
  exact hlast thread hthread (hquiet thread hthread)

end Pool
