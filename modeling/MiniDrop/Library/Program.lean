import Mathlib.Data.List.Basic
import Mathlib.Tactic.TypeStar
import MiniDrop.Library.Runs

/-! # Programs of single statements

A program acts on a shared store one statement at a time. Each statement is atomic, carries a
mark, and may fail without an effect; what follows may read the store that it ran in. Programs
run alone or as the threads of a pool, in any interleaving. -/

inductive Program (ι σ α : Type) where
  | done (result : α)
  | stmt (mark : ι) (act : σ → σ) (next : σ → Program ι σ α) (failed : Program ι σ α)

namespace Program

variable {ι σ α β Φ ω : Type}

protected def bind : Program ι σ α → (α → Program ι σ β) → Program ι σ β
  | done result, k => k result
  | stmt mark act next failed, k =>
    stmt mark act (fun s => (next s).bind k) (failed.bind k)

instance : Monad (Program ι σ) where
  pure := done
  bind := Program.bind

protected theorem pure_bind (result : α) (k : α → Program ι σ β) :
    (pure result >>= k) = k result := rfl

/-- Reads the store; `none` on failure. -/
def query (mark : ι) (read : σ → β) : Program ι σ (Option β) :=
  stmt mark id (fun s => done (some (read s))) (done none)

/-- Changes the store, unless the change violates a constraint; answers whether it took
place. -/
def update (mark : ι) (change : σ → Option σ) : Program ι σ Bool :=
  stmt mark (fun s => (change s).getD s) (fun s => done (change s).isSome) (done false)

/-- Changes the store and answers what it saw; `none` on failure. -/
def transact (mark : ι) (change : σ → β × σ) : Program ι σ (Option β) :=
  stmt mark (fun s => (change s).2) (fun s => done (some (change s).1)) (done none)

/-! ## Undisturbed runs -/

/-- The result and the store of a run without failures and other threads. -/
def run : Program ι σ α → σ → α × σ
  | done result, s => (result, s)
  | stmt _ act next _, s => (next s).run (act s)

@[simp] theorem run_pure (result : α) (s : σ) :
    (pure result : Program ι σ α).run s = (result, s) := rfl

@[simp] theorem run_bind (p : Program ι σ α) (k : α → Program ι σ β) (s : σ) :
    (p >>= k).run s = (k (p.run s).1).run (p.run s).2 := by
  induction p generalizing s with
  | done result => rfl
  | stmt mark act next failed ihnext _ => exact ihnext s (act s)

@[simp] theorem run_query (mark : ι) (read : σ → β) (s : σ) :
    (query mark read).run s = (some (read s), s) := rfl

@[simp] theorem run_update (mark : ι) (change : σ → Option σ) (s : σ) :
    (update mark change).run s = ((change s).isSome, (change s).getD s) := rfl

@[simp] theorem run_transact (mark : ι) (change : σ → β × σ) (s : σ) :
    (transact mark change).run s = (some (change s).1, (change s).2) := rfl

/-! ## Contracts -/

/-- What a thread may do. Its phase is what it knows about the store, also while other
threads move. -/
structure Contract (ι σ Φ : Type) where
  /-- What a thread in this phase relies on. -/
  knows : Φ → σ → Prop
  /-- A statement may take the thread and the store there. -/
  allows : Φ → ι → σ → σ → Φ → Prop
  /-- The statement may fail. -/
  mayFail : ι → Prop

/-- From phase `φ` on, each statement is allowed, and the result satisfies `Q`. -/
def Follows (c : Contract ι σ Φ) (Q : Φ → α → Prop) : Φ → Program ι σ α → Prop
  | φ, done result => Q φ result
  | φ, stmt mark act next failed => ∀ s, c.knows φ s →
      (∃ φ', c.allows φ mark s (act s) φ' ∧ Follows c Q φ' (next s)) ∧
        (c.mayFail mark → ∃ φ', c.allows φ mark s s φ' ∧ Follows c Q φ' failed)

variable {c : Contract ι σ Φ} {Q : Φ → α → Prop} {R : Φ → β → Prop} {φ : Φ}

theorem Follows.mono {Q' : Φ → α → Prop} {p : Program ι σ α} (h : p.Follows c Q φ)
    (himp : ∀ φ result, Q φ result → Q' φ result) : p.Follows c Q' φ := by
  induction p generalizing φ with
  | done result => exact himp φ result h
  | stmt mark act next failed ihnext ihfailed =>
      intro s hs
      obtain ⟨⟨φ', hallows, hnext⟩, hfailed⟩ := h s hs
      refine ⟨⟨φ', hallows, ihnext s hnext⟩, fun hfail => ?_⟩
      obtain ⟨ψ, hallows', hfailed⟩ := hfailed hfail
      exact ⟨ψ, hallows', ihfailed hfailed⟩

/-- An undisturbed run ends with a result that the contract promises. -/
theorem Follows.run_spec {p : Program ι σ α} (h : p.Follows c Q φ)
    (hkeeps : ∀ φ mark s s' φ', c.knows φ s → c.allows φ mark s s' φ' → c.knows φ' s') {s : σ}
    (hs : c.knows φ s) : ∃ φ', Q φ' (p.run s).1 := by
  induction p generalizing φ s with
  | done result => exact ⟨φ, h⟩
  | stmt mark act next failed ihnext _ =>
      obtain ⟨⟨φ', hallows, hnext⟩, -⟩ := h s hs
      exact ihnext s hnext (hkeeps φ mark s (act s) φ' hs hallows)

theorem Follows.bind {p : Program ι σ α} {k : α → Program ι σ β} (h : p.Follows c Q φ)
    (hk : ∀ φ result, Q φ result → (k result).Follows c R φ) : (p >>= k).Follows c R φ := by
  induction p generalizing φ with
  | done result => exact hk φ result h
  | stmt mark act next failed ihnext ihfailed =>
      intro s hs
      obtain ⟨⟨φ', hallows, hnext⟩, hfailed⟩ := h s hs
      refine ⟨⟨φ', hallows, ihnext s hnext⟩, fun hfail => ?_⟩
      obtain ⟨ψ, hallows', hfailed⟩ := hfailed hfail
      exact ⟨ψ, hallows', ihfailed hfailed⟩

/-! ## Laws -/

/-- A contract of statements that take place, or fail, as far as the store lets them. -/
structure Law (ι σ Φ : Type) where
  /-- What a thread in this phase relies on. -/
  knows : Φ → σ → Prop
  /-- The statement may take place here, or fail. -/
  may : ι → σ → Bool → Prop
  /-- A statement may take the thread and the store there. -/
  allows : Φ → ι → σ → σ → Φ → Prop

/-- From phase `φ` on, each statement is allowed where it may happen, and the result satisfies
`Q`. -/
def Abides (l : Law ι σ Φ) (Q : Φ → α → Prop) : Φ → Program ι σ α → Prop
  | φ, done result => Q φ result
  | φ, stmt mark act next failed => ∀ s, l.knows φ s →
      (l.may mark s false → ∃ φ', l.allows φ mark s (act s) φ' ∧ Abides l Q φ' (next s)) ∧
        (l.may mark s true → ∃ φ', l.allows φ mark s s φ' ∧ Abides l Q φ' failed)

section Abides

variable {l : Law ι σ Φ} {Q : Φ → α → Prop} {R : Φ → β → Prop} {φ : Φ}

theorem Abides.mono {Q' : Φ → α → Prop} {p : Program ι σ α} (h : p.Abides l Q φ)
    (himp : ∀ φ result, Q φ result → Q' φ result) : p.Abides l Q' φ := by
  induction p generalizing φ with
  | done result => exact himp φ result h
  | stmt mark act next failed ihnext ihfailed =>
      intro s hs
      obtain ⟨hnext, hfailed⟩ := h s hs
      constructor
      · intro hmay
        obtain ⟨φ', hallows, hrest⟩ := hnext hmay
        exact ⟨φ', hallows, ihnext s hrest⟩
      · intro hmay
        obtain ⟨φ', hallows, hrest⟩ := hfailed hmay
        exact ⟨φ', hallows, ihfailed hrest⟩

theorem Abides.bind {p : Program ι σ α} {k : α → Program ι σ β} (h : p.Abides l Q φ)
    (hk : ∀ φ result, Q φ result → (k result).Abides l R φ) : (p >>= k).Abides l R φ := by
  induction p generalizing φ with
  | done result => exact hk φ result h
  | stmt mark act next failed ihnext ihfailed =>
      intro s hs
      obtain ⟨hnext, hfailed⟩ := h s hs
      constructor
      · intro hmay
        obtain ⟨φ', hallows, hrest⟩ := hnext hmay
        exact ⟨φ', hallows, ihnext s hrest⟩
      · intro hmay
        obtain ⟨φ', hallows, hrest⟩ := hfailed hmay
        exact ⟨φ', hallows, ihfailed hrest⟩

/-- The law of a contract. -/
def Contract.law (c : Contract ι σ Φ) : Law ι σ Φ where
  knows := c.knows
  may mark _ fails := fails = true → c.mayFail mark
  allows := c.allows

theorem abides_law_iff {c : Contract ι σ Φ} {p : Program ι σ α} :
    p.Abides c.law Q φ ↔ p.Follows c Q φ := by
  induction p generalizing φ with
  | done result => exact Iff.rfl
  | stmt mark act next failed ihnext ihfailed =>
      refine forall₂_congr fun s _ => and_congr ?_ ?_
      · have hmay : c.law.may mark s false := by simp [Contract.law]
        rw [forall_prop_of_true hmay]
        exact exists_congr fun φ' => and_congr_right fun _ => ihnext s
      · have hmay : c.law.may mark s true ↔ c.mayFail mark := by simp [Contract.law]
        exact imp_congr hmay (exists_congr fun φ' => and_congr_right fun _ => ihfailed)

end Abides

/-! ## Frames -/

/-- No statement changes what `f` reads of the store. -/
def Preserves (f : σ → β) : Program ι σ α → Prop
  | done _ => True
  | stmt _ act next failed =>
    (∀ s, f (act s) = f s) ∧ (∀ s, Preserves f (next s)) ∧ Preserves f failed

section Preserves

variable {f : σ → β} {γ δ : Type}

theorem Preserves.pure (result : α) : Preserves f (Pure.pure result : Program ι σ α) := trivial

theorem Preserves.bind {p : Program ι σ γ} {k : γ → Program ι σ δ} (h : p.Preserves f)
    (hk : ∀ result, (k result).Preserves f) : (p >>= k).Preserves f := by
  induction p with
  | done result => exact hk result
  | stmt mark act next failed ihnext ihfailed =>
      exact ⟨h.1, fun s => ihnext s (h.2.1 s), ihfailed h.2.2⟩

/-- What depends on `f` alone is preserved as well. -/
theorem Preserves.comp {p : Program ι σ γ} (h : p.Preserves f) (view : β → δ) :
    p.Preserves fun s => view (f s) := by
  induction p with
  | done result => trivial
  | stmt mark act next failed ihnext ihfailed =>
      exact ⟨fun s => congrArg view (h.1 s), fun s => ihnext s (h.2.1 s), ihfailed h.2.2⟩

/-- An undisturbed run preserves it. -/
theorem Preserves.run_eq {p : Program ι σ γ} (h : p.Preserves f) (s : σ) : f (p.run s).2 = f s := by
  induction p generalizing s with
  | done result => rfl
  | stmt mark act next failed ihnext _ => exact (ihnext s (h.2.1 s) (act s)).trans (h.1 s)

theorem preserves_query (mark : ι) (read : σ → γ) : (query mark read).Preserves f :=
  ⟨fun _ => rfl, fun _ => trivial, trivial⟩

theorem preserves_update {mark : ι} {change : σ → Option σ}
    (h : ∀ s t, change s = some t → f t = f s) : (update mark change).Preserves f := by
  refine ⟨fun s => ?_, fun _ => trivial, trivial⟩
  cases hc : change s with
  | none => simp [hc]
  | some t => simpa [hc] using h s t hc

theorem preserves_transact {mark : ι} {change : σ → γ × σ} (h : ∀ s, f (change s).2 = f s) :
    (transact mark change).Preserves f :=
  ⟨h, fun _ => trivial, trivial⟩

end Preserves

/-! ## Relations -/

/-- Each statement takes the store where `R` says. -/
def Moves (R : σ → σ → Prop) : Program ι σ α → Prop
  | done _ => True
  | stmt _ act next failed => (∀ s, R s (act s)) ∧ (∀ s, Moves R (next s)) ∧ Moves R failed

section Moves

variable {R : σ → σ → Prop} {γ δ : Type}

theorem Moves.pure (result : α) : Moves R (Pure.pure result : Program ι σ α) := trivial

theorem Moves.bind {p : Program ι σ γ} {k : γ → Program ι σ δ} (h : p.Moves R)
    (hk : ∀ result, (k result).Moves R) : (p >>= k).Moves R := by
  induction p with
  | done result => exact hk result
  | stmt mark act next failed ihnext ihfailed =>
      exact ⟨h.1, fun s => ihnext s (h.2.1 s), ihfailed h.2.2⟩

theorem Preserves.moves {f : σ → β} {p : Program ι σ γ} (h : p.Preserves f)
    (hframe : ∀ s t, f t = f s → R s t) : p.Moves R := by
  induction p with
  | done result => trivial
  | stmt mark act next failed ihnext ihfailed =>
      exact ⟨fun s => hframe s _ (h.1 s), fun s => ihnext s (h.2.1 s), ihfailed h.2.2⟩

theorem Moves.mono {R' : σ → σ → Prop} {p : Program ι σ γ} (h : p.Moves R)
    (himp : ∀ s t, R s t → R' s t) : p.Moves R' := by
  induction p with
  | done result => trivial
  | stmt mark act next failed ihnext ihfailed =>
      exact ⟨fun s => himp s _ (h.1 s), fun s => ihnext s (h.2.1 s), ihfailed h.2.2⟩

theorem moves_query (hrefl : ∀ s, R s s) (mark : ι) (read : σ → γ) :
    (query mark read).Moves R :=
  ⟨hrefl, fun _ => trivial, trivial⟩

theorem moves_update {mark : ι} {change : σ → Option σ} (hrefl : ∀ s, R s s)
    (h : ∀ s t, change s = some t → R s t) : (update mark change).Moves R := by
  refine ⟨fun s => ?_, fun _ => trivial, trivial⟩
  cases hc : change s with
  | none => simpa [hc] using hrefl s
  | some t => simpa [hc] using h s t hc

theorem moves_transact {mark : ι} {change : σ → γ × σ} (h : ∀ s, R s (change s).2) :
    (transact mark change).Moves R :=
  ⟨h, fun _ => trivial, trivial⟩

/-- A preorder that holds along the statements holds across an undisturbed run. -/
theorem Moves.run_rel [Std.Refl R] [IsTrans σ R] {p : Program ι σ γ} (h : p.Moves R) (s : σ) :
    R s (p.run s).2 := by
  induction p generalizing s with
  | done result => exact Std.Refl.refl s
  | stmt mark act next failed ihnext _ =>
      exact IsTrans.trans s (act s) _ (h.1 s) (ihnext s (h.2.1 s) (act s))

end Moves

/-! ## Parts of a larger store -/

section Lift

variable {κ τ γ : Type} (get : τ → σ) (set : σ → τ → τ) (mark : ι → (σ → σ) → κ)

/-- The program on a part of the store; the marks may tell what the statements do to it. -/
def lift : Program ι σ α → Program κ τ α
  | done result => done result
  | stmt m act next failed =>
    stmt (mark m act) (fun t => set (act (get t)) t) (fun t => lift (next (get t))) (lift failed)

@[simp] theorem lift_pure (result : α) :
    lift get set mark (pure result : Program ι σ α) = pure result := rfl

@[simp] theorem lift_bind (p : Program ι σ α) (k : α → Program ι σ β) :
    lift get set mark (p >>= k) = lift get set mark p >>= fun a => lift get set mark (k a) := by
  induction p with
  | done result => rfl
  | stmt m act next failed ihnext ihfailed =>
      show stmt _ _ (fun t => lift get set mark (next (get t) >>= k))
        (lift get set mark (failed >>= k)) = stmt _ _ _ _
      rw [ihfailed]
      congr 1
      funext t
      exact ihnext (get t)

variable {get set mark}

/-- A relation between parts of the store becomes one between stores. -/
theorem Moves.lift {R : σ → σ → Prop} {R' : τ → τ → Prop} {p : Program ι σ α} (h : p.Moves R)
    (hset : ∀ s t, R (get t) s → R' t (set s t)) : (p.lift get set mark).Moves R' := by
  induction p with
  | done result => trivial
  | stmt m act next failed ihnext ihfailed =>
      exact ⟨fun t => hset _ t (h.1 (get t)), fun t => ihnext (get t) (h.2.1 (get t)),
        ihfailed h.2.2⟩

/-- On a part of the store the program runs as it does alone. -/
theorem run_lift (hget : ∀ s t, get (set s t) = s) (hset : ∀ s s' t, set s' (set s t) = set s' t)
    (hsame : ∀ t, set (get t) t = t) (p : Program ι σ α) (t : τ) :
    (lift get set mark p).run t = ((p.run (get t)).1, set (p.run (get t)).2 t) := by
  induction p generalizing t with
  | done result => simp [lift, run, hsame]
  | stmt m act next failed ihnext _ =>
      simp only [lift, run]
      rw [ihnext, hget, hset]

end Lift

end Program
