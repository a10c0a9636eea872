import MiniDrop.Library.Pool

/-! # Programs under a common guarantee

Every statement keeps an invariant of the store and changes it only as a transitive relation
allows. A thread may rely on a fact once no such change refutes it. -/

structure Guarantee (σ : Type) where
  inv : σ → Prop
  rel : σ → σ → Prop
  refl : ∀ s, rel s s
  trans : ∀ {s t u}, rel s t → rel t u → rel s u

namespace Guarantee

variable {σ ι ω α β : Type}

/-- A fact about the store that outlasts the statements of other threads. -/
structure Fact (g : Guarantee σ) where
  holds : σ → Prop
  stable : ∀ {s t}, g.inv s → g.inv t → holds s → g.rel s t → holds t

/-- Nothing is known. -/
def Fact.top (g : Guarantee σ) : g.Fact := ⟨fun _ => True, fun _ _ _ _ => trivial⟩

def Fact.pure {g : Guarantee σ} (p : Prop) : g.Fact := ⟨fun _ => p, fun _ _ h _ => h⟩

def Fact.and {g : Guarantee σ} (P Q : g.Fact) : g.Fact where
  holds s := P.holds s ∧ Q.holds s
  stable hs ht h hrel := ⟨P.stable hs ht h.1 hrel, Q.stable hs ht h.2 hrel⟩

/-- What the statements of a thread may do that knows a fact. -/
def contract (g : Guarantee σ) : Program.Contract ι σ g.Fact where
  knows φ s := g.inv s ∧ φ.holds s
  allows _ _ s t ψ := g.rel s t ∧ g.inv t ∧ ψ.holds t
  mayFail _ := True

/-- Started where `P` is known, the program keeps the guarantee, and with its result `a` it knows
`Q a`. -/
def Triple (g : Guarantee σ) (P : g.Fact) (p : Program ι σ α) (Q : α → g.Fact) : Prop :=
  p.Follows g.contract (fun φ a => ∀ s, g.inv s → φ.holds s → (Q a).holds s) P

variable {g : Guarantee σ} {P P' : g.Fact} {p : Program ι σ α} {Q : α → g.Fact}
  {R : β → g.Fact}

/-! ## Rules -/

theorem Triple.pure {a : α} (h : ∀ s, g.inv s → P.holds s → (Q a).holds s) :
    g.Triple P (Pure.pure a : Program ι σ α) Q := h

theorem Triple.pre (h : g.Triple P p Q) (himp : ∀ s, g.inv s → P'.holds s → P.holds s) :
    g.Triple P' p Q := by
  cases p with
  | done a => exact fun s hinv hs => h s hinv (himp s hinv hs)
  | stmt mark act next failed => exact fun s hs => h s ⟨hs.1, himp s hs.1 hs.2⟩

theorem Triple.bind {k : α → Program ι σ β} (h : g.Triple P p Q)
    (hk : ∀ a, g.Triple (Q a) (k a) R) : g.Triple P (p >>= k) R :=
  Program.Follows.bind h fun _ a hφ => (hk a).pre hφ

/-- What is known and does not depend on the store may be used at once. -/
theorem Triple.of_pure {q : Prop} (h : q → g.Triple (.top g) p Q) : g.Triple (.pure q) p Q := by
  cases p with
  | done a => exact fun s hinv hq => h hq s hinv trivial
  | stmt mark act next failed => exact fun s hs => h hs.2 s ⟨hs.1, trivial⟩

theorem Triple.query {mark : ι} {read : σ → β} {Q : Option β → g.Fact}
    (hread : ∀ s, g.inv s → P.holds s → (Q (some (read s))).holds s)
    (hfail : ∀ s, g.inv s → P.holds s → (Q none).holds s) :
    g.Triple P (Program.query mark read) Q := by
  rintro s ⟨hinv, hs⟩
  exact ⟨⟨Q (some (read s)), ⟨g.refl s, hinv, hread s hinv hs⟩, fun _ _ h => h⟩,
    fun _ => ⟨Q none, ⟨g.refl s, hinv, hfail s hinv hs⟩, fun _ _ h => h⟩⟩

theorem Triple.update {mark : ι} {change : σ → Option σ} {Q : Bool → g.Fact}
    (hchange : ∀ s t, g.inv s → P.holds s → change s = some t →
      g.rel s t ∧ g.inv t ∧ (Q true).holds t)
    (hfail : ∀ s, g.inv s → P.holds s → (Q false).holds s) :
    g.Triple P (Program.update mark change) Q := by
  rintro s ⟨hinv, hs⟩
  refine ⟨⟨Q (change s).isSome, ?_, fun _ _ h => h⟩,
    fun _ => ⟨Q false, ⟨g.refl s, hinv, hfail s hinv hs⟩, fun _ _ h => h⟩⟩
  show g.rel s ((change s).getD s) ∧ g.inv ((change s).getD s) ∧
    (Q (change s).isSome).holds ((change s).getD s)
  cases hc : change s with
  | none => exact ⟨g.refl s, hinv, hfail s hinv hs⟩
  | some t => exact hchange s t hinv hs hc

theorem Triple.transact {mark : ι} {change : σ → β × σ} {Q : Option β → g.Fact}
    (hchange : ∀ s, g.inv s → P.holds s →
      g.rel s (change s).2 ∧ g.inv (change s).2 ∧ (Q (some (change s).1)).holds (change s).2)
    (hfail : ∀ s, g.inv s → P.holds s → (Q none).holds s) :
    g.Triple P (Program.transact mark change) Q := by
  rintro s ⟨hinv, hs⟩
  exact ⟨⟨Q (some (change s).1), hchange s hinv hs, fun _ _ h => h⟩,
    fun _ => ⟨Q none, ⟨g.refl s, hinv, hfail s hinv hs⟩, fun _ _ h => h⟩⟩

/-- A program that leaves alone what the guarantee is about. -/
theorem Triple.of_preserves {f : σ → β}
    (hframe : ∀ s t, f t = f s → g.inv s → g.rel s t ∧ g.inv t) (h : p.Preserves f) :
    g.Triple P p fun _ => P := by
  induction p with
  | done a => exact fun _ _ hs => hs
  | stmt mark act next failed ihnext ihfailed =>
      rintro s ⟨hinv, hs⟩
      obtain ⟨hrel, hinv'⟩ := hframe s (act s) (h.1 s) hinv
      exact ⟨⟨P, ⟨hrel, hinv', P.stable hinv hinv' hs hrel⟩, ihnext s (h.2.1 s)⟩,
        fun _ => ⟨P, ⟨g.refl s, hinv, hs⟩, ihfailed h.2.2⟩⟩

/-- A program whose statements are related as the guarantee allows. -/
theorem Triple.of_moves {R : σ → σ → Prop} (hR : ∀ s t, R s t → g.inv s → g.rel s t ∧ g.inv t)
    (h : p.Moves R) : g.Triple P p fun _ => P := by
  induction p with
  | done a => exact fun _ _ hs => hs
  | stmt mark act next failed ihnext ihfailed =>
      rintro s ⟨hinv, hs⟩
      obtain ⟨hrel, hinv'⟩ := hR s (act s) (h.1 s) hinv
      exact ⟨⟨P, ⟨hrel, hinv', P.stable hinv hinv' hs hrel⟩, ihnext s (h.2.1 s)⟩,
        fun _ => ⟨P, ⟨g.refl s, hinv, hs⟩, ihfailed h.2.2⟩⟩

/-! ## Restricted statements -/

section Restricted

variable {may : ι → σ → Bool → Prop}

/-- What the statements of a thread may do that happen as far as `may` says. -/
def law (g : Guarantee σ) (may : ι → σ → Bool → Prop) : Program.Law ι σ g.Fact where
  knows φ s := g.inv s ∧ φ.holds s
  may := may
  allows _ _ s t ψ := g.rel s t ∧ g.inv t ∧ ψ.holds t

/-- `Triple` for statements that happen as far as `may` says. -/
def TripleIf (g : Guarantee σ) (may : ι → σ → Bool → Prop) (P : g.Fact) (p : Program ι σ α)
    (Q : α → g.Fact) : Prop :=
  p.Abides (g.law may) (fun φ a => ∀ s, g.inv s → φ.holds s → (Q a).holds s) P

private theorem abides_of_follows {Q : g.Fact → α → Prop} (h : p.Follows g.contract Q P) :
    p.Abides (g.law may) Q P := by
  induction p generalizing P with
  | done a => exact h
  | stmt mark act next failed ihnext ihfailed =>
      intro s hs
      obtain ⟨⟨φ, hallows, hnext⟩, hfailed⟩ := h s hs
      obtain ⟨ψ, hallows', hrest⟩ := hfailed trivial
      exact ⟨fun _ => ⟨φ, hallows, ihnext s hnext⟩, fun _ => ⟨ψ, hallows', ihfailed hrest⟩⟩

theorem Triple.restrict (h : g.Triple P p Q) : g.TripleIf may P p Q := abides_of_follows h

theorem TripleIf.pure {a : α} (h : ∀ s, g.inv s → P.holds s → (Q a).holds s) :
    g.TripleIf may P (Pure.pure a : Program ι σ α) Q := h

theorem TripleIf.pre (h : g.TripleIf may P p Q)
    (himp : ∀ s, g.inv s → P'.holds s → P.holds s) : g.TripleIf may P' p Q := by
  cases p with
  | done a => exact fun s hinv hs => h s hinv (himp s hinv hs)
  | stmt mark act next failed => exact fun s hs => h s ⟨hs.1, himp s hs.1 hs.2⟩

theorem TripleIf.bind {k : α → Program ι σ β} (h : g.TripleIf may P p Q)
    (hk : ∀ a, g.TripleIf may (Q a) (k a) R) : g.TripleIf may P (p >>= k) R :=
  Program.Abides.bind h fun _ a hφ => (hk a).pre hφ

theorem TripleIf.of_pure {q : Prop} (h : q → g.TripleIf may (.top g) p Q) :
    g.TripleIf may (.pure q) p Q := by
  cases p with
  | done a => exact fun s hinv hq => h hq s hinv trivial
  | stmt mark act next failed => exact fun s hs => h hs.2 s ⟨hs.1, trivial⟩

theorem TripleIf.query {mark : ι} {read : σ → β} {Q : Option β → g.Fact}
    (hread : ∀ s, g.inv s → P.holds s → may mark s false → (Q (some (read s))).holds s)
    (hfail : ∀ s, g.inv s → P.holds s → (Q none).holds s) :
    g.TripleIf may P (Program.query mark read) Q := by
  rintro s ⟨hinv, hs⟩
  exact ⟨fun hmay => ⟨Q (some (read s)), ⟨g.refl s, hinv, hread s hinv hs hmay⟩, fun _ _ h => h⟩,
    fun _ => ⟨Q none, ⟨g.refl s, hinv, hfail s hinv hs⟩, fun _ _ h => h⟩⟩

theorem TripleIf.update {mark : ι} {change : σ → Option σ} {Q : Bool → g.Fact}
    (hchange : ∀ s t, g.inv s → P.holds s → may mark s false → change s = some t →
      g.rel s t ∧ g.inv t ∧ (Q true).holds t)
    (hfail : ∀ s, g.inv s → P.holds s → (Q false).holds s) :
    g.TripleIf may P (Program.update mark change) Q := by
  rintro s ⟨hinv, hs⟩
  refine ⟨fun hmay => ⟨Q (change s).isSome, ?_, fun _ _ h => h⟩,
    fun _ => ⟨Q false, ⟨g.refl s, hinv, hfail s hinv hs⟩, fun _ _ h => h⟩⟩
  show g.rel s ((change s).getD s) ∧ g.inv ((change s).getD s) ∧
    (Q (change s).isSome).holds ((change s).getD s)
  cases hc : change s with
  | none => exact ⟨g.refl s, hinv, hfail s hinv hs⟩
  | some t => exact hchange s t hinv hs hmay hc

theorem TripleIf.transact {mark : ι} {change : σ → β × σ} {Q : Option β → g.Fact}
    (hchange : ∀ s, g.inv s → P.holds s → may mark s false →
      g.rel s (change s).2 ∧ g.inv (change s).2 ∧ (Q (some (change s).1)).holds (change s).2)
    (hfail : ∀ s, g.inv s → P.holds s → (Q none).holds s) :
    g.TripleIf may P (Program.transact mark change) Q := by
  rintro s ⟨hinv, hs⟩
  exact ⟨fun hmay => ⟨Q (some (change s).1), hchange s hinv hs hmay, fun _ _ h => h⟩,
    fun _ => ⟨Q none, ⟨g.refl s, hinv, hfail s hinv hs⟩, fun _ _ h => h⟩⟩

/-- Threads keep the guarantee with statements that happen as far as `may` says. -/
def order (g : Guarantee σ) (may : ι → σ → Bool → Prop) : Pool.Order ι σ g.Fact where
  toLaw := g.law may
  initial := .top g
  final _ := True
  permits _ _ mark s fails := may mark s fails
  permits_may _ _ _ _ _ h := h
  fits slots s := g.inv s ∧ ∀ slot ∈ slots, slot.1.holds s
  fits_start slots s h := by
    refine ⟨h.1, fun slot hslot => ?_⟩
    rcases List.mem_append.mp hslot with hslot | hslot
    · exact h.2 slot hslot
    · rw [List.mem_singleton.mp hslot]
      trivial
  fits_knows slots s i φ last h hslot := ⟨h.1, h.2 _ (List.mem_of_getElem? hslot)⟩
  fits_advance slots s i φ last mark fails t ψ last' h _ _ _ hallows _ := by
    obtain ⟨hrel, hinv, hψ⟩ := hallows
    refine ⟨hinv, fun slot hmem => ?_⟩
    rcases List.mem_or_eq_of_mem_set hmem with hmem | rfl
    · exact slot.1.stable h.1 hinv (h.2 slot hmem) hrel
    · exact hψ

/-- The invariant outlasts the statements of all threads. -/
theorem inv_of_reachable {program : ω → Program ι σ Unit} {starts : ω → Prop} {s : σ}
    {pool : Pool ω ι σ} (hinit : g.inv s)
    (hop : ∀ op, starts op → g.TripleIf may (.top g) (program op) fun _ => .top g)
    (hreach : Transition.Reachable (Pool.step program)
      (Pool.Lawful starts fun _ _ => may) { store := s } pool) : g.inv pool.store := by
  obtain ⟨slots, -, hfits, -⟩ := Pool.Abides.of_reachable (d := g.order may)
    ⟨hinit, by simp⟩
    (fun op hstarts => Program.Abides.mono (hop op hstarts) fun _ _ _ => trivial) hreach
  exact hfits.1

/-- The invariant outlasts resets that keep it, too. -/
theorem inv_of_reachable_reset {ρ : Type} {program : ω → Program ι σ Unit} {reset : ρ → σ → σ}
    {starts : ω → Prop} {resets : ρ → Prop} {s : σ} {pool : Pool ω ι σ} (hinit : g.inv s)
    (hop : ∀ op, starts op → g.TripleIf may (.top g) (program op) fun _ => .top g)
    (hreset : ∀ r s, resets r → g.inv s → g.inv (reset r s))
    (hreach : Transition.Reachable (Pool.stepOrReset program reset)
      (Pool.LawfulOrReset starts (fun _ _ => may) resets) { store := s } pool) :
    g.inv pool.store := by
  obtain ⟨slots, -, hfits, -⟩ := Pool.Abides.of_reachable_reset (d := g.order may)
    ⟨hinit, by simp⟩
    (fun op hstarts => Program.Abides.mono (hop op hstarts) fun _ _ _ => trivial)
    (fun r slots s hok hfits => ⟨hreset r s hok hfits.1, by simp⟩) hreach
  exact hfits.1

end Restricted

/-! ## Pools -/

/-- Threads keep the guarantee, and the store stays related to its start. -/
def discipline (g : Guarantee σ) (start : σ) : Pool.Discipline ι σ g.Fact where
  toContract := g.contract
  initial := .top g
  final _ := True
  admits _ _ _ := True
  fits slots s := g.inv s ∧ g.rel start s ∧ ∀ slot ∈ slots, slot.1.holds s
  fits_start slots s h := by
    refine ⟨h.1, h.2.1, fun slot hslot => ?_⟩
    rcases List.mem_append.mp hslot with hslot | hslot
    · exact h.2.2 slot hslot
    · rw [List.mem_singleton.mp hslot]
      trivial
  fits_knows slots s i φ last h hslot := ⟨h.1, h.2.2 _ (List.mem_of_getElem? hslot)⟩
  fits_advance slots s i φ last mark t ψ last' h hslot _ hallows _ := by
    obtain ⟨hinv, hstart, hfacts⟩ := h
    obtain ⟨hrel, hinv', hψ⟩ := hallows
    refine ⟨hinv', g.trans hstart hrel, fun slot hmem => ?_⟩
    rcases List.mem_or_eq_of_mem_set hmem with hmem | rfl
    · exact slot.1.stable hinv hinv' (hfacts slot hmem) hrel
    · exact hψ

/-- In a run of operations that keep the guarantee, with failing statements or without, the
invariant holds and the store is related to its start. -/
theorem of_reachable {program : ω → Program ι σ Unit} {starts : ω → Prop} {s : σ}
    {pool : Pool ω ι σ} (hinit : g.inv s)
    (hop : ∀ op, starts op → g.Triple (.top g) (program op) fun _ => .top g)
    (hreach : Transition.Reachable (Pool.step program)
      (Pool.Permits starts (fun _ _ _ => True) fun _ => True) { store := s } pool) :
    g.inv pool.store ∧ g.rel s pool.store := by
  obtain ⟨slots, -, hfits, -⟩ :=
    Pool.Conforms.of_reachable (d := g.discipline s) ⟨hinit, g.refl s, by simp⟩
      (fun op hstarts => Program.Follows.mono (hop op hstarts) fun _ _ _ => trivial) hreach
  exact ⟨hfits.1, hfits.2.1⟩

end Guarantee
