import Mathlib.Data.List.Basic
import Mathlib.Data.Nat.Digits.Lemmas
import Mathlib.Tactic.TypeStar

/-! # Decoders of byte strings

A decoder reads from the front of its input into buffers of sizes that it asks for. It has a state
of its own, and neither the state nor the requests are lost when it fails. -/

/-- The bytes that are left, how many were read, and the sizes of the buffers that were asked for. -/
structure Input where
  rest : List UInt8
  pos : ℕ := 0
  requests : List ℕ := []

/-- Why a buffer was not filled. -/
inductive Short where
  | nothing
  | cut
deriving DecidableEq

def Decoder (ε σ α : Type) := Input → σ → Except ε α × Input × σ

/-- The number of these digits, the highest of which comes first. -/
def bigEndian (bytes : List UInt8) : ℕ := Nat.ofDigits 256 (bytes.reverse.map UInt8.toNat)

theorem bigEndian_lt (bytes : List UInt8) : bigEndian bytes < 256 ^ bytes.length := by
  have h := Nat.ofDigits_lt_base_pow_length (b := 256) (l := bytes.reverse.map UInt8.toNat)
    (by decide) fun d hd => by
      obtain ⟨b, -, rfl⟩ := List.mem_map.mp hd
      exact b.toNat_lt
  rwa [List.length_map, List.length_reverse] at h

namespace Decoder

variable {ε σ α β : Type}

instance : Monad (Decoder ε σ) where
  pure a inp s := (.ok a, inp, s)
  bind m k inp s :=
    match m inp s with
    | (.ok a, inp, s) => k a inp s
    | (.error e, inp, s) => (.error e, inp, s)

theorem bind_apply (m : Decoder ε σ α) (k : α → Decoder ε σ β) (inp : Input) (s : σ) :
    (m >>= k) inp s =
      match m inp s with
      | (.ok a, inp, s) => k a inp s
      | (.error e, inp, s) => (.error e, inp, s) := rfl

def fail (e : ε) : Decoder ε σ α := fun inp s => (.error e, inp, s)

def state : Decoder ε σ σ := fun inp s => (.ok s, inp, s)

def update (f : σ → σ) : Decoder ε σ Unit := fun inp s => (.ok (), inp, f s)

def position : Decoder ε σ ℕ := fun inp s => (.ok inp.pos, inp, s)

/-- How many bytes are left. -/
def remaining : Decoder ε σ ℕ := fun inp s => (.ok inp.rest.length, inp, s)

/-- Asks for a buffer of this size. -/
def request (n : ℕ) : Decoder ε σ Unit := fun inp s =>
  (.ok (), { inp with requests := inp.requests ++ [n] }, s)

/-- Asks for a buffer of this size and fills it. -/
def readFull (short : Short → ε) (n : ℕ) : Decoder ε σ (List UInt8) := fun inp s =>
  if n ≤ inp.rest.length then
    (.ok (inp.rest.take n), ⟨inp.rest.drop n, inp.pos + n, inp.requests ++ [n]⟩, s)
  else
    (.error (short (if inp.rest = [] then .nothing else .cut)),
      ⟨[], inp.pos + inp.rest.length, inp.requests ++ [n]⟩, s)

def mapError (f : ε → ε) (m : Decoder ε σ α) : Decoder ε σ α := fun inp s =>
  match m inp s with
  | (.error e, inp, s) => (.error (f e), inp, s)
  | done => done

/-- An error of this kind is no failure, but the end. -/
def orEnd (ends : ε → Bool) (m : Decoder ε σ α) : Decoder ε σ (Option α) := fun inp s =>
  match m inp s with
  | (.ok a, inp, s) => (.ok (some a), inp, s)
  | (.error e, inp, s) => if ends e then (.ok none, inp, s) else (.error e, inp, s)

def times (m : Decoder ε σ α) : ℕ → Decoder ε σ (List α)
  | 0 => pure []
  | n + 1 => do
    let a ← m
    let as ← times m n
    pure (a :: as)

/-- Runs the body as long as it answers `true`, but no more than so many times. -/
def loop (diverges : ε) (body : Decoder ε σ Bool) : ℕ → Decoder ε σ Unit
  | 0 => fail diverges
  | rounds + 1 => do
    let again ← body
    if again then loop diverges body rounds else pure ()

/-! ## Completeness -/

section Accepts

/-- Started at this position, the decoder reads `front` before `rest` and returns `a`. -/
def Accepts (m : Decoder ε σ α) (pos : ℕ) (s : σ) (front rest : List UInt8) (a : α) (s' : σ) :
    Prop :=
  ∀ requests, ∃ requests',
    m ⟨front ++ rest, pos, requests⟩ s = (.ok a, ⟨rest, pos + front.length, requests'⟩, s')

variable {m : Decoder ε σ α} {k : α → Decoder ε σ β} {pos : ℕ} {s s' s'' : σ}
  {front back rest : List UInt8} {a : α} {b : β}

theorem Accepts.pure (pos : ℕ) (s : σ) (rest : List UInt8) (a : α) :
    Accepts (Pure.pure a : Decoder ε σ α) pos s [] rest a s :=
  fun requests => ⟨requests, rfl⟩

theorem Accepts.bind (hm : Accepts m pos s front (back ++ rest) a s')
    (hk : Accepts (k a) (pos + front.length) s' back rest b s'') :
    Accepts (m >>= k) pos s (front ++ back) rest b s'' := by
  intro requests
  obtain ⟨requests1, h1⟩ := hm requests
  obtain ⟨requests2, h2⟩ := hk requests1
  refine ⟨requests2, ?_⟩
  rw [bind_apply, List.append_assoc, h1, List.length_append, ← Nat.add_assoc]
  exact h2

/-- A step that reads nothing. -/
theorem Accepts.bind_nil (hm : Accepts m pos s [] (back ++ rest) a s')
    (hk : Accepts (k a) pos s' back rest b s'') : Accepts (m >>= k) pos s back rest b s'' :=
  Accepts.bind hm hk

/-- A step after which nothing is read. -/
theorem Accepts.bind_last (hm : Accepts m pos s front rest a s')
    (hk : Accepts (k a) (pos + front.length) s' [] rest b s'') :
    Accepts (m >>= k) pos s front rest b s'' := by
  have h : Accepts (m >>= k) pos s (front ++ []) rest b s'' := hm.bind hk
  rwa [List.append_nil] at h

theorem accepts_update (f : σ → σ) :
    Accepts (update f : Decoder ε σ Unit) pos s [] rest () (f s) :=
  fun requests => ⟨requests, rfl⟩

theorem accepts_state : Accepts (state : Decoder ε σ σ) pos s [] rest s s :=
  fun requests => ⟨requests, rfl⟩

theorem accepts_position : Accepts (position : Decoder ε σ ℕ) pos s [] rest pos s :=
  fun requests => ⟨requests, rfl⟩

theorem accepts_remaining :
    Accepts (remaining : Decoder ε σ ℕ) pos s [] rest rest.length s :=
  fun requests => ⟨requests, rfl⟩

theorem accepts_request (n : ℕ) : Accepts (request n : Decoder ε σ Unit) pos s [] rest () s :=
  fun requests => ⟨requests ++ [n], rfl⟩

theorem accepts_readFull {short : Short → ε} {n : ℕ} (h : front.length = n) :
    Accepts (readFull short n : Decoder ε σ _) pos s front rest front s := by
  subst h
  exact fun requests => ⟨requests ++ [front.length], by simp [readFull]⟩

theorem Accepts.mapError {f : ε → ε} (h : Accepts m pos s front rest a s') :
    Accepts (mapError f m) pos s front rest a s' := by
  intro requests
  obtain ⟨requests', h⟩ := h requests
  exact ⟨requests', by rw [Decoder.mapError, h]⟩

theorem Accepts.orEnd {ends : ε → Bool} (h : Accepts m pos s front rest a s') :
    Accepts (orEnd ends m) pos s front rest (some a) s' := by
  intro requests
  obtain ⟨requests', h⟩ := h requests
  exact ⟨requests', by rw [Decoder.orEnd, h]⟩

/-- One item after another. -/
theorem accepts_times {ι : Type} {enc : ι → List UInt8} {value : ι → α} {items : List ι}
    (h : ∀ item ∈ items, ∀ pos rest, Accepts m pos s (enc item) rest (value item) s) {n : ℕ}
    (hn : n = items.length) :
    Accepts (times m n) pos s (items.flatMap enc) rest (items.map value) s := by
  subst hn
  induction items generalizing pos with
  | nil => exact .pure pos s rest []
  | cons item items ih =>
      obtain ⟨hitem, hitems⟩ := List.forall_mem_cons.mp h
      exact .bind (hitem _ _) ((ih hitems).bind_last (.pure _ _ _ _))

/-- Each item is read in one round of the loop, and the last round finds the end. -/
theorem accepts_loop {ι : Type} {enc : ι → List UInt8} {next : σ → ι → σ} {items : List ι}
    {body : Decoder ε σ Bool} {diverges : ε} {rounds : ℕ} (hrounds : items.length < rounds)
    (hbody : ∀ done item todo, items = done ++ item :: todo → ∀ s,
      Accepts body (pos + (done.flatMap enc).length) s (enc item) (todo.flatMap enc ++ rest) true
        (next s item))
    (hend : ∀ s, Accepts body (pos + (items.flatMap enc).length) s [] rest false s) :
    Accepts (loop diverges body rounds) pos s (items.flatMap enc) rest ()
      (items.foldl next s) := by
  induction items generalizing pos s rounds with
  | nil =>
      cases rounds with
      | zero => simp at hrounds
      | succ rounds => exact .bind_nil (hend s) (.pure _ _ _ _)
  | cons item items ih =>
      cases rounds with
      | zero => simp at hrounds
      | succ rounds =>
          refine .bind (hbody [] item items rfl s) (ih (by simpa using hrounds) ?_ ?_)
          · intro done item' todo hitems s
            have h := hbody (item :: done) item' todo (by rw [hitems]; rfl) s
            rwa [List.flatMap_cons, List.length_append, ← Nat.add_assoc] at h
          · intro s
            have h := hend s
            rwa [List.flatMap_cons, List.length_append, ← Nat.add_assoc] at h

end Accepts

/-! ## Soundness -/

section Decodes

/-- All buffers are within the bound. A decoder that succeeds has read `front`, and `Q` holds of
it, of the result, and of the input that is left. -/
def Decodes (bound : ℕ) (m : Decoder ε σ α) (inp : Input) (s : σ)
    (Q : List UInt8 → α → Input → Prop) : Prop :=
  (∀ n ∈ (m inp s).2.1.requests, n ∈ inp.requests ∨ n ≤ bound) ∧
    ∀ a, (m inp s).1 = .ok a → ∃ front, inp.rest = front ++ (m inp s).2.1.rest ∧
      (m inp s).2.1.pos = inp.pos + front.length ∧ Q front a (m inp s).2.1

variable {bound n : ℕ} {m : Decoder ε σ α} {k : α → Decoder ε σ β} {inp : Input} {s : σ} {a : α}
  {Q Q' : List UInt8 → α → Input → Prop} {R : List UInt8 → β → Input → Prop}

theorem Decodes.mono (h : Decodes bound m inp s Q) (himp : ∀ front a inp',
    inp.rest = front ++ inp'.rest → Q front a inp' → Q' front a inp') :
    Decodes bound m inp s Q' := by
  refine ⟨h.1, fun a ha => ?_⟩
  obtain ⟨front, hrest, hpos, hQ⟩ := h.2 a ha
  exact ⟨front, hrest, hpos, himp _ _ _ hrest hQ⟩

theorem Decodes.pure (h : Q [] a inp) :
    Decodes bound (Pure.pure a : Decoder ε σ α) inp s Q := by
  refine ⟨fun n hn => .inl hn, fun a' ha => ?_⟩
  cases ha
  exact ⟨[], rfl, rfl, h⟩

theorem Decodes.fail (e : ε) : Decodes bound (fail e : Decoder ε σ α) inp s Q :=
  ⟨fun _ hn => .inl hn, fun _ h => nomatch h⟩

theorem Decodes.bind (hm : Decodes bound m inp s Q)
    (hk : ∀ front a inp' s', inp.rest = front ++ inp'.rest → inp'.pos = inp.pos + front.length →
      Q front a inp' → Decodes bound (k a) inp' s' fun back b inp'' => R (front ++ back) b inp'') :
    Decodes bound (m >>= k) inp s R := by
  rw [Decodes, bind_apply]
  rw [Decodes] at hm
  revert hm
  obtain ⟨result, inp', s'⟩ := m inp s
  intro hm
  cases result with
  | error e => exact ⟨hm.1, fun _ h => nomatch h⟩
  | ok a =>
      obtain ⟨front, hrest, hpos, hQ⟩ := hm.2 a rfl
      obtain ⟨hrequests, hsuccess⟩ := hk front a inp' s' hrest hpos hQ
      refine ⟨fun n hn => ?_, fun b hb => ?_⟩
      · rcases hrequests n hn with hold | hle
        · exact hm.1 n hold
        · exact .inr hle
      · obtain ⟨back, hrest', hpos', hR⟩ := hsuccess b hb
        refine ⟨front ++ back, ?_, ?_, hR⟩
        · rw [hrest, hrest', List.append_assoc]
        · rw [hpos', hpos, List.length_append, Nat.add_assoc]

theorem decodes_update (f : σ → σ) :
    Decodes bound (update f : Decoder ε σ Unit) inp s fun front _ inp' => front = [] ∧ inp' = inp :=
  ⟨fun _ hn => .inl hn, fun _ _ => ⟨[], rfl, rfl, rfl, rfl⟩⟩

theorem decodes_state : Decodes bound (state : Decoder ε σ σ) inp s
    fun front _ inp' => front = [] ∧ inp' = inp :=
  ⟨fun _ hn => .inl hn, fun _ _ => ⟨[], rfl, rfl, rfl, rfl⟩⟩

theorem decodes_position : Decodes bound (position : Decoder ε σ ℕ) inp s
    fun front pos inp' => front = [] ∧ pos = inp.pos ∧ inp' = inp := by
  refine ⟨fun _ hn => .inl hn, fun pos hpos => ?_⟩
  cases hpos
  exact ⟨[], rfl, rfl, rfl, rfl, rfl⟩

theorem decodes_remaining : Decodes bound (remaining : Decoder ε σ ℕ) inp s
    fun front _ inp' => front = [] ∧ inp' = inp :=
  ⟨fun _ hn => .inl hn, fun _ _ => ⟨[], rfl, rfl, rfl, rfl⟩⟩

theorem decodes_request (h : n ≤ bound) : Decodes bound (request n : Decoder ε σ Unit) inp s
    fun front _ inp' => front = [] ∧ inp'.rest = inp.rest := by
  refine ⟨fun n' hn => ?_, fun _ _ => ⟨[], rfl, rfl, rfl, rfl⟩⟩
  rcases List.mem_append.mp hn with hn | hn
  · exact .inl hn
  · rw [List.mem_singleton.mp hn]
    exact .inr h

theorem decodes_readFull {short : Short → ε} (h : n ≤ bound) :
    Decodes bound (readFull short n : Decoder ε σ _) inp s
      fun front buf _ => buf = front ∧ front.length = n := by
  have hrequest : ∀ n' ∈ inp.requests ++ [n], n' ∈ inp.requests ∨ n' ≤ bound := by
    intro n' hn
    rcases List.mem_append.mp hn with hn | hn
    · exact .inl hn
    · rw [List.mem_singleton.mp hn]
      exact .inr h
  rw [Decodes, readFull]
  split
  · next hle =>
    refine ⟨hrequest, fun buf hbuf => ⟨inp.rest.take n, (List.take_append_drop n inp.rest).symm, ?_⟩⟩
    cases hbuf
    rw [List.length_take_of_le hle]
    exact ⟨rfl, rfl, rfl⟩
  · exact ⟨hrequest, fun _ hbuf => nomatch hbuf⟩

theorem Decodes.mapError {f : ε → ε} (h : Decodes bound m inp s Q) :
    Decodes bound (mapError f m) inp s Q := by
  rw [Decodes, Decoder.mapError]
  rw [Decodes] at h
  revert h
  obtain ⟨result, inp', s'⟩ := m inp s
  intro h
  cases result with
  | error e => exact ⟨h.1, fun _ ha => nomatch ha⟩
  | ok a => exact h

/-- What the decoder reads, or the end of the input. -/
theorem decodes_orEnd {ends : ε → Bool} (h : Decodes bound m inp s Q)
    (hnil : ∀ e, (m inp s).1 = .error e → ends e → inp.rest = [] ∧ (m inp s).2.1.rest = [] ∧
      (m inp s).2.1.pos = inp.pos) :
    Decodes bound (orEnd ends m) inp s fun front result inp' =>
      (∃ a, result = some a ∧ Q front a inp') ∨ result = none ∧ front = [] ∧ inp'.rest = [] := by
  rw [Decodes, orEnd]
  rw [Decodes] at h
  revert h hnil
  obtain ⟨result, inp', s'⟩ := m inp s
  cases result with
  | error e =>
      intro h hnil
      dsimp only
      by_cases hends : ends e = true
      · obtain ⟨hrest, hrest', hpos⟩ := hnil e rfl hends
        rw [if_pos hends]
        refine ⟨h.1, fun _ ha => ?_⟩
        cases ha
        exact ⟨[], by rw [hrest, hrest']; rfl, hpos, .inr ⟨rfl, rfl, hrest'⟩⟩
      · rw [if_neg hends]
        exact ⟨h.1, fun _ ha => nomatch ha⟩
  | ok a =>
      intro h _
      refine ⟨h.1, fun _ ha => ?_⟩
      cases ha
      obtain ⟨front, hrest, hpos, hQ⟩ := h.2 a rfl
      exact ⟨front, hrest, hpos, .inl ⟨a, rfl, hQ⟩⟩

/-- One item after another; what was read before may matter for the next. -/
theorem decodes_times {ι : Type} (enc : ι → List UInt8) (value : ι → α)
    (h : ∀ (done : List ι) inp' s', done.length < n → inp.rest = done.flatMap enc ++ inp'.rest →
      Decodes bound m inp' s' fun front a _ => ∃ item, front = enc item ∧ a = value item) :
    Decodes bound (times m n) inp s fun front as _ =>
      ∃ items : List ι, items.length = n ∧ front = items.flatMap enc ∧ as = items.map value := by
  have hloop : ∀ left (done : List ι) inp' s', done.length + left = n →
      inp.rest = done.flatMap enc ++ inp'.rest →
        Decodes bound (times m left) inp' s' fun front as _ =>
          ∃ items : List ι, items.length = left ∧ front = items.flatMap enc ∧ as = items.map value := by
    intro left
    induction left with
    | zero => exact fun done inp' s' _ _ => .pure ⟨[], rfl, rfl, rfl⟩
    | succ left ih =>
        intro done inp' s' hleft hrest
        refine (h done inp' s' (by omega) hrest).bind ?_
        rintro _ _ inp1 s1 h1 - ⟨item, rfl, rfl⟩
        refine (ih (done ++ [item]) inp1 s1 ?_ ?_).bind ?_
        · rw [List.length_append, List.length_singleton]
          omega
        · rw [hrest, h1]
          simp
        · rintro _ _ inp2 s2 - - ⟨items, hlength, rfl, rfl⟩
          exact .pure ⟨item :: items, by simp [hlength], by simp, rfl⟩
  exact hloop n [] inp s (by simp) rfl

/-- A round reads an item, or finds the end. -/
theorem decodes_loop {ι : Type} {enc : ι → List UInt8} {body : Decoder ε σ Bool} {diverges : ε}
    {rounds : ℕ} {I : List ι → Prop} {E : List ι → Input → Prop} (hI : I [])
    (hbody : ∀ done inp' s', I done → inp.rest = done.flatMap enc ++ inp'.rest →
      inp'.pos = inp.pos + (done.flatMap enc).length →
        Decodes bound body inp' s' fun front again inp'' =>
          (again = true ∧ ∃ item, front = enc item ∧ I (done ++ [item])) ∨
            again = false ∧ front = [] ∧ E done inp'') :
    Decodes bound (loop diverges body rounds) inp s fun front _ inp' =>
      ∃ items : List ι, front = items.flatMap enc ∧ E items inp' := by
  have hloop : ∀ rounds done inp' s', I done → inp.rest = done.flatMap enc ++ inp'.rest →
      inp'.pos = inp.pos + (done.flatMap enc).length →
        Decodes bound (loop diverges body rounds) inp' s' fun front _ inp'' =>
          ∃ items, front = items.flatMap enc ∧ E (done ++ items) inp'' := by
    intro rounds
    induction rounds with
    | zero => exact fun done inp' s' _ _ _ => .fail diverges
    | succ rounds ih =>
        intro done inp' s' hdone hrest hpos
        refine (hbody done inp' s' hdone hrest hpos).bind ?_
        rintro _ _ inp1 s1 h1 hpos1 (⟨rfl, item, rfl, hitem⟩ | ⟨rfl, rfl, hend⟩)
        · refine (ih (done ++ [item]) inp1 s1 hitem ?_ ?_).mono ?_
          · rw [hrest, h1]
            simp
          · rw [hpos1, hpos]
            simp [Nat.add_assoc]
          · rintro _ _ inp2 - ⟨items, rfl, hend⟩
            exact ⟨item :: items, by simp, by simpa using hend⟩
        · exact .pure ⟨[], rfl, by simpa using hend⟩
  have h := hloop rounds [] inp s hI rfl rfl
  simpa using h

end Decodes

/-! ## Termination -/

section Ends

/-- The decoder does not run out of rounds, and gives no bytes back. -/
def Ends (diverges : ε) (m : Decoder ε σ α) : Prop :=
  ∀ inp s, (m inp s).1 ≠ .error diverges ∧ (m inp s).2.1.rest.length ≤ inp.rest.length

variable {diverges : ε} {m : Decoder ε σ α} {k : α → Decoder ε σ β}

theorem Ends.pure (a : α) : Ends diverges (Pure.pure a : Decoder ε σ α) :=
  fun _ _ => ⟨nofun, le_rfl⟩

theorem Ends.bind (hm : Ends diverges m) (hk : ∀ a, Ends diverges (k a)) :
    Ends diverges (m >>= k) := by
  intro inp s
  have hm := hm inp s
  rw [bind_apply]
  revert hm
  obtain ⟨result, inp', s'⟩ := m inp s
  intro hm
  cases result with
  | error e => exact ⟨fun h => hm.1 (by cases h; rfl), hm.2⟩
  | ok a => exact ⟨(hk a inp' s').1, (hk a inp' s').2.trans hm.2⟩

theorem ends_fail {e : ε} (h : e ≠ diverges) : Ends diverges (fail e : Decoder ε σ α) :=
  fun _ _ => ⟨fun heq => h (Except.error.inj heq ▸ rfl), le_rfl⟩

theorem ends_update (f : σ → σ) : Ends diverges (update f : Decoder ε σ Unit) :=
  fun _ _ => ⟨nofun, le_rfl⟩

theorem ends_state : Ends diverges (state : Decoder ε σ σ) := fun _ _ => ⟨nofun, le_rfl⟩

theorem ends_position : Ends diverges (position : Decoder ε σ ℕ) := fun _ _ => ⟨nofun, le_rfl⟩

theorem ends_request (n : ℕ) : Ends diverges (request n : Decoder ε σ Unit) :=
  fun _ _ => ⟨nofun, le_rfl⟩

theorem ends_readFull {short : Short → ε} (h : ∀ x, short x ≠ diverges) (n : ℕ) :
    Ends diverges (readFull short n : Decoder ε σ _) := by
  intro inp s
  rw [readFull]
  split
  · exact ⟨nofun, by simp⟩
  · exact ⟨fun heq => h _ (Except.error.inj heq), by simp⟩

theorem Ends.mapError {f : ε → ε} (h : Ends diverges m) (hf : ∀ e, f e ≠ diverges) :
    Ends diverges (mapError f m) := by
  intro inp s
  have h := h inp s
  rw [Decoder.mapError]
  revert h
  obtain ⟨result, inp', s'⟩ := m inp s
  intro h
  cases result with
  | error e => exact ⟨fun heq => hf e (Except.error.inj heq ▸ rfl), h.2⟩
  | ok a => exact ⟨nofun, h.2⟩

theorem Ends.orEnd {ends : ε → Bool} (h : Ends diverges m) : Ends diverges (orEnd ends m) := by
  intro inp s
  have h := h inp s
  rw [Decoder.orEnd]
  revert h
  obtain ⟨result, inp', s'⟩ := m inp s
  intro h
  cases result with
  | error e =>
      dsimp only
      by_cases hends : ends e = true
      · rw [if_pos hends]
        exact ⟨nofun, h.2⟩
      · rw [if_neg hends]
        exact ⟨fun heq => h.1 (Except.error.inj heq ▸ rfl), h.2⟩
  | ok a => exact ⟨nofun, h.2⟩

theorem Ends.times (h : Ends diverges m) (n : ℕ) : Ends diverges (times m n) := by
  induction n with
  | zero => exact .pure []
  | succ n ih => exact h.bind fun _ => ih.bind fun _ => .pure _

/-- A round that goes on has read something, if its first step has or leads to the end. -/
theorem Ends.reads (diverges : ε) {m : Decoder ε σ α} {k : α → Decoder ε σ Bool} {inp : Input}
    {s : σ} (hk : ∀ a, Ends diverges (k a)) (hm : ∀ a, (m inp s).1 = .ok a →
      (m inp s).2.1.rest.length < inp.rest.length ∨ ∀ inp s, (k a inp s).1 ≠ .ok true)
    (h : ((m >>= k) inp s).1 = .ok true) :
    ((m >>= k) inp s).2.1.rest.length < inp.rest.length := by
  rw [bind_apply] at h ⊢
  revert hm h
  obtain ⟨result, inp', s'⟩ := m inp s
  intro hm h
  cases result with
  | error e => cases h
  | ok a =>
      rcases hm a rfl with hless | hnot
      · exact (hk a inp' s').2.trans_lt hless
      · exact absurd h (hnot inp' s')

/-- A loop ends if every round but the last reads something. -/
theorem ends_loop {body : Decoder ε σ Bool} (h : Ends diverges body)
    (hreads : ∀ inp s, (body inp s).1 = .ok true →
      (body inp s).2.1.rest.length < inp.rest.length) :
    Ends diverges (do
      let left ← remaining
      loop diverges body (left + 1)) := by
  have hloop : ∀ rounds inp s, inp.rest.length < rounds →
      (loop diverges body rounds inp s).1 ≠ .error diverges ∧
        (loop diverges body rounds inp s).2.1.rest.length ≤ inp.rest.length := by
    intro rounds
    induction rounds with
    | zero => exact fun _ _ hlt => absurd hlt (Nat.not_lt_zero _)
    | succ rounds ih =>
        intro inp s hlt
        have hbody := h inp s
        have hfewer := hreads inp s
        rw [loop, bind_apply]
        revert hbody hfewer
        obtain ⟨result, inp', s'⟩ := body inp s
        intro hbody hfewer
        cases result with
        | error e => exact ⟨fun heq => hbody.1 (Except.error.inj heq ▸ rfl), hbody.2⟩
        | ok again =>
            cases again with
            | false => exact ⟨nofun, hbody.2⟩
            | true =>
                have hless : inp'.rest.length < inp.rest.length := hfewer rfl
                have h := ih inp' s' (by omega)
                exact ⟨h.1, h.2.trans hless.le⟩
  exact fun inp s => hloop (inp.rest.length + 1) inp s (Nat.lt_succ_self _)

end Ends

end Decoder
