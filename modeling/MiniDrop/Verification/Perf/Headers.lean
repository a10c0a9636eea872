import MiniDrop.Verification.Perf.Frames

/-! # Headers

The name of a process is read as it stands if no stamp comes before the one of the sample. -/

namespace MiniDrop

open Regex (Filled)

/-! ## Words of a stamp -/

section Words

variable {s t v : List Char}

theorem split_filled_append {p : Char → Bool} (hp : ∀ c, p c = true → Python.isSpace c = false)
    (hs : Filled p s) (ht : ∀ c ∈ t.head?, Python.isSpace c = true) :
    Python.split (s ++ t) = s :: Python.split t :=
  Python.split_word_append hs.ne (fun c hc => hp c (hs.all c hc)) ht

/-- A stamp begins with two words. -/
theorem HasStamp.split_eq (h : HasStamp s) : ∃ number time words,
    Python.split s = number :: (time ++ [':']) :: words ∧ Filled Python.isDecimal number ∧
      Filled isTimeChar time := by
  obtain ⟨blanks, number, gap, time, space, rest, rfl, hblanks, hnumber, hgap, htime, hspace⟩ := h
  have hhead : ∀ (u t : List Char), Filled Python.isSpace u → ∀ c ∈ (u ++ t).head?,
      Python.isSpace c = true := by
    intro u t hu c hc
    rw [List.head?_append_of_ne_nil _ hu.ne] at hc
    exact hu.all c (List.mem_of_mem_head? hc)
  have htimeWord : Filled (fun c => !Python.isSpace c) (time ++ [':']) := by
    refine ⟨by simp, fun c hc => ?_⟩
    rcases List.mem_append.mp hc with hc | hc
    · rw [not_isSpace_of_isTimeChar (htime.all c hc)]
      rfl
    · rw [List.mem_singleton.mp hc]
      decide
  have hassoc : time ++ ':' :: (space ++ rest) = (time ++ [':']) ++ (space ++ rest) := by simp
  refine ⟨number, time, Python.split (space ++ rest), ?_, hnumber, htime⟩
  rw [Python.split_blank_append hblanks.all,
    split_filled_append (fun _ => Python.not_isSpace_of_isDecimal) hnumber (hhead gap _ hgap),
    Python.split_blank_append hgap.all, hassoc,
    split_filled_append (fun c hc => by simpa using hc) htimeWord (hhead space rest hspace)]

/-- A stamp that goes on behind the text with two words of it is one in the text. -/
theorem hasStamp_of_split {number time : List Char} {words : List (List Char)}
    (hsplit : Python.split v = number :: (time ++ [':']) :: words)
    (hhead : ∀ c ∈ v.head?, Python.isSpace c = true) (hnumber : Filled Python.isDecimal number)
    (htime : Filled isTimeChar time) : HasStamp (v ++ [' ']) := by
  obtain ⟨blanks, t, rfl, hblanks, ht, hwords⟩ := Python.exists_of_split_cons hsplit
  obtain ⟨gap, rest, rfl, hgap, hrest, -⟩ := Python.exists_of_split_cons hwords
  obtain ⟨c, number', rfl⟩ := List.exists_cons_of_ne_nil hnumber.ne
  obtain ⟨d, time', rfl⟩ := List.exists_cons_of_ne_nil htime.ne
  have hblanksNe : blanks ≠ [] := by
    rintro rfl
    have hc := hhead c rfl
    rw [Python.not_isSpace_of_isDecimal (hnumber.all c List.mem_cons_self)] at hc
    cases hc
  have hgapNe : gap ≠ [] := by
    rintro rfl
    have hd := ht d rfl
    rw [not_isSpace_of_isTimeChar (htime.all d List.mem_cons_self)] at hd
    cases hd
  obtain ⟨space, last, hspace, hlast⟩ : ∃ space last, Filled Python.isSpace space ∧
      rest ++ [' '] = space ++ last := by
    cases rest with
    | nil => exact ⟨[' '], [], ⟨List.cons_ne_nil _ _, by simp; decide⟩, rfl⟩
    | cons e rest => exact ⟨[e], rest ++ [' '], ⟨List.cons_ne_nil _ _, by simpa using hrest⟩, rfl⟩
  refine ⟨blanks, c :: number', gap, d :: time', space, last, ?_, ⟨hblanksNe, hblanks⟩, hnumber,
    ⟨hgapNe, hgap⟩, htime, hspace⟩
  rw [← hlast]
  simp

end Words

/-! ## The stamp of a sample -/

section Stamp

variable {layout : PerfLayout} {s : PerfSample} {t u v : List Char}

theorem isDecimal_of_token {t : Token Char.isDigit} : Filled Python.isDecimal t.chars :=
  ⟨t.filled.ne, fun c hc => Python.isDecimal_of_isDigit (t.filled.all c hc)⟩

theorem PerfSample.filled_time (s : PerfSample) : Filled isTimeChar s.time.chars := by
  refine ⟨s.time.filled.ne, fun c hc => ?_⟩
  rw [isTimeChar]
  rcases Bool.or_eq_true_iff.mp (s.time.filled.all c hc) with hdigit | hdot
  · rw [Python.isDecimal_of_isDigit hdigit, Bool.true_or]
  · rw [hdot, Bool.or_true]

theorem PerfSample.stamp_eq (layout : PerfLayout) (s : PerfSample) : s.stamp layout =
    (' ' :: List.replicate layout.pad ' ') ++ (s.pid.chars ++ (s.cpuText ++ ' ' ::
      ((s.time.chars ++ [':']) ++ ' ' :: (s.event.chars ++ [':'])))) := by
  simp [PerfSample.stamp]

theorem hasStamp_stamp (layout : PerfLayout) (h : s.cpu = none) : HasStamp (s.stamp layout) := by
  refine ⟨' ' :: List.replicate layout.pad ' ', s.pid.chars, [' '], s.time.chars, [' '],
    s.event.chars ++ [':'], ?_, ?_, isDecimal_of_token, ?_, s.filled_time, ?_⟩
  · rw [s.stamp_eq, PerfSample.cpuText, h]
    simp
  · refine ⟨List.cons_ne_nil _ _, List.forall_mem_cons.mpr ⟨by decide, fun c hc => ?_⟩⟩
    rw [List.eq_of_mem_replicate hc]
    decide
  · exact ⟨List.cons_ne_nil _ _, by simp; decide⟩
  · exact ⟨List.cons_ne_nil _ _, by simp; decide⟩

def PerfSample.cpuWords (s : PerfSample) : List (List Char) :=
  match s.cpu with
  | none => []
  | some cpu => ['[' :: (cpu.chars ++ [']'])]

theorem PerfSample.split_stamp (layout : PerfLayout) (s : PerfSample) :
    Python.split (s.stamp layout) = s.pid.chars :: (s.cpuWords ++
      [s.time.chars ++ [':'], s.event.chars ++ [':']]) := by
  have hblanks : ∀ c ∈ ' ' :: List.replicate layout.pad ' ', Python.isSpace c = true :=
    List.forall_mem_cons.mpr ⟨by decide, fun c hc => by
      rw [List.eq_of_mem_replicate hc]
      decide⟩
  have hpid : ∀ c ∈ s.pid.chars, Python.isSpace c = false := fun c hc =>
    Python.not_isSpace_of_isDigit (.inl (s.pid.filled.all c hc))
  have htime : ∀ c ∈ s.time.chars ++ [':'], Python.isSpace c = false := by
    intro c hc
    rcases List.mem_append.mp hc with hc | hc
    · exact not_isSpace_of_isTimeChar (s.filled_time.all c hc)
    · rw [List.mem_singleton.mp hc]
      decide
  have hevent : ∀ c ∈ s.event.chars ++ [':'], Python.isSpace c = false := by
    intro c hc
    rcases List.mem_append.mp hc with hc | hc
    · simpa using s.event.filled.all c hc
    · rw [List.mem_singleton.mp hc]
      decide
  have hlast : Python.split (' ' :: ((s.time.chars ++ [':']) ++ ' ' :: (s.event.chars ++ [':']))) =
      [s.time.chars ++ [':'], s.event.chars ++ [':']] := by
    rw [Python.split_cons (by decide), Python.split_word_append (by simp) htime (by simp; decide),
      Python.split_cons (by decide), Python.split_of_forall hevent]
    simp
  rw [s.stamp_eq, Python.split_blank_append hblanks]
  cases hcpu : s.cpu with
  | none =>
      rw [PerfSample.cpuText, PerfSample.cpuWords, hcpu, List.nil_append,
        Python.split_word_append s.pid.filled.ne hpid (by simp; decide), hlast]
      rfl
  | some cpu =>
      have hbracket : ∀ c ∈ '[' :: (cpu.chars ++ [']']), Python.isSpace c = false := by
        refine List.forall_mem_cons.mpr ⟨by decide, fun c hc => ?_⟩
        rcases List.mem_append.mp hc with hc | hc
        · exact Python.not_isSpace_of_isDigit (.inl (cpu.filled.all c hc))
        · rw [List.mem_singleton.mp hc]
          decide
      have htext : s.cpuText = ' ' :: ('[' :: (cpu.chars ++ [']'])) := by
        rw [PerfSample.cpuText, hcpu]
        rfl
      rw [htext, PerfSample.cpuWords, hcpu, List.cons_append,
        Python.split_word_append s.pid.filled.ne hpid (by simp; decide),
        Python.split_cons (by decide),
        Python.split_word_append (List.cons_ne_nil _ _) hbracket (by simp; decide), hlast]
      rfl

theorem HasStamp.split_append {a : List Char} (h : HasStamp t) :
    Python.split (a ++ t) = Python.split a ++ Python.split t := by
  obtain ⟨c, t, rfl⟩ : ∃ c t', t = c :: t' := by
    cases t with
    | nil =>
        obtain ⟨number, time, words, hsplit, -⟩ := h.split_eq
        cases hsplit
    | cons c t => exact ⟨c, t, rfl⟩
  have hc := h.isSpace_head
  rw [Python.split_append_cons hc, Python.split_cons hc]

/-- The number of the processor keeps the end of a header from being a stamp. -/
theorem not_hasStamp_of_cpu (hcpu : s.cpu ≠ none) (h : s.stamp layout = u ++ t) : ¬HasStamp t := by
  intro hstamp
  obtain ⟨cpu, hcpu⟩ := Option.ne_none_iff_exists'.mp hcpu
  obtain ⟨number, time, words, hsplit, hnumber, htime⟩ := hstamp.split_eq
  have hwords := s.split_stamp layout
  rw [h, hstamp.split_append, hsplit, PerfSample.cpuWords, hcpu] at hwords
  have hcolon : ∀ w : List Char, number ≠ w ++ [':'] := by
    rintro w rfl
    exact absurd (hnumber.all ':' (by simp)) (by decide)
  match hu : Python.split u, hwords with
  | [], hwords =>
      have hsecond := (List.cons.inj (List.cons.inj hwords).2).1
      have hlast := congrArg List.getLast? hsecond
      rw [List.getLast?_concat, ← List.cons_append, List.getLast?_concat] at hlast
      cases hlast
  | [_], hwords =>
      have hsecond := (List.cons.inj (List.cons.inj hwords).2).1
      exact absurd (hnumber.all '[' (by rw [hsecond]; exact List.mem_cons_self)) (by decide)
  | [_, _], hwords =>
      exact hcolon _ (List.cons.inj (List.cons.inj (List.cons.inj hwords).2).2).1
  | a :: b :: c :: rest, hwords =>
      have hlength := congrArg List.length hwords
      simp at hlength
      omega

/-- A stamp in front of the stamp of the sample ends before it. -/
theorem HasStamp.of_append_stamp (hcpu : s.cpu = none) (hne : v ≠ [])
    (hlast : ∀ c ∈ v.getLast?, Python.isSpace c = false) (h : HasStamp (v ++ s.stamp layout)) :
    HasStamp (v ++ [' ']) := by
  obtain ⟨number, time, words, hsplit, hnumber, htime⟩ := h.split_eq
  rw [(hasStamp_stamp layout hcpu).split_append, s.split_stamp, PerfSample.cpuWords, hcpu,
    List.nil_append] at hsplit
  match hv : Python.split v, hsplit with
  | [], _ =>
      obtain ⟨c, hc⟩ : ∃ c, v.getLast? = some c := ⟨_, List.getLast?_eq_some_getLast hne⟩
      have hblank := Python.split_eq_nil_iff.mp hv c (List.mem_of_mem_getLast? hc)
      rw [hlast c hc] at hblank
      cases hblank
  | [_], hsplit =>
      have hsecond := (List.cons.inj (List.cons.inj hsplit).2).1
      exact absurd (s.pid.filled.all ':' (by rw [hsecond]; simp)) (by decide)
  | a :: b :: rest, hsplit =>
      obtain ⟨rfl, hrest⟩ := List.cons.inj hsplit
      obtain ⟨rfl, -⟩ := List.cons.inj hrest
      refine hasStamp_of_split hv (fun c hc => ?_) hnumber htime
      obtain ⟨d, v, rfl⟩ := List.exists_cons_of_ne_nil hne
      rw [List.head?_cons, Option.mem_some_iff] at hc
      rw [← hc]
      exact h.isSpace_head

end Stamp

/-! ## Reading a header -/

/-- The name of the process is read as it stands. -/
structure PerfSample.Titled (s : PerfSample) : Prop where
  cpu : s.cpu = none
  first : ∀ c ∈ s.comm.head?, Python.isSpace c = false
  last : ∀ c ∈ s.comm.getLast?, Python.isSpace c = false
  /-- Nothing in it looks like a stamp. -/
  quiet : ∀ u v, s.comm = u ++ v → u ≠ [] → ¬HasStamp (v ++ [' '])

section Header

variable {layout : PerfLayout} {s : PerfSample} {comm : List Char}

theorem not_hasStamp_blank : ¬HasStamp [' '] := by
  intro h
  obtain ⟨number, time, words, hsplit, -⟩ := h.split_eq
  rw [Python.split_of_blank (by simp; decide)] at hsplit
  cases hsplit

theorem headerComm?_of_titled (layout : PerfLayout) (h : s.Titled) :
    headerComm? (s.header layout) = some s.comm := by
  obtain ⟨c, u, hcomm⟩ := List.exists_cons_of_ne_nil s.ne
  have hheader : s.header layout = c :: (u ++ s.stamp layout) := by
    rw [PerfSample.header, hcomm, List.cons_append]
  rw [hheader]
  refine headerComm?_eq_some_iff.mpr ⟨h.first c (by rw [hcomm]; rfl), u, s.stamp layout, rfl, ?_,
    hasStamp_stamp layout h.cpu, fun v w huw hw hstamp => ?_, ?_⟩
  · exact fun hmem => s.clear (by rw [hcomm]; exact List.mem_cons_of_mem c hmem)
  · refine h.quiet (c :: v) w (by rw [hcomm, huw, List.cons_append]) (List.cons_ne_nil _ _)
      (hstamp.of_append_stamp h.cpu hw fun d hd => h.last d ?_)
    rw [hcomm, huw, ← List.cons_append, List.getLast?_append_of_ne_nil _ hw]
    exact hd
  · rw [← hcomm]
    exact (Text.trim_of_ends h.first h.last).symm

/-- What is read is shorter than the name, unless it is the name. -/
theorem of_headerComm?_eq_some (h : headerComm? (s.header layout) = some comm) :
    comm.length ≤ s.comm.length ∧ (comm.length = s.comm.length → comm = s.comm ∧ s.Titled) := by
  obtain ⟨c, rest, hcomm⟩ := List.exists_cons_of_ne_nil s.ne
  have hheader : s.header layout = c :: (rest ++ s.stamp layout) := by
    rw [PerfSample.header, hcomm, List.cons_append]
  rw [hheader] at h
  obtain ⟨hc, u, t, hut, -, hstamp, hfirst, rfl⟩ := headerComm?_eq_some_iff.mp h
  have hstrip : (Python.strip (c :: u)).Sublist (c :: u) := Text.trim_sublist _ _
  have hcut : (u = rest ∧ t = s.stamp layout) ∨ u.length < rest.length := by
    rcases List.append_eq_append_iff.mp hut with ⟨a, ha, hstampEq⟩ | ⟨a, ha, ht⟩
    · by_cases hnil : a = []
      · rw [hnil, List.append_nil] at ha
        rw [hnil, List.nil_append] at hstampEq
        exact .inl ⟨ha, hstampEq.symm⟩
      · by_cases hcpu : s.cpu = none
        · refine absurd ?_ (hfirst rest a ha hnil)
          rw [← hstampEq]
          exact hasStamp_stamp layout hcpu
        · exact absurd hstamp (not_hasStamp_of_cpu hcpu hstampEq)
    · by_cases hnil : a = []
      · rw [hnil, List.append_nil] at ha
        rw [hnil, List.nil_append] at ht
        exact .inl ⟨ha.symm, ht⟩
      · right
        have hlength := congrArg List.length ha
        rw [List.length_append] at hlength
        have hpos := List.length_pos_iff.mpr hnil
        omega
  rcases hcut with ⟨rfl, rfl⟩ | hlt
  · rw [hcomm]
    refine ⟨hstrip.length_le, fun heq => ?_⟩
    have hself := hstrip.eq_of_length heq
    have hcpu : s.cpu = none := by
      by_contra hcpu
      exact not_hasStamp_of_cpu hcpu (List.nil_append _).symm hstamp
    refine ⟨hself, hcpu, ?_, ?_, ?_⟩
    · rw [hcomm]
      intro d hd
      rw [List.head?_cons, Option.mem_some_iff] at hd
      rwa [← hd]
    · rw [hcomm, ← hself]
      exact Text.getLast_rdropWhile _
    · intro a b hab ha hb
      by_cases hnil : b = []
      · rw [hnil, List.nil_append] at hb
        exact not_hasStamp_blank hb
      · obtain ⟨d, a, rfl⟩ := List.exists_cons_of_ne_nil ha
        rw [hcomm, List.cons_append, List.cons.injEq] at hab
        refine hfirst a b hab.2 hnil ?_
        have hstampEq : s.stamp layout = [' '] ++ (s.stamp layout).tail := by
          rw [s.stamp_eq]
          rfl
        rw [hstampEq, ← List.append_assoc]
        exact hb.append _
  · rw [hcomm, List.length_cons]
    have hle := hstrip.length_le
    rw [List.length_cons] at hle
    exact ⟨by omega, fun heq => by omega⟩

end Header

end MiniDrop
