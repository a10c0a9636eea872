import MiniDrop.Verification.Perf.Headers

/-! # Folding

Each sample adds the key of what is read of it. The name of the process comes first on the stack, which
is then turned around with the frames, so it is the leaf. -/

namespace MiniDrop

open Regex (Filled)

/-! ## Statement -/

/-- Each sample counts once for its key. -/
structure FoldsStacks (layout : PerfLayout) (samples : List PerfSample) : Prop where
  contributes : ∀ init s rest, samples = init ++ s :: rest → ∀ key,
    ((parsePerfScript (layout.text (init ++ [s]))).get? key).getD 0 =
      ((parsePerfScript (layout.text init)).get? key).getD 0 +
        if key = String.ofList s.key then 1 else 0
  counts : ∀ key, ((parsePerfScript (layout.text samples)).get? key).getD 0 =
    (samples.filter fun s => key = String.ofList s.key).length
  total : (parsePerfScript (layout.text samples)).sum = samples.length

/-- Everything is read as it stands, and the key is the same with the process behind its frames. -/
structure PerfSample.Foldable (s : PerfSample) : Prop where
  titled : s.Titled
  legible : ∀ f ∈ s.frames, f.Legible
  turned : [';'].intercalate ((s.frames.map PerfFrame.symbol).reverse ++ [s.comm]) = s.key

/-! ## The stack of a sample -/

section Stack

variable {layout : PerfLayout} {s : PerfSample} {d : Dict String ℤ}

/-- What is on the stack after the header. -/
def PerfSample.titles (layout : PerfLayout) (s : PerfSample) : List (List Char) :=
  match headerComm? (s.header layout) with
  | some comm => [comm]
  | none => (frameFunc? (s.header layout)).toList

def PerfFrame.func? (layout : PerfLayout) (f : PerfFrame) : Option (List Char) :=
  frameFunc? (Python.rstrip (f.line layout))

def PerfSample.stack (layout : PerfLayout) (s : PerfSample) : List (List Char) :=
  s.titles layout ++ s.frames.filterMap (PerfFrame.func? layout)

/-- The key that is counted. -/
def PerfSample.keyRead (layout : PerfLayout) (s : PerfSample) : Option String :=
  if s.stack layout = [] then none
  else some (String.ofList ([';'].intercalate (s.stack layout).reverse))

theorem rstrip_header (layout : PerfLayout) (s : PerfSample) :
    Python.rstrip (s.header layout) = s.header layout := by
  refine rstrip_of_last fun c hc => ?_
  rw [PerfSample.header, PerfSample.stamp, ← List.append_assoc, List.getLast?_concat,
    Option.mem_some_iff] at hc
  rw [← hc]
  decide

theorem perfLine_header (layout : PerfLayout) (s : PerfSample) :
    perfLine { counts := d } (s.header layout) = { counts := d, stack := s.titles layout } := by
  have hne : Python.strip (s.header layout) ≠ [] := by
    refine Python.strip_ne_nil (c := ':') ?_ (by decide)
    rw [PerfSample.header, PerfSample.stamp]
    simp
  rw [perfLine, rstrip_header, if_neg hne, PerfSample.titles]
  cases headerComm? (s.header layout) with
  | some comm => rfl
  | none => cases frameFunc? (s.header layout) <;> rfl

/-- The address is not stripped. -/
theorem exists_rstrip_line (layout : PerfLayout) (f : PerfFrame) :
    ∃ rest, Python.rstrip (f.line layout) = layout.indent.chars ++ f.addr.chars ++ rest := by
  by_cases hnil : Python.rstrip (' ' :: (f.symbol ++ f.ending)) = []
  · have hlast : ∀ c ∈ (layout.indent.chars ++ f.addr.chars).getLast?,
        Python.isSpace c = false := by
      intro c hc
      rw [List.getLast?_append_of_ne_nil _ f.addr.filled.ne] at hc
      exact not_isSpace_of_isLowerHex (f.addr.filled.all c (List.mem_of_mem_getLast? hc))
    refine ⟨[], ?_⟩
    rw [List.append_nil]
    exact Text.rdropWhile_append hlast (List.rdropWhile_eq_nil_iff.mp hnil)
  · exact ⟨_, rstrip_append_of_ne_nil hnil⟩

theorem perfLine_frame (layout : PerfLayout) (f : PerfFrame) (state : PerfFold) :
    perfLine state (f.line layout) = { state with
      stack := state.stack ++ (f.func? layout).toList } := by
  obtain ⟨rest, hrest⟩ := exists_rstrip_line layout f
  obtain ⟨c, indent, hindent⟩ := List.exists_cons_of_ne_nil layout.indent.filled.ne
  obtain ⟨d, addr, haddr⟩ := List.exists_cons_of_ne_nil f.addr.filled.ne
  have hline : Python.rstrip (f.line layout) = c :: (indent ++ f.addr.chars ++ rest) := by
    rw [hrest, hindent]
    rfl
  have hne : Python.strip (Python.rstrip (f.line layout)) ≠ [] := by
    refine Python.strip_ne_nil (c := d) ?_
      (not_isSpace_of_isLowerHex (f.addr.filled.all d (by rw [haddr]; exact List.mem_cons_self)))
    rw [hrest, haddr]
    simp
  have hheader : headerComm? (Python.rstrip (f.line layout)) = none := by
    rw [hline, Option.eq_none_iff_forall_ne_some]
    intro comm hcomm
    have hspace := layout.indent.filled.all c (by rw [hindent]; exact List.mem_cons_self)
    rw [(headerComm?_eq_some_iff.mp hcomm).1] at hspace
    cases hspace
  rw [perfLine, if_neg hne, hheader, PerfFrame.func?]
  cases frameFunc? (Python.rstrip (f.line layout)) with
  | some func => rfl
  | none =>
      rw [Option.toList_none, List.append_nil]

theorem foldl_frames (layout : PerfLayout) (frames : List PerfFrame) (state : PerfFold) :
    (frames.map (PerfFrame.line layout)).foldl perfLine state = { state with
      stack := state.stack ++
        frames.filterMap (PerfFrame.func? layout) } := by
  induction frames generalizing state with
  | nil =>
      rw [List.map_nil, List.foldl_nil, List.filterMap_nil, List.append_nil]
  | cons f frames ih =>
      rw [List.map_cons, List.foldl_cons, perfLine_frame, ih, List.append_assoc,
        List.filterMap_cons]
      cases f.func? layout <;> rfl

/-- The lines of a sample put its stack together. -/
theorem foldl_lines (layout : PerfLayout) (s : PerfSample) :
    (s.lines layout).foldl perfLine { counts := d } =
      { counts := d, stack := s.stack layout } := by
  rw [PerfSample.lines, List.foldl_cons, perfLine_header, foldl_frames]
  rfl

end Stack

/-! ## All samples -/

section Samples

variable {layout : PerfLayout} {d : Dict String ℤ}

/-- What a sample adds. -/
def addKey (d : Dict String ℤ) (key : Option String) : Dict String ℤ :=
  match key with
  | none => d
  | some key => d.add key 1

theorem save_stack (s : PerfSample) :
    PerfFold.save { counts := d, stack := s.stack layout } = addKey d (s.keyRead layout) := by
  rw [PerfFold.save, PerfSample.keyRead]
  split <;> rfl

theorem perfLine_blank (state : PerfFold) : perfLine state [] = { counts := state.save } := rfl

theorem save_foldl_replicate (n : ℕ) (state : PerfFold) :
    ((List.replicate n []).foldl perfLine state).save = state.save := by
  induction n generalizing state with
  | zero => rfl
  | succ n ih =>
      rw [List.replicate_succ, List.foldl_cons, perfLine_blank, ih]
      rfl

/-- An empty line between samples counts the first of them. -/
theorem save_foldl_samples (layout : PerfLayout) (samples : List PerfSample)
    (d : Dict String ℤ) : (([[]].intercalate (samples.map (PerfSample.lines layout))).foldl perfLine
      { counts := d }).save = samples.foldl (fun d s => addKey d (s.keyRead layout)) d := by
  induction samples generalizing d with
  | nil => rfl
  | cons s samples ih =>
      cases samples with
      | nil =>
          rw [List.map_singleton, List.intercalate_singleton, foldl_lines, save_stack]
          rfl
      | cons next samples =>
          rw [List.map_cons, List.map_cons, List.intercalate_cons_cons, List.foldl_append,
            List.foldl_append, foldl_lines, ← List.map_cons]
          show (List.foldl perfLine { counts := PerfFold.save _ } _).save =
            (next :: samples).foldl _ (addKey d (s.keyRead layout))
          rw [save_stack]
          exact ih _

theorem Token.notMem {p : Char → Bool} (t : Token p) {c : Char} (hc : p c = false) :
    c ∉ t.chars := fun hmem => by
  rw [t.filled.all c hmem] at hc
  cases hc

theorem newline_notMem_lines (layout : PerfLayout) (s : PerfSample) :
    ∀ line ∈ s.lines layout, '\n' ∉ line := by
  have hcpu : '\n' ∉ s.cpuText := by
    rw [PerfSample.cpuText]
    split
    · simp
    · next cpu _ =>
      have hcpu := cpu.notMem (by decide : Char.isDigit '\n' = false)
      simpa using hcpu
  have hheader : '\n' ∉ s.header layout := by
    have hpid := s.pid.notMem (by decide : Char.isDigit '\n' = false)
    have htime := s.time.notMem (c := '\n') (by decide)
    have hevent := s.event.notMem (c := '\n') (by decide)
    simp [PerfSample.header, PerfSample.stamp, s.clear, hpid, hcpu, htime, hevent]
  rw [PerfSample.lines, List.forall_mem_cons, List.forall_mem_map]
  refine ⟨hheader, fun f _ hmem => ?_⟩
  have hindent := layout.indent.notMem (c := '\n') (by decide)
  have haddr := f.addr.notMem (by decide : isLowerHex '\n' = false)
  have hending : '\n' ∉ f.ending := fun hmem =>
    f.newline_notMem_ending (List.mem_append_right _ hmem)
  simp [PerfFrame.line, hindent, haddr, f.clear, hending] at hmem

/-- The counts are the keys of the samples, added up. -/
theorem parsePerfScript_text (layout : PerfLayout) (samples : List PerfSample) :
    parsePerfScript (layout.text samples) =
      samples.foldl (fun d s => addKey d (s.keyRead layout)) {} := by
  have hlines : ∀ line ∈ [[]].intercalate (samples.map (PerfSample.lines layout)) ++
      List.replicate layout.trailing [], '\n' ∉ line := by
    intro line hmem
    rcases List.mem_append.mp hmem with hmem | hmem
    · rcases Text.mem_intercalate hmem with hgap | ⟨lines, hlines, hmem⟩
      · rw [List.mem_singleton.mp hgap]
        exact List.not_mem_nil
      · obtain ⟨s, -, rfl⟩ := List.mem_map.mp hlines
        exact newline_notMem_lines layout s line hmem
    · rw [List.eq_of_mem_replicate hmem]
      exact List.not_mem_nil
  have hsave := save_foldl_samples layout samples {}
  rw [parsePerfScript, PerfLayout.text]
  by_cases hnil : [[]].intercalate (samples.map (PerfSample.lines layout)) ++
      List.replicate layout.trailing [] = []
  · rw [hnil, ← hsave, (List.append_eq_nil_iff.mp hnil).1]
    rfl
  · rw [List.splitOn_intercalate _ hlines hnil, List.foldl_append, save_foldl_replicate]
    exact hsave

end Samples

/-! ## The key that is read -/

section Keys

variable {layout : PerfLayout} {s : PerfSample} {line func : List Char}

/-- Lengths of the parts of a key, each with its separator. -/
def cost (parts : List (List Char)) : ℕ := (parts.map fun part => part.length + 1).sum

theorem cost_append (parts others : List (List Char)) :
    cost (parts ++ others) = cost parts + cost others := by
  rw [cost, List.map_append, List.sum_append]
  rfl

theorem cost_reverse (parts : List (List Char)) : cost parts.reverse = cost parts := by
  rw [cost, List.map_reverse, List.sum_reverse]
  rfl

/-- A key that is as long as the one of the symbols has all of them. -/
theorem cost_frames_le (layout : PerfLayout) (frames : List PerfFrame) :
    cost (frames.filterMap (PerfFrame.func? layout)) ≤
        cost (frames.map PerfFrame.symbol) ∧
      (cost (frames.filterMap (PerfFrame.func? layout)) =
        cost (frames.map PerfFrame.symbol) → ∀ f ∈ frames, f.Legible) := by
  induction frames with
  | nil => exact ⟨Nat.le_refl _, fun _ => by simp⟩
  | cons f frames ih =>
      obtain ⟨hle, heq⟩ := ih
      have hsymbol : cost ((f :: frames).map PerfFrame.symbol) =
          f.symbol.length + 1 + cost (frames.map PerfFrame.symbol) := by
        rw [List.map_cons, cost, List.map_cons, List.sum_cons]
        rfl
      rw [hsymbol]
      cases hfunc : f.func? layout with
      | none =>
          rw [List.filterMap_cons_none hfunc]
          exact ⟨by omega, fun h => by omega⟩
      | some func =>
          rw [List.filterMap_cons_some hfunc]
          obtain ⟨hshort, hlegible⟩ := of_frameFunc?_eq_some hfunc
          have hcons : ∀ parts, cost (func :: parts) = func.length + 1 + cost parts := fun _ => rfl
          rw [hcons]
          refine ⟨by omega, fun h => List.forall_mem_cons.mpr ⟨?_, heq (by omega)⟩⟩
          exact (hlegible (by omega)).2

theorem filterMap_frames (h : ∀ f ∈ s.frames, f.Legible) :
    (s.frames.filterMap (PerfFrame.func? layout)) =
      s.frames.map PerfFrame.symbol := by
  rw [← List.filterMap_eq_map']
  exact List.filterMap_congr fun f hf => frameFunc?_of_legible layout (h f hf)

/-- What is read of a line begins with no blank. -/
theorem frameFunc?_head (hclear : '\n' ∉ line) (h : frameFunc? line = some func) :
    func ≠ [] ∧ ∀ c ∈ func.head?, Python.isSpace c = false := by
  obtain ⟨groups, hgroups, hbind⟩ := Option.bind_eq_some_iff.mp h
  obtain ⟨g, hg, hsome⟩ := Option.bind_eq_some_iff.mp hbind
  have hclearG : '\n' ∉ Python.strip g := fun hmem =>
    hclear ((Regex.sublist_of_groups? hgroups (List.mem_of_mem_head? hg)).subset
      ((Text.trim_sublist _ _).subset hmem))
  dsimp only at hsome
  split at hsome
  case isFalse => cases hsome
  next hfunc =>
  obtain rfl := Option.some.inj hsome
  refine ⟨hfunc.1, fun c hc => Text.head_trim g c ?_⟩
  obtain ⟨rest, hrest⟩ := remove_isPrefix hclearG
  have hstrip : Text.trim Python.isSpace g = offsetPattern.remove 0 (Python.strip g) ++ rest :=
    hrest.symm
  rw [hstrip, List.head?_append, Option.mem_def.mp hc]
  rfl

theorem frameFunc?_of_head {c : Char} (hc : Python.isSpace c = false) :
    frameFunc? (c :: line) = none := by
  rw [frameFunc?, Regex.groups?, framePattern, Regex.run_cat_cons, Regex.run_plus_of_neg hc]
  rfl

theorem keyRead_of_foldable (layout : PerfLayout) (h : s.Foldable) :
    s.keyRead layout = some (String.ofList s.key) := by
  have hstack : s.stack layout = s.comm :: s.frames.map PerfFrame.symbol := by
    rw [PerfSample.stack, PerfSample.titles, headerComm?_of_titled layout h.titled,
      filterMap_frames h.legible]
    rfl
  rw [PerfSample.keyRead, hstack, if_neg (List.cons_ne_nil _ _), List.reverse_cons, h.turned]

theorem keyRead_iff : s.keyRead layout = some (String.ofList s.key) ↔ s.Foldable := by
  refine ⟨fun h => ?_, keyRead_of_foldable layout⟩
  rw [PerfSample.keyRead] at h
  split at h
  case isTrue => cases h
  next hstack =>
  have hkey : [';'].intercalate (s.stack layout).reverse = s.key :=
    String.ofList_injective (Option.some.inj h)
  obtain ⟨c, rest, hcomm⟩ := List.exists_cons_of_ne_nil s.ne
  have hheader : s.header layout = c :: (rest ++ s.stamp layout) := by
    rw [PerfSample.header, hcomm, List.cons_append]
  by_cases hc : Python.isSpace c = false
  · -- Nothing that is read is longer than what it is read of.
    have hlength := congrArg (·.length + 1) hkey
    rw [PerfSample.key, Text.length_intercalate_succ (by simpa using hstack),
      Text.length_intercalate_succ (List.cons_ne_nil _ _)] at hlength
    have hcost : cost (s.titles layout) + cost (s.frames.filterMap (PerfFrame.func? layout)) =
          s.comm.length + 1 + cost (s.frames.map PerfFrame.symbol) := by
      rw [← cost_append, ← cost_reverse, ← cost_reverse (s.frames.map PerfFrame.symbol)]
      exact hlength
    obtain ⟨hle, hlegible⟩ := cost_frames_le layout s.frames
    have htitles : cost (s.titles layout) ≤ s.comm.length + 1 ∧
        (cost (s.titles layout) = s.comm.length + 1 → s.Titled) := by
      rw [PerfSample.titles]
      cases hread : headerComm? (s.header layout) with
      | none =>
          have hnone : frameFunc? (s.header layout) = none := by
            rw [hheader]
            exact frameFunc?_of_head hc
          simp [hnone, cost]
      | some comm =>
          obtain ⟨hshort, htitled⟩ := of_headerComm?_eq_some hread
          have hone : cost [comm] = comm.length + 1 := rfl
          simp only [hone]
          exact ⟨by omega, fun heq => (htitled (by omega)).2⟩
    have htitled := htitles.2 (by omega)
    have hframes := hlegible (by omega)
    refine ⟨htitled, hframes, ?_⟩
    rw [← hkey, PerfSample.stack, PerfSample.titles, headerComm?_of_titled layout htitled,
      filterMap_frames hframes, List.singleton_append, List.reverse_cons]
  · -- What is read begins with no blank, but the name of the process does.
    have hnone : headerComm? (s.header layout) = none := by
      rw [hheader, Option.eq_none_iff_forall_ne_some]
      exact fun comm hread => hc (headerComm?_eq_some_iff.mp hread).1
    have hheaderClear : '\n' ∉ s.header layout :=
      newline_notMem_lines layout s _ List.mem_cons_self
    have hparts : ∀ part ∈ (s.stack layout).reverse,
        part ≠ [] ∧ ∀ c ∈ part.head?, Python.isSpace c = false := by
      intro part hpart
      rw [List.mem_reverse, PerfSample.stack, PerfSample.titles, hnone, List.mem_append,
        Option.mem_toList, List.mem_filterMap] at hpart
      rcases hpart with htitle | ⟨f, hf, hfunc⟩
      · exact frameFunc?_head hheaderClear htitle
      · refine frameFunc?_head (fun hmem => ?_) hfunc
        refine newline_notMem_lines layout s (f.line layout)
          (List.mem_cons_of_mem _ (List.mem_map_of_mem hf)) ?_
        exact (List.rdropWhile_prefix _ _).sublist.subset hmem
    obtain ⟨part, parts, hreverse⟩ := List.exists_cons_of_ne_nil
      (List.reverse_eq_nil_iff.not.mpr hstack)
    rw [hreverse] at hkey hparts
    obtain ⟨hne, hhead⟩ := hparts part List.mem_cons_self
    have hfirst := congrArg List.head? hkey
    rw [Text.head_intercalate hne, PerfSample.key, Text.head_intercalate s.ne, hcomm] at hfirst
    exact absurd (hhead c hfirst) hc

end Keys

/-! ## The theorem -/

section Folds

variable {layout : PerfLayout} {samples : List PerfSample}

theorem parsePerfScript_concat (layout : PerfLayout) (samples : List PerfSample) (s : PerfSample) :
    parsePerfScript (layout.text (samples ++ [s])) =
      addKey (parsePerfScript (layout.text samples)) (s.keyRead layout) := by
  rw [parsePerfScript_text, parsePerfScript_text, List.foldl_append, List.foldl_cons,
    List.foldl_nil]

theorem parsePerfScript_of_foldable (h : ∀ s ∈ samples, s.Foldable) :
    parsePerfScript (layout.text samples) =
      Dict.sumUp (samples.map fun s => (String.ofList s.key, (1 : ℤ))) := by
  induction samples using List.reverseRecOn with
  | nil => exact parsePerfScript_text layout []
  | append_singleton samples s ih =>
      rw [parsePerfScript_concat, ih fun t ht => h t (List.mem_append_left _ ht),
        keyRead_of_foldable layout (h s (List.mem_append_right _ List.mem_cons_self)),
        List.map_append, Dict.sumUp, Dict.sumUp, List.foldl_append]
      rfl

/-- A sample that counts for its key is read with it. -/
theorem keyRead_of_contributes {d : Dict String ℤ} {key : Option String} {k : String}
    (h : ((addKey d key).get? k).getD 0 = (d.get? k).getD 0 + 1) : key = some k := by
  cases key with
  | none =>
      rw [addKey] at h
      omega
  | some other =>
      rw [addKey, Dict.get?_add] at h
      split at h
      · next heq => rw [heq]
      · omega

theorem foldsStacks_iff (layout : PerfLayout) (samples : List PerfSample) :
    FoldsStacks layout samples ↔ ∀ s ∈ samples, s.Foldable := by
  constructor
  · intro h s hs
    obtain ⟨init, rest, hsamples⟩ := List.append_of_mem hs
    have hcount := h.contributes init s rest hsamples (String.ofList s.key)
    rw [parsePerfScript_concat, if_pos rfl] at hcount
    exact keyRead_iff.mp (keyRead_of_contributes hcount)
  · intro h
    refine ⟨?_, fun key => ?_, ?_⟩
    · rintro init s rest rfl key
      have hs := h s (List.mem_append_right _ List.mem_cons_self)
      rw [parsePerfScript_concat, keyRead_of_foldable layout hs, addKey, Dict.get?_add]
      by_cases hkey : key = String.ofList s.key
      · simp [hkey]
      · simp [hkey, Ne.symm hkey]
    · rw [parsePerfScript_of_foldable h, Dict.get?_sumUp, List.filter_map, List.map_map]
      simp [Function.comp_def, eq_comm]
    · rw [parsePerfScript_of_foldable h, Dict.sum_sumUp, List.map_map]
      simp [Function.comp_def]

end Folds

/-! ## A process that is no root -/

def plainPerfLayout : PerfLayout where
  indent := ⟨"    ".toList, by simp, List.all_eq_true.mp rfl⟩

def innerFrame : PerfFrame where
  addr := ⟨"ffffffff81234567".toList, by simp, List.all_eq_true.mp rfl⟩
  symbol := "func_a".toList
  clear := by decide
  known := by decide
  place := some (⟨"17".toList, by simp, List.all_eq_true.mp rfl⟩, "/usr/lib/module.so".toList)
  place_clear := by
    rintro _ ⟨⟩
    decide

def outerFrame : PerfFrame where
  addr := ⟨"ffffffff81234568".toList, by simp, List.all_eq_true.mp rfl⟩
  symbol := "func_b".toList
  clear := by decide
  known := by decide
  place := some (⟨"2a".toList, by simp, List.all_eq_true.mp rfl⟩, "/usr/lib/module.so".toList)
  place_clear := by
    rintro _ ⟨⟩
    decide

def twoFrames : PerfSample where
  comm := "process".toList
  ne := by simp
  clear := by decide
  pid := ⟨"12345".toList, by simp, List.all_eq_true.mp rfl⟩
  cpu := none
  time := ⟨"12345.678".toList, by simp, List.all_eq_true.mp rfl⟩
  event := ⟨"cpu-cycles".toList, by simp, List.all_eq_true.mp rfl⟩
  frames := [innerFrame, outerFrame]

theorem not_foldsStacks : ¬FoldsStacks plainPerfLayout [twoFrames] := by
  intro h
  have hcount := h.counts (String.ofList twoFrames.key)
  rw [parsePerfScript_text] at hcount
  have hread : twoFrames.keyRead plainPerfLayout = some "func_b;func_a;process" := by
    decide +kernel
  have hkey : String.ofList twoFrames.key = "process;func_b;func_a" := by decide +kernel
  rw [hkey, List.foldl_cons, hread] at hcount
  exact absurd hcount (by decide +kernel)

end MiniDrop
