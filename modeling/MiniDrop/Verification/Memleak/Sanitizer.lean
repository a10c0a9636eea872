import MiniDrop.Verification.Memleak.Frames

/-! # Text reports

A report of LeakSanitizer is cut into blocks, and each block is read as one record. -/

namespace MiniDrop

open Regex (Filled)

/-! ## Reports -/

/-- The kinds of records in a text report. -/
inductive AsanKind where
  | direct
  | indirect
  | potential
deriving DecidableEq

namespace AsanKind

def chars : AsanKind → List Char
  | direct => "Direct".toList
  | indirect => "Indirect".toList
  | potential => "Potential".toList

def leakType : AsanKind → LeakType
  | direct => .definite
  | indirect => .indirect
  | potential => .possible

end AsanKind

structure AsanLeak where
  kind : AsanKind
  bytes : ℕ
  blocks : ℕ
  frames : List AsanFrame

namespace AsanLeak

def title (leak : AsanLeak) : List Char :=
  leak.kind.chars ++ " leak of ".toList ++ Python.str leak.bytes ++ " byte(s) in ".toList ++
    Python.str leak.blocks ++ " object(s) allocated from:".toList

def frameLines (leak : AsanLeak) : List (List Char) :=
  leak.frames.zipIdx.map fun (f, i) => f.line i

def block (leak : AsanLeak) : List Char := ['\n'].intercalate (leak.title :: leak.frameLines)

def record (leak : AsanLeak) : LeakRecord where
  leakType := leak.kind.leakType
  size := leak.bytes
  count := leak.blocks
  stack := leak.frames.map fun f => f.func.chars

end AsanLeak

/-- A text report; `pid` is on the line that names LeakSanitizer. -/
structure AsanReport where
  pid : Option ℕ
  leaks : List AsanLeak
  /-- The newlines at the end. -/
  ending : ℕ
  crlf : Bool

namespace AsanReport

def banner (pid : ℕ) : List Char :=
  List.replicate 65 '=' ++ "\n==".toList ++ Python.str pid ++
    "==ERROR: LeakSanitizer: detected memory leaks".toList

def blocks (r : AsanReport) : List (List Char) :=
  r.pid.toList.map banner ++ r.leaks.map AsanLeak.block

def content (r : AsanReport) : List Char :=
  ['\n', '\n'].intercalate r.blocks ++ List.replicate r.ending '\n'

def file (r : AsanReport) : List Char :=
  if r.crlf then Python.withCrlf r.content else r.content

end AsanReport

/-! ## Cutting into blocks -/

/-- Every newline is followed by another character. -/
def Solid (s : List Char) : Prop := ∀ a b, s = a ++ '\n' :: b → ∃ c t, b = c :: t ∧ c ≠ '\n'

section Blocks

variable {s t line : List Char}

theorem solid_of_notMem (h : '\n' ∉ s) : Solid s := by
  rintro a b rfl
  simp at h

theorem Solid.append_cons (hline : '\n' ∉ line) (h : Solid t)
    (hhead : ∃ c rest, t = c :: rest ∧ c ≠ '\n') : Solid (line ++ '\n' :: t) := by
  intro a b hab
  rcases List.append_eq_append_iff.mp hab with ⟨m, rfl, hm⟩ | ⟨m, rfl, hm⟩
  · cases m with
    | nil =>
        rw [List.nil_append, List.cons.injEq] at hm
        rw [← hm.2]
        exact hhead
    | cons d m =>
        rw [List.cons_append, List.cons.injEq] at hm
        exact h m b hm.2
  · cases m with
    | nil =>
        rw [List.nil_append, List.cons.injEq] at hm
        rw [hm.2]
        exact hhead
    | cons d m =>
        rw [List.cons_append, List.cons.injEq] at hm
        rw [← hm.1] at hline
        simp at hline

/-- No empty line begins in the text. -/
theorem Solid.not_prefix (h : Solid s) {a b : List Char} (hab : s = a ++ b) (hb : b ≠ []) :
    ¬['\n', '\n'] <+: b ++ t := by
  rintro ⟨u, hu⟩
  obtain ⟨c, b, rfl⟩ := List.exists_cons_of_ne_nil hb
  have hcons : '\n' :: '\n' :: u = c :: (b ++ t) := hu
  obtain ⟨hc, htail⟩ := List.cons.inj hcons
  obtain ⟨d, rest, rfl, hd⟩ := h a b (hc ▸ hab)
  exact hd (List.cons.inj htail).1.symm

/-- A text of lines that are not empty. -/
theorem solid_intercalate {lines : List (List Char)} (hlines : ∀ line ∈ lines, line ≠ [])
    (hclear : ∀ line ∈ lines, '\n' ∉ line) : Solid (['\n'].intercalate lines) := by
  induction lines with
  | nil => exact solid_of_notMem (by simp)
  | cons line lines ih =>
      obtain ⟨hline, hlines⟩ := List.forall_mem_cons.mp hlines
      obtain ⟨hlineClear, hclear⟩ := List.forall_mem_cons.mp hclear
      cases lines with
      | nil => exact solid_of_notMem (by simpa using hlineClear)
      | cons next lines =>
          rw [List.intercalate_cons_cons, List.append_assoc, List.singleton_append]
          refine (ih hlines hclear).append_cons hlineClear ?_
          obtain ⟨c, rest, rfl⟩ := List.exists_cons_of_ne_nil (hlines _ List.mem_cons_self)
          have hc : c ≠ '\n' := fun heq =>
            hclear _ List.mem_cons_self (heq ▸ List.mem_cons_self)
          cases lines with
          | nil => exact ⟨c, rest, by simp, hc⟩
          | cons last lines =>
              exact ⟨c, _, by rw [List.intercalate_cons_cons, List.cons_append, List.cons_append], hc⟩

/-- What is read of the parts: nothing of newlines, and of each block the same with a newline
behind it. -/
structure ReadsBlocks {β : Type} (read : List Char → Option (Option β)) : Prop where
  nil : read [] = some none
  newline : read ['\n'] = some none

variable {β : Type} {read : List Char → Option (Option β)}

theorem exists_mapM_cutFrom_newlines (h : ReadsBlocks read) {part : List Char}
    (hpart : read (part ++ ['\n']) = read part) (n : ℕ) :
    ∃ k, (Text.cutFrom ['\n', '\n'] part 0 (List.replicate n '\n')).mapM read =
      (read part).map fun x => x :: List.replicate k none := by
  induction n using Nat.twoStepInduction generalizing part with
  | zero =>
      refine ⟨0, ?_⟩
      rw [List.replicate_zero, Text.cutFrom, Text.mapM_cons_eq]
      cases read part <;> rfl
  | one =>
      have hcut : Text.cutFrom ['\n', '\n'] part 0 (List.replicate 1 '\n') = [part ++ ['\n']] := by
        simp [Text.cutFrom]
      refine ⟨0, ?_⟩
      rw [hcut, Text.mapM_cons_eq, hpart]
      cases read part <;> rfl
  | more n ih _ =>
      have hcut : Text.cutFrom ['\n', '\n'] part 0 (List.replicate (n + 2) '\n') =
          part :: Text.cutFrom ['\n', '\n'] [] 0 (List.replicate n '\n') :=
        Text.cutFrom_sep (by simp) part (List.replicate n '\n')
      have hnil : read ([] ++ ['\n']) = read [] := by rw [List.nil_append, h.nil, h.newline]
      obtain ⟨k, hk⟩ := ih hnil
      refine ⟨k + 1, ?_⟩
      rw [hcut, Text.mapM_cons_eq, hk, h.nil]
      cases read part <;> rfl

/-- The blocks are read one by one. -/
theorem exists_mapM_cut (h : ReadsBlocks read) {blocks : List (List Char)}
    (hsolid : ∀ b ∈ blocks, Solid b) (hread : ∀ b ∈ blocks, read (b ++ ['\n']) = read b) (n : ℕ) :
    ∃ k, (Text.cut ['\n', '\n'] (['\n', '\n'].intercalate blocks ++
      List.replicate n '\n')).mapM read = (blocks.mapM read).map (· ++ List.replicate k none) := by
  induction blocks with
  | nil =>
      have hnil : read ([] ++ ['\n']) = read [] := by rw [List.nil_append, h.nil, h.newline]
      obtain ⟨k, hk⟩ := exists_mapM_cutFrom_newlines h hnil n
      exact ⟨k + 1, by rw [h.nil] at hk; exact hk⟩
  | cons b blocks ih =>
      obtain ⟨hsolidB, hsolid⟩ := List.forall_mem_cons.mp hsolid
      obtain ⟨hreadB, hread⟩ := List.forall_mem_cons.mp hread
      cases blocks with
      | nil =>
          obtain ⟨k, hk⟩ := exists_mapM_cutFrom_newlines h hreadB n
          refine ⟨k, ?_⟩
          rw [List.intercalate_singleton, Text.cut,
            Text.cutFrom_append fun _ _ hab hb => hsolidB.not_prefix hab hb, List.nil_append, hk,
            Text.mapM_cons_eq]
          cases read b <;> rfl
      | cons next blocks =>
          obtain ⟨k, hk⟩ := ih hsolid hread
          refine ⟨k, ?_⟩
          rw [List.intercalate_cons_cons, List.append_assoc, List.append_assoc, Text.cut,
            Text.cutFrom_append fun _ _ hab hb => hsolidB.not_prefix hab hb, List.nil_append,
            Text.cutFrom_sep (by simp), Text.mapM_cons_eq, Text.mapM_cons_eq b]
          rw [Text.cut] at hk
          rw [hk]
          cases read b with
          | none => rfl
          | some x => cases (next :: blocks).mapM read <;> rfl

end Blocks

/-! ## Reading a block -/

/-- A number that `int` reads. -/
def FewDigits (n : ℕ) : Prop := (Nat.toDigits 10 n).length ≤ Python.maxStrDigits

instance (n : ℕ) : Decidable (FewDigits n) := inferInstanceAs (Decidable (_ ≤ _))

namespace AsanLeak

/-- The numbers and the functions are read as they are. -/
structure Legible (leak : AsanLeak) : Prop where
  bytes : FewDigits leak.bytes
  blocks : FewDigits leak.blocks
  frames : ∀ f ∈ leak.frames, Placeless f.func.chars

/-- The record with the functions that are read. -/
def readRecord (leak : AsanLeak) : LeakRecord :=
  { leak.record with stack := leak.frameLines.filterMap asanFrame? }

end AsanLeak

section Leaks

variable {leak : AsanLeak} {s : List Char} {x : List (List Char)}

theorem asanType_chars (kind : AsanKind) : asanType kind.chars = kind.leakType := by
  cases kind <;> rfl

theorem run_kind (kind : AsanKind) {k : List (List Char) → List Char → Option (List (List Char))}
    (hk : k [kind.chars] s = some x) :
    (Regex.group (.alt (.text "Direct".toList) (.alt (.text "Indirect".toList)
      (.text "Potential".toList)))).run [] (kind.chars ++ s) k = some x := by
  have htake : ([] : List (List Char)) ++
      [(kind.chars ++ s).take ((kind.chars ++ s).length - s.length)] = [kind.chars] := by
    rw [Regex.take_consumed, List.nil_append]
  have hgroup : ∀ u : List Char, u = kind.chars → (Regex.text u).run [] (kind.chars ++ s)
      (fun groups t => k (groups ++ [(kind.chars ++ s).take ((kind.chars ++ s).length - t.length)])
        t) = some x := by
    rintro _ rfl
    rw [Regex.run_text, htake, hk]
  rw [Regex.run, Regex.run]
  cases kind with
  | direct =>
      rw [hgroup "Direct".toList rfl]
      rfl
  | indirect =>
      rw [Regex.run, hgroup "Indirect".toList rfl]
      rfl
  | potential =>
      rw [Regex.run, hgroup "Potential".toList rfl]
      rfl

theorem run_blank {parts : List Regex} {groups : List (List Char)}
    (hs : ∀ c ∈ s.head?, Python.isSpace c = false)
    (h : (Regex.cat parts).run groups s (fun groups _ => some groups) = some x) :
    (Regex.cat (.plus Python.isSpace :: parts)).run groups ([' '] ++ s)
      (fun groups _ => some groups) = some x := by
  rw [Regex.run_cat_cons]
  exact Regex.run_plus_of_some ⟨by simp, by simp; decide⟩ hs h

theorem run_number {parts : List Regex} {groups : List (List Char)} {n : ℕ}
    (h : (Regex.cat parts).run (groups ++ [Python.str n]) ([' '] ++ s)
      (fun groups _ => some groups) = some x) :
    (Regex.cat (.group (.plus Python.isDecimal) :: parts)).run groups
      (Python.str n ++ ([' '] ++ s)) (fun groups _ => some groups) = some x := by
  rw [Regex.run_cat_cons]
  exact Regex.run_group_plus_of_some (filled_str n) (by simp; decide) h

theorem head_str_append (n : ℕ) (s : List Char) :
    ∀ c ∈ (Python.str n ++ s).head?, Python.isSpace c = false := by
  intro c hc
  rw [List.head?_append_of_ne_nil _ (Python.str_ne_nil n)] at hc
  exact Python.not_isSpace_of_mem_str (List.mem_of_mem_head? hc)

/-- The title of a record, from the kind to the number of blocks. -/
theorem groups?_leakPattern (kind : AsanKind) (bytes blocks : ℕ) (s : List Char) :
    leakPattern.groups? (kind.chars ++ ([' '] ++ (['l', 'e', 'a', 'k'] ++ ([' '] ++ (['o', 'f'] ++
      ([' '] ++ (Python.str bytes ++ ([' '] ++ (['b', 'y', 't', 'e', '(', 's', ')'] ++ ([' '] ++
        (['i', 'n'] ++ ([' '] ++ (Python.str blocks ++ ([' '] ++
          (['o', 'b', 'j', 'e', 'c', 't', '(', 's', ')'] ++ s))))))))))))))) =
      some [kind.chars, Python.str bytes, Python.str blocks] := by
  have hleak : "leak".toList = ['l', 'e', 'a', 'k'] := rfl
  have hof : "of".toList = ['o', 'f'] := rfl
  have hbyte : "byte(s)".toList = ['b', 'y', 't', 'e', '(', 's', ')'] := rfl
  have hin : "in".toList = ['i', 'n'] := rfl
  have hobject : "object(s)".toList = ['o', 'b', 'j', 'e', 'c', 't', '(', 's', ')'] := rfl
  rw [Regex.groups?, leakPattern, hleak, hof, hbyte, hin, hobject, Regex.run_cat_cons]
  refine run_kind kind (run_blank (by simp; decide) ?_)
  rw [Regex.run_cat_cons, Regex.run_text]
  refine run_blank (by simp; decide) ?_
  rw [Regex.run_cat_cons, Regex.run_text]
  refine run_blank (head_str_append bytes _) (run_number (run_blank (by simp; decide) ?_))
  rw [Regex.run_cat_cons, Regex.run_text]
  refine run_blank (by simp; decide) ?_
  rw [Regex.run_cat_cons, Regex.run_text]
  refine run_blank (head_str_append blocks _) (run_number (run_blank (by simp; decide) ?_))
  rw [Regex.run_cat_cons, Regex.run_text]
  rfl

/-- A record whose numbers are too long raises an error. -/
def AsanLeak.read? (leak : AsanLeak) : Option LeakRecord :=
  if FewDigits leak.bytes ∧ FewDigits leak.blocks then some leak.readRecord else none

theorem title_eq (leak : AsanLeak) : leak.title = leak.kind.chars ++ ([' '] ++
    (['l', 'e', 'a', 'k'] ++ ([' '] ++ (['o', 'f'] ++ ([' '] ++ (Python.str leak.bytes ++ ([' '] ++
      (['b', 'y', 't', 'e', '(', 's', ')'] ++ ([' '] ++ (['i', 'n'] ++ ([' '] ++
        (Python.str leak.blocks ++ ([' '] ++ (['o', 'b', 'j', 'e', 'c', 't', '(', 's', ')'] ++
          " allocated from:".toList)))))))))))))) := by
  have hof : " leak of ".toList = [' ', 'l', 'e', 'a', 'k', ' ', 'o', 'f', ' '] := rfl
  have hbyte : " byte(s) in ".toList =
      [' ', 'b', 'y', 't', 'e', '(', 's', ')', ' ', 'i', 'n', ' '] := rfl
  have hobject : " object(s) allocated from:".toList =
      ' ' :: ['o', 'b', 'j', 'e', 'c', 't', '(', 's', ')'] ++ " allocated from:".toList := rfl
  unfold AsanLeak.title
  rw [hof, hbyte, hobject]
  generalize " allocated from:".toList = tail
  simp

theorem notMem_title {c : Char} (hdigit : c.isDigit = false) (hminus : c ≠ '-')
    (hkind : ∀ kind : AsanKind, c ∉ kind.chars) (hof : c ∉ " leak of ".toList)
    (hbyte : c ∉ " byte(s) in ".toList) (hobject : c ∉ " object(s) allocated from:".toList)
    (leak : AsanLeak) : c ∉ leak.title := by
  intro h
  unfold AsanLeak.title at h
  simp only [List.mem_append] at h
  rcases h with ((((h | h) | h) | h) | h) | h
  · exact hkind _ h
  · exact hof h
  · exact Python.ne_of_mem_str h hdigit hminus rfl
  · exact hbyte h
  · exact Python.ne_of_mem_str h hdigit hminus rfl
  · exact hobject h

theorem newline_notMem_title (leak : AsanLeak) : '\n' ∉ leak.title :=
  notMem_title (by decide) (by decide) (fun kind => by cases kind <;> decide) (by decide)
    (by decide) (by decide) leak

theorem hash_notMem_title (leak : AsanLeak) : '#' ∉ leak.title :=
  notMem_title (by decide) (by decide) (fun kind => by cases kind <;> decide) (by decide)
    (by decide) (by decide) leak

theorem newline_notMem_frameLines : ∀ line ∈ leak.frameLines, '\n' ∉ line := by
  intro line hline
  obtain ⟨⟨f, i⟩, -, rfl⟩ := List.mem_map.mp hline
  have haddr : '\n' ∉ f.addr := fun h => absurd (f.hex.2 _ h) (by decide)
  have hname := f.func.named.clear
  have hnumber : '\n' ∉ Python.str i := fun h => Python.ne_of_mem_str h (by decide) (by decide) rfl
  dsimp only
  rw [AsanFrame.line_eq]
  simp [haddr, hname, hnumber]

theorem int?_str_natCast (n : ℕ) :
    Python.int? (Python.str n) = if FewDigits n then some (n : ℤ) else none := by
  split
  · rename_i hfew
    exact Python.int?_str hfew
  · rename_i hmany
    exact Python.int?_str_natCast_eq_none (Nat.lt_of_not_le hmany)

/-- The lines of a block, which newlines may follow. -/
theorem splitOn_block (leak : AsanLeak) : leak.block.splitOn '\n' = leak.title :: leak.frameLines :=
  List.splitOn_intercalate '\n' (List.forall_mem_cons.mpr
    ⟨newline_notMem_title leak, newline_notMem_frameLines⟩) (List.cons_ne_nil _ _)

theorem filterMap_lines (leak : AsanLeak) {tail : List Char} (htail : tail = [] ∨ tail = ['\n']) :
    ((leak.block ++ tail).splitOn '\n').filterMap asanFrame? =
      leak.frameLines.filterMap asanFrame? := by
  have hlines : (leak.title :: leak.frameLines).filterMap asanFrame? =
      leak.frameLines.filterMap asanFrame? :=
    List.filterMap_cons_none (asanFrame?_of_notMem (hash_notMem_title leak))
  have hempty : asanFrame? [] = none := asanFrame?_of_notMem List.not_mem_nil
  rcases htail with rfl | rfl
  · rw [List.append_nil, splitOn_block, hlines]
  · rw [Text.splitOn_concat_self, splitOn_block, List.filterMap_append, hlines,
      List.filterMap_cons_none hempty, List.filterMap_nil, List.append_nil]

theorem searchGroups?_block (leak : AsanLeak) (tail : List Char) :
    leakPattern.searchGroups? (leak.block ++ tail) =
      some [leak.kind.chars, Python.str leak.bytes, Python.str leak.blocks] := by
  obtain ⟨rest, hrest⟩ : ∃ rest, leak.block ++ tail = leak.title ++ rest := by
    unfold AsanLeak.block
    cases leak.frameLines with
    | nil => exact ⟨tail, by rw [List.intercalate_singleton]⟩
    | cons line lines => exact ⟨_, by rw [List.intercalate_cons_cons, List.append_assoc,
        List.append_assoc]⟩
  rw [hrest, title_eq]
  refine Regex.searchGroups?_of_some ?_
  simpa only [List.append_assoc] using
    groups?_leakPattern leak.kind leak.bytes leak.blocks (" allocated from:".toList ++ rest)

theorem asanBlock_block (leak : AsanLeak) {tail : List Char} (htail : tail = [] ∨ tail = ['\n']) :
    asanBlock (leak.block ++ tail) = leak.read?.map some := by
  unfold asanBlock
  rw [searchGroups?_block]
  dsimp only
  rw [filterMap_lines leak htail, int?_str_natCast, int?_str_natCast, asanType_chars]
  unfold AsanLeak.read?
  by_cases hbytes : FewDigits leak.bytes
  · by_cases hblocks : FewDigits leak.blocks
    · rw [if_pos hbytes, if_pos hblocks, if_pos ⟨hbytes, hblocks⟩]
      rfl
    · simp [hbytes, hblocks]
  · simp [hbytes]

/-- The functions are read as they are when no place seems to follow one. -/
theorem filterMap_frames_eq_iff (frames : List AsanFrame) (k : ℕ) :
    ((frames.zipIdx k).map fun (f, i) => f.line i).filterMap asanFrame? =
      frames.map (fun f => f.func.chars) ↔ ∀ f ∈ frames, Placeless f.func.chars := by
  induction frames generalizing k with
  | nil => simp
  | cons f frames ih =>
      obtain ⟨g, hg, hname⟩ := exists_asanFrame? f k
      rw [List.zipIdx_cons, List.map_cons, List.filterMap_cons_some hg, List.map_cons,
        List.cons.injEq, ih (k + 1), hname, List.forall_mem_cons]

/-- Only a legible record is read as it is. -/
theorem read?_eq_iff (leak : AsanLeak) : leak.read? = some leak.record ↔ leak.Legible := by
  have hrecord : leak.readRecord = leak.record ↔ ∀ f ∈ leak.frames, Placeless f.func.chars := by
    rw [← filterMap_frames_eq_iff leak.frames 0]
    unfold AsanLeak.readRecord AsanLeak.record
    rw [LeakRecord.mk.injEq]
    simp only [true_and]
    rfl
  unfold AsanLeak.read?
  constructor
  · intro h
    split at h
    · rename_i hfew
      exact ⟨hfew.1, hfew.2, hrecord.mp (Option.some.inj h)⟩
    · cases h
  · intro h
    rw [if_pos ⟨h.bytes, h.blocks⟩, hrecord.mpr h.frames]

end Leaks

/-! ## Reading a report -/

section Reports

variable {r : AsanReport}

/-- A text without the first letters of the kinds has no record. -/
theorem asanBlock_of_notMem {s : List Char} (h : ∀ c ∈ s, c ≠ 'D' ∧ c ≠ 'I' ∧ c ≠ 'P') :
    asanBlock s = some none := by
  have hdirect : "Direct".toList = ['D', 'i', 'r', 'e', 'c', 't'] := rfl
  have hindirect : "Indirect".toList = ['I', 'n', 'd', 'i', 'r', 'e', 'c', 't'] := rfl
  have hpotential : "Potential".toList = ['P', 'o', 't', 'e', 'n', 't', 'i', 'a', 'l'] := rfl
  have hnone : leakPattern.searchGroups? s = none := by
    refine Regex.searchGroups?_eq_none rfl fun c hc t => ?_
    obtain ⟨hd, hi, hp⟩ := h c hc
    rw [Regex.groups?, leakPattern, hdirect, hindirect, hpotential, Regex.run_cat_cons, Regex.run,
      Regex.run, Regex.run_text_of_ne hd, Regex.run, Regex.run_text_of_ne hi,
      Regex.run_text_of_ne hp]
    rfl
  unfold asanBlock
  rw [hnone]

theorem banner_eq (pid : ℕ) : AsanReport.banner pid =
    ['\n'].intercalate [List.replicate 65 '=', "==".toList ++ Python.str pid ++
      "==ERROR: LeakSanitizer: detected memory leaks".toList] := by
  have hline : "\n==".toList = '\n' :: "==".toList := rfl
  unfold AsanReport.banner
  rw [hline, List.intercalate_cons_cons, List.intercalate_singleton]
  simp

/-- What is in the second line of a banner. -/
theorem notMem_bannerLine {c : Char} (hdigit : c.isDigit = false) (hminus : c ≠ '-')
    (hopen : c ∉ "==".toList) (htext : c ∉ "==ERROR: LeakSanitizer: detected memory leaks".toList)
    (pid : ℕ) : c ∉ "==".toList ++ Python.str pid ++
      "==ERROR: LeakSanitizer: detected memory leaks".toList := by
  intro h
  simp only [List.mem_append] at h
  rcases h with (h | h) | h
  · exact hopen h
  · exact Python.ne_of_mem_str h hdigit hminus rfl
  · exact htext h

theorem notMem_banner {c : Char} (hequal : c ≠ '=') (hnewline : c ≠ '\n')
    (hdigit : c.isDigit = false) (hminus : c ≠ '-')
    (htext : c ∉ "==ERROR: LeakSanitizer: detected memory leaks".toList) (pid : ℕ) :
    c ∉ AsanReport.banner pid := by
  have hopen : c ∉ "==".toList := by
    change c ∉ ['=', '=']
    simpa using hequal
  have hline := notMem_bannerLine hdigit hminus hopen htext pid
  rw [banner_eq, List.intercalate_cons_cons, List.intercalate_singleton]
  intro h
  simp only [List.mem_append, List.mem_replicate, List.mem_singleton] at h hline
  tauto

theorem solid_banner (pid : ℕ) : Solid (AsanReport.banner pid) := by
  have hline := notMem_bannerLine (c := '\n') (by decide) (by decide) (by decide) (by decide) pid
  rw [banner_eq]
  refine solid_intercalate (List.forall_mem_cons.mpr ⟨by simp, List.forall_mem_singleton.mpr ?_⟩)
    (List.forall_mem_cons.mpr ⟨by simp, List.forall_mem_singleton.mpr hline⟩)
  exact List.append_ne_nil_of_right_ne_nil _ (by decide)

theorem asanBlock_banner (pid : ℕ) {tail : List Char} (htail : tail = [] ∨ tail = ['\n']) :
    asanBlock (AsanReport.banner pid ++ tail) = some none := by
  have hnotMem : ∀ c, c ∈ ['D', 'I', 'P'] → c ∉ AsanReport.banner pid ++ tail := by
    intro c hc h
    rcases List.mem_append.mp h with h | h
    · refine notMem_banner ?_ ?_ ?_ ?_ ?_ pid h <;>
        · simp only [List.mem_cons, List.not_mem_nil, or_false] at hc
          rcases hc with rfl | rfl | rfl <;> decide
    · rcases htail with rfl | rfl
      · cases h
      · rw [List.mem_singleton.mp h] at hc
        exact absurd hc (by decide)
  refine asanBlock_of_notMem fun c hc => ⟨?_, ?_, ?_⟩ <;>
    · rintro rfl
      exact hnotMem _ (by decide) hc

theorem solid_block (leak : AsanLeak) : Solid leak.block := by
  refine solid_intercalate (List.forall_mem_cons.mpr ⟨?_, fun line hline => ?_⟩)
    (List.forall_mem_cons.mpr ⟨newline_notMem_title leak, newline_notMem_frameLines⟩)
  · rw [title_eq]
    simp
  · obtain ⟨⟨f, i⟩, -, rfl⟩ := List.mem_map.mp hline
    dsimp only
    rw [AsanFrame.line_eq]
    simp

/-- Blocks are read as records, and the banner as none. -/
theorem mapM_asanBlock (leaks : List AsanLeak) :
    (leaks.map AsanLeak.block).mapM asanBlock =
      (leaks.mapM AsanLeak.read?).map fun records => records.map some := by
  induction leaks with
  | nil => rfl
  | cons leak leaks ih =>
      have hblock := asanBlock_block leak (.inl rfl)
      rw [List.append_nil] at hblock
      rw [List.map_cons, Text.mapM_cons_eq, ih, hblock, List.mapM_cons]
      cases leak.read? with
      | none => rfl
      | some record => cases leaks.mapM AsanLeak.read? <;> rfl

theorem readsBlocks_asanBlock : ReadsBlocks asanBlock where
  nil := asanBlock_of_notMem (by simp)
  newline := asanBlock_of_notMem (List.forall_mem_singleton.mpr (by decide))

theorem exists_mapM_blocks (r : AsanReport) : ∃ k, r.blocks.mapM asanBlock =
    (r.leaks.mapM AsanLeak.read?).map fun records => List.replicate k none ++ records.map some := by
  unfold AsanReport.blocks
  cases r.pid with
  | none => exact ⟨0, mapM_asanBlock r.leaks⟩
  | some pid =>
      have hbanner := asanBlock_banner pid (.inl rfl)
      rw [List.append_nil] at hbanner
      refine ⟨1, ?_⟩
      rw [Option.toList_some, List.map_singleton, List.singleton_append, Text.mapM_cons_eq, hbanner,
        mapM_asanBlock]
      cases r.leaks.mapM AsanLeak.read? <;> rfl

theorem reduceOption_records (k l : ℕ) (records : List LeakRecord) :
    ((List.replicate k none ++ records.map some) ++ List.replicate l none).reduceOption =
      records := by
  rw [List.reduceOption_append, List.reduceOption_append, List.reduceOption_replicate_none,
    List.reduceOption_replicate_none, List.append_nil, List.nil_append,
    Text.reduceOption_map_some]

/-- A report is read as the records that its blocks are read as. -/
theorem parseAsanText_content (r : AsanReport) :
    parseAsanText r.content = (r.leaks.mapM AsanLeak.read?).map (leakResult .asan) := by
  have hsolid : ∀ b ∈ r.blocks, Solid b := by
    intro b hb
    rcases List.mem_append.mp hb with hb | hb
    · obtain ⟨pid, -, rfl⟩ := List.mem_map.mp hb
      exact solid_banner pid
    · obtain ⟨leak, -, rfl⟩ := List.mem_map.mp hb
      exact solid_block leak
  have hread : ∀ b ∈ r.blocks, asanBlock (b ++ ['\n']) = asanBlock b := by
    intro b hb
    rw [← List.append_nil b, List.append_assoc, List.nil_append]
    rcases List.mem_append.mp hb with hb | hb
    · obtain ⟨pid, -, rfl⟩ := List.mem_map.mp hb
      rw [asanBlock_banner pid (.inr rfl), asanBlock_banner pid (.inl rfl)]
    · obtain ⟨leak, -, rfl⟩ := List.mem_map.mp hb
      rw [asanBlock_block leak (.inr rfl), asanBlock_block leak (.inl rfl)]
  obtain ⟨l, hcut⟩ := exists_mapM_cut readsBlocks_asanBlock hsolid hread r.ending
  obtain ⟨k, hblocks⟩ := exists_mapM_blocks r
  unfold parseAsanText AsanReport.content
  rw [hcut, hblocks]
  cases r.leaks.mapM AsanLeak.read? with
  | none => rfl
  | some records =>
      simp only [Option.map_some]
      rw [reduceOption_records]

theorem leakResult_inj {format : LeakFormat} {leaks leaks' : List LeakRecord} :
    leakResult format leaks = leakResult format leaks' ↔ leaks = leaks' :=
  ⟨fun h => congrArg MemleakResult.leaks h, fun h => h ▸ rfl⟩

theorem parseAsanText_eq_iff (r : AsanReport) :
    parseAsanText r.content = some (leakResult .asan (r.leaks.map AsanLeak.record)) ↔
      ∀ leak ∈ r.leaks, leak.Legible := by
  rw [parseAsanText_content, Option.map_eq_some_iff]
  have hrecords : (∃ records, r.leaks.mapM AsanLeak.read? = some records ∧
      leakResult .asan records = leakResult .asan (r.leaks.map AsanLeak.record)) ↔
        r.leaks.mapM AsanLeak.read? = some (r.leaks.map AsanLeak.record) := by
    simp only [leakResult_inj, exists_eq_right]
  rw [hrecords, Text.mapM_eq_some_map_iff]
  exact forall₂_congr fun leak _ => read?_eq_iff leak

end Reports

end MiniDrop
