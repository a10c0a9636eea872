import MiniDrop.Library.Trie
import MiniDrop.Model.DiffTree
import MiniDrop.Library.Lines

/-! # Paths of frames and their keys

The key of a path joins its frames, and forgets empty frames in front. -/

namespace MiniDrop

/-- The stack of these frames. -/
def stackOf (path : List String) : String :=
  String.ofList ([';'].intercalate (path.map String.toList))

/-- The path under which the index holds a node. -/
def pathKey (path : List String) : String := path.foldl joinPath ""

/-- No stack begins with two empty frames, and none with an empty frame and the first frame of
another. -/
structure FramesApart (paths : Finset (List String)) : Prop where
  single : ∀ path ∈ paths, ¬ ["", ""] <+: path
  first : ∀ path ∈ paths, ∀ path' ∈ paths, ∀ frame ≠ "", ["", frame] <+: path → ¬ [frame] <+: path'

/-! ## Paths and keys -/

section Keys

/-- Frames hold no semicolon. -/
def Framed (path : List String) : Prop := ∀ frame ∈ path, ';' ∉ frame.toList

theorem framed_framesOf (stack : List Char) : Framed (framesOf stack) := by
  intro frame hframe
  obtain ⟨part, hpart, rfl⟩ := List.mem_map.mp hframe
  rw [String.toList_ofList]
  exact Text.notMem_of_mem_splitOn hpart

theorem stackOf_framesOf (stack : String) : stackOf (framesOf stack.toList) = stack := by
  have hframes : (framesOf stack.toList).map String.toList = stack.toList.splitOn ';' := by
    rw [framesOf, List.map_map]
    exact (List.map_congr_left fun _ _ => String.toList_ofList).trans (List.map_id _)
  rw [stackOf, hframes, List.intercalate_splitOn, String.ofList_toList]

theorem framesOf_stackOf {path : List String} (h : Framed path) (hne : path ≠ []) :
    framesOf (stackOf path).toList = path := by
  rw [framesOf, stackOf, String.toList_ofList, List.splitOn_intercalate, List.map_map]
  · exact (List.map_congr_left fun _ _ => String.ofList_toList).trans (List.map_id _)
  · intro part hpart
    obtain ⟨frame, hframe, rfl⟩ := List.mem_map.mp hpart
    exact h frame hframe
  · simpa using hne

theorem joinPath_empty (frame : String) : joinPath "" frame = frame := if_pos rfl

theorem pathKey_append (path : List String) (frame : String) :
    pathKey (path ++ [frame]) = joinPath (pathKey path) frame := by
  rw [pathKey, List.foldl_append]
  rfl

theorem pathKey_cons_empty (path : List String) : pathKey ("" :: path) = pathKey path := rfl

/-- After a frame that is not empty the key is the joined path. -/
theorem pathKey_cons {frame : String} (hframe : frame ≠ "") (path : List String) :
    pathKey (frame :: path) = stackOf (frame :: path) := by
  have hloop : ∀ (path : List String) (front : String), front ≠ "" →
      path.foldl joinPath front = stackOf (front :: path) := by
    intro path
    induction path with
    | nil => simp [stackOf]
    | cons frame path ih =>
        intro front hfront
        have hne : front ++ ";" ++ frame ≠ "" := by simp
        have hjoin : stackOf ((front ++ ";" ++ frame) :: path) = stackOf (front :: frame :: path) := by
          cases path <;> simp [stackOf, List.intercalate_cons_cons]
        rw [List.foldl_cons, joinPath, if_neg hfront, ih _ hne, hjoin]
  rw [pathKey, List.foldl_cons, joinPath_empty]
  exact hloop path frame hframe

variable {keys : Finset (List String)}

/-- At most one empty frame is in front. -/
theorem path_cases (h : FramesApart keys) {path : List String}
    (hpath : Trie.Occupied keys path) (hne : path ≠ []) : path = [""] ∨
      ∃ frame rest, frame ≠ "" ∧ (path = frame :: rest ∨ path = "" :: frame :: rest) := by
  obtain ⟨key, hkey, hfront⟩ := hpath
  rcases path with _ | ⟨frame, rest⟩
  · exact absurd rfl hne
  · by_cases hframe : frame = ""
    · subst hframe
      rcases rest with _ | ⟨second, rest⟩
      · exact .inl rfl
      · refine .inr ⟨second, rest, ?_, .inr rfl⟩
        rintro rfl
        exact h.single key hkey ((List.prefix_append ["", ""] rest).trans hfront)
    · exact .inr ⟨frame, rest, hframe, .inl rfl⟩

theorem stackOf_ne {frame : String} (hframe : frame ≠ "") (rest : List String) :
    stackOf (frame :: rest) ≠ "" := by
  cases rest <;> simp [stackOf, List.intercalate_cons_cons, hframe]

/-- The key tells these paths apart. -/
theorem pathKey_inj (h : FramesApart keys) (hframed : ∀ key ∈ keys, Framed key)
    {path path' : List String} (hpath : Trie.Occupied keys path)
    (hpath' : Trie.Occupied keys path') (hne : path ≠ []) (hne' : path' ≠ [])
    (heq : pathKey path = pathKey path') : path = path' := by
  have hframes : ∀ {path}, Trie.Occupied keys path → Framed path := by
    rintro path ⟨key, hkey, hfront⟩ frame hframe
    exact hframed key hkey frame (hfront.subset hframe)
  have hkey : ∀ {frame rest path}, frame ≠ "" → path = frame :: rest ∨ path = "" :: frame :: rest →
      pathKey path = stackOf (frame :: rest) := by
    rintro frame rest path hframe (rfl | rfl)
    · exact pathKey_cons hframe rest
    · rw [pathKey_cons_empty, pathKey_cons hframe]
  have hframedOf : ∀ {frame rest path}, Framed path →
      path = frame :: rest ∨ path = "" :: frame :: rest → Framed (frame :: rest) := by
    rintro frame rest path hpath (rfl | rfl)
    · exact hpath
    · exact fun f hf => hpath f (List.mem_cons_of_mem _ hf)
  have hclash : ∀ {frame rest}, frame ≠ "" → Trie.Occupied keys (frame :: rest) →
      ¬ Trie.Occupied keys ("" :: frame :: rest) := by
    rintro frame rest hframe ⟨key, hmem, hfront⟩ ⟨key', hmem', hfront'⟩
    exact h.first key' hmem' key hmem frame hframe
      ((List.prefix_append ["", frame] rest).trans hfront')
      ((List.prefix_append [frame] rest).trans hfront)
  rcases path_cases h hpath hne with rfl | ⟨frame, rest, hframe, hcase⟩
  · rcases path_cases h hpath' hne' with rfl | ⟨frame, rest, hframe, hcase⟩
    · rfl
    · rw [hkey hframe hcase] at heq
      exact absurd heq.symm (stackOf_ne hframe rest)
  · rcases path_cases h hpath' hne' with rfl | ⟨frame', rest', hframe', hcase'⟩
    · rw [hkey hframe hcase] at heq
      exact absurd heq (stackOf_ne hframe rest)
    · rw [hkey hframe hcase, hkey hframe' hcase'] at heq
      have hsame : frame :: rest = frame' :: rest' := by
        rw [← framesOf_stackOf (hframedOf (hframes hpath) hcase) (List.cons_ne_nil _ _), heq,
          framesOf_stackOf (hframedOf (hframes hpath') hcase') (List.cons_ne_nil _ _)]
      obtain ⟨rfl, rfl⟩ := List.cons.inj hsame
      rcases hcase with rfl | rfl <;> rcases hcase' with rfl | rfl
      · rfl
      · exact absurd hpath' (hclash hframe hpath)
      · exact absurd hpath (hclash hframe hpath')
      · rfl

end Keys

end MiniDrop
