import Mathlib.Data.List.Nodup
import MiniDrop.Verification.Backend.Expressions

/-! # The numbers of a description

A text has words without digits and at most one process id, one frequency and one time. The
expressions read numbers without asking what they are: "99hz" is a number of hours, and a process id
before a word with s is one of seconds. -/

namespace MiniDrop

open Scan

/-! ## Texts with numbers -/

inductive NumberKind where
  | pid
  | hz
  | time
deriving DecidableEq

/-- What is written behind the digits. -/
def NumberKind.units : NumberKind → List String
  | pid => [""]
  | hz => ["hz"]
  | time => timeUnits

structure NumberToken where
  kind : NumberKind
  digits : List Char
  unit : String
deriving DecidableEq

namespace NumberToken

def value (token : NumberToken) : ℕ := digitsValue token.digits

/-- What is written before the digits. -/
def lead (token : NumberToken) : List Char := if token.kind = .pid then "pid ".toList else []

def chars (token : NumberToken) : List Char := token.lead ++ token.digits ++ token.unit.toList

structure Valid (token : NumberToken) : Prop where
  nonempty : token.digits ≠ []
  digits : ∀ c ∈ token.digits, c.isDigit = true
  length : token.digits.length ≤ if token.kind = .pid then 10 else 4
  positive : token.kind ≠ .pid → 1 ≤ token.value
  unit : token.unit ∈ token.kind.units

/-- A time in seconds. -/
def seconds (token : NumberToken) : ℕ :=
  if token.unit ∈ ["分钟", "分", "min", "mins", "minute", "minutes"] then token.value * 60
  else if token.unit ∈ ["小时", "h", "hour", "hours"] then token.value * 3600
  else token.value

end NumberToken

/-- A number in its place: what is written since the number before it, the last digit of that one,
and what follows the digits. -/
structure Place where
  token : NumberToken
  prev : Option Char
  gap : List Char
  after : List Char

/-- Tokens, each with the words behind it. -/
abbrev Parts := List (NumberToken × List Char)

namespace Parts

def chars (parts : Parts) : List Char := parts.flatMap fun part => part.1.chars ++ part.2

def places : Option Char → List Char → Parts → List Place
  | _, _, [] => []
  | prev, gap, (token, words) :: parts =>
    ⟨token, prev, gap ++ token.lead, token.unit.toList ++ words ++ chars parts⟩ ::
      places token.digits.getLast? (token.unit.toList ++ words) parts

end Parts

/-- Words without digits and tokens in any order, at most one of each kind. -/
structure Phrase where
  words : List Char
  parts : Parts
  valid : ∀ part ∈ parts, part.1.Valid
  digitFree : DigitFree words ∧ ∀ part ∈ parts, DigitFree part.2
  once : (parts.map fun part => part.1.kind).Nodup
  /-- A process id is followed by a blank or the end. -/
  apart : ∀ place ∈ Parts.places none words parts, place.token.kind = .pid →
    place.after.head?.all Go.isSpace = true

namespace Phrase

def chars (phrase : Phrase) : List Char := phrase.words ++ Parts.chars phrase.parts

def places (phrase : Phrase) : List Place := Parts.places none phrase.words phrase.parts

/-- The token of this kind. -/
def token? (phrase : Phrase) (kind : NumberKind) : Option NumberToken :=
  (phrase.places.map Place.token).find? fun token => token.kind = kind

/-! ## Statement -/

/-- The process id of a plan, for the one in the request. -/
def pidFor (phrase : Phrase) (requested : Int32) : Int32 :=
  match phrase.token? .pid with
  | some token =>
    if 1 ≤ token.value ∧ token.value < 2 ^ 31 then .ofInt token.value else requested
  | none => requested

/-- The numbers of a plan are those of the text; a continuous task has no duration, and a bound of
its own for the frequency. -/
structure PlansNumbers (phrase : Phrase) (requested : Int32) (plan : NaturalLanguageTaskPlan) :
    Prop where
  pid : plan.pid = phrase.pidFor requested
  missing : "pid" ∈ plan.missingFields ↔ plan.pid ≤ 0
  hz : plan.mode = .oneshot →
    plan.hz = ((phrase.token? .hz).map fun token => min (max token.value 1) 1000).getD 99
  duration : plan.mode = .oneshot →
    plan.duration = ((phrase.token? .time).map fun token => min (max token.seconds 1) 3600).getD 30

/-- What is read, if anything, is the number of a token of this kind. -/
def ReadsOwn (phrase : Phrase) (kind : NumberKind) (read : Option Reading) : Prop :=
  ∀ found ∈ read, ∃ place ∈ phrase.places, place.token.kind = kind ∧ found.after = place.after

/-- The numbers of the text are read as they are written. -/
structure AsWritten (phrase : Phrase) (text : String) : Prop where
  plans : ∀ ip targetIp pid firstAgent, phrase.PlansNumbers pid
    (buildNaturalLanguagePlan ⟨.ofText ip text, targetIp, pid⟩ firstAgent)
  pid : phrase.ReadsOwn .pid (naturalPID (lowered text))
  hz : phrase.ReadsOwn .hz (naturalHz (lowered text))
  time : phrase.ReadsOwn .time (naturalSeconds (lowered text))

end Phrase

/-! ## The condition -/

namespace Place

variable (place : Place)

/-- One of the units follows the digits. -/
def hasUnit (units : List String) : Bool := (firstOf units (skipSpace place.after)).isSome

/-- The value of the last four digits. -/
def lastFour : ℕ := digitsValue (place.token.digits.drop (place.token.digits.length - 4))

/-- The word of the pattern comes before the digits, and they end where it wants them to. -/
def isBehind (p : PidPattern) : Bool := p.asks place.prev place.gap && p.bounds place.after

end Place

/-- Each number can only be read as what it is. -/
structure Phrase.Distinct (phrase : Phrase) : Prop where
  /-- Before the time, no number has a unit of time behind it, as "hz" is for each frequency. -/
  time : ∀ place ∈ phrase.places.takeWhile fun place => place.token.kind ≠ .time,
    place.hasUnit timeUnits = true → place.lastFour = 0
  /-- Before the frequency, no number has its unit behind it. -/
  hz : ∀ place ∈ phrase.places.takeWhile fun place => place.token.kind ≠ .hz,
    place.hasUnit ["hz", "赫兹"] = false
  /-- Before the process id, no number comes behind the word for one. -/
  pid : ∀ place ∈ phrase.places.takeWhile fun place =>
      !(place.token.kind = .pid && place.isBehind .pid), place.isBehind .pid = false
  /-- The process id fits, or becomes negative; its word is not the end of a longer one. -/
  fits : ∀ place ∈ phrase.places, place.token.kind = .pid →
    if place.token.value < 2 ^ 31 then 0 < place.token.value → place.isBehind .pid = true
    else place.isBehind .pid = true → Int32.ofInt place.token.value ≤ 0
  /-- Where there is no positive process id, no number comes behind another word for one. -/
  others : (∀ place ∈ phrase.places, place.token.kind = .pid → place.isBehind .pid = true →
      place.token.value = 0) →
    ∀ place ∈ phrase.places, place.isBehind .process = false ∧ place.isBehind .chinese = false

/-! ## The places of the numbers -/

theorem areWords_units (kind : NumberKind) (hkind : kind ≠ .pid) : AreWords kind.units := by
  cases kind with
  | pid => exact absurd rfl hkind
  | hz => decide
  | time => decide

/-- What an expression needs to know of a place. -/
structure Place.Sound (place : Place) : Prop where
  valid : place.token.Valid
  gap : DigitFree place.gap
  number : IsNumber place.token.digits place.after
  length : place.token.digits.length ≤ 10
  unit : place.token.unit.toList <+: place.after
  lead : place.token.lead <:+ place.gap

namespace NumberToken

variable {token : NumberToken}

theorem digitFree_lead : DigitFree token.lead := by
  unfold lead
  split
  · decide
  · simp [DigitFree]

theorem Valid.digitFree_unit (h : token.Valid) : DigitFree token.unit.toList := by
  have hunit := h.unit
  by_cases hkind : token.kind = .pid
  · rw [hkind] at hunit
    rw [List.mem_singleton.mp hunit]
    simp [DigitFree]
  · exact (areWords_units _ hkind _ hunit).2

theorem Valid.unit_ne_nil (h : token.Valid) (hkind : token.kind ≠ .pid) : token.unit.toList ≠ [] :=
  (areWords_units _ hkind _ h.unit).1

end NumberToken

theorem not_isDigit_of_isSpace {c : Char} (h : Go.isSpace c = true) : c.isDigit = false :=
  isDigit_of_isBlank (by simp [isBlank, h])

namespace Parts

variable {prev : Option Char} {gap : List Char} {parts : Parts}

@[simp] theorem chars_cons (part : NumberToken × List Char) (parts : Parts) :
    chars (part :: parts) = part.1.chars ++ part.2 ++ chars parts := rfl

theorem chars_places (token : NumberToken) (gap words : List Char) (parts : Parts) :
    gap ++ chars ((token, words) :: parts) =
      (gap ++ token.lead) ++ (token.digits ++ (token.unit.toList ++ words ++ chars parts)) := by
  simp [NumberToken.chars]

/-- All places are sound. -/
theorem sound_places (hgap : DigitFree gap)
    (hparts : ∀ part ∈ parts, part.1.Valid ∧ DigitFree part.2)
    (hapart : ∀ place ∈ places prev gap parts, place.token.kind = .pid →
      place.after.head?.all Go.isSpace = true) :
    ∀ place ∈ places prev gap parts, place.Sound := by
  induction parts generalizing prev gap with
  | nil => simp [places]
  | cons part parts ih =>
      obtain ⟨token, words⟩ := part
      obtain ⟨⟨hvalid, hwords⟩, hparts⟩ := List.forall_mem_cons.mp hparts
      rw [places, List.forall_mem_cons] at hapart ⊢
      obtain ⟨hpid, hapart⟩ := hapart
      have hunit := hvalid.digitFree_unit
      refine ⟨⟨hvalid, hgap.append NumberToken.digitFree_lead, ⟨hvalid.nonempty, hvalid.digits, ?_⟩,
        ?_, ?_, ?_⟩, ih (hunit.append hwords) hparts hapart⟩
      · intro c hc
        by_cases hkind : token.kind = .pid
        · have hspace := hpid hkind
          rw [Option.mem_def.mp hc] at hspace
          exact not_isDigit_of_isSpace hspace
        · refine hunit c (List.mem_of_mem_head? ?_)
          rw [List.append_assoc, List.head?_append_of_ne_nil _ (hvalid.unit_ne_nil hkind)] at hc
          exact hc
      · refine hvalid.length.trans ?_
        split <;> decide
      · rw [List.append_assoc]
        exact List.prefix_append ..
      · exact List.suffix_append ..

/-- What a matcher finds in the text, for one that finds something at each place or nothing. -/
theorem findAll_places {β : Type*} {m : Matcher Char β} {read : Place → Option β}
    (hplace : ∀ place : Place, place.Sound →
      findAll m place.prev 0 (place.gap ++ (place.token.digits ++ place.after)) =
        (read place).toList ++ findAll m place.token.digits.getLast? 0 place.after)
    (hnone : ∀ prev words, DigitFree words → findAll m prev 0 words = [])
    (hgap : DigitFree gap) (hparts : ∀ part ∈ parts, part.1.Valid ∧ DigitFree part.2)
    (hsound : ∀ place ∈ places prev gap parts, place.Sound) :
    findAll m prev 0 (gap ++ chars parts) = (places prev gap parts).filterMap read := by
  induction parts generalizing prev gap with
  | nil => simpa [chars, places] using hnone prev gap hgap
  | cons part parts ih =>
      obtain ⟨token, words⟩ := part
      obtain ⟨⟨hvalid, hwords⟩, hparts⟩ := List.forall_mem_cons.mp hparts
      rw [places, List.forall_mem_cons] at hsound
      have hhead := hplace _ hsound.1
      rw [chars_places, hhead, places, ih (hvalid.digitFree_unit.append hwords) hparts hsound.2,
        List.filterMap_cons]
      cases read _ <;> rfl

/-- What follows a number is shorter than the text. -/
theorem length_after_lt (hparts : ∀ part ∈ parts, part.1.Valid) :
    ∀ place ∈ places prev gap parts, place.after.length < (gap ++ chars parts).length := by
  induction parts generalizing prev gap with
  | nil => simp [places]
  | cons part parts ih =>
      obtain ⟨token, words⟩ := part
      obtain ⟨hvalid, hparts⟩ := List.forall_mem_cons.mp hparts
      have hpos : 0 < token.digits.length := List.length_pos_iff.mpr hvalid.nonempty
      have hlength := congrArg List.length (chars_places token gap words parts)
      rw [places, List.forall_mem_cons]
      simp only [List.length_append] at hlength ⊢
      refine ⟨by omega, fun place hplace => ?_⟩
      have htail := ih hparts place hplace
      simp only [List.length_append] at htail
      omega

/-- A place is known by what follows it. -/
theorem nodup_after (hparts : ∀ part ∈ parts, part.1.Valid) :
    ((places prev gap parts).map Place.after).Nodup := by
  induction parts generalizing prev gap with
  | nil => exact List.nodup_nil
  | cons part parts ih =>
      obtain ⟨token, words⟩ := part
      obtain ⟨-, hparts⟩ := List.forall_mem_cons.mp hparts
      rw [places, List.map_cons, List.nodup_cons]
      refine ⟨fun hmem => ?_, ih hparts⟩
      obtain ⟨place, hplace, heq⟩ := List.mem_map.mp hmem
      have hlt := length_after_lt hparts place hplace
      rw [heq] at hlt
      exact absurd hlt (lt_irrefl _)

theorem map_token_places : (places prev gap parts).map Place.token = parts.map Prod.fst := by
  induction parts generalizing prev gap with
  | nil => rfl
  | cons part parts ih => rw [places, List.map_cons, List.map_cons, ih]

end Parts

namespace Phrase

variable {phrase : Phrase} {kind : NumberKind}

theorem sound (phrase : Phrase) : ∀ place ∈ phrase.places, place.Sound :=
  Parts.sound_places phrase.digitFree.1
    (fun part hpart => ⟨phrase.valid part hpart, phrase.digitFree.2 part hpart⟩) phrase.apart

theorem findAll_chars {β : Type*} {m : Matcher Char β} {read : Place → Option β}
    (hplace : ∀ place : Place, place.Sound →
      findAll m place.prev 0 (place.gap ++ (place.token.digits ++ place.after)) =
        (read place).toList ++ findAll m place.token.digits.getLast? 0 place.after)
    (hnone : ∀ prev words, DigitFree words → findAll m prev 0 words = []) :
    findAll m none 0 phrase.chars = phrase.places.filterMap read :=
  Parts.findAll_places hplace hnone phrase.digitFree.1
    (fun part hpart => ⟨phrase.valid part hpart, phrase.digitFree.2 part hpart⟩) phrase.sound

theorem eq_of_after {place place' : Place} (h : place ∈ phrase.places)
    (h' : place' ∈ phrase.places) (hafter : place.after = place'.after) : place = place' :=
  List.inj_on_of_nodup_map (Parts.nodup_after phrase.valid) h h' hafter

theorem nodup_kinds (phrase : Phrase) :
    ((phrase.places.map Place.token).map NumberToken.kind).Nodup := by
  rw [places, Parts.map_token_places, List.map_map]
  exact phrase.once

/-- A place is known by its kind. -/
theorem eq_of_kind {place place' : Place} (h : place ∈ phrase.places)
    (h' : place' ∈ phrase.places) (hkind : place.token.kind = place'.token.kind) :
    place = place' := by
  have hnodup := phrase.nodup_kinds
  rw [List.map_map] at hnodup
  exact List.inj_on_of_nodup_map hnodup h h' hkind

theorem token?_eq_some {place : Place} (h : place ∈ phrase.places) (hkind : place.token.kind = kind) :
    phrase.token? kind = some place.token := by
  cases hfound : phrase.token? kind with
  | none =>
      have hnone := List.find?_eq_none.mp hfound _ (List.mem_map_of_mem h)
      simp [hkind] at hnone
  | some token =>
      have hkind' : token.kind = kind := by simpa using List.find?_some hfound
      obtain ⟨place', hplace', rfl⟩ := List.mem_map.mp (List.mem_of_find?_eq_some hfound)
      rw [eq_of_kind hplace' h (hkind'.trans hkind.symm)]

theorem token?_eq_none (h : ∀ place ∈ phrase.places, place.token.kind ≠ kind) :
    phrase.token? kind = none := by
  refine List.find?_eq_none.mpr fun token htoken => ?_
  obtain ⟨place, hplace, rfl⟩ := List.mem_map.mp htoken
  simpa using h place hplace

/-! ## What is read first -/

/-- The first number that is read is the token's if no number before is read. -/
theorem readsOwn_iff {read : Place → Option Reading} {before : Place → Bool}
    (hafter : ∀ place, ∀ found ∈ read place, found.after = place.after)
    (hbefore : ∀ place ∈ phrase.places,
      before place = false ↔ place.token.kind = kind ∧ (read place).isSome) :
    phrase.ReadsOwn kind (phrase.places.findSome? read) ↔
      ∀ place ∈ phrase.places.takeWhile before, read place = none := by
  constructor
  · intro hown place hmem
    by_contra hread
    have hplace := (List.takeWhile_subset _ hmem :)
    cases hfirst : phrase.places.findSome? read with
    | none => exact hread (List.findSome?_eq_none_iff.mp hfirst place hplace)
    | some found =>
        obtain ⟨init, first, rest, hsplit, hfound, hinit⟩ := List.findSome?_eq_some_iff.mp hfirst
        have hmemfirst : first ∈ phrase.places := by simp [hsplit]
        obtain ⟨own, hown, hkind, heq⟩ := hown found hfirst
        obtain rfl := eq_of_after hmemfirst hown ((hafter first found hfound).symm.trans heq)
        have hstop := (hbefore first hmemfirst).mpr ⟨hkind, by simp [hfound]⟩
        have hinit' : place ∈ init := by
          rw [hsplit, List.takeWhile_append] at hmem
          split at hmem
          · simpa [hstop] using hmem
          · exact List.takeWhile_subset _ hmem
        exact hread (hinit place hinit')
  · intro hnone found hfirst
    obtain ⟨init, first, rest, hsplit, hfound, hinit⟩ := List.findSome?_eq_some_iff.mp hfirst
    have hmem : first ∈ phrase.places := by simp [hsplit]
    refine ⟨first, hmem, ?_, hafter first found hfound⟩
    by_contra hkind
    have hbefore' : ∀ place ∈ init ++ [first], before place = true := by
      intro place hplace
      have hplace' : place ∈ phrase.places := by
        rw [hsplit]
        simp only [List.mem_append, List.mem_cons] at hplace ⊢
        tauto
      by_contra hfalse
      obtain ⟨hown, hsome⟩ := (hbefore place hplace').mp (by simpa using hfalse)
      obtain h | h := List.mem_append.mp hplace
      · rw [hinit place h] at hsome
        cases hsome
      · obtain rfl := List.mem_singleton.mp h
        exact hkind hown
    have hread := hnone first (by
      rw [hsplit, List.append_cons, List.takeWhile_append_of_pos hbefore']
      simp)
    rw [hread] at hfound
    cases hfound

/-- The value that is read, when it is the token's. -/
theorem map_value_findSome? {read : Place → Option Reading} {value : NumberToken → ℕ}
    (hafter : ∀ place, ∀ found ∈ read place, found.after = place.after)
    (hread : ∀ place ∈ phrase.places, place.token.kind = kind →
      read place = some ⟨value place.token, place.after⟩)
    (hown : phrase.ReadsOwn kind (phrase.places.findSome? read)) :
    (phrase.places.findSome? read).map Reading.value = (phrase.token? kind).map value := by
  cases hfirst : phrase.places.findSome? read with
  | none =>
      have hnone := List.findSome?_eq_none_iff.mp hfirst
      rw [token?_eq_none]
      · rfl
      · intro place hplace hkind
        cases (hnone place hplace).symm.trans (hread place hplace hkind)
  | some found =>
      obtain ⟨place, hplace, hfound⟩ := List.exists_of_findSome?_eq_some hfirst
      obtain ⟨own, hmem, hkind, heq⟩ := hown found hfirst
      obtain rfl := eq_of_after hplace hmem ((hafter place found hfound).symm.trans heq)
      rw [hread place hplace hkind] at hfound
      rw [token?_eq_some hplace hkind, ← Option.some.inj hfound]
      rfl

end Phrase

/-! ## Times and frequencies -/

namespace Place

variable {place : Place}

/-- What is read of the number as a time. -/
def readTime (place : Place) : Option Reading :=
  ((readUnit timeUnits place.token.digits place.after).filter fun m => 0 < m.1.value).map
    fun m => { m.1 with value := m.1.value * secondsPer m.2 }

/-- What is read of it as a frequency. -/
def readHz (place : Place) : Option Reading :=
  (readUnit ["hz", "赫兹"] place.token.digits place.after).map Prod.fst

theorem readTime_eq_none :
    place.readTime = none ↔ (place.hasUnit timeUnits = true → place.lastFour = 0) := by
  rw [readTime, Option.map_eq_none_iff, readUnit, hasUnit]
  cases firstOf timeUnits (skipSpace place.after) with
  | none => simp
  | some found => simp [Option.filter_eq_none_iff, lastFour]

theorem readHz_eq_none : place.readHz = none ↔ place.hasUnit ["hz", "赫兹"] = false := by
  rw [readHz, Option.map_eq_none_iff, readUnit, hasUnit]
  cases firstOf ["hz", "赫兹"] (skipSpace place.after) <;> simp

theorem after_of_readTime : ∀ found ∈ place.readTime, found.after = place.after := by
  intro found hfound
  rw [readTime, readUnit] at hfound
  cases hunit : firstOf timeUnits (skipSpace place.after) with
  | none => simp [hunit] at hfound
  | some unit =>
      obtain ⟨m, hm, rfl⟩ := Option.map_eq_some_iff.mp hfound
      rw [hunit, Option.map_some, Option.filter_eq_some_iff] at hm
      rw [← Option.some.inj hm.1]

theorem after_of_readHz : ∀ found ∈ place.readHz, found.after = place.after := by
  intro found hfound
  rw [readHz, readUnit] at hfound
  cases hunit : firstOf ["hz", "赫兹"] (skipSpace place.after) with
  | none => simp [hunit] at hfound
  | some unit =>
      rw [hunit] at hfound
      rw [← Option.some.inj hfound]

/-- The spelling of a unit does not matter. -/
theorem firstOf_timeUnits {token : NumberToken} (hunit : token.unit ∈ timeUnits)
    (rest : List Char) : ∃ unit rest',
      firstOf timeUnits (skipSpace (token.unit.toList ++ rest)) = some (unit, rest') ∧
        token.value * secondsPer unit = token.seconds := by
  unfold NumberToken.seconds
  generalize token.unit = unit at hunit ⊢
  simp only [timeUnits, List.mem_cons, List.not_mem_nil, or_false] at hunit
  obtain rfl | rfl | rfl | rfl | rfl | rfl | rfl | rfl | rfl | rfl | rfl | rfl | rfl | rfl | rfl | rfl
    := hunit
  case inr.inr.inr.inr.inr.inr.inr.inl =>
    -- with the next character this may be the longer unit
    cases rest with
    | nil => exact ⟨"分", [], by decide, rfl⟩
    | cons c rest =>
        by_cases hc : c = '钟'
        · subst hc
          exact ⟨"分钟", rest, rfl, rfl⟩
        · refine ⟨"分", c :: rest, ?_, rfl⟩
          simp [skipSpace, isRegexSpace, firstOf, timeUnits, dropWord, foldsTo, hc]
  all_goals exact ⟨_, _, rfl, by simp [secondsPer]⟩

theorem readTime_own (h : place.Sound) (hkind : place.token.kind = .time) :
    place.readTime = some ⟨place.token.seconds, place.after⟩ := by
  obtain ⟨rest, hafter⟩ := h.unit
  have hunit := h.valid.unit
  have hlength := h.valid.length
  have hpos := h.valid.positive (by simp [hkind])
  rw [hkind] at hunit
  rw [if_neg (by simp [hkind])] at hlength
  obtain ⟨unit, rest', hfirst, hseconds⟩ := firstOf_timeUnits hunit rest
  rw [hafter] at hfirst
  have hdrop : place.token.digits.length - 4 = 0 := by omega
  rw [readTime, readUnit, hfirst, hdrop]
  have hvalue : digitsValue place.token.digits = place.token.value := rfl
  simp [hvalue, Nat.lt_of_succ_le hpos, hseconds]

theorem readHz_own (h : place.Sound) (hkind : place.token.kind = .hz) :
    place.readHz = some ⟨place.token.value, place.after⟩ := by
  obtain ⟨rest, hafter⟩ := h.unit
  have hunit := h.valid.unit
  have hlength := h.valid.length
  rw [hkind] at hunit
  rw [if_neg (by simp [hkind])] at hlength
  have hdrop : place.token.digits.length - 4 = 0 := by omega
  rw [List.mem_singleton.mp hunit] at hafter
  rw [readHz, readUnit, hdrop, ← hafter]
  rfl

end Place

namespace Phrase

variable {phrase : Phrase}

theorem map_find?_filterMap {α β γ : Type*} (l : List α) (f : α → Option β) (p : β → Bool)
    (g : β → γ) : ((l.filterMap f).find? p).map g = l.findSome? fun a => ((f a).filter p).map g := by
  induction l with
  | nil => rfl
  | cons a l ih =>
      rw [List.filterMap_cons, List.findSome?_cons]
      cases f a with
      | none => exact ih
      | some b =>
          rw [List.find?_cons, Option.filter]
          cases p b with
          | true => rfl
          | false => exact ih

theorem findAll_units {units : List String} (hunits : AreWords units) :
    findAll (numberWithUnit units) none 0 phrase.chars =
      phrase.places.filterMap fun place => readUnit units place.token.digits place.after := by
  refine findAll_chars (fun place h => ?_) fun prev words h => ?_
  · rw [findAll_words _ h.gap, findAll_number hunits h.number,
      findAll_congr (fun _ _ _ => rfl) none place.token.digits.getLast?]
  · have hnone := @findAll_words units prev words h []
    rwa [List.append_nil] at hnone

theorem naturalSeconds_chars (phrase : Phrase) :
    naturalSeconds phrase.chars = phrase.places.findSome? Place.readTime := by
  rw [naturalSeconds, findAll_units (by decide), map_find?_filterMap]
  rfl

theorem naturalHz_chars (phrase : Phrase) :
    naturalHz phrase.chars = phrase.places.findSome? Place.readHz := by
  rw [naturalHz, findAll_units (by decide), List.head?_filterMap, List.map_findSome?]
  rfl

theorem readsOwn_time : phrase.ReadsOwn .time (naturalSeconds phrase.chars) ↔
    ∀ place ∈ phrase.places.takeWhile fun place => place.token.kind ≠ .time,
      place.hasUnit timeUnits = true → place.lastFour = 0 := by
  rw [naturalSeconds_chars, readsOwn_iff (fun _ => Place.after_of_readTime)]
  · exact forall₂_congr fun _ _ => Place.readTime_eq_none
  · intro place hplace
    rw [decide_eq_false_iff_not, not_not]
    refine ⟨fun hkind => ⟨hkind, ?_⟩, And.left⟩
    rw [Place.readTime_own (phrase.sound place hplace) hkind, Option.isSome_some]

theorem readsOwn_hz : phrase.ReadsOwn .hz (naturalHz phrase.chars) ↔
    ∀ place ∈ phrase.places.takeWhile fun place => place.token.kind ≠ .hz,
      place.hasUnit ["hz", "赫兹"] = false := by
  rw [naturalHz_chars, readsOwn_iff (fun _ => Place.after_of_readHz)]
  · exact forall₂_congr fun _ _ => Place.readHz_eq_none
  · intro place hplace
    rw [decide_eq_false_iff_not, not_not]
    refine ⟨fun hkind => ⟨hkind, ?_⟩, And.left⟩
    rw [Place.readHz_own (phrase.sound place hplace) hkind, Option.isSome_some]

end Phrase

/-! ## Process ids -/

namespace PidPattern

variable {p : PidPattern}

theorem exists_of_dropWord {word : List Char} {letter : Char} {s rest : List Char}
    (h : dropWord (word ++ [letter]) s = some rest) :
    ∃ read c, s = read ++ c :: rest ∧ foldsTo letter c = true := by
  induction word generalizing s with
  | nil =>
      cases s with
      | nil => simp [dropWord] at h
      | cons c s =>
          rw [List.nil_append, dropWord] at h
          split at h
          · rename_i hfold
            obtain rfl := Option.some.inj h
            exact ⟨[], c, rfl, hfold⟩
          · cases h
  | cons first word ih =>
      cases s with
      | nil => simp [dropWord] at h
      | cons d s =>
          rw [List.cons_append, dropWord] at h
          split at h
          · obtain ⟨read, c, rfl, hfold⟩ := ih h
            exact ⟨d :: read, c, rfl, hfold⟩
          · cases h

section Lead

variable {word : List Char} {letter : Char}

/-- No part of the text up to "pid " ends with another word for a process id. -/
theorem asksAt_lead (hcolon : p.colon = false) (hword : p.word.toList = word ++ [letter])
    (hletter : "pid ".toList.any (foldsTo letter) = false) (prev : Option Char)
    {words s : List Char} (hs : s <:+ words ++ "pid ".toList) : p.asksAt prev s = false := by
  have hbehind : p.behind s ≠ some [] := by
    intro h
    obtain ⟨more, hdrop, hskip⟩ := Option.bind_eq_some_iff.mp h
    rw [hword] at hdrop
    obtain ⟨read, c, rfl, hfold⟩ := exists_of_dropWord hdrop
    have hc : c ∉ "pid ".toList := fun hmem => by
      exact absurd hfold (List.any_eq_false.mp hletter c hmem)
    have hmore : ∀ d ∈ more, isRegexSpace d = true := by
      rw [skip, hcolon] at hskip
      split at hskip
      · cases hskip
      · exact List.dropWhile_eq_nil_iff.mp (Option.some.inj hskip)
    obtain ⟨init, hsplit⟩ := hs
    rw [← List.append_assoc] at hsplit
    obtain ⟨bs, -, htail⟩ | ⟨bs, -, htail⟩ := List.append_eq_append_iff.mp hsplit
    · cases bs with
      | nil =>
          rw [List.nil_append] at htail
          exact hc (htail ▸ List.mem_cons_self)
      | cons b bs =>
          obtain ⟨-, rfl⟩ := List.cons.inj htail
          exact absurd (hmore 'd' (by simp)) (by decide)
    · exact hc (by rw [htail]; simp)
  simp [asksAt, hbehind]

theorem asks_lead (hcolon : p.colon = false) (hword : p.word.toList = word ++ [letter])
    (hletter : "pid ".toList.any (foldsTo letter) = false) (prev : Option Char)
    {words s : List Char} (hs : s <:+ words ++ "pid ".toList) : p.asks prev s = false := by
  induction s generalizing prev with
  | nil => rfl
  | cons c s ih =>
      rw [asks, asksAt_lead hcolon hword hletter prev hs, ih (some c) ((List.suffix_cons c s).trans hs),
        Bool.or_false]

end Lead

end PidPattern

namespace Place

variable {place : Place}

/-- What a pattern reads of the number. -/
def readBehind (p : PidPattern) (place : Place) : Option Reading :=
  if place.isBehind p then some ⟨place.token.value, place.after⟩ else none

theorem isSome_readBehind {p : PidPattern} :
    (place.readBehind p).isSome = place.isBehind p := by
  unfold readBehind
  cases place.isBehind p <;> rfl

theorem readBehind_eq_none {p : PidPattern} :
    place.readBehind p = none ↔ place.isBehind p = false := by
  rw [← isSome_readBehind, Option.isSome_eq_false_iff, Option.isNone_iff_eq_none]

theorem of_readBehind {p : PidPattern} {found : Reading} (h : place.readBehind p = some found) :
    place.isBehind p = true ∧ found = ⟨place.token.value, place.after⟩ := by
  unfold readBehind at h
  split at h
  · rename_i hbehind
    exact ⟨hbehind, (Option.some.inj h).symm⟩
  · cases h

/-- The number of a process id is behind no other word. -/
theorem not_isBehind (h : place.Sound) (hkind : place.token.kind = .pid) :
    place.isBehind .process = false ∧ place.isBehind .chinese = false := by
  obtain ⟨words, hgap⟩ := h.lead
  rw [NumberToken.lead, if_pos hkind] at hgap
  have hsuffix : place.gap <:+ words ++ "pid ".toList := by rw [hgap]
  rw [isBehind, isBehind,
    PidPattern.asks_lead rfl (by rfl : _ = "proces".toList ++ ['s']) (by decide) _ hsuffix,
    PidPattern.asks_lead rfl (by rfl : _ = "进".toList ++ ['程']) (by decide) _ hsuffix]
  exact ⟨rfl, rfl⟩

end Place

namespace Phrase

variable {phrase : Phrase}

/-- The first number that the pattern finds, if it is positive. -/
def firstBehind (phrase : Phrase) (p : PidPattern) : Option Reading :=
  (phrase.places.findSome? (Place.readBehind p)).filter fun m => 0 < m.value

theorem head?_findAll_matchAt {p : PidPattern} (hp : p.HasWord) :
    (findAll p.matchAt none 0 phrase.chars).head? =
      phrase.places.findSome? (Place.readBehind p) := by
  rw [← List.head?_filterMap, findAll_chars (fun place h => ?_) fun prev words h => ?_]
  · exact PidPattern.findAll_matchAt hp h.gap h.number h.length
  · rw [← List.append_nil words, findAll_append]
    · rfl
    · intro x y hsplit _
      rw [List.append_nil]
      exact PidPattern.matchAt_of_digitFree hp (hsplit ▸ h).of_append.2

theorem naturalPID_chars (phrase : Phrase) : naturalPID phrase.chars =
    (phrase.firstBehind .pid).or ((phrase.firstBehind .process).or
      (phrase.firstBehind .chinese)) := by
  simp only [naturalPID, List.findSome?_cons, List.findSome?_nil,
    head?_findAll_matchAt (by decide : PidPattern.pid.HasWord),
    head?_findAll_matchAt (by decide : PidPattern.process.HasWord),
    head?_findAll_matchAt (by decide : PidPattern.chinese.HasWord)]
  unfold firstBehind
  generalize Option.filter _ (phrase.places.findSome? (Place.readBehind .pid)) = first
  generalize Option.filter _ (phrase.places.findSome? (Place.readBehind .process)) = second
  generalize Option.filter _ (phrase.places.findSome? (Place.readBehind .chinese)) = third
  cases first <;> cases second <;> cases third <;> rfl

/-! ## The first word -/

theorem readsOwn_firstPattern :
    phrase.ReadsOwn .pid (phrase.places.findSome? (Place.readBehind .pid)) ↔
      ∀ place ∈ phrase.places.takeWhile fun place =>
        !(place.token.kind = .pid && place.isBehind .pid), place.isBehind .pid = false := by
  rw [readsOwn_iff fun place found h => by rw [(Place.of_readBehind h).2]]
  · exact forall₂_congr fun _ _ => Place.readBehind_eq_none
  · intro place _
    simp [Place.isSome_readBehind]

/-- A number of the first word is that of a process id. -/
theorem exists_of_findSome? (hown : phrase.ReadsOwn .pid
    (phrase.places.findSome? (Place.readBehind .pid))) {found : Reading}
    (h : phrase.places.findSome? (Place.readBehind .pid) = some found) :
    ∃ place ∈ phrase.places, place.token.kind = .pid ∧ place.isBehind .pid = true ∧
      found = ⟨place.token.value, place.after⟩ := by
  obtain ⟨place, hplace, hread⟩ := List.exists_of_findSome?_eq_some h
  obtain ⟨hbehind, rfl⟩ := Place.of_readBehind hread
  obtain ⟨own, hmem, hkind, hafter⟩ := hown _ h
  obtain rfl := eq_of_after hplace hmem hafter
  exact ⟨place, hplace, hkind, hbehind, rfl⟩

theorem firstBehind_pid (hown : phrase.ReadsOwn .pid
    (phrase.places.findSome? (Place.readBehind .pid))) {place : Place} (hplace : place ∈ phrase.places)
    (hkind : place.token.kind = .pid) (hbehind : place.isBehind .pid = true)
    (hpos : 0 < place.token.value) :
    phrase.firstBehind .pid = some ⟨place.token.value, place.after⟩ := by
  cases hfirst : phrase.places.findSome? (Place.readBehind .pid) with
  | none =>
      have hnone := Place.readBehind_eq_none.mp (List.findSome?_eq_none_iff.mp hfirst place hplace)
      rw [hbehind] at hnone
      cases hnone
  | some found =>
      obtain ⟨place', hplace', hkind', -, rfl⟩ := exists_of_findSome? hown hfirst
      rw [eq_of_kind hplace' hplace (hkind'.trans hkind.symm)] at hfirst
      rw [firstBehind, hfirst]
      simp [hpos]

theorem firstBehind_pid_eq_none (hown : phrase.ReadsOwn .pid
    (phrase.places.findSome? (Place.readBehind .pid)))
    (hzero : ∀ place ∈ phrase.places, place.token.kind = .pid → place.isBehind .pid = true →
      place.token.value = 0) : phrase.firstBehind .pid = none := by
  cases hfirst : phrase.places.findSome? (Place.readBehind .pid) with
  | none => rw [firstBehind, hfirst, Option.filter_none]
  | some found =>
      obtain ⟨place, hplace, hkind, hbehind, rfl⟩ := exists_of_findSome? hown hfirst
      rw [firstBehind, hfirst]
      simp [hzero place hplace hkind hbehind]

theorem firstBehind_eq_none {p : PidPattern}
    (hnone : ∀ place ∈ phrase.places, place.isBehind p = false) :
    phrase.firstBehind p = none := by
  rw [firstBehind, List.findSome?_eq_none_iff.mpr, Option.filter_none]
  exact fun place hplace => Place.readBehind_eq_none.mpr (hnone place hplace)

/-- Another word is read when it has a number, which is then not a process id. -/
theorem exists_firstBehind {p : PidPattern} {place : Place} (hplace : place ∈ phrase.places)
    (hbehind : place.isBehind p = true)
    (hother : ∀ place ∈ phrase.places, place.isBehind p = true → place.token.kind ≠ .pid) :
    ∃ found, phrase.firstBehind p = some found ∧ ¬phrase.ReadsOwn .pid (some found) := by
  cases hfirst : phrase.places.findSome? (Place.readBehind p) with
  | none =>
      have hnone := Place.readBehind_eq_none.mp (List.findSome?_eq_none_iff.mp hfirst place hplace)
      rw [hbehind] at hnone
      cases hnone
  | some found =>
      obtain ⟨place', hplace', hread⟩ := List.exists_of_findSome?_eq_some hfirst
      obtain ⟨hbehind', rfl⟩ := Place.of_readBehind hread
      have hkind := hother place' hplace' hbehind'
      have hpos : 0 < place'.token.value := (phrase.sound place' hplace').valid.positive hkind
      refine ⟨⟨place'.token.value, place'.after⟩, ?_, fun hown => ?_⟩
      · rw [firstBehind, hfirst, Option.filter_some, if_pos (by simpa using hpos)]
      · obtain ⟨own, hmem, hkind', hafter⟩ := hown _ rfl
        obtain rfl := eq_of_after hplace' hmem hafter
        exact hkind hkind'

theorem naturalPID_eq_some (hown : phrase.ReadsOwn .pid
    (phrase.places.findSome? (Place.readBehind .pid))) {place : Place}
    (hplace : place ∈ phrase.places) (hkind : place.token.kind = .pid)
    (hbehind : place.isBehind .pid = true) (hpos : 0 < place.token.value) :
    naturalPID phrase.chars = some ⟨place.token.value, place.after⟩ := by
  rw [naturalPID_chars, firstBehind_pid hown hplace hkind hbehind hpos, Option.some_or]

theorem naturalPID_eq_none (hown : phrase.ReadsOwn .pid
    (phrase.places.findSome? (Place.readBehind .pid)))
    (hzero : ∀ place ∈ phrase.places, place.token.kind = .pid → place.isBehind .pid = true →
      place.token.value = 0)
    (hothers : ∀ place ∈ phrase.places,
      place.isBehind .process = false ∧ place.isBehind .chinese = false) :
    naturalPID phrase.chars = none := by
  rw [naturalPID_chars, firstBehind_pid_eq_none hown hzero,
    firstBehind_eq_none fun place hplace => (hothers place hplace).1,
    firstBehind_eq_none fun place hplace => (hothers place hplace).2]
  rfl

/-- The first word is not read for another number. -/
theorem ReadsOwn.firstPattern (h : phrase.ReadsOwn .pid (naturalPID phrase.chars)) :
    phrase.ReadsOwn .pid (phrase.places.findSome? (Place.readBehind .pid)) := by
  intro found hfound
  obtain ⟨place, hplace, hread⟩ := List.exists_of_findSome?_eq_some hfound
  obtain ⟨-, rfl⟩ := Place.of_readBehind hread
  by_cases hkind : place.token.kind = .pid
  · exact ⟨place, hplace, hkind, rfl⟩
  · have hpos : 0 < place.token.value := (phrase.sound place hplace).valid.positive hkind
    refine h _ ?_
    rw [naturalPID_chars, firstBehind, hfound, Option.filter_some, if_pos (by simpa using hpos)]
    rfl

/-- Nor is another word, where the first one has no positive number. -/
theorem ReadsOwn.others (h : phrase.ReadsOwn .pid (naturalPID phrase.chars))
    (hzero : ∀ place ∈ phrase.places, place.token.kind = .pid → place.isBehind .pid = true →
      place.token.value = 0) :
    ∀ place ∈ phrase.places, place.isBehind .process = false ∧ place.isBehind .chinese = false := by
  have hsame : ∀ place ∈ phrase.places, place.token.kind = .pid →
      place.isBehind .process = false ∧ place.isBehind .chinese = false :=
    fun place hplace => Place.not_isBehind (phrase.sound place hplace)
  have hfirst := h.firstPattern
  rw [naturalPID_chars, firstBehind_pid_eq_none hfirst hzero, Option.none_or] at h
  have hprocess : ∀ place ∈ phrase.places, place.isBehind .process = false := by
    intro place hplace
    by_contra hbehind
    obtain ⟨found, hfound, hnot⟩ := exists_firstBehind hplace (by simpa using hbehind)
      fun place hplace hbehind hkind => by
        rw [(hsame place hplace hkind).1] at hbehind
        cases hbehind
    rw [hfound, Option.some_or] at h
    exact hnot h
  rw [firstBehind_eq_none hprocess, Option.none_or] at h
  refine fun place hplace => ⟨hprocess place hplace, ?_⟩
  by_contra hbehind
  obtain ⟨found, hfound, hnot⟩ := exists_firstBehind hplace (by simpa using hbehind)
    fun place hplace hbehind hkind => by
      rw [(hsame place hplace hkind).2] at hbehind
      cases hbehind
  rw [hfound] at h
  exact hnot h

end Phrase

/-! ## Plans -/

namespace NaturalLanguageTaskPlan

/-- A plan has the numbers of another one, up to those that a continuous task has of its own. -/
structure SameNumbers (plan other : NaturalLanguageTaskPlan) : Prop where
  pid : plan.pid = other.pid
  sampled : plan.mode = .oneshot →
    other.mode = .oneshot ∧ plan.hz = other.hz ∧ plan.duration = other.duration

variable (plan : NaturalLanguageTaskPlan) (d : Description)

theorem sameNumbers_chooseMode : (plan.chooseMode d).SameNumbers plan := by
  unfold chooseMode
  split
  · exact ⟨rfl, fun hmode => by cases hmode⟩
  · exact ⟨rfl, fun hmode => ⟨hmode, rfl, rfl⟩⟩

theorem sameNumbers_chooseKind : (plan.chooseKind d).SameNumbers plan := by
  unfold chooseKind
  repeat' split
  all_goals exact ⟨rfl, fun hmode => ⟨hmode, rfl, rfl⟩⟩

theorem sameNumbers_settled : plan.settleContinuous.missing.SameNumbers plan := by
  unfold settleContinuous
  split <;> exact ⟨rfl, fun hmode => ⟨hmode, rfl, rfl⟩⟩

theorem SameNumbers.trans {plan other third : NaturalLanguageTaskPlan}
    (h : plan.SameNumbers other) (h' : other.SameNumbers third) : plan.SameNumbers third := by
  refine ⟨h.pid.trans h'.pid, fun hmode => ?_⟩
  obtain ⟨hmode', hhz, hduration⟩ := h.sampled hmode
  obtain ⟨hmode'', hhz', hduration'⟩ := h'.sampled hmode'
  exact ⟨hmode'', hhz.trans hhz', hduration.trans hduration'⟩

theorem mem_missing : "pid" ∈ plan.missing.missingFields ↔ plan.missing.pid ≤ 0 := by
  unfold missing
  by_cases hpid : plan.pid ≤ 0 <;> by_cases htarget : plan.targetIp = "" <;> simp [hpid, htarget]

end NaturalLanguageTaskPlan

theorem sameNumbers_plan (req : NaturalLanguageTaskReq) (firstAgent : String) :
    ∃ targetIp, (buildNaturalLanguagePlan req firstAgent).SameNumbers
      (NaturalLanguageTaskPlan.readNumbers req.text { targetIp, pid := req.pid }) :=
  ⟨_, (NaturalLanguageTaskPlan.sameNumbers_settled _).trans
    ((NaturalLanguageTaskPlan.sameNumbers_chooseKind _ _).trans
      (NaturalLanguageTaskPlan.sameNumbers_chooseMode _ _))⟩

namespace Phrase

variable {phrase : Phrase} {text : String}

theorem valid_of_token? {kind : NumberKind} {token : NumberToken}
    (h : phrase.token? kind = some token) : token.Valid ∧ token.kind = kind := by
  have hkind : token.kind = kind := by simpa using List.find?_some h
  obtain ⟨place, hplace, rfl⟩ := List.mem_map.mp (List.mem_of_find?_eq_some h)
  exact ⟨(phrase.sound place hplace).valid, hkind⟩

/-- A number that is not zero is clamped, and one that is not there leaves the default. -/
theorem clamped_getD {read : Option ℕ} (hpos : ∀ n ∈ read, 1 ≤ n) (most default : ℕ) :
    (if 0 < read.getD 0 then NaturalLanguageTaskPlan.clampInt (read.getD 0) 1 most else default) =
      (read.map fun n => min (max n 1) most).getD default := by
  cases read with
  | none => rfl
  | some n => exact if_pos (hpos n rfl)

theorem seconds_pos {token : NumberToken} (h : 1 ≤ token.value) : 1 ≤ token.seconds := by
  unfold NumberToken.seconds
  split_ifs <;> omega

theorem Distinct.hz_plan (h : phrase.Distinct) (htext : lowered text = phrase.chars) (ip : String) :
    ∀ default, (if 0 < (Description.ofText ip text).hz then
      NaturalLanguageTaskPlan.clampInt (Description.ofText ip text).hz 1 1000 else default) =
        ((phrase.token? .hz).map fun token => min (max token.value 1) 1000).getD default := by
  intro default
  have hown := readsOwn_hz.mpr h.hz
  rw [naturalHz_chars] at hown
  have hread := map_value_findSome? (fun _ => Place.after_of_readHz)
    (fun place hplace => Place.readHz_own (phrase.sound place hplace)) hown
  rw [← naturalHz_chars, ← htext] at hread
  rw [Description.ofText, hread, clamped_getD, Option.map_map]
  · rfl
  · intro n hn
    obtain ⟨token, htoken, rfl⟩ := Option.map_eq_some_iff.mp hn
    obtain ⟨hvalid, hkind⟩ := valid_of_token? htoken
    exact hvalid.positive (by simp [hkind])

theorem Distinct.duration_plan (h : phrase.Distinct) (htext : lowered text = phrase.chars)
    (ip : String) :
    ∀ default, (if 0 < (Description.ofText ip text).seconds then
      NaturalLanguageTaskPlan.clampInt (Description.ofText ip text).seconds 1 3600 else default) =
        ((phrase.token? .time).map fun token => min (max token.seconds 1) 3600).getD default := by
  intro default
  have hown := readsOwn_time.mpr h.time
  rw [naturalSeconds_chars] at hown
  have hread := map_value_findSome? (fun _ => Place.after_of_readTime)
    (fun place hplace => Place.readTime_own (phrase.sound place hplace)) hown
  rw [← naturalSeconds_chars, ← htext] at hread
  rw [Description.ofText, hread, clamped_getD, Option.map_map]
  · rfl
  · intro n hn
    obtain ⟨token, htoken, rfl⟩ := Option.map_eq_some_iff.mp hn
    obtain ⟨hvalid, hkind⟩ := valid_of_token? htoken
    exact seconds_pos (hvalid.positive (by simp [hkind]))

/-- The process id of a plan in terms of what is read. -/
theorem pid_plan (ip text targetIp : String) (pid : Int32) (firstAgent : String) :
    (buildNaturalLanguagePlan ⟨.ofText ip text, targetIp, pid⟩ firstAgent).pid =
      match naturalPID (lowered text) with
      | some found => if 0 < Int32.ofInt found.value then .ofInt found.value else pid
      | none => pid := by
  obtain ⟨target, hsame⟩ := sameNumbers_plan ⟨.ofText ip text, targetIp, pid⟩ firstAgent
  rw [hsame.pid]
  unfold NaturalLanguageTaskPlan.readNumbers Description.parseNaturalPID Description.ofText
  cases naturalPID (lowered text) <;> rfl

theorem ofInt_pos_of_lt {n : ℕ} (hpos : 0 < n) (hlt : n < 2 ^ 31) : 0 < Int32.ofInt n := by
  rw [Int32.lt_iff_toInt_lt, Int32.toInt_ofInt_of_le (by omega) (by omega)]
  simpa using hpos

/-- A positive process id is read, or nothing is. -/
theorem Distinct.naturalPID_cases (h : phrase.Distinct) :
    (∃ place ∈ phrase.places, place.token.kind = .pid ∧ place.isBehind .pid = true ∧
      0 < place.token.value ∧ naturalPID phrase.chars = some ⟨place.token.value, place.after⟩) ∨
    naturalPID phrase.chars = none ∧ ∀ place ∈ phrase.places, place.token.kind = .pid →
      place.isBehind .pid = true → place.token.value = 0 := by
  have hown := readsOwn_firstPattern.mpr h.pid
  by_cases hread : ∃ place ∈ phrase.places, place.token.kind = .pid ∧
      place.isBehind .pid = true ∧ 0 < place.token.value
  · obtain ⟨place, hplace, hkind, hbehind, hpos⟩ := hread
    exact .inl ⟨place, hplace, hkind, hbehind, hpos,
      naturalPID_eq_some hown hplace hkind hbehind hpos⟩
  · have hzero : ∀ place ∈ phrase.places, place.token.kind = .pid →
        place.isBehind .pid = true → place.token.value = 0 := by
      intro place hplace hkind hbehind
      by_contra hpos
      exact hread ⟨place, hplace, hkind, hbehind, Nat.pos_of_ne_zero hpos⟩
    exact .inr ⟨naturalPID_eq_none hown hzero (h.others hzero), hzero⟩

theorem Distinct.readsOwn_pid (h : phrase.Distinct) :
    phrase.ReadsOwn .pid (naturalPID phrase.chars) := by
  obtain ⟨place, hplace, hkind, -, -, hread⟩ | ⟨hread, -⟩ := h.naturalPID_cases
  · rw [hread]
    intro found hfound
    obtain rfl := Option.some.inj hfound
    exact ⟨place, hplace, hkind, rfl⟩
  · rw [hread]
    intro found hfound
    cases hfound

theorem Distinct.pid_plan_eq (h : phrase.Distinct) (htext : lowered text = phrase.chars)
    (ip targetIp : String) (pid : Int32) (firstAgent : String) :
    (buildNaturalLanguagePlan ⟨.ofText ip text, targetIp, pid⟩ firstAgent).pid =
      phrase.pidFor pid := by
  rw [pid_plan, htext]
  obtain ⟨place, hplace, hkind, hbehind, hpos, hread⟩ | ⟨hread, hzero⟩ := h.naturalPID_cases
  · have hfits := h.fits place hplace hkind
    rw [hread, pidFor, token?_eq_some hplace hkind]
    dsimp only
    by_cases hlt : place.token.value < 2 ^ 31
    · rw [if_pos (ofInt_pos_of_lt hpos hlt), if_pos ⟨hpos, hlt⟩]
    · rw [if_neg hlt] at hfits
      rw [if_neg (Int32.not_lt.mpr (hfits hbehind)), if_neg fun hle => hlt hle.2]
  · rw [hread, pidFor]
    cases htoken : phrase.token? .pid with
    | none => rfl
    | some token =>
        have hkind : token.kind = .pid := (valid_of_token? htoken).2
        obtain ⟨place, hplace, rfl⟩ := List.mem_map.mp (List.mem_of_find?_eq_some htoken)
        refine (if_neg ?_).symm
        rintro ⟨hpos, hlt⟩
        have hfits := h.fits place hplace hkind
        rw [if_pos hlt] at hfits
        rw [hzero place hplace hkind (hfits hpos)] at hpos
        cases hpos

theorem mem_missing_plan (req : NaturalLanguageTaskReq) (firstAgent : String) :
    "pid" ∈ (buildNaturalLanguagePlan req firstAgent).missingFields ↔
      (buildNaturalLanguagePlan req firstAgent).pid ≤ 0 := by
  unfold buildNaturalLanguagePlan
  exact NaturalLanguageTaskPlan.mem_missing _

/-- A process id that no word is read for is not in the plan. -/
theorem AsWritten.fits (h : phrase.AsWritten text) (htext : lowered text = phrase.chars) :
    ∀ place ∈ phrase.places, place.token.kind = .pid →
      if place.token.value < 2 ^ 31 then 0 < place.token.value → place.isBehind .pid = true
      else place.isBehind .pid = true → Int32.ofInt place.token.value ≤ 0 := by
  intro place hplace hkind
  have hpid := h.pid
  have hplan := (h.plans "" "" 0 "").pid
  rw [pid_plan, pidFor, token?_eq_some hplace hkind] at hplan
  rw [htext] at hpid hplan
  have hown := hpid.firstPattern
  split
  · rename_i hlt
    intro hpos
    by_contra hbehind
    have hzero : ∀ place ∈ phrase.places, place.token.kind = .pid →
        place.isBehind .pid = true → place.token.value = 0 := by
      intro place' hplace' hkind' hbehind'
      rw [eq_of_kind hplace' hplace (hkind'.trans hkind.symm)] at hbehind'
      exact absurd hbehind' hbehind
    rw [naturalPID_eq_none hown hzero (hpid.others hzero)] at hplan
    dsimp only at hplan
    rw [if_pos ⟨hpos, hlt⟩] at hplan
    have hpos' := ofInt_pos_of_lt hpos hlt
    rw [← hplan] at hpos'
    exact absurd hpos' (by decide)
  · rename_i hlt
    intro hbehind
    rw [naturalPID_eq_some hown hplace hkind hbehind (by omega)] at hplan
    dsimp only at hplan
    have hlarge : ¬(1 ≤ place.token.value ∧ place.token.value < 2 ^ 31) := fun hle => hlt hle.2
    rw [if_neg hlarge] at hplan
    by_contra hpos
    have hpos' : 0 < Int32.ofInt place.token.value := Int32.not_le.mp hpos
    rw [if_pos hpos'] at hplan
    rw [hplan] at hpos'
    exact absurd hpos' (by decide)

/-- The numbers of a text are read as they are written exactly if each of them can only be read as
what it is. -/
theorem asWritten_iff (phrase : Phrase) (text : String) (htext : lowered text = phrase.chars) :
    phrase.AsWritten text ↔ phrase.Distinct := by
  constructor
  · intro h
    obtain ⟨-, hpid, hhz, htime⟩ := id h
    rw [htext] at hpid hhz htime
    exact ⟨readsOwn_time.mp htime, readsOwn_hz.mp hhz, readsOwn_firstPattern.mp hpid.firstPattern,
      h.fits htext, hpid.others⟩
  · intro h
    refine ⟨fun ip targetIp pid firstAgent => ?_, ?_, ?_, ?_⟩
    · obtain ⟨target, hsame⟩ := sameNumbers_plan ⟨.ofText ip text, targetIp, pid⟩ firstAgent
      refine ⟨h.pid_plan_eq htext ip targetIp pid firstAgent, mem_missing_plan _ _,
        fun hmode => ?_, fun hmode => ?_⟩
      · exact (hsame.sampled hmode).2.1.trans (h.hz_plan htext ip 99)
      · exact (hsame.sampled hmode).2.2.trans (h.duration_plan htext ip 30)
    · rw [htext]
      exact h.readsOwn_pid
    · rw [htext]
      exact readsOwn_hz.mpr h.hz
    · rw [htext]
      exact readsOwn_time.mpr h.time

/-- A process id, a time and a frequency. -/
def threeNumbers : Phrase where
  words := []
  parts := [(⟨.pid, "1234".toList, ""⟩, " 采样".toList), (⟨.time, "5".toList, "分钟"⟩, " ".toList),
    (⟨.hz, "99".toList, "hz"⟩, [])]
  valid := by
    simp only [List.forall_mem_cons]
    exact ⟨⟨by decide, List.all_eq_true.mp rfl, by decide, by decide, by decide⟩,
      ⟨by decide, List.all_eq_true.mp rfl, by decide, by decide, by decide⟩,
      ⟨by decide, List.all_eq_true.mp rfl, by decide, by decide, by decide⟩, by simp⟩
  digitFree := by decide
  once := by decide
  apart := by decide

theorem asWritten_threeNumbers : threeNumbers.AsWritten "PID 1234 采样5分钟 99Hz" :=
  (asWritten_iff threeNumbers "PID 1234 采样5分钟 99Hz" (by decide +kernel)).mpr
    ⟨by decide +kernel, by decide +kernel, by decide +kernel, by decide +kernel, by decide +kernel⟩

/-- A frequency alone. -/
def frequency : Phrase where
  words := "cpu ".toList
  parts := [(⟨.hz, "99".toList, "hz"⟩, [])]
  valid := by
    simp only [List.forall_mem_cons]
    exact ⟨⟨by decide, List.all_eq_true.mp rfl, by decide, by decide, by decide⟩, by simp⟩
  digitFree := by decide
  once := by decide
  apart := by decide

/-- It is read as a time as well. -/
theorem not_asWritten :
    ¬∀ (phrase : Phrase) (text : String), lowered text = phrase.chars → phrase.AsWritten text := by
  intro h
  have hduration := ((h frequency "cpu 99hz" (by decide +kernel)).plans "" "" 0 "").duration
    (by decide +kernel)
  exact absurd hduration (by decide +kernel)

end Phrase

end MiniDrop
