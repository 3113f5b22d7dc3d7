import OpenGsn.Text.Utf8
import Mathlib.Data.Nat.Digits.Defs

/-! `GasPriceFetcher.getJsonElement`: the elements of a JSON value that a path names. -/

namespace OpenGsn.Relay.GasPriceFetcher

open Text

def unit (character : Char) : CodeUnit := Fin.ofNat (2 ^ 16) character.toNat

def units (text : String) : JsString := text.toList.map unit

/-! ## Values -/

/-- What `JSON.parse` returns, and the objects of the language itself. -/
inductive Value (ν : Type) : Type
  | null
  | bool (value : Bool)
  | number (value : ν)
  | string (text : JsString)
  | array (elements : List (Value ν))
  | object (members : List (JsString × Value ν))
  | host (id : ℕ)

variable {ν : Type}

namespace Value

def isNull : Value ν → Bool
  | .null => true
  | _ => false

def index (position : ℕ) : JsString := (Nat.toDigits 10 position).map unit

def ownProperty : Value ν → JsString → Option (Value ν)
  | .array elements, key => (elements.zipIdx.find? fun element => index element.2 = key).map Prod.fst
  | .object members, key => (members.find? fun member => member.1 = key).map Prod.snd
  | _, _ => none

/-- `value[key]`, or `none` where it is `null` or `undefined`. `builtin` is everything that a value
has in the language without holding it: lengths, characters and inherited members. -/
def element (builtin : Value ν → JsString → Option (Value ν)) (value : Value ν) (key : JsString) :
    Option (Value ν) :=
  if value.isNull then none
  else ((value.ownProperty key).or (builtin value key)).filter fun sub => !sub.isNull

def walk (builtin : Value ν → JsString → Option (Value ν)) : Value ν → List JsString → Option (Value ν)
  | value, [] => some value
  | value, key :: keys => (value.element builtin key).bind fun sub => sub.walk builtin keys

end Value

/-! ## Segments -/

def isDigit (character : CodeUnit) : Bool := unit '0' ≤ character ∧ character ≤ unit '9'

def isWord (character : CodeUnit) : Bool :=
  isDigit character || (unit 'A' ≤ character ∧ character ≤ unit 'Z') ||
    (unit 'a' ≤ character ∧ character ≤ unit 'z') || character = unit '_'

inductive Segment : Type
  | word (text : JsString)
  | quoted (text : JsString)
  | number (text : JsString)
  deriving DecidableEq, Repr

namespace Segment

def text : Segment → JsString
  | .word text => text
  | .quoted text => text
  | .number text => text

def written : Segment → JsString
  | .word text => unit '.' :: text
  | .quoted text => unit '[' :: unit '"' :: text ++ [unit '"', unit ']']
  | .number text => unit '[' :: text ++ [unit ']']

def WellFormed : Segment → Prop
  | .word text => text ≠ [] ∧ text.all isWord
  | .quoted text => text ≠ [] ∧ text.all (· ≠ unit '"')
  | .number text => text ≠ [] ∧ text.all isDigit

end Segment

/-- The path is written as these segments. -/
structure IsPath (segments : List Segment) (path : JsString) : Prop where
  nonempty : segments ≠ []
  wellFormed : ∀ segment ∈ segments, segment.WellFormed
  written : path = segments.flatMap Segment.written

/-! ## The expression `/^\.(\w+)|\["([^"]+)"\]|\[(\d+)\]/` -/

def matchWord : JsString → Option Segment
  | [] => none
  | first :: rest =>
      let text := rest.takeWhile isWord
      if first = unit '.' ∧ text ≠ [] then some (.word text) else none

def matchQuoted : JsString → Option Segment
  | first :: second :: rest =>
      let text := rest.takeWhile (· ≠ unit '"')
      let after := rest.dropWhile (· ≠ unit '"')
      if first = unit '[' ∧ second = unit '"' ∧ text ≠ [] ∧ after.take 2 = [unit '"', unit ']'] then
        some (.quoted text)
      else none
  | _ => none

def matchNumber : JsString → Option Segment
  | [] => none
  | first :: rest =>
      let text := rest.takeWhile isDigit
      if first = unit '[' ∧ text ≠ [] ∧ (rest.dropWhile isDigit).take 1 = [unit ']'] then some (.number text)
      else none

/-- The alternatives without the anchor. -/
def matchBracket (path : JsString) : Option Segment := (matchQuoted path).or (matchNumber path)

def matchHead (path : JsString) : Option Segment := (matchWord path).or (matchBracket path)

/-- The first match that does not start at the head. -/
def matchLater : JsString → Option Segment
  | [] => none
  | _ :: rest => (matchBracket rest).or (matchLater rest)

/-- `path.match(...)`, which finds the leftmost match. -/
def matchPath (path : JsString) : Option Segment := (matchHead path).or (matchLater path)

theorem matchPath_nil : matchPath [] = none := rfl

theorem written_pos (segment : Segment) : 0 < segment.written.length := by
  cases segment <;> simp [Segment.written]

theorem drop_shorter (path : JsString) (segment : Segment) (found : matchPath path = some segment) :
    (path.drop segment.written.length).length < path.length := by
  have nonempty : path ≠ [] := by
    rintro rfl
    rw [matchPath_nil] at found
    cases found
  have positive := written_pos segment
  have some := List.length_pos_of_ne_nil nonempty
  rw [List.length_drop]
  omega

inductive Thrown : Type
  | invalidPath (message : JsString)
  | typeError
  deriving DecidableEq, Repr

variable (builtin : Value ν → JsString → Option (Value ν))

/-- `none` is `null`. -/
def getJsonElement (origPath : JsString) (blob : Value ν) (path : JsString) : Except Thrown (Option (Value ν)) :=
  match _found : matchPath path with
  | none => .error (.invalidPath (units "invalid path: " ++ origPath ++ units ": head of " ++ path))
  | some m =>
      let rest := path.drop m.written.length
      if blob.isNull then .error .typeError
      else
        match blob.element builtin m.text with
        | none => .ok none
        | some sub => if rest = [] then .ok (some sub) else getJsonElement origPath sub rest
  termination_by path.length
  decreasing_by exact drop_shorter path m ‹_›

/-! ## What the path alone decides -/

def scan (path : JsString) : List JsString × Bool :=
  match _found : matchPath path with
  | none => ([], false)
  | some m =>
      let rest := path.drop m.written.length
      if rest = [] then ([m.text], true)
      else
        let following := scan rest
        (m.text :: following.1, following.2)
  termination_by path.length
  decreasing_by exact drop_shorter path m ‹_›

def leading (path : JsString) : List Segment × JsString :=
  match _found : matchHead path with
  | none => ([], path)
  | some m =>
      let following := leading (path.drop m.written.length)
      (m :: following.1, following.2)
  termination_by path.length
  decreasing_by exact drop_shorter path m (Option.or_eq_some_iff.mpr (.inl ‹_›))

theorem scan_none (path : JsString) (unmatched : matchPath path = none) : scan path = ([], false) := by
  rw [scan]
  split
  next => rfl
  next found =>
    rw [unmatched] at found
    cases found

theorem scan_some (path : JsString) (m : Segment) (matched : matchPath path = some m) :
    scan path = if path.drop m.written.length = [] then ([m.text], true)
      else (m.text :: (scan (path.drop m.written.length)).1, (scan (path.drop m.written.length)).2) := by
  rw [scan]
  split
  next found =>
    rw [matched] at found
    cases found
  next other found =>
    obtain rfl := Option.some.inj (matched.symm.trans found)
    rfl

theorem leading_none (path : JsString) (unmatched : matchHead path = none) : leading path = ([], path) := by
  rw [leading]
  split
  next => rfl
  next found =>
    rw [unmatched] at found
    cases found

theorem leading_some (path : JsString) (m : Segment) (matched : matchHead path = some m) :
    leading path = (m :: (leading (path.drop m.written.length)).1, (leading (path.drop m.written.length)).2) := by
  rw [leading]
  split
  next found =>
    rw [matched] at found
    cases found
  next other found =>
    obtain rfl := Option.some.inj (matched.symm.trans found)
    rfl

theorem getJsonElement_none (origPath : JsString) (blob : Value ν) (path : JsString)
    (unmatched : matchPath path = none) :
    getJsonElement builtin origPath blob path =
      .error (.invalidPath (units "invalid path: " ++ origPath ++ units ": head of " ++ path)) := by
  rw [getJsonElement]
  split
  next => rfl
  next found =>
    rw [unmatched] at found
    cases found

theorem getJsonElement_some (origPath : JsString) (blob : Value ν) (path : JsString) (m : Segment)
    (matched : matchPath path = some m) (holds : blob.isNull = false) :
    getJsonElement builtin origPath blob path =
      match blob.element builtin m.text with
      | none => .ok none
      | some sub =>
          if path.drop m.written.length = [] then .ok (some sub)
          else getJsonElement builtin origPath sub (path.drop m.written.length) := by
  rw [getJsonElement]
  split
  next found =>
    rw [matched] at found
    cases found
  next other found =>
    obtain rfl := Option.some.inj (matched.symm.trans found)
    simp [holds]

theorem element_notNull (value sub : Value ν) (key : JsString) (there : value.element builtin key = some sub) :
    sub.isNull = false := by
  unfold Value.element at there
  split at there
  next => cases there
  next =>
    have kept := (Option.filter_eq_some_iff.mp there).2
    simpa using kept

/-- What the search does with a value: it looks up what the path alone decides. -/
inductive Outcome (found : Option (Value ν)) (ended : Bool) (result : Except Thrown (Option (Value ν))) : Prop
  | missing (absent : found = none) (returned : result = .ok none)
  | reached (sub : Value ν) (there : found = some sub) (last : ended = true) (returned : result = .ok (some sub))
  | invalid (sub : Value ν) (there : found = some sub) (unfinished : ended = false) (message : JsString)
      (thrown : result = .error (.invalidPath message))

theorem getJsonElement_outcome (origPath : JsString) (blob : Value ν) (path : JsString)
    (holds : blob.isNull = false) :
    Outcome (blob.walk builtin (scan path).1) (scan path).2 (getJsonElement builtin origPath blob path) := by
  induction path using scan.induct generalizing blob with
  | case1 path unmatched =>
      rw [scan_none path unmatched]
      exact .invalid blob rfl rfl _ (getJsonElement_none builtin origPath blob path unmatched)
  | case2 path m matched rest last =>
      rw [scan_some path m matched, if_pos last, getJsonElement_some builtin origPath blob path m matched holds]
      cases there : blob.element builtin m.text with
      | none => exact .missing (by simp [Value.walk, there]) rfl
      | some sub => exact .reached sub (by simp [Value.walk, there]) rfl (if_pos last)
  | case3 path m matched rest more ih =>
      rw [scan_some path m matched, if_neg more, getJsonElement_some builtin origPath blob path m matched holds]
      cases there : blob.element builtin m.text with
      | none => exact .missing (by simp [Value.walk, there]) rfl
      | some sub =>
          have onward := ih sub (element_notNull builtin blob sub m.text there)
          simp only [Value.walk, there, Option.bind_some]
          rw [if_neg more]
          exact onward

/-! ## The grammar -/

theorem takeWhile_append_stop {α : Type} (keep : α → Bool) (front back : List α) (kept : front.all keep = true)
    (stops : ∀ next ∈ back.head?, keep next = false) : (front ++ back).takeWhile keep = front := by
  induction front with
  | nil =>
      cases back with
      | nil => rfl
      | cons next rest => exact List.takeWhile_cons_of_neg (by simp [stops next rfl])
  | cons first rest ih =>
      obtain ⟨one, others⟩ := Bool.and_eq_true_iff.mp kept
      rw [List.cons_append, List.takeWhile_cons_of_pos one, ih others]

theorem dropWhile_append_stop {α : Type} (keep : α → Bool) (front back : List α) (kept : front.all keep = true)
    (stops : ∀ next ∈ back.head?, keep next = false) : (front ++ back).dropWhile keep = back := by
  have whole := List.takeWhile_append_dropWhile (p := keep) (l := front ++ back)
  rw [takeWhile_append_stop keep front back kept stops] at whole
  exact List.append_cancel_left whole

def Follows (rest : JsString) : Prop := ∀ next ∈ rest.head?, next = unit '.' ∨ next = unit '['

theorem matchWord_written (text rest : JsString) (wellFormed : (Segment.word text).WellFormed)
    (follows : Follows rest) :
    matchWord ((Segment.word text).written ++ rest) = some (.word text) := by
  have stops : ∀ next ∈ rest.head?, isWord next = false := by
    intro next member
    cases follows next member with
    | inl dot =>
        rw [dot]
        decide
    | inr bracket =>
        rw [bracket]
        decide
  simp only [Segment.written, List.cons_append, matchWord]
  rw [takeWhile_append_stop isWord text rest wellFormed.2 stops, if_pos ⟨trivial, wellFormed.1⟩]

theorem matchQuoted_written (text rest : JsString) (wellFormed : (Segment.quoted text).WellFormed) :
    matchQuoted ((Segment.quoted text).written ++ rest) = some (.quoted text) := by
  have stops : ∀ next ∈ (unit '"' :: unit ']' :: rest).head?, (decide (next ≠ unit '"')) = false := by
    simp
  have split : (Segment.quoted text).written ++ rest =
      unit '[' :: unit '"' :: (text ++ unit '"' :: unit ']' :: rest) := by
    simp [Segment.written]
  rw [split, matchQuoted, takeWhile_append_stop _ text _ wellFormed.2 stops,
    dropWhile_append_stop _ text _ wellFormed.2 stops]
  exact if_pos ⟨rfl, rfl, wellFormed.1, rfl⟩

theorem matchNumber_written (text rest : JsString) (wellFormed : (Segment.number text).WellFormed) :
    matchNumber ((Segment.number text).written ++ rest) = some (.number text) := by
  have stops : ∀ next ∈ (unit ']' :: rest).head?, isDigit next = false := by
    intro next member
    rw [← Option.some.inj member]
    decide
  have split : (Segment.number text).written ++ rest = unit '[' :: (text ++ unit ']' :: rest) := by
    simp [Segment.written]
  rw [split, matchNumber, takeWhile_append_stop _ text _ wellFormed.2 stops,
    dropWhile_append_stop _ text _ wellFormed.2 stops]
  exact if_pos ⟨rfl, wellFormed.1, rfl⟩

theorem matchWord_bracket (rest : JsString) : matchWord (unit '[' :: rest) = none := by
  have notDot : unit '[' ≠ unit '.' := by decide
  simp only [matchWord]
  exact if_neg fun dot => notDot dot.1

theorem matchHead_written (segment : Segment) (rest : JsString) (wellFormed : segment.WellFormed)
    (follows : Follows rest) :
    matchHead (segment.written ++ rest) = some segment := by
  cases segment with
  | word text => rw [matchHead, matchWord_written text rest wellFormed follows, Option.some_or]
  | quoted text =>
      have notWord : matchWord ((Segment.quoted text).written ++ rest) = none := matchWord_bracket _
      rw [matchHead, notWord, Option.none_or, matchBracket, matchQuoted_written text rest wellFormed, Option.some_or]
  | number text =>
      have notWord : matchWord ((Segment.number text).written ++ rest) = none := matchWord_bracket _
      have notQuoted : matchQuoted ((Segment.number text).written ++ rest) = none := by
        cases text with
        | nil => exact absurd rfl wellFormed.1
        | cons digit digits =>
            have first : isDigit digit = true := (Bool.and_eq_true_iff.mp wellFormed.2).1
            refine if_neg fun quoted => ?_
            rw [quoted.2.1] at first
            revert first
            decide
      rw [matchHead, notWord, Option.none_or, matchBracket, notQuoted, Option.none_or,
        matchNumber_written text rest wellFormed]

theorem matchWord_sound (path : JsString) (segment : Segment) (found : matchWord path = some segment) :
    segment.WellFormed ∧ ∃ rest, path = segment.written ++ rest := by
  cases path with
  | nil => cases found
  | cons first rest =>
      simp only [matchWord] at found
      split at found
      next matched =>
        obtain rfl := Option.some.inj found
        refine ⟨⟨matched.2, List.all_takeWhile⟩, rest.dropWhile isWord, ?_⟩
        rw [Segment.written, List.cons_append, List.takeWhile_append_dropWhile, matched.1]
      next => cases found

theorem matchQuoted_sound (path : JsString) (segment : Segment) (found : matchQuoted path = some segment) :
    segment.WellFormed ∧ ∃ rest, path = segment.written ++ rest := by
  cases path with
  | nil => cases found
  | cons first tail =>
      cases tail with
      | nil => cases found
      | cons second rest =>
          simp only [matchQuoted] at found
          split at found
          next matched =>
            obtain ⟨bracket, quote, nonempty, closed⟩ := matched
            obtain rfl := Option.some.inj found
            refine ⟨⟨nonempty, List.all_takeWhile⟩, (rest.dropWhile (· ≠ unit '"')).drop 2, ?_⟩
            have whole := List.takeWhile_append_dropWhile (p := fun next => decide (next ≠ unit '"')) (l := rest)
            have tail := List.take_append_drop 2 (rest.dropWhile (· ≠ unit '"'))
            rw [closed] at tail
            rw [Segment.written, List.append_assoc, tail, List.cons_append, List.cons_append, whole, bracket, quote]
          next => cases found

theorem matchNumber_sound (path : JsString) (segment : Segment) (found : matchNumber path = some segment) :
    segment.WellFormed ∧ ∃ rest, path = segment.written ++ rest := by
  cases path with
  | nil => cases found
  | cons first rest =>
      simp only [matchNumber] at found
      split at found
      next matched =>
        obtain ⟨bracket, nonempty, closed⟩ := matched
        obtain rfl := Option.some.inj found
        refine ⟨⟨nonempty, List.all_takeWhile⟩, (rest.dropWhile isDigit).drop 1, ?_⟩
        have whole := List.takeWhile_append_dropWhile (p := isDigit) (l := rest)
        have tail := List.take_append_drop 1 (rest.dropWhile isDigit)
        rw [closed] at tail
        rw [Segment.written, List.append_assoc, tail, List.cons_append, whole, bracket]
      next => cases found

theorem matchHead_sound (path : JsString) (segment : Segment) (found : matchHead path = some segment) :
    segment.WellFormed ∧ ∃ rest, path = segment.written ++ rest := by
  cases Option.or_eq_some_iff.mp found with
  | inl word => exact matchWord_sound path segment word
  | inr bracket =>
      cases Option.or_eq_some_iff.mp bracket.2 with
      | inl quoted => exact matchQuoted_sound path segment quoted
      | inr number => exact matchNumber_sound path segment number.2

theorem follows_flatMap (segments : List Segment) : Follows (segments.flatMap Segment.written) := by
  intro next member
  cases segments with
  | nil => cases member
  | cons segment rest =>
      cases segment with
      | word text => exact .inl (Option.some.inj member).symm
      | quoted text => exact .inr (Option.some.inj member).symm
      | number text => exact .inr (Option.some.inj member).symm

theorem leading_flatMap (segments : List Segment) (wellFormed : ∀ segment ∈ segments, segment.WellFormed) :
    leading (segments.flatMap Segment.written) = (segments, []) := by
  induction segments with
  | nil => exact leading_none [] rfl
  | cons segment rest ih =>
      have head := matchHead_written segment (rest.flatMap Segment.written)
        (wellFormed segment List.mem_cons_self) (follows_flatMap rest)
      have others := ih fun other member => wellFormed other (List.mem_cons_of_mem segment member)
      rw [List.flatMap_cons, leading_some _ segment head, List.drop_left, others]

theorem leading_sound (path : JsString) :
    (∀ segment ∈ (leading path).1, segment.WellFormed) ∧
      path = (leading path).1.flatMap Segment.written ++ (leading path).2 := by
  induction path using leading.induct with
  | case1 path unmatched =>
      rw [leading_none path unmatched]
      exact ⟨by simp, rfl⟩
  | case2 path m matched ih =>
      obtain ⟨wellFormed, rest, split⟩ := matchHead_sound path m matched
      have cut : path.drop m.written.length = rest := by rw [split, List.drop_left]
      rw [leading_some path m matched]
      rw [cut] at ih ⊢
      refine ⟨?_, ?_⟩
      · intro segment member
        cases List.mem_cons.mp member with
        | inl same => exact same ▸ wellFormed
        | inr later => exact ih.1 segment later
      · rw [List.flatMap_cons, List.append_assoc, ← ih.2, split]

theorem isPath_iff (segments : List Segment) (path : JsString) :
    IsPath segments path ↔ leading path = (segments, []) ∧ path ≠ [] := by
  constructor
  · rintro ⟨nonempty, wellFormed, rfl⟩
    refine ⟨leading_flatMap segments wellFormed, fun empty => ?_⟩
    rw [List.flatMap_eq_nil_iff] at empty
    obtain ⟨segment, rest, rfl⟩ := List.exists_cons_of_ne_nil nonempty
    have length := written_pos segment
    rw [empty segment List.mem_cons_self] at length
    exact Nat.lt_irrefl 0 length
  · rintro ⟨parsed, nonempty⟩
    have sound := leading_sound path
    rw [parsed, List.append_nil] at sound
    refine ⟨?_, sound.1, sound.2⟩
    rintro rfl
    exact nonempty sound.2

theorem matchPath_of_head (path : JsString) (m : Segment) (matched : matchHead path = some m) :
    matchPath path = some m := by
  rw [matchPath, matched, Option.some_or]

/-- The search finds the leading segments, and goes on with what is left of the path. -/
theorem scan_leading (path : JsString) (nonempty : path ≠ []) :
    scan path =
      if (leading path).2 = [] then ((leading path).1.map Segment.text, true)
      else ((leading path).1.map Segment.text ++ (scan (leading path).2).1, (scan (leading path).2).2) := by
  induction path using leading.induct with
  | case1 path unmatched =>
      rw [leading_none path unmatched, if_neg nonempty]
      rfl
  | case2 path m matched ih =>
      rw [scan_some path m (matchPath_of_head path m matched), leading_some path m matched]
      by_cases last : path.drop m.written.length = []
      · rw [if_pos last, last, leading_none [] rfl]
        rfl
      · rw [if_neg last, ih last]
        split <;> rfl

/-! ## The path and the expression -/

section Claim

-- The property that a segment names in the language: a number with leading zeros or a string with
-- escapes may name another one than its text.
variable (names : Segment → JsString) (blob : Value ν) (path : JsString)

/-- A path leads to the element that its segments name; anything else is thrown at, or leads
nowhere where a segment at its head does. -/
structure Meets : Prop where
  applied : ∀ segments, IsPath segments path →
    getJsonElement builtin path blob path = .ok (blob.walk builtin (segments.map names))
  refused : (∀ segments, ¬ IsPath segments path) →
    (∃ thrown, getJsonElement builtin path blob path = .error thrown) ∨
      (getJsonElement builtin path blob path = .ok none ∧
        blob.walk builtin ((leading path).1.map names) = none)

/-- The properties that are looked up: those of the segments at the head, and those that the
alternatives without the anchor still find in the rest. -/
def lookedUp : List JsString := (leading path).1.map Segment.text ++ (scan (leading path).2).1

/-- The texts of a path lead where their names do. What is left of another one leads to its
refusal, unless something is missing at its head. -/
structure Unmistaken : Prop where
  applied : (leading path).2 = [] → path ≠ [] → blob.isNull = false ∧
    blob.walk builtin ((leading path).1.map Segment.text) = blob.walk builtin ((leading path).1.map names)
  refused : (leading path).2 ≠ [] → blob.isNull = true ∨
    ((scan (leading path).2).2 = false ∧ (blob.walk builtin (lookedUp path)).isSome) ∨
    (blob.walk builtin ((leading path).1.map names) = none ∧ blob.walk builtin (lookedUp path) = none)

theorem getJsonElement_null (holdsNull : blob.isNull = true) :
    ∃ thrown, getJsonElement builtin path blob path = .error thrown := by
  rw [getJsonElement]
  split
  next => exact ⟨_, rfl⟩
  next => exact ⟨.typeError, if_pos holdsNull⟩

theorem getJsonElement_path (nonempty : path ≠ []) (whole : (leading path).2 = []) (holds : blob.isNull = false) :
    getJsonElement builtin path blob path =
      .ok (blob.walk builtin ((leading path).1.map Segment.text)) := by
  have outcome := getJsonElement_outcome builtin path blob path holds
  rw [scan_leading path nonempty, if_pos whole] at outcome
  cases outcome with
  | missing absent returned => rw [returned, absent]
  | reached sub there last returned => rw [returned, there]
  | invalid sub there unfinished => cases unfinished

theorem getJsonElement_other (rest : (leading path).2 ≠ []) (holds : blob.isNull = false) :
    Outcome (blob.walk builtin (lookedUp path)) (scan (leading path).2).2
      (getJsonElement builtin path blob path) := by
  have nonempty : path ≠ [] := by
    rintro rfl
    exact rest (by rw [leading_none [] rfl])
  have outcome := getJsonElement_outcome builtin path blob path holds
  rw [scan_leading path nonempty, if_neg rest] at outcome
  exact outcome

theorem applied_iff :
    (∀ segments, IsPath segments path →
      getJsonElement builtin path blob path = .ok (blob.walk builtin (segments.map names))) ↔
    ((leading path).2 = [] → path ≠ [] → blob.isNull = false ∧
      blob.walk builtin ((leading path).1.map Segment.text) = blob.walk builtin ((leading path).1.map names)) := by
  constructor
  · intro applied whole nonempty
    have isPath : IsPath (leading path).1 path := (isPath_iff _ path).mpr ⟨by rw [← whole], nonempty⟩
    have returned := applied _ isPath
    cases holds : blob.isNull with
    | true =>
        obtain ⟨thrown, failed⟩ := getJsonElement_null builtin blob path holds
        rw [failed] at returned
        cases returned
    | false =>
        rw [getJsonElement_path builtin blob path nonempty whole holds] at returned
        exact ⟨rfl, Except.ok.inj returned⟩
  · intro unmistaken segments isPath
    obtain ⟨parsed, nonempty⟩ := (isPath_iff segments path).mp isPath
    have whole : (leading path).2 = [] := by rw [parsed]
    obtain ⟨holds, same⟩ := unmistaken whole nonempty
    rw [getJsonElement_path builtin blob path nonempty whole holds, same, parsed]

theorem refused_iff (rest : (leading path).2 ≠ []) :
    ((∃ thrown, getJsonElement builtin path blob path = .error thrown) ∨
      (getJsonElement builtin path blob path = .ok none ∧
        blob.walk builtin ((leading path).1.map names) = none)) ↔
    (blob.isNull = true ∨
      ((scan (leading path).2).2 = false ∧ (blob.walk builtin (lookedUp path)).isSome) ∨
      (blob.walk builtin ((leading path).1.map names) = none ∧ blob.walk builtin (lookedUp path) = none)) := by
  cases holds : blob.isNull with
  | true =>
      obtain ⟨thrown, failed⟩ := getJsonElement_null builtin blob path holds
      exact ⟨fun _ => .inl rfl, fun _ => .inl ⟨thrown, failed⟩⟩
  | false =>
      cases getJsonElement_other builtin blob path rest holds with
      | missing absent returned => simp [absent, returned]
      | reached sub there last returned => simp [there, last, returned]
      | invalid sub there unfinished message thrown => simp [there, unfinished, thrown]

theorem getJsonElement_meets_iff : Meets builtin names blob path ↔ Unmistaken builtin names blob path := by
  have notPath : (leading path).2 ≠ [] → ∀ segments, ¬ IsPath segments path := by
    intro rest segments isPath
    exact rest (by rw [((isPath_iff segments path).mp isPath).1])
  constructor
  · rintro ⟨applied, refused⟩
    exact ⟨(applied_iff builtin names blob path).mp applied, fun rest =>
      (refused_iff builtin names blob path rest).mp (refused (notPath rest))⟩
  · rintro ⟨applied, refused⟩
    refine ⟨(applied_iff builtin names blob path).mpr applied, fun none => ?_⟩
    by_cases rest : (leading path).2 = []
    · have empty : path = [] := by
        by_contra nonempty
        exact none _ ((isPath_iff _ path).mpr ⟨by rw [← rest], nonempty⟩)
      rw [empty]
      exact .inl ⟨_, getJsonElement_none builtin [] blob [] matchPath_nil⟩
    · exact (refused_iff builtin names blob path rest).mpr (refused rest)

end Claim

/-- The path `abc[0]` starts with no segment. -/
theorem headless_path_reads :
    (∀ segments, ¬ IsPath segments (units "abc[0]")) ∧
      getJsonElement (fun _ _ => none) (units "abc[0]") (.array [.array [.number 7]]) (units "abc[0]") =
        .ok (some (.number 7)) ∧
      ¬ Meets (fun _ _ => none) Segment.text (.array [.array [.number 7]]) (units "abc[0]") := by
  have headless : ∀ segments, ¬ IsPath segments (units "abc[0]") := by
    intro segments isPath
    have parsed := ((isPath_iff segments _).mp isPath).1
    rw [leading_none _ (by decide)] at parsed
    cases congrArg Prod.snd parsed
  have read : getJsonElement (fun _ _ => none) (units "abc[0]") (.array [.array [.number 7]]) (units "abc[0]") =
      .ok (some (.number 7)) := by
    have outer := getJsonElement_some (fun _ _ => none) (units "abc[0]") (.array [.array [.number 7]])
      (units "abc[0]") (.number (units "0")) (by decide) rfl
    have inner := getJsonElement_some (fun _ _ => none) (units "abc[0]") (.array [.number 7]) (units "[0]")
      (.number (units "0")) (by decide) rfl
    exact outer.trans inner
  refine ⟨headless, read, fun meets => ?_⟩
  cases meets.refused headless with
  | inl thrown =>
      obtain ⟨_, failed⟩ := thrown
      rw [read] at failed
      cases failed
  | inr nothing =>
      have returned := nothing.1
      rw [read] at returned
      cases returned

end OpenGsn.Relay.GasPriceFetcher
