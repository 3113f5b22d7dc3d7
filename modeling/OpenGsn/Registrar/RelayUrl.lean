import OpenGsn.Text.Utf8
import OpenGsn.Text.Hex

/-! The URL of a relay in the words of the registrar, from `Utils.ts`. -/

namespace OpenGsn.RelayRegistrar

open Solidity Text

def IsLineTerminator (unit : CodeUnit) : Prop := unit.val ∈ [0x0A, 0x0D, 0x2028, 0x2029]

instance (unit : CodeUnit) : Decidable (IsLineTerminator unit) := inferInstanceAs (Decidable (_ ∈ _))

/-- `url.match(/.{1,32}/g)`, with what the match under way has. -/
def matchChunks : JsString → JsString → List JsString
  | current, [] => if current = [] then [] else [current]
  | current, unit :: rest =>
      if IsLineTerminator unit then
        if current = [] then matchChunks [] rest else current :: matchChunks [] rest
      else if current.length + 1 = 32 then (current ++ [unit]) :: matchChunks [] rest
      else matchChunks (current ++ [unit]) rest

def registrarPart (chunk : JsString) : List Char := '0' :: 'x' :: padZeros 64 (toHex (encodeUtf8 chunk))

/-- The message ends with the URL. -/
def splitRelayUrlForRegistrar (url : JsString) (partsCount : ℕ) :
    Except (String × JsString) (List (List Char)) :=
  let maxLength := 32 * partsCount
  if maxLength < url.length then
    .error ("The URL does not fit to the RelayRegistrar. " ++
      s!"Please shorten it to less than {maxLength} characters. The provided URL is: ", url)
  else
    let parts := matchChunks [] url
    .ok ((List.range partsCount).map fun i => registrarPart (parts[i]?.getD []))

def packRelayUrlForRegistrar (parts : List (List Char)) : JsString :=
  decodeUtf8 (fromHex (stripZeroPairs (removePrefixes parts.flatten)))

/-! The chunks. -/

theorem matchChunks_plain (current url : JsString) (plain : ∀ unit ∈ current, ¬ IsLineTerminator unit) :
    ∀ chunk ∈ matchChunks current url, ∀ unit ∈ chunk, ¬ IsLineTerminator unit := by
  induction url generalizing current with
  | nil =>
      intro chunk known
      rw [matchChunks] at known
      split at known
      · exact absurd known List.not_mem_nil
      · rw [List.mem_singleton.mp known]
        exact plain
  | cons unit rest ih =>
      have nothing : ∀ other ∈ ([] : JsString), ¬ IsLineTerminator other :=
        fun other none => absurd none List.not_mem_nil
      intro chunk known
      rw [matchChunks] at known
      split at known
      · split at known
        · exact ih [] nothing chunk known
        · rcases List.mem_cons.mp known with rfl | later
          · exact plain
          · exact ih [] nothing chunk later
      · rename_i printable
        have more : ∀ other ∈ current ++ [unit], ¬ IsLineTerminator other := by
          intro other found
          rcases List.mem_append.mp found with before | last
          · exact plain other before
          · rw [List.mem_singleton.mp last]
            exact printable
        split at known
        · rcases List.mem_cons.mp known with rfl | later
          · exact more
          · exact ih [] nothing chunk later
        · exact ih (current ++ [unit]) more chunk known

theorem matchChunks_short (current url : JsString) (plain : ∀ unit ∈ url, ¬ IsLineTerminator unit)
    (short : current.length + url.length < 32) (some : current ++ url ≠ []) :
    matchChunks current url = [current ++ url] := by
  induction url generalizing current with
  | nil =>
      rw [List.append_nil] at some ⊢
      rw [matchChunks, if_neg some]
  | cons unit rest ih =>
      rw [List.length_cons] at short
      rw [matchChunks, if_neg (plain unit List.mem_cons_self), if_neg (by omega),
        ih (current ++ [unit]) (fun other known => plain other (List.mem_cons_of_mem _ known))
          (by rw [List.length_append, List.length_singleton]; omega) (by simp),
        List.append_assoc, List.singleton_append]

theorem matchChunks_full (current front rest : JsString) (plain : ∀ unit ∈ front, ¬ IsLineTerminator unit)
    (some : front ≠ []) (full : current.length + front.length = 32) :
    matchChunks current (front ++ rest) = (current ++ front) :: matchChunks [] rest := by
  induction front generalizing current with
  | nil => exact absurd rfl some
  | cons unit later ih =>
      rw [List.length_cons] at full
      rw [List.cons_append, matchChunks, if_neg (plain unit List.mem_cons_self)]
      cases later with
      | nil =>
          rw [List.length_nil] at full
          rw [if_pos (by omega)]
          rfl
      | cons next others =>
          rw [List.length_cons] at full
          rw [if_neg (by omega), ih (current ++ [unit]) (fun other known => plain other (List.mem_cons_of_mem _ known))
            (by simp) (by rw [List.length_append, List.length_singleton, List.length_cons]; omega),
            List.append_assoc, List.singleton_append]

/-- The 32 units from the one with the number `32 * i` on. -/
def piece (url : JsString) (i : ℕ) : JsString := (url.drop (32 * i)).take 32

theorem matchChunks_pieces (url : JsString) (plain : ∀ unit ∈ url, ¬ IsLineTerminator unit) (i : ℕ) :
    (matchChunks [] url)[i]?.getD [] = piece url i := by
  induction i generalizing url with
  | zero =>
      rw [piece, Nat.mul_zero, List.drop_zero]
      by_cases long : 32 ≤ url.length
      · have first := matchChunks_full [] (url.take 32) (url.drop 32)
          (fun unit known => plain unit (List.mem_of_mem_take known))
          (List.ne_nil_of_length_pos (by rw [List.length_take]; omega))
          (by rw [List.length_nil, List.length_take]; omega)
        rw [List.take_append_drop] at first
        rw [first]
        rfl
      · cases url with
        | nil => rfl
        | cons unit rest =>
            rw [matchChunks_short [] (unit :: rest) plain (by rw [List.length_nil]; omega) (by simp),
              List.take_of_length_le (by omega)]
            rfl
  | succ i ih =>
      by_cases long : 32 ≤ url.length
      · have first := matchChunks_full [] (url.take 32) (url.drop 32)
          (fun unit known => plain unit (List.mem_of_mem_take known))
          (List.ne_nil_of_length_pos (by rw [List.length_take]; omega))
          (by rw [List.length_nil, List.length_take]; omega)
        rw [List.take_append_drop] at first
        rw [first, List.getElem?_cons_succ, ih _ fun unit known => plain unit (List.mem_of_mem_drop known), piece,
          piece, List.drop_drop, Nat.mul_succ, Nat.add_comm]
      · have nothing : piece url (i + 1) = [] := by
          rw [piece, List.drop_of_length_le (by omega), List.take_nil]
        rw [nothing]
        cases url with
        | nil => rfl
        | cons unit rest =>
            rw [matchChunks_short [] (unit :: rest) plain (by rw [List.length_nil]; omega) (by simp)]
            rfl

/-! The words and what is read back from them. -/

def paddedBytes (chunk : JsString) : Bytes :=
  encodeUtf8 chunk ++ List.replicate (32 - (encodeUtf8 chunk).length) 0

theorem registrarPart_eq (chunk : JsString) : registrarPart chunk = '0' :: 'x' :: toHex (paddedBytes chunk) := by
  rw [registrarPart, paddedBytes, ← padZeros_toHex]

theorem registrarPart_length_iff (chunk : JsString) :
    (registrarPart chunk).length = 66 ↔ (encodeUtf8 chunk).length ≤ 32 := by
  rw [registrarPart_eq, paddedBytes, List.length_cons, List.length_cons, toHex_length, List.length_append,
    List.length_replicate]
  omega

theorem packed_words (first second third : JsString) :
    packRelayUrlForRegistrar [registrarPart first, registrarPart second, registrarPart third] =
      decodeUtf8 (stripZeros (paddedBytes first ++ paddedBytes second ++ paddedBytes third)) := by
  have joined : [registrarPart first, registrarPart second, registrarPart third].flatten =
      [] ++ '0' :: 'x' :: (toHex (paddedBytes first) ++ '0' :: 'x' :: (toHex (paddedBytes second) ++
        '0' :: 'x' :: toHex (paddedBytes third))) := by
    simp [registrarPart_eq]
  rw [packRelayUrlForRegistrar, joined, removePrefixes_plain [] _ List.not_mem_nil,
    removePrefixes_plain _ _ (toHex_no_x _), removePrefixes_plain _ _ (toHex_no_x _),
    removePrefixes_end _ (toHex_no_x _), List.nil_append, ← toHex_append, ← toHex_append, stripZeroPairs_toHex,
    fromHex_toHex, List.append_assoc]

def paddedCodes (chunk : JsString) : List ℕ :=
  codePoints chunk ++ List.replicate (32 - (encodeUtf8 chunk).length) 0

theorem paddedCodes_scalar (chunk : JsString) : ∀ code ∈ paddedCodes chunk, IsScalar code := by
  intro code known
  rcases List.mem_append.mp known with written | zero
  · exact codePoints_scalar chunk code written
  · rw [List.eq_of_mem_replicate zero]
    exact .inl (by decide)

theorem paddedBytes_eq (chunk : JsString) : paddedBytes chunk = (paddedCodes chunk).flatMap encodeCode := by
  have zeros : ∀ count, (List.replicate count 0).flatMap encodeCode = List.replicate count 0 := by
    intro count
    induction count with
    | zero => rfl
    | succ count ih => rw [List.replicate_succ, List.flatMap_cons, ih]; rfl
  rw [paddedBytes, paddedCodes, List.flatMap_append, zeros, encodeUtf8]

theorem decodeUtf8_codes (codes : List ℕ) (scalars : ∀ code ∈ codes, IsScalar code) :
    decodeUtf8 (codes.flatMap encodeCode) = codes.flatMap unitsOf := by
  have decoded := decodeCodes_encodeUtf8 codes [] scalars
  rw [List.append_nil] at decoded
  rw [decodeUtf8, decoded, decodeCodes, List.append_nil]

theorem unit_of_word (chunk : JsString) (unit : CodeUnit) (known : unit ∈ (paddedCodes chunk).flatMap unitsOf) :
    unit ∈ chunk ∨ unit = Fin.ofNat (2 ^ 16) replacement ∨ unit = 0 := by
  rw [paddedCodes, List.flatMap_append, List.mem_append] at known
  rcases known with written | zero
  · exact (mem_toWellFormed chunk unit written).imp_right .inl
  · obtain ⟨code, replicated, found⟩ := List.mem_flatMap.mp zero
    rw [List.eq_of_mem_replicate replicated] at found
    exact .inr (.inr (List.mem_singleton.mp found))

theorem packed_plain (first second third : JsString)
    (plain : ∀ chunk ∈ [first, second, third], ∀ unit ∈ chunk, ¬ IsLineTerminator unit) :
    ∀ unit ∈ packRelayUrlForRegistrar [registrarPart first, registrarPart second, registrarPart third],
      ¬ IsLineTerminator unit := by
  intro unit known
  obtain ⟨count, whole⟩ := stripZeros_spec (paddedBytes first ++ paddedBytes second ++ paddedBytes third)
  have decoded := congrArg decodeUtf8 whole
  rw [decodeUtf8_zeros, ← packed_words, paddedBytes_eq, paddedBytes_eq, paddedBytes_eq, ← List.flatMap_append,
    ← List.flatMap_append, decodeUtf8_codes _ (by
      intro code found
      simp only [List.mem_append] at found
      rcases found with (one | two) | three
      · exact paddedCodes_scalar first code one
      · exact paddedCodes_scalar second code two
      · exact paddedCodes_scalar third code three)] at decoded
  have member := List.mem_append_left (List.replicate count 0) known
  rw [← decoded, List.flatMap_append, List.flatMap_append, List.mem_append, List.mem_append] at member
  have one : ∀ chunk ∈ [first, second, third], unit ∈ (paddedCodes chunk).flatMap unitsOf →
      ¬ IsLineTerminator unit := by
    intro chunk listed found
    rcases unit_of_word chunk unit found with written | replaced | zero
    · exact plain chunk listed unit written
    · rw [replaced]
      decide
    · rw [zero]
      decide
  rcases member with (first | second) | third
  · exact one _ (by simp) first
  · exact one _ (by simp) second
  · exact one _ (by simp) third

theorem stripped_text_iff (codes : List ℕ) (scalars : ∀ code ∈ codes, IsScalar code) (count : ℕ) (url : JsString)
    (length : (codes.flatMap unitsOf).length = url.length) :
    decodeUtf8 (stripZeros (codes.flatMap encodeCode ++ List.replicate count 0)) = url ↔
      codes.flatMap unitsOf = url ∧ url.getLast? ≠ some 0 := by
  obtain ⟨stripped, whole⟩ := stripZeros_spec (codes.flatMap encodeCode ++ List.replicate count 0)
  have last := stripZeros_last (codes.flatMap encodeCode ++ List.replicate count 0)
  generalize stripZeros (codes.flatMap encodeCode ++ List.replicate count 0) = kept at whole last
  have decoded := congrArg decodeUtf8 whole
  rw [decodeUtf8_zeros, decodeUtf8_zeros, decodeUtf8_codes codes scalars] at decoded
  constructor
  · intro same
    rw [same] at decoded
    have lengths := congrArg List.length decoded
    rw [List.length_append, List.length_append, List.length_replicate, List.length_replicate] at lengths
    have counts : count = stripped := by omega
    rw [counts] at whole decoded
    have text := List.append_cancel_right decoded
    have bytes := List.append_cancel_right whole
    refine ⟨text, fun final => ?_⟩
    obtain ⟨front, ends⟩ := encoded_last codes (by rw [text]; exact final)
    exact last front (bytes.symm.trans ends)
  · rintro ⟨text, final⟩
    have more : count ≤ stripped := by
      by_contra less
      have cut : List.replicate count (0 : UInt8) =
          List.replicate (count - stripped - 1) 0 ++ [0] ++ List.replicate stripped 0 := by
        rw [← List.replicate_succ', List.replicate_append_replicate]
        congr 1
        omega
      rw [cut, ← List.append_assoc, ← List.append_assoc] at whole
      exact last _ (List.append_cancel_right whole).symm
    have cut : List.replicate stripped (0 : CodeUnit) =
        List.replicate (stripped - count) 0 ++ List.replicate count 0 := by
      rw [List.replicate_append_replicate]
      congr 1
      omega
    rw [text, cut, ← List.append_assoc] at decoded
    have read := List.append_cancel_right decoded
    cases rest : stripped - count with
    | zero =>
        rw [rest, List.replicate_zero, List.append_nil] at read
        exact read.symm
    | succ others =>
        rw [rest, List.replicate_succ', ← List.append_assoc] at read
        rw [read, List.getLast?_concat] at final
        exact absurd rfl final

theorem piece_length (url : JsString) (i : ℕ) : (piece url i).length = min 32 (url.length - 32 * i) := by
  rw [piece, List.length_take, List.length_drop]

theorem pieces_joined (url : JsString) (short : url.length ≤ 96) :
    piece url 0 ++ piece url 1 ++ piece url 2 = url := by
  have whole := List.take_append_drop 32 url
  have rest := List.take_append_drop 32 (url.drop 32)
  have last : piece url 2 = (url.drop 32).drop 32 := by
    rw [piece, List.drop_drop, List.take_of_length_le (by rw [List.length_drop]; omega)]
  rw [last, List.append_assoc, piece, piece, rest]
  exact whole

theorem padded_full (chunk : JsString) (full : chunk.length = 32) (fits : (encodeUtf8 chunk).length ≤ 32) :
    paddedBytes chunk = encodeUtf8 chunk := by
  have long := length_le_encodeUtf8 chunk
  have none : 32 - (encodeUtf8 chunk).length = 0 := by omega
  rw [paddedBytes, none, List.replicate_zero, List.append_nil]

theorem padded_empty (chunk : JsString) (empty : chunk.length = 0) :
    chunk = [] ∧ paddedBytes chunk = List.replicate 32 0 := by
  obtain rfl := List.eq_nil_of_length_eq_zero empty
  exact ⟨rfl, rfl⟩

theorem words_joined (url : JsString) (short : url.length ≤ 96)
    (fits : ∀ i < 3, (encodeUtf8 (piece url i)).length ≤ 32) :
    ∃ count, paddedBytes (piece url 0) ++ paddedBytes (piece url 1) ++ paddedBytes (piece url 2) =
      (codePoints (piece url 0) ++ codePoints (piece url 1) ++ codePoints (piece url 2)).flatMap encodeCode ++
        List.replicate count 0 := by
  have lengths := piece_length url
  simp only [List.flatMap_append]
  by_cases one : url.length ≤ 32
  · have second := padded_empty (piece url 1) (by rw [lengths]; omega)
    have third := padded_empty (piece url 2) (by rw [lengths]; omega)
    refine ⟨32 - (encodeUtf8 (piece url 0)).length + 32 + 32, ?_⟩
    rw [second.2, third.2, second.1, third.1, paddedBytes, ← List.replicate_append_replicate,
      ← List.replicate_append_replicate]
    simp [encodeUtf8, codePoints]
  · have first := padded_full (piece url 0) (by rw [lengths]; omega) (fits 0 (by decide))
    by_cases two : url.length ≤ 64
    · have third := padded_empty (piece url 2) (by rw [lengths]; omega)
      refine ⟨32 - (encodeUtf8 (piece url 1)).length + 32, ?_⟩
      rw [first, third.2, third.1, paddedBytes, ← List.replicate_append_replicate]
      simp [encodeUtf8, codePoints]
    · have second := padded_full (piece url 1) (by rw [lengths]; omega) (fits 1 (by decide))
      refine ⟨32 - (encodeUtf8 (piece url 2)).length, ?_⟩
      rw [first, second, paddedBytes]
      simp [encodeUtf8]

/-- The 32 units of each word are well formed and have 32 bytes at most, and no line is broken. -/
structure Fits (url : JsString) : Prop where
  plain : ∀ unit ∈ url, ¬ IsLineTerminator unit
  ends : url.getLast? ≠ some 0
  words : ∀ i < 3, (encodeUtf8 (piece url i)).length ≤ 32
  wellFormed : ∀ i < 3, toWellFormed (piece url i) = piece url i

theorem accepted_parts (url : JsString) (parts : List (List Char))
    (accepted : splitRelayUrlForRegistrar url 3 = .ok parts) :
    url.length ≤ 96 ∧ ∃ chunks : ℕ → JsString, (∀ i, chunks i = (matchChunks [] url)[i]?.getD []) ∧
      parts = [registrarPart (chunks 0), registrarPart (chunks 1), registrarPart (chunks 2)] := by
  rw [splitRelayUrlForRegistrar] at accepted
  split at accepted
  · cases accepted
  · rename_i short
    exact ⟨Nat.not_lt.mp short, _, fun _ => rfl, (Except.ok.inj accepted).symm⟩

theorem chunks_plain (url : JsString) (i : ℕ) :
    ∀ unit ∈ (matchChunks [] url)[i]?.getD [], ¬ IsLineTerminator unit := by
  cases found : (matchChunks [] url)[i]? with
  | none => exact fun unit none => absurd none List.not_mem_nil
  | some chunk =>
      exact matchChunks_plain [] url (fun unit none => absurd none List.not_mem_nil) chunk
        (List.mem_of_getElem? found)

/-- Three words are read back as the URL exactly when they are well formed and no zero is lost. -/
theorem packed_pieces_iff (url : JsString) (short : url.length ≤ 96)
    (fits : ∀ i < 3, (encodeUtf8 (piece url i)).length ≤ 32) :
    packRelayUrlForRegistrar
        [registrarPart (piece url 0), registrarPart (piece url 1), registrarPart (piece url 2)] = url ↔
      (∀ i < 3, toWellFormed (piece url i) = piece url i) ∧ url.getLast? ≠ some 0 := by
  have joined := pieces_joined url short
  obtain ⟨count, words⟩ := words_joined url short fits
  have scalars : ∀ code ∈ codePoints (piece url 0) ++ codePoints (piece url 1) ++ codePoints (piece url 2),
      IsScalar code := by
    intro code known
    simp only [List.mem_append] at known
    rcases known with (first | second) | third
    · exact codePoints_scalar _ code first
    · exact codePoints_scalar _ code second
    · exact codePoints_scalar _ code third
  have text : (codePoints (piece url 0) ++ codePoints (piece url 1) ++ codePoints (piece url 2)).flatMap unitsOf =
      toWellFormed (piece url 0) ++ toWellFormed (piece url 1) ++ toWellFormed (piece url 2) := by
    rw [List.flatMap_append, List.flatMap_append]
    rfl
  have length : (toWellFormed (piece url 0) ++ toWellFormed (piece url 1) ++ toWellFormed (piece url 2)).length =
      url.length := by
    have whole := congrArg List.length joined
    simp only [List.length_append] at whole
    simp only [List.length_append, toWellFormed_length]
    exact whole
  rw [packed_words, words, stripped_text_iff _ scalars count url (by rw [text]; exact length), text]
  refine and_congr_left fun _ => ⟨fun same => ?_, fun wellFormed => ?_⟩
  · have whole := same.trans joined.symm
    have last := List.append_inj whole (by simp only [List.length_append, toWellFormed_length])
    have first := List.append_inj last.1 (toWellFormed_length _)
    intro i below
    rcases (by omega : i = 0 ∨ i = 1 ∨ i = 2) with rfl | rfl | rfl
    · exact first.1
    · exact first.2
    · exact last.2
  · rw [wellFormed 0 (by decide), wellFormed 1 (by decide), wellFormed 2 (by decide)]
    exact joined

/-- An accepted URL is in three words of 32 bytes and read back from them exactly when it fits. -/
theorem relay_url_survives_iff (url : JsString) (parts : List (List Char))
    (accepted : splitRelayUrlForRegistrar url 3 = .ok parts) :
    ((∀ part ∈ parts, part.length = 66) ∧ parts.length = 3 ∧ packRelayUrlForRegistrar parts = url) ↔
      Fits url := by
  obtain ⟨short, chunks, matched, rfl⟩ := accepted_parts url parts accepted
  have wordLengths : (∀ part ∈ [registrarPart (chunks 0), registrarPart (chunks 1), registrarPart (chunks 2)],
      part.length = 66) ↔ ∀ i < 3, (encodeUtf8 (chunks i)).length ≤ 32 := by
    simp only [List.forall_mem_cons, registrarPart_length_iff]
    constructor
    · rintro ⟨first, second, third, _⟩ i below
      match i, below with
      | 0, _ => exact first
      | 1, _ => exact second
      | 2, _ => exact third
    · exact fun all => ⟨all 0 (by decide), all 1 (by decide), all 2 (by decide),
        fun part none => absurd none List.not_mem_nil⟩
  by_cases plain : ∀ unit ∈ url, ¬ IsLineTerminator unit
  · have pieces : ∀ i, chunks i = piece url i := fun i => (matched i).trans (matchChunks_pieces url plain i)
    rw [wordLengths]
    simp only [pieces]
    constructor
    · rintro ⟨fits, _, packed⟩
      have exact := (packed_pieces_iff url short fits).mp packed
      exact ⟨plain, exact.2, fits, exact.1⟩
    · rintro ⟨_, ends, fits, wellFormed⟩
      exact ⟨fits, rfl, (packed_pieces_iff url short fits).mpr ⟨wellFormed, ends⟩⟩
  · refine iff_of_false ?_ fun fits => plain fits.plain
    rintro ⟨_, _, packed⟩
    refine plain ?_
    rw [← packed]
    refine packed_plain _ _ _ fun chunk listed => ?_
    have known : ∃ i, chunk = chunks i := by
      simp only [List.mem_cons, List.not_mem_nil, or_false] at listed
      rcases listed with first | second | third
      · exact ⟨0, first⟩
      · exact ⟨1, second⟩
      · exact ⟨2, third⟩
    obtain ⟨i, rfl⟩ := known
    rw [matched i]
    exact chunks_plain url i

/-! A URL of ASCII, and a name of seventeen letters with an accent. -/

def jsString (text : String) : JsString := text.toList.map fun char => Fin.ofNat (2 ^ 16) char.toNat

theorem relay_url_survives_iff_short :
    ∃ parts, splitRelayUrlForRegistrar (jsString "https://relay.example/gsn") 3 = .ok parts ∧
      (((∀ part ∈ parts, part.length = 66) ∧ parts.length = 3 ∧
        packRelayUrlForRegistrar parts = jsString "https://relay.example/gsn") ↔
          Fits (jsString "https://relay.example/gsn")) := by
  have accepted : (splitRelayUrlForRegistrar (jsString "https://relay.example/gsn") 3).isOk = true := by
    decide +kernel
  cases made : splitRelayUrlForRegistrar (jsString "https://relay.example/gsn") 3 with
  | error failure =>
      rw [made] at accepted
      cases accepted
  | ok parts => exact ⟨parts, rfl, relay_url_survives_iff _ parts made⟩

def accented : JsString := List.replicate 17 0xE9

/-- The first word has 34 bytes. -/
theorem accented_url_overflows :
    ∃ parts, splitRelayUrlForRegistrar accented 3 = .ok parts ∧ ∃ part ∈ parts, part.length = 70 := by
  have accepted : (splitRelayUrlForRegistrar accented 3).toOption.any
      (fun parts => parts.any fun part => part.length = 70) = true := by
    decide +kernel
  cases made : splitRelayUrlForRegistrar accented 3 with
  | error failure => simp [made, Except.toOption] at accepted
  | ok parts =>
      simp only [made, Except.toOption, Option.any_some, List.any_eq_true, decide_eq_true_eq] at accepted
      exact ⟨parts, rfl, accepted⟩

end OpenGsn.RelayRegistrar
