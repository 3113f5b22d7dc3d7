import OpenGsn.Solidity.Calldata

/-! Tuples of the same type, each followed by more bytes, can be told apart. -/

namespace OpenGsn.Solidity

theorem bytesTail_append_injective (contents other rest following : Bytes)
    (first : contents.length < 2 ^ 256) (second : other.length < 2 ^ 256)
    (same : bytesTail contents ++ rest = bytesTail other ++ following) :
    contents = other ∧ rest = following := by
  simp only [bytesTail, List.append_assoc] at same
  have counted := List.append_inj same (by simp)
  have lengths : contents.length = other.length := word_injective _ _ first second counted.1
  have contained := List.append_inj counted.2 lengths
  have zeros : List.replicate (padding contents.length) (0 : UInt8) =
      List.replicate (padding other.length) 0 := by rw [lengths]
  have padded := contained.2
  rw [zeros] at padded
  exact ⟨contained.1, List.append_cancel_left padded⟩

/-- Parts of the same type: static ones of the same width, or `bytes`. -/
inductive Part.Alike : Part → Part → Prop
  | static (first second : Bytes) (width : first.length = second.length) :
      Alike (.static first) (.static second)
  | bytes (first second : Bytes) (short : first.length < 2 ^ 256) (brief : second.length < 2 ^ 256) :
      Alike (.dynamic (bytesTail first)) (.dynamic (bytesTail second))

/-- The heads of such tuples agree in the static parts. -/
inductive Part.SameStatic : Part → Part → Prop
  | static (word : Bytes) : SameStatic (.static word) (.static word)
  | dynamic (first second : Bytes) : SameStatic (.dynamic first) (.dynamic second)

theorem headLengths_alike (parts others : List Part) (alike : List.Forall₂ Part.Alike parts others) :
    (parts.map Part.headLength).sum = (others.map Part.headLength).sum := by
  induction alike with
  | nil => rfl
  | cons head _ ih =>
      cases head with
      | static first second width => simp [Part.headLength, width, ih]
      | bytes first second _ _ => simp [Part.headLength, ih]

theorem encodeHeads_length (offset : ℕ) (parts : List Part) :
    (encodeHeads offset parts).length = (parts.map Part.headLength).sum := by
  induction parts generalizing offset with
  | nil => rfl
  | cons part rest ih =>
      cases part with
      | static word => simp [encodeHeads, Part.headLength, ih]
      | dynamic tail => simp [encodeHeads, Part.headLength, ih]

theorem encodeHeads_injective (parts others : List Part) (alike : List.Forall₂ Part.Alike parts others)
    (offset place : ℕ) (same : encodeHeads offset parts = encodeHeads place others) :
    List.Forall₂ Part.SameStatic parts others := by
  induction alike generalizing offset place with
  | nil => exact .nil
  | cons head _ ih =>
      cases head with
      | static first second width =>
          have cut := List.append_inj same width
          rw [cut.1]
          exact .cons (.static second) (ih offset place cut.2)
      | bytes first second _ _ =>
          have cut := List.append_inj same (by simp)
          exact .cons (.dynamic _ _) (ih _ _ cut.2)

theorem tails_injective (parts others : List Part) (alike : List.Forall₂ Part.Alike parts others)
    (heads : List.Forall₂ Part.SameStatic parts others) (rest following : Bytes)
    (same : (parts.map Part.tail).flatten ++ rest = (others.map Part.tail).flatten ++ following) :
    parts = others ∧ rest = following := by
  induction alike with
  | nil => exact ⟨rfl, same⟩
  | cons head _ ih =>
      cases head with
      | static first second width =>
          cases heads with
          | cons equal later =>
              cases equal
              have others := ih later same
              exact ⟨congrArg _ others.1, others.2⟩
      | bytes first second short brief =>
          cases heads with
          | cons _ later =>
              simp only [List.map_cons, Part.tail, List.flatten_cons, List.append_assoc] at same
              have cut := bytesTail_append_injective first second _ _ short brief same
              have others := ih later cut.2
              exact ⟨by rw [cut.1, others.1], others.2⟩

theorem encodeTuple_append_injective (parts others : List Part)
    (alike : List.Forall₂ Part.Alike parts others) (rest following : Bytes)
    (same : encodeTuple parts ++ rest = encodeTuple others ++ following) :
    parts = others ∧ rest = following := by
  simp only [encodeTuple, List.append_assoc] at same
  have widths : (encodeHeads (parts.map Part.headLength).sum parts).length =
      (encodeHeads (others.map Part.headLength).sum others).length := by
    rw [encodeHeads_length, encodeHeads_length, headLengths_alike parts others alike]
  have cut := List.append_inj same widths
  have heads := encodeHeads_injective parts others alike _ _ cut.1
  exact tails_injective parts others alike heads rest following cut.2

theorem encodeTuple_injective (parts others : List Part) (alike : List.Forall₂ Part.Alike parts others)
    (same : encodeTuple parts = encodeTuple others) : parts = others :=
  (encodeTuple_append_injective parts others alike [] [] (by rw [same])).1

end OpenGsn.Solidity
