import OpenGsn.Forwarder.Replay

/-! The request types that a forwarder knows, and that a signature is for one request of one of
them. -/

namespace OpenGsn.Forwarder

open Solidity Reentry

theorem cut_at_mark {α : Type} (mark : α) (front other rest remainder : List α) (first : mark ∉ front)
    (second : mark ∉ other) (same : front ++ mark :: rest = other ++ mark :: remainder) :
    front = other ∧ rest = remainder := by
  induction front generalizing other with
  | nil =>
      cases other with
      | nil => exact ⟨rfl, List.tail_eq_of_cons_eq same⟩
      | cons letter other =>
          have head : mark = letter := List.head_eq_of_cons_eq same
          exact absurd (head ▸ List.mem_cons_self) second
  | cons letter front ih =>
      cases other with
      | nil =>
          have head : letter = mark := List.head_eq_of_cons_eq same
          exact absurd (head ▸ List.mem_cons_self) first
      | cons letter' other =>
          have head : letter = letter' := List.head_eq_of_cons_eq same
          have tails := ih other (fun inside => first (List.mem_cons_of_mem _ inside))
            (fun inside => second (List.mem_cons_of_mem _ inside)) (List.tail_eq_of_cons_eq same)
          exact ⟨by rw [head, tails.1], tails.2⟩

inductive RequestType : Type
  | forwardRequest
  | registered (typeName typeSuffix : Bytes)

namespace RequestType

def typeName : RequestType → Bytes
  | .forwardRequest => utf8 "ForwardRequest"
  | .registered typeName _ => typeName

/-- What stands behind `GENERIC_PARAMS`. -/
def suffix : RequestType → Bytes
  | .forwardRequest => utf8 ")"
  | .registered _ typeSuffix => utf8 "," ++ typeSuffix

/-- The string that is hashed. -/
def requestType (type : RequestType) : Bytes :=
  type.typeName ++ utf8 "(" ++ utf8 genericParams ++ type.suffix

def ValidName (type : RequestType) : Prop := type.typeName.all fun c => c ≠ 0x28 ∧ c ≠ 0x29

instance (type : RequestType) : Decidable type.ValidName := inferInstanceAs (Decidable (_ = true))

theorem forwardRequest_validName : ValidName .forwardRequest := by decide

theorem requestType_injective (first second : RequestType) (valid1 : first.ValidName)
    (valid2 : second.ValidName) (same : first.requestType = second.requestType) : first = second := by
  have unmarked : ∀ type : RequestType, type.ValidName → 0x28 ∉ type.typeName := by
    intro type valid inside
    simpa using List.all_eq_true.mp valid 0x28 inside
  have marked : ∀ type : RequestType,
      type.requestType = type.typeName ++ 0x28 :: (utf8 genericParams ++ type.suffix) := by
    intro type
    have mark : utf8 "(" = [0x28] := by decide
    simp [requestType, mark]
  rw [marked first, marked second] at same
  have parts := cut_at_mark 0x28 _ _ _ _ (unmarked first valid1) (unmarked second valid2) same
  have suffixes : first.suffix = second.suffix := List.append_cancel_left parts.2
  have comma : utf8 "," = [0x2c] := by decide
  have closing : utf8 ")" = [0x29] := by decide
  cases first with
  | forwardRequest =>
      cases second with
      | forwardRequest => rfl
      | registered name typeSuffix => simp [suffix, comma, closing] at suffixes
  | registered name typeSuffix =>
      cases second with
      | forwardRequest => simp [suffix, comma, closing] at suffixes
      | registered other otherSuffix =>
          rw [show name = other from parts.1, List.append_cancel_left suffixes]

end RequestType

variable (crypto : Crypto)

def RequestType.hash (type : RequestType) : Uint256 := crypto.keccak256 type.requestType

theorem registerRequestType_ok (typeName typeSuffix : Bytes) (s next : State) :
    registerRequestType crypto typeName typeSuffix s = .ok next ↔
      (RequestType.registered typeName typeSuffix).ValidName ∧
        registerRequestTypeInternal crypto (RequestType.registered typeName typeSuffix).requestType s =
          next := by
  simp [registerRequestType, RequestType.ValidName, RequestType.typeName, RequestType.requestType,
    RequestType.suffix]

def KnownTypes (s : State) : Prop :=
  ∀ hash, s.typeHashes hash = true → ∃ type : RequestType, type.ValidName ∧ hash = type.hash crypto

theorem knownTypes_same (first second : State) (same : second.typeHashes = first.typeHashes)
    (known : KnownTypes crypto first) : KnownTypes crypto second := by
  intro hash registered
  rw [same] at registered
  exact known hash registered

theorem knownTypes_register (type : RequestType) (s : State) (valid : type.ValidName)
    (known : KnownTypes crypto s) :
    KnownTypes crypto (registerRequestTypeInternal crypto type.requestType s) := by
  intro hash registered
  by_cases this : hash = type.hash crypto
  · exact ⟨type, valid, this⟩
  · apply known hash
    have other : (registerRequestTypeInternal crypto type.requestType s).typeHashes hash =
        s.typeHashes hash := Function.update_of_ne this _ _
    rwa [other] at registered

theorem deploy_knownTypes : KnownTypes crypto (deploy crypto) := by
  have builtin : utf8 ("ForwardRequest(" ++ genericParams ++ ")") =
      RequestType.forwardRequest.requestType := by decide +kernel
  rw [deploy, builtin]
  apply knownTypes_register crypto _ _ RequestType.forwardRequest_validName
  intro hash registered
  exact absurd registered Bool.false_ne_true

theorem sendBack_knownTypes (req : ForwardRequest) (result : Bool × Bytes) (s : State)
    (known : KnownTypes crypto s) :
    (sendBack req result s).Meets (fun first second => KnownTypes crypto first → KnownTypes crypto second)
      (KnownTypes crypto) (fun final _ => KnownTypes crypto final) := by
  unfold sendBack
  split
  · have emptied := knownTypes_same crypto s { s with ether := 0 } rfl known
    exact ⟨emptied, fun after _ moved => moved emptied, fun _ => trivial⟩
  · exact known

theorem executeVerified_knownTypes (env : Env) (use : Executed) (gasleft : ℕ) (s : State)
    (known : KnownTypes crypto s) :
    (executeVerified env use gasleft s).Meets
      (fun first second => KnownTypes crypto first → KnownTypes crypto second)
      (KnownTypes crypto) (fun final _ => KnownTypes crypto final) := by
  refine Code.meets_check _ _ fun next used => ?_
  have counted : KnownTypes crypto next := by
    obtain ⟨_, _, rfl⟩ := (verifyAndUpdateNonce_ok use s next).mp used
    exact knownTypes_same crypto s _ rfl known
  iterate 4 refine Code.meets_check _ _ fun _ _ => ?_
  split
  · exact sendBack_knownTypes crypto _ _ next counted
  · have sent := knownTypes_same crypto next
      { next with ether := next.ether - use.request.value.val } rfl counted
    exact ⟨sent, fun after _ moved => sendBack_knownTypes crypto _ _ after (moved sent),
      fun _ => sendBack_knownTypes crypto _ _ next counted⟩

theorem entry_knownTypes (this : Address) (env : Env) :
    Guarantee (entry crypto this env)
      (fun first second => KnownTypes crypto first → KnownTypes crypto second) := by
  apply guarantee_invariant
  intro call s known
  cases call with
  | receive value => exact knownTypes_same crypto s _ rfl known
  | verify req domainSeparator requestTypeHash suffixData sig =>
      exact Code.meets_check _ _ fun _ _ => known
  | execute value req domainSeparator requestTypeHash suffixData sig gasleft =>
      refine Code.meets_check _ _ fun _ _ => ?_
      exact executeVerified_knownTypes crypto env _ gasleft _
        (knownTypes_same crypto s { s with ether := s.ether + value } rfl known)
  | registerRequestType typeName typeSuffix =>
      refine Code.meets_check _ _ fun next registered => ?_
      obtain ⟨valid, rfl⟩ := (registerRequestType_ok crypto typeName typeSuffix s next).mp registered
      exact knownTypes_register crypto _ s valid known
  | registerDomainSeparator name version => exact knownTypes_same crypto s _ rfl known

/-- In every state in which anyone has control, a hash that passes as a request type is that
of a type whose name has no parenthesis. -/
theorem reachable_knownTypes (this : Address) (history : List (Env × Moves Call Bytes Revert)) (s : State)
    (reached : s ∈ historySeen (entry crypto this) history (deploy crypto)) : KnownTypes crypto s :=
  history_seen_kept (entry crypto this) _ (fun _ known => known) (entry_knownTypes crypto this) history
    _ s reached (deploy_knownTypes crypto)

def signedStrings (req : ForwardRequest) (type : RequestType) (suffixData : Bytes) : Set Bytes :=
  {getEncoded crypto req (type.hash crypto) suffixData, req.data, type.requestType}

section Digests

variable (first second : ForwardRequest) (domain1 domain2 : Uint256) (type1 type2 : RequestType)
  (suffixData1 suffixData2 : Bytes)

theorem digestInput_inj (valid1 : type1.ValidName) (valid2 : type2.ValidName)
    (free : crypto.CollisionFree
      (signedStrings crypto first type1 suffixData1 ∪ signedStrings crypto second type2 suffixData2))
    (same : digestInput crypto first domain1 (type1.hash crypto) suffixData1 =
      digestInput crypto second domain2 (type2.hash crypto) suffixData2) :
    domain1 = domain2 ∧ type1 = type2 ∧ first = second ∧ suffixData1 = suffixData2 := by
  have hashes := append_word_injective _ _ _ _ (Fin.isLt _) (Fin.isLt _) same
  have domains := append_word_injective _ _ _ _ (Fin.isLt _) (Fin.isLt _) hashes.1
  have encoded := free (.inl (.inl rfl)) (.inr (.inl rfl)) (Fin.ext hashes.2)
  have members := getEncoded_inj crypto first second _ _ suffixData1 suffixData2 _ free
    (.inl (.inr (.inl rfl))) (.inr (.inr (.inl rfl))) encoded
  have requestTypes : type1.requestType = type2.requestType :=
    free (.inl (.inr (.inr rfl))) (.inr (.inr (.inr rfl))) members.2.1
  exact ⟨Fin.ext domains.2, RequestType.requestType_injective type1 type2 valid1 valid2 requestTypes,
    members.1, members.2.2⟩

/-- Two hashes that pass in reachable states are of types under which no string is signed for two
requests. -/
theorem registered_types_unambiguous (this : Address)
    (history1 history2 : List (Env × Moves Call Bytes Revert)) (s1 s2 : State)
    (reached1 : s1 ∈ historySeen (entry crypto this) history1 (deploy crypto))
    (reached2 : s2 ∈ historySeen (entry crypto this) history2 (deploy crypto)) (hash1 hash2 : Uint256)
    (registered1 : s1.typeHashes hash1 = true) (registered2 : s2.typeHashes hash2 = true) :
    ∃ type1 type2 : RequestType, hash1 = type1.hash crypto ∧ hash2 = type2.hash crypto ∧
      (crypto.CollisionFree
          (signedStrings crypto first type1 suffixData1 ∪ signedStrings crypto second type2 suffixData2) →
        digestInput crypto first domain1 hash1 suffixData1 =
            digestInput crypto second domain2 hash2 suffixData2 →
          domain1 = domain2 ∧ type1 = type2 ∧ first = second ∧ suffixData1 = suffixData2) := by
  obtain ⟨type1, valid1, rfl⟩ := reachable_knownTypes crypto this history1 s1 reached1 hash1 registered1
  obtain ⟨type2, valid2, rfl⟩ := reachable_knownTypes crypto this history2 s2 reached2 hash2 registered2
  exact ⟨type1, type2, rfl, rfl, digestInput_inj crypto first second domain1 domain2 type1 type2
    suffixData1 suffixData2 valid1 valid2⟩

/-- A string under the signature stands for one domain, one type, one request and one suffix. -/
theorem signature_authorises_one_request (valid1 : type1.ValidName) (valid2 : type2.ValidName)
    (free : crypto.CollisionFree
      (signedStrings crypto first type1 suffixData1 ∪ signedStrings crypto second type2 suffixData2))
    (same : digestInput crypto first domain1 (type1.hash crypto) suffixData1 =
      digestInput crypto second domain2 (type2.hash crypto) suffixData2) :
    domain1 = domain2 ∧ type1 = type2 ∧ first = second ∧ suffixData1 = suffixData2 :=
  digestInput_inj crypto first second domain1 domain2 type1 type2 suffixData1 suffixData2 valid1 valid2
    free same

end Digests

def sampleRequestType : RequestType := .registered (utf8 "A") (utf8 "B)")

def sampleRequest : ForwardRequest := ⟨7, 8, 0, 1, 0, [3], 0⟩

theorem signature_authorises_one_request_same :
    digestInput sampleCrypto sampleRequest 1 (sampleRequestType.hash sampleCrypto) [5] =
      digestInput sampleCrypto sampleRequest 1 (sampleRequestType.hash sampleCrypto) [5] ∧
    sampleRequest = sampleRequest := by
  have strings : ∀ first ∈ [getEncoded sampleCrypto sampleRequest (sampleRequestType.hash sampleCrypto) [5],
        sampleRequest.data, sampleRequestType.requestType],
      ∀ second ∈ [getEncoded sampleCrypto sampleRequest (sampleRequestType.hash sampleCrypto) [5],
        sampleRequest.data, sampleRequestType.requestType],
      sampleCrypto.keccak256 first = sampleCrypto.keccak256 second → first = second := by decide +kernel
  have free : sampleCrypto.CollisionFree (signedStrings sampleCrypto sampleRequest sampleRequestType [5] ∪
      signedStrings sampleCrypto sampleRequest sampleRequestType [5]) := by
    rw [Set.union_self]
    intro first inside second within
    exact strings first (by simpa [signedStrings] using inside) second
      (by simpa [signedStrings] using within)
  exact ⟨rfl, (signature_authorises_one_request sampleCrypto sampleRequest sampleRequest 1 1
    sampleRequestType sampleRequestType [5] [5] (by decide) (by decide) free rfl).2.2.1⟩

end OpenGsn.Forwarder
