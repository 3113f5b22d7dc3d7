import OpenGsn.Async.Results
import OpenGsn.Relay.RelayingSafety
import OpenGsn.Provider.AcceptedResponses

/-! Which responses of an honest server its client accepts. -/

namespace OpenGsn.Provider

open Solidity Async
open Relay hiding Event

/-! Objects with numbers for keys -/

def numberKey (n : ℕ) : List Char := Nat.toDigits 10 n

theorem numberKey_value (n : ℕ) :
    (numberKey n).foldl (fun n digit => 10 * n + (digit.toNat - 48)) 0 = n :=
  Nat.ofDigitChars_ten_toDigits

theorem numberKey_injective (first second : ℕ) (same : numberKey first = numberKey second) : first = second := by
  rw [← numberKey_value first, same, numberKey_value]

theorem numberKey_head (n : ℕ) (positive : 0 < n) : (numberKey n).head? ≠ some '0' := by
  induction n using Nat.strong_induction_on with
  | _ n ih =>
      by_cases small : n < 10
      · rw [numberKey, Nat.toDigits_of_lt_base small]
        interval_cases n <;> decide
      · have more : 0 < n / 10 := by omega
        have shorter := ih (n / 10) (by omega) more
        rw [numberKey, Nat.toDigits_of_base_le (by decide) (Nat.le_of_not_lt small),
          List.head?_append_of_ne_nil _ Nat.toDigits_ne_nil]
        exact shorter

theorem arrayIndex_numberKey (n : ℕ) :
    arrayIndex (numberKey n) = if n < 2 ^ 32 - 1 then some n else none := by
  have digits : (numberKey n).all Char.isDigit = true :=
    List.all_eq_true.mpr fun digit member => Nat.isDigit_of_mem_toDigits (by decide) (by decide) member
  have leading : (numberKey n).head? = some '0' → numberKey n = ['0'] := by
    intro zero
    rcases Nat.eq_zero_or_pos n with rfl | positive
    · rfl
    · exact absurd zero (numberKey_head n positive)
  rw [arrayIndex, numberKey_value]
  exact if_congr ⟨fun all => all.2.2.2, fun small => ⟨digits, Nat.toDigits_ne_nil, leading, small⟩⟩ rfl rfl

theorem numberKey_small (n : ℕ) (indexed : (arrayIndex (numberKey n)).isSome = true) : n < 2 ^ 32 - 1 := by
  rw [arrayIndex_numberKey] at indexed
  split at indexed
  · assumption
  · cases indexed

namespace ObjectMap

variable {Value : Type}

theorem empty_distinct : (([] : List (List Char × Value)).map Prod.fst).Nodup := List.nodup_nil

def empty : ObjectMap Value := ⟨[], empty_distinct⟩

/-- The entries after an assignment. A key that is there keeps its place. -/
def assigned (key : List Char) (value : Value) (map : ObjectMap Value) : List (List Char × Value) :=
  if ∃ entry ∈ map.entries, entry.1 = key then
    map.entries.map fun entry => if entry.1 = key then (key, value) else entry
  else map.entries ++ [(key, value)]

theorem assigned_distinct (key : List Char) (value : Value) (map : ObjectMap Value) :
    ((assigned key value map).map Prod.fst).Nodup := by
  unfold assigned
  by_cases known : ∃ entry ∈ map.entries, entry.1 = key
  · rw [if_pos known]
    have same : ((map.entries.map fun entry => if entry.1 = key then (key, value) else entry).map Prod.fst) =
        map.entries.map Prod.fst := by
      rw [List.map_map]
      apply List.map_congr_left
      intro entry _
      by_cases own : entry.1 = key
      · simp [own]
      · simp [own]
    rw [same]
    exact map.distinct
  · rw [if_neg known, List.map_append, List.nodup_append]
    refine ⟨map.distinct, List.nodup_singleton _, ?_⟩
    intro other member added new same
    rw [same, List.mem_singleton.mp new] at member
    exact known (List.mem_map.mp member)

/-- `object[key] = value` -/
def set (key : List Char) (value : Value) (map : ObjectMap Value) : ObjectMap Value :=
  ⟨assigned key value map, assigned_distinct key value map⟩

theorem filter_append_rest {α : Type} (first : α → Bool) (l : List α)
    (down : l.Pairwise fun one two => first two = true → first one = true) :
    (l.filter first ++ l.filter fun one => !first one) = l := by
  induction l with
  | nil => rfl
  | cons head tail ih =>
      obtain ⟨heads, tails⟩ := List.pairwise_cons.mp down
      by_cases taken : first head = true
      · simp [taken, ih tails]
      · have none : ∀ other ∈ tail, first other = false := fun other member =>
          Bool.eq_false_iff.mpr fun later => taken (heads other member later)
        have left : tail.filter first = [] := List.filter_eq_nil_iff.mpr fun other member => by
          simp [none other member]
        have right : (tail.filter fun one => !first one) = tail := List.filter_eq_self.mpr fun other member => by
          simp [none other member]
        simp [Bool.eq_false_iff.mpr taken, left, right]

theorem enumerate_ascending (map : ObjectMap Value) (values : List (ℕ × Value))
    (ascending : (values.map Prod.fst).Pairwise (· < ·))
    (entries : map.entries = values.map fun entry => (numberKey entry.1, entry.2)) :
    map.enumerate = map.entries := by
  have ordered : map.entries.Pairwise fun one two => ∃ first second, first < second ∧
      one.1 = numberKey first ∧ two.1 = numberKey second := by
    rw [entries, List.pairwise_map]
    exact (List.pairwise_map.mp ascending).imp fun less => ⟨_, _, less, rfl, rfl⟩
  have sorted : (map.entries.filter fun entry => (arrayIndex entry.1).isSome).mergeSort
      (fun first second => (arrayIndex first.1).getD 0 ≤ (arrayIndex second.1).getD 0) =
        map.entries.filter fun entry => (arrayIndex entry.1).isSome := by
    apply List.mergeSort_of_pairwise
    refine List.Pairwise.imp_of_mem ?_ (ordered.filter _)
    rintro one two early late ⟨first, second, less, key1, key2⟩
    have known1 := (List.mem_filter.mp early).2
    have known2 := (List.mem_filter.mp late).2
    rw [key1] at known1
    rw [key2] at known2
    rw [key1, key2, arrayIndex_numberKey, arrayIndex_numberKey, if_pos (numberKey_small first known1),
      if_pos (numberKey_small second known2)]
    exact decide_eq_true less.le
  rw [enumerate, sorted]
  apply filter_append_rest (fun entry : List Char × Value => (arrayIndex entry.1).isSome)
  refine ordered.imp ?_
  rintro one two ⟨first, second, less, key1, key2⟩ known
  rw [key2] at known
  rw [key1, arrayIndex_numberKey, if_pos (less.trans (numberKey_small second known))]
  rfl

theorem set_fresh (key : List Char) (value : Value) (map : ObjectMap Value)
    (fresh : key ∉ map.entries.map Prod.fst) : (map.set key value).entries = map.entries ++ [(key, value)] :=
  if_neg fun known => fresh (List.mem_map.mpr known)

/-- `for (const [n, value] of values) object[n] = value` -/
def ofNumbered (values : List (ℕ × Value)) : ObjectMap Value :=
  values.foldl (fun map entry => map.set (numberKey entry.1) entry.2) empty

theorem foldl_entries (values : List (ℕ × Value)) (map : ObjectMap Value)
    (apart : (values.map Prod.fst).Nodup)
    (fresh : ∀ entry ∈ values, numberKey entry.1 ∉ map.entries.map Prod.fst) :
    (values.foldl (fun map entry => map.set (numberKey entry.1) entry.2) map).entries =
      map.entries ++ values.map fun entry => (numberKey entry.1, entry.2) := by
  induction values generalizing map with
  | nil => simp
  | cons head tail ih =>
      obtain ⟨heads, tails⟩ := List.nodup_cons.mp apart
      have added := set_fresh (numberKey head.1) head.2 map (fresh head List.mem_cons_self)
      rw [List.foldl_cons, ih _ tails, added, List.map_cons, List.append_assoc, List.singleton_append]
      intro entry member present
      rw [added, List.map_append, List.mem_append] at present
      rcases present with old | new
      · exact fresh entry (List.mem_cons_of_mem _ member) old
      · have same := numberKey_injective _ _ (List.mem_singleton.mp new)
        exact heads (same ▸ List.mem_map_of_mem member)

theorem ofNumbered_entries (values : List (ℕ × Value)) (ascending : (values.map Prod.fst).Pairwise (· < ·)) :
    (ofNumbered values).entries = values.map fun entry => (numberKey entry.1, entry.2) := by
  rw [ofNumbered, foldl_entries values empty (ascending.imp Nat.ne_of_lt) (by simp [empty])]
  rfl

theorem ofNumbered_values (values : List (ℕ × Value)) (ascending : (values.map Prod.fst).Pairwise (· < ·)) :
    (ofNumbered values).values = values.map Prod.snd := by
  have entries := ofNumbered_entries values ascending
  rw [ObjectMap.values, enumerate_ascending _ values ascending entries, entries, List.map_map]
  rfl

end ObjectMap

/-! Responses that pass the validation -/

namespace RelayedTransactionValidator

variable {Raw : Type} (validator : RelayedTransactionValidator Raw) (request : RelayTransactionRequest)

def Accepts (returnedTx : Raw) (nonceGapFilled : ObjectMap Raw) : Prop :=
  ∃ result, validator.validateRelayResponse request returnedTx nonceGapFilled = .ok result ∧
    isTransactionValid result = true

theorem validateTransactionSender_signed (transaction : TypedTransaction)
    (signed : transaction.getSenderAddress = .ok request.relayRequest.relayData.relayWorker) :
    validateTransactionSender request transaction = .ok true := by
  rw [validateTransactionSender, signed]
  exact congrArg Except.ok (decide_eq_true rfl)

theorem isGasPriceValid_of_covers (transaction : TypedTransaction)
    (covers : CoversFees request.relayRequest.relayData transaction.envelope) :
    isGasPriceValid (validateGasPrice request transaction) = true := by
  unfold validateGasPrice
  cases envelope : transaction.envelope with
  | legacy gasPrice chainId =>
      rw [envelope] at covers
      simpa [isGasPriceValid, CoversFees] using covers
  | type1 chainId gasPrice accessList =>
      rw [envelope] at covers
      exact covers.elim
  | type2 chainId maxPriorityFeePerGas maxFeePerGas accessList =>
      rw [envelope] at covers
      simpa [isGasPriceValid, CoversFees] using covers

theorem validateTransactionInNonceGap_valid (transaction : TypedTransaction) (expectedNonce : ℕ)
    (expected : Expected validator request transaction expectedNonce) :
    ∃ result, validator.validateTransactionInNonceGap request transaction expectedNonce = .ok result ∧
      isTransactionValid result = true := by
  obtain ⟨worker, method, nonce⟩ := expected
  have target := (validateTransactionTarget_iff validator transaction).mpr worker.target
  have called : validator.validateTransactionMethodSignature transaction = true :=
    List.isPrefixOf_iff_prefix.mpr method
  rw [validateTransactionInNonceGap, validateTransactionSender_signed request transaction worker.signed]
  refine ⟨_, rfl, ?_⟩
  simp [isTransactionValid, isTransactionValid.isNonceGapFilled, validateNonceGapGasPrice, isGasPriceValid, target,
    called, nonce]

theorem validateNonceGapFilled_valid (values : List Raw) (expectedNonce : ℕ)
    (expected : ∀ position, ∀ (inside : position < values.length), ∃ transaction,
      validator.fromSerializedData (values[position]) = .ok transaction ∧
        Expected validator request transaction (expectedNonce + position)) :
    ∃ results, validator.validateNonceGapFilled request expectedNonce values = .ok results ∧
      isTransactionValid.isNonceGapFilled results = true := by
  induction values generalizing expectedNonce with
  | nil => exact ⟨[], rfl, rfl⟩
  | cons rawTransaction rest ih =>
      obtain ⟨transaction, parsed, fits⟩ := expected 0 (Nat.zero_lt_succ _)
      obtain ⟨result, judged, valid⟩ := validateTransactionInNonceGap_valid validator request transaction
        expectedNonce fits
      have later : ∀ position, ∀ (inside : position < rest.length), ∃ transaction,
          validator.fromSerializedData (rest[position]) = .ok transaction ∧
            Expected validator request transaction (expectedNonce + 1 + position) := by
        intro position inside
        obtain ⟨other, found, placed⟩ := expected (position + 1) (Nat.succ_lt_succ inside)
        refine ⟨other, found, ?_⟩
        rw [show expectedNonce + 1 + position = expectedNonce + (position + 1) by omega]
        exact placed
      obtain ⟨results, looped, filled⟩ := ih (expectedNonce + 1) later
      refine ⟨result :: results, ?_, (isNonceGapFilled_cons result results).mpr ⟨valid, filled⟩⟩
      rw [List.getElem_cons_zero] at parsed
      rw [validateNonceGapFilled, parsed]
      simp only [bind_ok]
      exact ⟨transaction, rfl, result, judged, results, looped, rfl⟩

theorem accepts_of_answers (returnedTx : Raw) (nonceGapFilled : ObjectMap Raw) (transaction : TypedTransaction)
    (parsed : validator.fromSerializedData returnedTx = .ok transaction)
    (answers : Answers validator request transaction)
    (size : transaction.tx.nonce = request.metadata.relayLastKnownNonce + nonceGapFilled.values.length)
    (expected : ∀ position, ∀ (inside : position < nonceGapFilled.values.length), ∃ other,
      validator.fromSerializedData (nonceGapFilled.values[position]) = .ok other ∧
        Expected validator request other (request.metadata.relayLastKnownNonce + position)) :
    validator.Accepts request returnedTx nonceGapFilled := by
  obtain ⟨results, looped, filled⟩ := validateNonceGapFilled_valid validator request _ _ expected
  have target := (validateTransactionTarget_iff validator transaction).mpr answers.target
  have content : validator.validateTransactionContent request transaction = true :=
    decide_eq_true answers.content.symm
  have fees := isGasPriceValid_of_covers request transaction answers.fees
  have length : ((nonceGapFilled.keys.length : ℕ) : ℤ) =
      (transaction.tx.nonce : ℤ) - request.metadata.relayLastKnownNonce := by
    rw [ObjectMap.values, List.length_map] at size
    rw [ObjectMap.keys, List.length_map]
    omega
  have judged : validator.validateRelayResponse request returnedTx nonceGapFilled =
      .ok (.mk (validateGasPrice request transaction) results true true true true true) := by
    rw [validateRelayResponse]
    simp only [bind_ok]
    refine ⟨transaction, parsed, true, validateTransactionSender_signed request transaction answers.signed, results,
      looped, ?_⟩
    simp only [length, target, content, answers.permitted, decide_true]
  refine ⟨_, judged, ?_⟩
  simp [isTransactionValid, fees, filled]

end RelayedTransactionValidator

/-! Responses of an honest server -/

section Honest

variable {Raw : Type} (validator : RelayedTransactionValidator Raw) (serialize : SignedTransaction → Raw)
  (rawSerializedTx : StoredTransaction → Raw) (config : Config) (hash : SignedTransaction → Uint256)
  (selector : Bytes) (relayHub : Address)

structure Reads : Prop where
  signed : ∀ signed : SignedTransaction, WellFormed signed.tx signed.envelope →
    validator.fromSerializedData (serialize signed) = .ok ⟨signed.tx, signed.envelope, .ok signed.sender⟩
  stored : ∀ tx : StoredTransaction, (∃ envelope, WellFormed tx.txData envelope) →
    ∃ envelope, validator.fromSerializedData (rawSerializedTx tx) = .ok ⟨tx.txData, envelope, .ok tx.sender⟩

structure KnowsHub : Prop where
  relayHubAddress : validator.relayHubAddress = some relayHub
  relayCallSignature : validator.relayCallSignature = selector

def Fills (fromNonce nonce : ℕ) (nonceGapFilled : List (ℕ × StoredTransaction)) : Prop :=
  ∀ missing, fromNonce ≤ missing → missing < nonce →
    ∃ tx, (missing, tx) ∈ nonceGapFilled ∧ tx.recipient = relayHub ∧ selector <+: tx.data

def nonceGap (nonceGapFilled : List (ℕ × StoredTransaction)) : ObjectMap Raw :=
  ObjectMap.ofNumbered (nonceGapFilled.map fun entry => (entry.1, rawSerializedTx entry.2))

abbrev Signable (_sender : Address) (tx : TxData) (_maxFeePerGas : ℕ) : Prop := ∃ envelope, WellFormed tx envelope

theorem envelope_covers (relayData : RelayData) (transactionType : TransactionType) :
    RelayedTransactionValidator.CoversFees relayData
      (envelope config transactionType relayData.maxFeePerGas.val relayData.maxPriorityFeePerGas.val) := by
  cases transactionType with
  | legacy => exact Nat.le_refl _
  | typeTwo => exact ⟨Nat.le_refl _, Nat.le_refl _⟩

theorem fills_numbered (fromNonce nonce : ℕ) (nonceGapFilled : List (ℕ × StoredTransaction))
    (gap : InGap Signable config.workerAddress fromNonce nonce nonceGapFilled)
    (fills : Fills selector relayHub fromNonce nonce nonceGapFilled) :
    nonceGapFilled.map Prod.fst = List.range' fromNonce (nonce - fromNonce) := by
  apply gap.ascending.eq_of_mem_iff List.pairwise_lt_range'
  intro missing
  rw [List.mem_range'_1]
  constructor
  · intro member
    obtain ⟨entry, listed, rfl⟩ := List.mem_map.mp member
    obtain ⟨_, _, above, below, _⟩ := gap.each entry listed
    omega
  · rintro ⟨above, below⟩
    obtain ⟨tx, listed, _⟩ := fills missing above (by omega)
    exact List.mem_map_of_mem listed

theorem nonceGap_values (nonceGapFilled : List (ℕ × StoredTransaction))
    (ascending : (nonceGapFilled.map Prod.fst).Pairwise (· < ·)) :
    (nonceGap rawSerializedTx nonceGapFilled).values = nonceGapFilled.map fun entry => rawSerializedTx entry.2 := by
  rw [nonceGap, ObjectMap.ofNumbered_values, List.map_map]
  · rfl
  · rw [List.map_map]
    exact ascending

theorem fills_expected (reads : Reads validator serialize rawSerializedTx)
    (knows : KnowsHub validator selector relayHub) (request : RelayTransactionRequest)
    (worker : request.relayRequest.relayData.relayWorker = config.workerAddress) (fromNonce nonce : ℕ)
    (nonceGapFilled : List (ℕ × StoredTransaction))
    (gap : InGap Signable config.workerAddress fromNonce nonce nonceGapFilled)
    (fills : Fills selector relayHub fromNonce nonce nonceGapFilled) (position : ℕ)
    (inside : position < (nonceGap rawSerializedTx nonceGapFilled).values.length) :
    ∃ other, validator.fromSerializedData ((nonceGap rawSerializedTx nonceGapFilled).values[position]) = .ok other ∧
      validator.Expected request other (fromNonce + position) := by
  have values := nonceGap_values rawSerializedTx nonceGapFilled gap.ascending
  have within : position < nonceGapFilled.length := by
    rw [values, List.length_map] at inside
    exact inside
  have numbered : ∀ index, ∀ (listed : index < nonceGapFilled.length),
      (nonceGapFilled[index]).1 = fromNonce + index := by
    intro index listed
    have same := fills_numbered config selector relayHub fromNonce nonce nonceGapFilled gap fills
    have placed := congrArg (fun numbers : List ℕ => numbers[index]?) same
    have short := congrArg List.length same
    rw [List.length_map, List.length_range'] at short
    simpa [listed, short ▸ listed] using placed
  obtain ⟨_, _, _, below, _⟩ := gap.each _ (List.getElem_mem within)
  rw [numbered position within] at below
  obtain ⟨tx, member, hub, method⟩ := fills (fromNonce + position) (Nat.le_add_right _ _) below
  obtain ⟨index, listed, entry⟩ := List.mem_iff_getElem.mp member
  have same : index = position := by
    have placed := numbered index listed
    rw [entry] at placed
    exact (Nat.add_left_cancel placed).symm
  subst same
  obtain ⟨nonce_eq, sender, _, _, wellFormed⟩ := gap.each _ member
  obtain ⟨envelope, parsed⟩ := reads.stored tx wellFormed
  refine ⟨⟨tx.txData, envelope, .ok tx.sender⟩, ?_, ⟨?_, ?_⟩, ?_, ?_⟩
  · simp only [values, List.getElem_map, entry]
    exact parsed
  · exact congrArg Except.ok (sender.trans worker.symm)
  · exact ⟨Option.some_ne_none _, (congrArg some hub).trans knows.relayHubAddress.symm⟩
  · rw [knows.relayCallSignature]
    exact method
  · exact nonce_eq.symm

/-- The budget that the client is told and the one that the server signs are the same. -/
theorem content_iff (request : RelayTransactionRequest) (server : RelayServer) (node : NodeView)
    (acceptanceBudget gas : ℕ) (encoded : request.metadata.maxAcceptanceBudget < 2 ^ 256)
    (limits : server.validatePaymasterGasAndDataLimits selector node request = .ok (acceptanceBudget, gas)) :
    encodeABI selector (request.call acceptanceBudget) =
        encodeABI selector (request.call request.metadata.maxAcceptanceBudget) ↔
      request.metadata.maxAcceptanceBudget = acceptanceBudget := by
  obtain ⟨fits, chosen, choice⟩ := validatePaymasterGasAndDataLimits_ok selector server node request _ _ limits
  have small := chooseAcceptanceBudget_lt server node request _ chosen acceptanceBudget fits choice
  rw [encodeABI_budget selector request _ _ small encoded]
  exact eq_comm

/-- The request passed the checks of a server with the worker of this configuration. -/
theorem validateInput_worker (server : RelayServer) (node : NodeView) (request : RelayTransactionRequest)
    (valid : server.validateInput node request = .ok ()) :
    request.relayRequest.relayData.relayWorker = server.workerAddress := by
  simp only [RelayServer.validateInput, bind_ok, throwIf_ok, not_not] at valid
  obtain ⟨_, _, _, worker, _⟩ := valid
  exact worker

theorem response_accepted_iff (reads : Reads validator serialize rawSerializedTx)
    (knows : KnowsHub validator selector relayHub) (seen : Moment → Sight) (request : RelayTransactionRequest)
    (encoded : request.metadata.maxAcceptanceBudget < 2 ^ 256)
    (staffed : (seen .block).server.workerAddress = config.workerAddress)
    (response : SignedTransaction × List (ℕ × StoredTransaction))
    (made : Response config selector relayHub Signable seen request response) :
    ∃ acceptanceBudget gas,
      (seen .limits).server.validatePaymasterGasAndDataLimits selector (seen .limits).node request =
        .ok (acceptanceBudget, gas) ∧
      (validator.Accepts request (serialize response.1) (nonceGap rawSerializedTx response.2) ↔
        request.metadata.maxAcceptanceBudget = acceptanceBudget ∧
        request.metadata.relayLastKnownNonce ≤ response.1.tx.nonce ∧
        response.1.tx.nonce ≤ request.metadata.relayMaxNonce ∧
        Fills selector relayHub request.metadata.relayLastKnownNonce response.1.tx.nonce response.2) := by
  obtain ⟨signed, nonceGapFilled⟩ := response
  obtain ⟨⟨currentBlock, acceptanceBudget, gas, valid, gasLimit, maxFeePerGas, maxPriorityFeePerGas, fee,
    priorityFee, wellFormed, nonce, transactionType, details⟩, gap⟩ := made
  refine ⟨acceptanceBudget, gas, valid.limits, ?_⟩
  obtain rfl := fee _ rfl
  obtain rfl := priorityFee _ rfl
  have worker := (validateInput_worker _ _ request valid.input).trans staffed
  have parsed := reads.signed signed wellFormed
  have budgets := content_iff selector request _ _ acceptanceBudget gas encoded valid.limits
  have entries := ObjectMap.ofNumbered_entries
    (nonceGapFilled.map fun entry => (entry.1, rawSerializedTx entry.2)) (by rw [List.map_map]; exact gap.ascending)
  subst details
  constructor
  · rintro ⟨result, validated, passed⟩
    obtain ⟨transaction, found, answers, filled⟩ :=
      validator.accepted_response_sound request _ _ result validated passed
    obtain rfl := Except.ok.inj (parsed.symm.trans found)
    refine ⟨budgets.mp ?_, answers.known, answers.permitted, ?_⟩
    · rw [← knows.relayCallSignature]
      exact (congrArg (fun signature => encodeABI signature (request.call acceptanceBudget))
        knows.relayCallSignature).trans answers.content
    · intro missing above below
      obtain ⟨entry, ⟨listed, other, read, same⟩, _⟩ := filled.each missing above below
      obtain ⟨transaction, again, fromWorker, method, _⟩ := filled.only entry listed
      obtain rfl := Except.ok.inj (read.symm.trans again)
      rw [nonceGap, entries, List.map_map] at listed
      obtain ⟨numbered, member, rfl⟩ := List.mem_map.mp listed
      obtain ⟨number, _, _, _, signable⟩ := gap.each numbered member
      obtain ⟨envelope, stored⟩ := reads.stored numbered.2 signable
      obtain rfl := Except.ok.inj (stored.symm.trans read)
      refine ⟨numbered.2, ?_, ?_, ?_⟩
      · have key : numbered.1 = missing := number.trans same
        exact key ▸ member
      · exact Option.some.inj (fromWorker.target.2.trans knows.relayHubAddress)
      · rw [← knows.relayCallSignature]
        exact method
  · rintro ⟨same, known, permitted, fills⟩
    have length := congrArg List.length (fills_numbered config selector relayHub _ _ nonceGapFilled gap fills)
    rw [List.length_map, List.length_range'] at length
    apply validator.accepts_of_answers request _ _ _ parsed
    · exact
        { signed := congrArg Except.ok worker.symm
          target := ⟨Option.some_ne_none _, knows.relayHubAddress.symm⟩
          content := (budgets.mpr same).trans (by rw [knows.relayCallSignature])
          known := known
          permitted := permitted
          fees := envelope_covers config request.relayRequest.relayData transactionType }
    · rw [nonceGap_values rawSerializedTx nonceGapFilled gap.ascending, List.length_map, length]
      exact (Nat.add_sub_of_le known).symm
    · intro position inside
      exact fills_expected validator serialize rawSerializedTx config selector relayHub reads knows request worker _ _
        nonceGapFilled gap fills position inside

/-! Every response of a run -/

def answering (task : ℕ) : Duty → Proc State Reply (Option (SignedTransaction × List (ℕ × StoredTransaction)))
  | .relay seen request =>
      Proc.bind (createRelayTransaction config hash selector relayHub task seen request).run fun result =>
        .done result.toOption
  | code => (duty config hash selector relayHub task code).bind fun _ => .done none

def respond (events : List DutyEvent)
    (w : Results State Reply Duty (Option (SignedTransaction × List (ℕ × StoredTransaction)))) :
    Results State Reply Duty (Option (SignedTransaction × List (ℕ × StoredTransaction))) :=
  Results.run (answering config hash selector relayHub) mine restart events w

def opened (transactionType : TransactionType) (mined : Address → ℕ) :
    Results State Reply Duty (Option (SignedTransaction × List (ℕ × StoredTransaction))) :=
  ⟨(initial transactionType mined).state, fun _ => none, []⟩

theorem answering_silent (task : ℕ) (code : Duty) :
    Results.silent (answering config hash selector relayHub task code) =
      duty config hash selector relayHub task code := by
  cases code with
  | relay seen request => exact Proc.bind_bind _ _ _
  | _ => exact (Proc.bind_bind _ _ _).trans (Proc.bind_done _)

def Staffed : Duty → Prop
  | .relay seen request =>
      (seen .block).server.workerAddress = config.workerAddress ∧ request.metadata.maxAcceptanceBudget < 2 ^ 256
  | _ => True

def Answered (code : Duty) (answer : Option (SignedTransaction × List (ℕ × StoredTransaction))) : Prop :=
  ∀ seen request response, code = .relay seen request → answer = some response →
    Response config selector relayHub Signable seen request response

theorem signable_fine (details : SendTransactionDetails) : Fine Signable details :=
  fun _ _ _ _ _ signable => signable

theorem answering_holds (task : ℕ) (code : Duty) :
    (answering config hash selector relayHub task code).Holds (Admits Signable)
      (Answered config selector relayHub code) := by
  have quiet : (duty config hash selector relayHub task code).Holds (Admits Signable) fun _ => True :=
    duty_holds config hash selector relayHub task code (fun _ _ _ _ signable _ => signable)
      (fun _ _ _ _ _ _ _ => signable_fine _) (fun _ => signable_fine _) (fun _ _ _ _ _ => signable_fine _)
  cases code with
  | relay seen request =>
      apply Proc.holds_bind
      apply Proc.holds_weaken _ (createRelayTransaction_maintains config hash selector relayHub task seen request
        fun _ _ _ _ => signable_fine _)
      rintro result known _ _ response ⟨⟩ answer
      cases result with
      | error message => cases answer
      | ok value => exact known response (congrArg Except.ok (Option.some.inj answer))
  | _ =>
      apply Proc.holds_bind
      apply Proc.holds_weaken _ quiet
      exact fun _ _ _ _ _ _ none => nomatch none

end Honest

/-- In any interleaving with other requests, boosts, the manager's transactions, archive passes, reorganizations and
restarts, an honest server's response passes the validation of the client that posted the request exactly if they
agree on the budget, the nonce is in the range of the client, and for each nonce that the client does not know of
the server still had a `relayCall` stored. -/
theorem honest_response_accepted_iff {Raw : Type} (validator : RelayedTransactionValidator Raw)
    (serialize : SignedTransaction → Raw) (rawSerializedTx : StoredTransaction → Raw) (config : Config)
    (hash : SignedTransaction → Uint256) (selector : Bytes) (relayHub : Address)
    (reads : Reads validator serialize rawSerializedTx) (knows : KnowsHub validator selector relayHub)
    (transactionType : TransactionType) (mined : Address → ℕ) (events : List DutyEvent)
    (staffed : ∀ task code, Event.start task code ∈ events → Staffed config code) :
    let w := respond config hash selector relayHub events (opened transactionType mined)
    w.forget = serve config hash selector relayHub events (initial transactionType mined) ∧
    ∀ task seen request response, (task, Duty.relay seen request, some response) ∈ w.returned →
      Event.start task (.relay seen request) ∈ events ∧ ∃ acceptanceBudget gas,
        (seen .limits).server.validatePaymasterGasAndDataLimits selector (seen .limits).node request =
          .ok (acceptanceBudget, gas) ∧
        (validator.Accepts request (serialize response.1) (nonceGap rawSerializedTx response.2) ↔
          request.metadata.maxAcceptanceBudget = acceptanceBudget ∧
          request.metadata.relayLastKnownNonce ≤ response.1.tx.nonce ∧
          response.1.tx.nonce ≤ request.metadata.relayMaxNonce ∧
          Fills selector relayHub request.metadata.relayLastKnownNonce response.1.tx.nonce response.2) := by
  intro w
  constructor
  · have forgotten := Results.run_forget (answering config hash selector relayHub) mine restart events
      (opened transactionType mined) (fun _ _ _ impossible => nomatch impossible)
    simp only [answering_silent] at forgotten
    exact forgotten
  · intro task seen request response returned
    have sound : w.Sound (Admits Signable) fun task code answer =>
        Event.start task code ∈ events ∧ Answered config selector relayHub code answer := by
      apply Results.run_sound
      · exact ⟨initial_admits Signable transactionType mined, fun _ _ _ impossible => (nomatch impossible),
          fun _ impossible => (nomatch impossible)⟩
      · intro task code started
        exact Proc.holds_weaken _ (answering_holds config hash selector relayHub task code)
          fun _ answered => ⟨started, answered⟩
      · exact fun mined s held => ⟨held.unique, held.stored, held.written, held.broadcast⟩
      · exact fun transactionType s held => ⟨held.unique, held.stored, held.written, held.broadcast⟩
    obtain ⟨started, answered⟩ := sound.returned _ returned
    obtain ⟨worker, encoded⟩ := staffed task _ started
    exact ⟨started, response_accepted_iff validator serialize rawSerializedTx config selector relayHub reads knows
      seen request encoded worker response (answered seen request response rfl rfl)⟩

def plainValidator : RelayedTransactionValidator (SignedTransaction ⊕ StoredTransaction) where
  relayHubAddress := some 100
  relayCallSignature := [1, 2, 3, 4]
  fromSerializedData raw :=
    match raw with
    | .inl signed => .ok ⟨signed.tx, signed.envelope, .ok signed.sender⟩
    | .inr tx => .ok ⟨tx.txData, .legacy tx.maxFeePerGas none, .ok tx.sender⟩

def servingSight : Sight := ⟨sampleServer, false, sampleNode⟩

def postedTwice : List DutyEvent :=
  [0, 1].flatMap fun task =>
    .start task (.relay (fun _ => servingSight) servedRequest) ::
      [.block (blockAt 100), .number 0, .done, .done, .done, .done, .done, .number (10 ^ 18), .done, .number 0,
        .done, .done, .done, .done, .done, .done, .done, .done].map (.resume task)

def nonceHash (signed : SignedTransaction) : Uint256 := Fin.ofNat _ signed.tx.nonce

def secondEntry : Option (ℕ × Duty × Option (SignedTransaction × List (ℕ × StoredTransaction))) :=
  (respond servingConfig nonceHash [1, 2, 3, 4] 100 postedTwice (opened .typeTwo fun _ => 0)).returned[1]?

def outline : ℕ × Duty × Option (SignedTransaction × List (ℕ × StoredTransaction)) →
    Option (ℕ × List (ℕ × Address × Bool))
  | (_, .relay _ _, some (signed, nonceGapFilled)) =>
      some (signed.tx.nonce, nonceGapFilled.map fun entry =>
        (entry.1, entry.2.recipient, [1, 2, 3, 4].isPrefixOf entry.2.data))
  | _ => none

theorem postedTwice_start (task : ℕ) (code : Duty) (started : Event.start task code ∈ postedTwice) :
    code = .relay (fun _ => servingSight) servedRequest := by
  simp only [postedTwice, List.flatMap_cons, List.flatMap_nil, List.map_cons, List.map_nil, List.cons_append,
    List.nil_append, List.append_nil, List.mem_cons, Event.start.injEq, reduceCtorEq, false_or, List.not_mem_nil,
    or_false] at started
  exact started.elim And.right And.right

theorem honest_response_accepted_iff_second :
    ∃ task seen response, secondEntry = some (task, .relay seen servedRequest, some response) ∧
      response.1.tx.nonce = 1 ∧
      plainValidator.Accepts servedRequest (.inl response.1) (nonceGap .inr response.2) := by
  have shape : secondEntry.bind outline = some (1, [(0, 100, true)]) := by decide +kernel
  have budgets : (servingSight.server.validatePaymasterGasAndDataLimits [1, 2, 3, 4] servingSight.node
      servedRequest).map Prod.fst = .ok 100000 := by decide +kernel
  cases second : secondEntry with
  | none =>
      rw [second] at shape
      cases shape
  | some entry =>
      rw [second, Option.bind_some] at shape
      obtain ⟨task, code, answer⟩ := entry
      have member := List.mem_of_getElem? second
      unfold outline at shape
      split at shape
      · rename_i same
        cases same
        rename_i seen request signed nonceGapFilled
        obtain ⟨started, acceptanceBudget, gas, limits, accepted⟩ := (honest_response_accepted_iff plainValidator
          .inl .inr servingConfig nonceHash [1, 2, 3, 4] 100 ⟨fun _ _ => rfl, fun _ _ => ⟨_, rfl⟩⟩ ⟨rfl, rfl⟩
          .typeTwo (fun _ => 0) postedTwice fun task code started => by
            rw [postedTwice_start task code started]
            exact ⟨rfl, by decide⟩).2 _ _ _ _ member
        obtain ⟨rfl, rfl⟩ := Duty.relay.inj (postedTwice_start _ _ started)
        simp only [Option.some.injEq, Prod.mk.injEq, List.map_eq_singleton_iff] at shape
        obtain ⟨nonce, ⟨number, tx⟩, rfl, zero, hub, method⟩ := shape
        have budget : acceptanceBudget = 100000 := by
          rw [limits] at budgets
          exact Except.ok.inj budgets
        refine ⟨task, _, _, rfl, nonce, accepted.mpr ⟨budget.symm, Nat.zero_le _, ?_, ?_⟩⟩
        · rw [nonce]
          decide
        · intro missing _ below
          rw [nonce] at below
          obtain rfl := Nat.lt_one_iff.mp below
          exact ⟨tx, zero ▸ List.mem_singleton_self _, hub, List.isPrefixOf_iff_prefix.mp method⟩
      · cases shape

end OpenGsn.Provider
