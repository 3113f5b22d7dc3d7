import OpenGsn.Relay.SignedWork
import OpenGsn.Relay.NonceSafety
import OpenGsn.Relay.AcceptanceBudget

/-! What a server that relays for anyone signs with the key of its worker. -/

namespace OpenGsn.Relay

open Solidity Async

variable (config : Config) (hash : SignedTransaction → Uint256) (selector : Bytes) (relayHub : Address)

/-- The transaction relays the request, and the server found that it will be paid for it. -/
structure Relays (seen : Moment → Sight) (req : RelayTransactionRequest) (tx : TxData) : Prop where
  recipient : tx.recipient = some relayHub
  value : tx.value = 0
  ready : (seen .arrival).server.ready = true
  txType : (seen .arrival).server.validateRequestTxType req = .ok ()
  input : (seen .block).server.validateInput (seen .block).node req = .ok ()
  reputation : (seen .reputation).server.checkReputation (seen .reputation).node
    req.relayRequest.relayData.paymaster req.paymaster = .ok ()
  data : ∃ acceptanceBudget,
    (seen .limits).server.validatePaymasterGasAndDataLimits selector (seen .limits).node req =
      .ok (acceptanceBudget, tx.gasLimit) ∧
    tx.data = encodeABI selector (req.call acceptanceBudget)
  limited : tx.gasLimit ≤ (seen .limits).server.maxGasLimit
  covered : ∃ maxCharge,
    RelayHub.calculateCharge
        { (seen .limits).node.env with gasPrice := req.relayRequest.relayData.maxFeePerGas.val }
        (seen .limits).node.relayHubConfig tx.gasLimit req.relayRequest.relayData = .ok maxCharge ∧
      maxCharge ≤ (seen .limits).node.balanceOf req.relayRequest.relayData.paymaster
  accepted : (seen .viewCall).node.relayCall tx.data tx.gasLimit = .ok true

theorem validatePaymasterGasAndDataLimits_covered (server : RelayServer) (node : NodeView)
    (req : RelayTransactionRequest) (acceptanceBudget gas : ℕ)
    (valid : server.validatePaymasterGasAndDataLimits selector node req = .ok (acceptanceBudget, gas)) :
    gas ≤ server.maxGasLimit ∧
    ∃ maxCharge, RelayHub.calculateCharge { node.env with gasPrice := req.relayRequest.relayData.maxFeePerGas.val }
        node.relayHubConfig gas req.relayRequest.relayData = .ok maxCharge ∧
      maxCharge ≤ node.balanceOf req.relayRequest.relayData.paymaster := by
  simp only [RelayServer.validatePaymasterGasAndDataLimits, bind_ok, throwIf_ok] at valid
  obtain ⟨_, _, _, _, ⟨limits, budget⟩, _, tmpMaxPossibleGas, _, _, limited, valid⟩ := valid
  split at valid
  · cases valid
  · rename_i maxCharge charged
    simp only [bind_ok, throwIf_ok] at valid
    obtain ⟨_, covered, same⟩ := valid
    obtain ⟨rfl, rfl⟩ := Prod.mk.inj (Except.ok.inj same)
    exact ⟨Nat.le_of_not_lt limited, maxCharge, charged, Nat.le_of_not_lt covered⟩

theorem validateViewCallSucceeds_accepted (node : NodeView) (msgData : Bytes) (gas : ℕ) (value : Unit)
    (valid : RelayServer.validateViewCallSucceeds node msgData gas = .ok value) :
    node.relayCall msgData gas = .ok true := by
  unfold RelayServer.validateViewCallSucceeds at valid
  cases answered : node.relayCall msgData gas with
  | error message => simp [answered] at valid
  | ok paymasterAccepted =>
      rw [answered] at valid
      simp only [throwIf_ok, Bool.not_eq_false] at valid
      rw [valid]

theorem validateInput_capped (server : RelayServer) (node : NodeView) (req : RelayTransactionRequest)
    (valid : server.validateInput node req = .ok ()) :
    req.relayRequest.relayData.maxFeePerGas.val ≤ server.config.maxMaxFeePerGas := by
  simp only [RelayServer.validateInput, RelayServer.validateGasFees, bind_ok, throwIf_ok] at valid
  obtain ⟨_, _, _, _, _, ⟨_, _, _, _, _, capped, _⟩, _⟩ := valid
  exact Nat.le_of_not_lt capped

structure Drains (owner : Address) (value : ℕ) (tx : TxData) : Prop where
  recipient : tx.recipient = some owner
  value : tx.value = value
  data : tx.data = []
  gasLimit : tx.gasLimit = 21000

/-- What the worker may sign: calls for requests that were posted, within the limit of the fees, and what
empties its account when the server withdraws. -/
def WorkerSigns (events : List DutyEvent) (sender : Address) (tx : TxData) (maxFeePerGas : ℕ) : Prop :=
  sender = config.workerAddress →
    (maxFeePerGas ≤ config.maxMaxFeePerGas ∧
      ∃ task seen req, Event.start task (.relay seen req) ∈ events ∧ Relays selector relayHub seen req tx) ∨
    ∃ task owner gasPrice value currentBlock,
      Event.start task (.drain owner gasPrice value currentBlock) ∈ events ∧ Drains owner value tx

structure Valid (seen : Moment → Sight) (req : RelayTransactionRequest) (acceptanceBudget gas : ℕ) : Prop where
  ready : (seen .arrival).server.ready = true
  txType : (seen .arrival).server.validateRequestTxType req = .ok ()
  input : (seen .block).server.validateInput (seen .block).node req = .ok ()
  reputation : (seen .reputation).server.checkReputation (seen .reputation).node
    req.relayRequest.relayData.paymaster req.paymaster = .ok ()
  limits : (seen .limits).server.validatePaymasterGasAndDataLimits selector (seen .limits).node req =
    .ok (acceptanceBudget, gas)
  accepted : (seen .viewCall).node.relayCall (encodeABI selector (req.call acceptanceBudget)) gas = .ok true

section Signs

variable (admitted : Address → TxData → ℕ → Prop)

/-- Transactions of the signer with the nonces between the two, at most one for each and in their order. -/
structure InGap (signer : Address) (fromNonce nonce : ℕ) (nonceGapFilled : List (ℕ × StoredTransaction)) :
    Prop where
  each : ∀ entry ∈ nonceGapFilled, entry.1 = entry.2.nonce ∧ entry.2.sender = signer ∧
    fromNonce ≤ entry.1 ∧ entry.1 < nonce ∧ admitted entry.2.sender entry.2.txData entry.2.maxFeePerGas
  ascending : (nonceGapFilled.map Prod.fst).Pairwise (· < ·)

structure Response (seen : Moment → Sight) (req : RelayTransactionRequest)
    (response : SignedTransaction × List (ℕ × StoredTransaction)) : Prop where
  signed : ∃ currentBlock acceptanceBudget gas, Valid selector seen req acceptanceBudget gas ∧
    MadeFor config (relayCallDetails config selector relayHub req currentBlock acceptanceBudget gas) response.1
  gap : InGap admitted config.workerAddress req.metadata.relayLastKnownNonce response.1.tx.nonce response.2

variable {admitted}

theorem getTxsInNonceRange_gap (s : State) (held : Admits admitted s) (signer : Address) (fromNonce toNonce : ℕ) :
    InGap admitted signer fromNonce (toNonce + 1)
      ((s.txstore.getTxsInNonceRange signer fromNonce toNonce).map fun tx => (tx.nonce, tx)) where
  each := by
    intro entry member
    obtain ⟨tx, listed, rfl⟩ := List.mem_map.mp member
    obtain ⟨stored, within⟩ := List.mem_filter.mp ((List.mem_insertionSort _).mp listed)
    obtain ⟨above, below, sender⟩ := of_decide_eq_true within
    exact ⟨rfl, sender, above, Nat.lt_succ_of_le below, held.stored tx stored⟩
  ascending := by
    have sorted := List.pairwise_insertionSort (fun tx1 tx2 : StoredTransaction => tx1.nonce ≤ tx2.nonce)
      (s.txstore.transactions.filter fun tx => fromNonce ≤ tx.nonce ∧ tx.nonce ≤ toNonce ∧ tx.sender = signer)
    have apart : (s.txstore.getTxsInNonceRange signer fromNonce toNonce).Pairwise
        fun tx1 tx2 => tx1.nonce ≠ tx2.nonce := by
      refine (List.Perm.pairwise_iff (fun {_ _} apart => Ne.symm apart) (List.perm_insertionSort _ _)).mpr ?_
      apply List.Pairwise.imp_of_mem _ (held.unique.filter _)
      intro tx1 tx2 first second free same
      have sender1 := (of_decide_eq_true (List.mem_filter.mp first).2).2.2
      have sender2 := (of_decide_eq_true (List.mem_filter.mp second).2).2.2
      exact free (.inr (Prod.ext (sender2.trans sender1.symm) same.symm))
    rw [List.map_map, List.pairwise_map]
    exact (sorted.and apart).imp fun both => Nat.lt_of_le_of_ne both.1 both.2

theorem slowDown_maintains (alerted : Bool) : (slowDown alerted).Maintains (Admits admitted) fun _ => True := by
  unfold slowDown
  split
  · exact ask_maintains _
  · exact Promise.maintains_pure _ trivial

theorem validateRequest_maintains (seen : Moment → Sight) (req : RelayTransactionRequest) :
    (validateRequest config selector seen req).Maintains (Admits admitted)
      fun passed => Valid selector seen req passed.2.1 passed.2.2 := by
  apply Promise.maintains_bind
  apply check_maintains
  intro ready
  apply Promise.maintains_bind
  apply Promise.maintains_ofExcept
  intro _ txType
  apply Promise.maintains_bind
  apply Promise.maintains_weaken _ (slowDown_maintains _)
  intro _ _
  apply Promise.maintains_bind
  apply Promise.maintains_weaken _ (ask_maintains _)
  intro currentBlock _
  apply Promise.maintains_bind
  apply Promise.maintains_ofExcept
  intro _ input
  apply Promise.maintains_bind
  apply Promise.maintains_weaken _ (validateMaxNonce_maintains config _)
  intro _ _
  apply Promise.maintains_bind
  apply Promise.maintains_weaken _ (awaited_maintains _)
  intro _ reputation
  apply Promise.maintains_bind
  apply Promise.maintains_weaken _ (awaited_maintains _)
  intro limits limited
  apply Promise.maintains_bind
  apply Promise.maintains_weaken _ (awaited_maintains _)
  intro _ viewed
  apply Promise.maintains_pure
  exact ⟨ready, txType, input, reputation, limited, validateViewCallSucceeds_accepted _ _ _ _ viewed⟩

theorem getNonceGapFilled_maintains (signer : Address) (fromNonce nonce : ℕ) :
    (getNonceGapFilled signer fromNonce nonce).Maintains (Admits admitted) (InGap admitted signer fromNonce nonce) := by
  apply readStore_maintains
  intro s held
  cases nonce with
  | zero => exact ⟨by simp, List.Pairwise.nil⟩
  | succ toNonce => exact getTxsInNonceRange_gap s held signer fromNonce toNonce

theorem createRelayTransaction_maintains (task : ℕ) (seen : Moment → Sight) (req : RelayTransactionRequest)
    (fine : ∀ currentBlock acceptanceBudget gas, Valid selector seen req acceptanceBudget gas →
      Fine admitted (relayCallDetails config selector relayHub req currentBlock acceptanceBudget gas)) :
    (createRelayTransaction config hash selector relayHub task seen req).Maintains (Admits admitted)
      (Response config selector relayHub admitted seen req) := by
  apply Promise.maintains_bind
  apply Promise.maintains_weaken _ (validateRequest_maintains config selector seen req)
  intro passed valid
  apply Promise.maintains_bind
  apply Promise.maintains_weaken _ (ask_maintains _)
  intro _ _
  apply Promise.maintains_bind
  apply Promise.maintains_weaken _ (sendTransaction_maintains config hash task _ (fine _ _ _ valid))
  intro signed made
  apply Promise.maintains_bind
  apply Promise.maintains_weaken _ (getNonceGapFilled_maintains _ _ _)
  intro nonceGapFilled inGap
  apply Promise.maintains_bind
  apply Promise.maintains_weaken _ (ask_maintains _)
  intro _ _
  exact Promise.maintains_pure _ ⟨⟨_, _, _, valid, made⟩, inGap⟩

end Signs

theorem relayCallDetails_fine (events : List DutyEvent) (task : ℕ) (seen : Moment → Sight)
    (req : RelayTransactionRequest) (posted : Event.start task (.relay seen req) ∈ events)
    (capped : (seen .block).server.config.maxMaxFeePerGas = config.maxMaxFeePerGas) (currentBlock : ShortBlockInfo)
    (acceptanceBudget gas : ℕ) (valid : Valid selector seen req acceptanceBudget gas) :
    Fine (WorkerSigns config selector relayHub events)
      (relayCallDetails config selector relayHub req currentBlock acceptanceBudget gas) := by
  intro nonce gasLimit maxFeePerGas limit fee _ _
  obtain rfl := limit gas rfl
  obtain rfl := fee _ rfl
  obtain ⟨limited, covered⟩ := validatePaymasterGasAndDataLimits_covered selector _ _ req _ _ valid.limits
  refine .inl ⟨capped ▸ validateInput_capped _ _ req valid.input, task, seen, req, posted, ?_⟩
  exact
    { recipient := rfl
      value := rfl
      ready := valid.ready
      txType := valid.txType
      input := valid.input
      reputation := valid.reputation
      data := ⟨acceptanceBudget, valid.limits, rfl⟩
      limited := limited
      covered := covered
      accepted := valid.accepted }

theorem drainDetails_fine (events : List DutyEvent) (task : ℕ) (owner : Address) (gasPrice value : ℕ)
    (currentBlock : ShortBlockInfo)
    (started : Event.start task (.drain owner gasPrice value currentBlock) ∈ events) :
    Fine (WorkerSigns config selector relayHub events) (drainDetails config owner gasPrice value currentBlock) := by
  intro nonce gasLimit maxFeePerGas limit _ _ _
  obtain rfl := limit 21000 rfl
  exact .inr ⟨task, owner, gasPrice, value, currentBlock, started, rfl, rfl, rfl, rfl⟩

theorem workerSigns_lowered (events : List DutyEvent) (sender : Address) (tx : TxData) (fee newFee : ℕ)
    (signs : WorkerSigns config selector relayHub events sender tx fee)
    (capped : newFee ≤ config.maxMaxFeePerGas) : WorkerSigns config selector relayHub events sender tx newFee :=
  fun worker => (signs worker).imp_left fun relays => ⟨capped, relays.2⟩

def Duty.Configured : Duty → Prop
  | .relay seen _ => (seen .block).server.config.maxMaxFeePerGas = config.maxMaxFeePerGas
  | _ => True

theorem ended_holds {α : Type} {inv : State → Prop} {post : α → Prop} (promise : Promise α)
    (maintains : promise.Maintains inv post) :
    (ended promise).Holds inv fun _ => True := by
  apply Proc.holds_bind
  exact Proc.holds_weaken _ maintains fun _ _ => trivial

theorem duty_holds {admitted : Address → TxData → ℕ → Prop} (task : ℕ) (code : Duty)
    (lowered : ∀ sender tx fee newFee, admitted sender tx fee → newFee ≤ config.maxMaxFeePerGas →
      admitted sender tx newFee)
    (relayed : ∀ seen req, code = .relay seen req → ∀ currentBlock acceptanceBudget gas,
      Valid selector seen req acceptanceBudget gas →
        Fine admitted (relayCallDetails config selector relayHub req currentBlock acceptanceBudget gas))
    (managed : ∀ details : SendTransactionDetails, Fine admitted { details with signer := config.managerAddress })
    (drained : ∀ owner gasPrice value currentBlock, code = .drain owner gasPrice value currentBlock →
      Fine admitted (drainDetails config owner gasPrice value currentBlock)) :
    (duty config hash selector relayHub task code).Holds (Admits admitted) fun _ => True := by
  cases code with
  | relay seen req =>
      exact ended_holds _ (createRelayTransaction_maintains config hash selector relayHub task seen req
        (relayed seen req rfl))
  | manage details => exact ended_holds _ (sendTransaction_maintains config hash task _ (managed details))
  | drain owner gasPrice value currentBlock =>
      exact ended_holds _ (sendTransaction_maintains config hash task _ (drained owner gasPrice value currentBlock rfl))
  | boost signer currentBlock minMaxPriorityFee =>
      exact ended_holds _ (boost_maintains config hash lowered signer currentBlock minMaxPriorityFee)
  | archive currentBlock => exact ended_holds _ (archive_maintains config currentBlock)

theorem initial_admits (admitted : Address → TxData → ℕ → Prop) (transactionType : TransactionType)
    (mined : Address → ℕ) : Admits admitted (initial transactionType mined).state := by
  refine ⟨List.Pairwise.nil, ?_, ?_, ?_⟩ <;> simp [initial]

theorem serve_admits (distinct : config.managerAddress ≠ config.workerAddress) (transactionType : TransactionType)
    (mined : Address → ℕ) (events : List DutyEvent)
    (configured : ∀ task code, Event.start task code ∈ events → code.Configured config) :
    Admits (WorkerSigns config selector relayHub events)
      (serve config hash selector relayHub events (initial transactionType mined)).state := by
  apply run_holds
  · intro task code started
    apply duty_holds
    · exact workerSigns_lowered config selector relayHub events
    · rintro seen req rfl currentBlock acceptanceBudget gas valid
      exact relayCallDetails_fine config selector relayHub events task seen req started
        (configured task _ started) currentBlock acceptanceBudget gas valid
    · exact fun _ _ _ _ _ _ _ worker => absurd worker distinct
    · rintro owner gasPrice value currentBlock rfl
      exact drainDetails_fine config selector relayHub events task owner gasPrice value currentBlock started
  · exact fun mined s held => ⟨held.unique, held.stored, held.written, held.broadcast⟩
  · exact fun transactionType s held => ⟨held.unique, held.stored, held.written, held.broadcast⟩
  · exact initial_admits _ transactionType mined
  · exact fun _ => trivial

/-- Whatever requests are posted, in any interleaving with boosts, the manager's own transactions, reorganizations
and restarts: all that the worker's key ever signs for is calls of `relayCall` on the hub for requests that the
server found valid, simulated with the very data and gas limit with success, and paid for by the paymaster's
balance, of which no boost takes the fee beyond the limit, and transfers to the owner of a server that
withdraws. -/
theorem worker_signs_accepted_only (distinct : config.managerAddress ≠ config.workerAddress)
    (transactionType : TransactionType) (mined : Address → ℕ) (events : List DutyEvent)
    (configured : ∀ task code, Event.start task code ∈ events → code.Configured config) :
    let s := (serve config hash selector relayHub events (initial transactionType mined)).state
    ∀ signed ∈ s.broadcasts, signed.sender = config.workerAddress →
      ((gasPrices signed.envelope).1 ≤ config.maxMaxFeePerGas ∧
        ∃ task seen req, Event.start task (.relay seen req) ∈ events ∧
          Relays selector relayHub seen req signed.tx) ∨
      ∃ task owner gasPrice value currentBlock,
        Event.start task (.drain owner gasPrice value currentBlock) ∈ events ∧ Drains owner value signed.tx := by
  intro s signed sent worker
  exact (serve_admits config hash selector relayHub distinct transactionType mined events
    configured).broadcast signed sent worker

def servedRequest : RelayTransactionRequest where
  relayRequest := ⟨⟨2, 3, 0, 100000, 0, [1, 2, 3, 4], 2000⟩, ⟨30, 2, 5444, 7, 10, 6, [], 1⟩⟩
  paymaster := samplePaymaster
  metadata := ⟨[0x47], 100000, samplePaymaster, fullSignature, [], 3, 0⟩

def servingConfig : Config := { sampleConfig with workerAddress := 7, maxMaxFeePerGas := 10 ^ 12 }

def servedEvents : List DutyEvent :=
  .start 0 (.relay (fun _ => ⟨sampleServer, false, sampleNode⟩) servedRequest) ::
    [.block (blockAt 100), .number 0, .done, .done, .done, .done, .done, .number (10 ^ 18), .done, .number 0,
      .done, .done, .done, .done, .done, .done, .done, .done].map (.resume 0) ++
  .start 1 (.boost 7 (blockAt 110) 1) ::
    [.number 0, .done, .number 11, .number (10 ^ 18), .done, .done, .done, .number 0, .done].map (.resume 1)

theorem served_duties (task : ℕ) (code : Duty) (started : Event.start task code ∈ servedEvents) :
    code = .relay (fun _ => ⟨sampleServer, false, sampleNode⟩) servedRequest ∨ code = .boost 7 (blockAt 110) 1 := by
  simp only [servedEvents, List.map_cons, List.map_nil, List.cons_append, List.nil_append, List.mem_cons,
    Event.start.injEq, reduceCtorEq, false_or, List.not_mem_nil, or_false] at started
  exact started.imp And.right And.right

theorem worker_signs_accepted_only_boosted :
    let s := (serve servingConfig sampleHash [1, 2, 3, 4] 100 servedEvents (initial .typeTwo fun _ => 0)).state
    s.broadcasts.length = 2 ∧ ∀ signed ∈ s.broadcasts, signed.sender = 7 →
      ((gasPrices signed.envelope).1 ≤ 10 ^ 12 ∧
        ∃ task seen req, Event.start task (.relay seen req) ∈ servedEvents ∧
          Relays [1, 2, 3, 4] 100 seen req signed.tx) ∨
      ∃ task owner gasPrice value currentBlock,
        Event.start task (.drain owner gasPrice value currentBlock) ∈ servedEvents ∧
          Drains owner value signed.tx := by
  refine ⟨by decide +kernel, ?_⟩
  refine worker_signs_accepted_only servingConfig sampleHash [1, 2, 3, 4] 100 (by decide) .typeTwo (fun _ => 0)
    servedEvents ?_
  intro task code started
  rcases served_duties task code started with rfl | rfl
  · exact rfl
  · trivial

end OpenGsn.Relay
