import OpenGsn.Relay.RelayServer

/-! The budget that a client is told by a ping, and the one that the server signs. -/

namespace OpenGsn.Relay

open Solidity
open RelayHub (GasAndDataLimits RelayHubConfig)

structure RelayClient where
  environment : Environment
  checksummed : AddressText → Bool
  paymaster : AddressText
  relayHubAddress : AddressText
  domainSeparatorName : Bytes
  sizes : VariableFieldSizes
  maxRelayNonceGap : ℕ
  sign : RelayRequest → Bytes
  asyncApprovalData : RelayRequest → Bytes

namespace RelayClient

variable (selector : Bytes) (client : RelayClient)

/-- `fillRelayInfo` and `_prepareRelayHttpRequest`, for the paymaster that was pinged with -/
def prepareRelayHttpRequest (account : Address) (ping : RelayServer.PingResponse) (relayRequest : RelayRequest)
    (relayLastKnownNonce : ℕ) : Except String RelayTransactionRequest := do
  let served := { relayRequest with relayData := { relayRequest.relayData with paymaster := account } }
  let filled := fillRelayInfo client.environment selector client.domainSeparatorName client.sizes
    ping.relayWorkerAddress served
  let approvalData := client.asyncApprovalData filled
  throwIf (client.sizes.maxPaymasterDataLength < filled.relayData.paymasterData.length)
    "actual paymasterData larger than maxPaymasterDataLength"
  throwIf (client.sizes.maxApprovalDataLength < approvalData.length)
    "actual approvalData larger than maxApprovalDataLength"
  return {
    relayRequest := filled
    paymaster := client.paymaster
    metadata := {
      domainSeparatorName := client.domainSeparatorName
      maxAcceptanceBudget := ping.maxAcceptanceBudget
      relayHubAddress := client.relayHubAddress
      signature := client.sign filled
      approvalData := approvalData
      relayMaxNonce := relayLastKnownNonce + client.maxRelayNonceGap
      relayLastKnownNonce := relayLastKnownNonce } }

end RelayClient

/-- `_validateTransactionContent` of `RelayedTransactionValidator.ts` -/
def validateTransactionContent (selector : Bytes) (req : RelayTransactionRequest) (data : Bytes) : Bool :=
  encodeABI selector (req.call req.metadata.maxAcceptanceBudget) = data

/-- A ping, the request that is built from its response, and the call data that the server signs. -/
def relayThrough (selector : Bytes) (server : RelayServer) (pinged node : NodeView) (client : RelayClient)
    (relayRequest : RelayRequest) (relayLastKnownNonce : ℕ) :
    Except String (RelayTransactionRequest × Bytes) :=
  match parseAddress client.checksummed client.paymaster with
  | none => .error "invalid address"
  | some account => do
      let ping ← server.pingHandler pinged account client.paymaster
      let req ← client.prepareRelayHttpRequest selector account ping relayRequest relayLastKnownNonce
      let data ← server.createRelayTransaction selector node req
      return (req, data)

/-! The budget is one word of the call data. -/

theorem encodeABI_budget (selector : Bytes) (req : RelayTransactionRequest) (first second : ℕ)
    (firstWord : first < 2 ^ 256) (secondWord : second < 2 ^ 256) :
    encodeABI selector (req.call first) = encodeABI selector (req.call second) ↔ first = second := by
  constructor
  · intro same
    simp only [encodeABI, encodeTuple, RelayTransactionRequest.call, encodeHeads, Part.headLength, List.map_cons,
      word_length, List.append_assoc, List.append_cancel_left_eq] at same
    exact word_injective first second firstWord secondWord (List.append_inj_left same (by simp))
  · intro same
    rw [same]

/-! Which budget the server signs -/

variable (selector : Bytes) (server : RelayServer) (node : NodeView)

def firstEncoding (req : RelayTransactionRequest) : Bytes :=
  encodeABI selector (req.call server.config.maxAcceptanceBudget)

theorem validatePaymasterGasAndDataLimits_ok (req : RelayTransactionRequest) (acceptanceBudget gas : ℕ)
    (validated : server.validatePaymasterGasAndDataLimits selector node req = .ok (acceptanceBudget, gas)) :
    server.config.maxAcceptanceBudget < 2 ^ 256 ∧
      ∃ limits, server.chooseAcceptanceBudget node req (firstEncoding selector server req) =
        .ok (limits, acceptanceBudget) := by
  simp only [RelayServer.validatePaymasterGasAndDataLimits, bind_ok, throwIf_ok] at validated
  obtain ⟨_, fits, _, _, ⟨limits, chosen⟩, choice, _, _, _, _, charged⟩ := validated
  split at charged
  · cases charged
  · simp only [bind_ok, pure_ok, Prod.mk.injEq] at charged
    obtain ⟨_, _, rfl, _⟩ := charged
    exact ⟨Nat.lt_of_not_le fits, limits, choice⟩

theorem createRelayTransaction_ok (req : RelayTransactionRequest) (data : Bytes)
    (accepted : server.createRelayTransaction selector node req = .ok data) :
    ∃ acceptanceBudget gas,
      server.validatePaymasterGasAndDataLimits selector node req = .ok (acceptanceBudget, gas) ∧
      data = encodeABI selector (req.call acceptanceBudget) := by
  simp only [RelayServer.createRelayTransaction, bind_ok, pure_ok] at accepted
  obtain ⟨_, _, _, _, _, _, _, _, _, _, ⟨acceptanceBudget, gas⟩, validated, _, _, signed⟩ := accepted
  exact ⟨acceptanceBudget, gas, validated, signed.symm⟩

theorem chooseAcceptanceBudget_found (req : RelayTransactionRequest) (msgData : Bytes)
    (cached limits : GasAndDataLimits) (acceptanceBudget : ℕ)
    (found : server.trustedPaymasters.get req.paymaster = some cached)
    (choice : server.chooseAcceptanceBudget node req msgData = .ok (limits, acceptanceBudget)) :
    acceptanceBudget = cached.acceptanceBudget.val := by
  simp only [RelayServer.chooseAcceptanceBudget, found, bind_ok, toNumber_ok, pure_ok, Prod.mk.injEq] at choice
  obtain ⟨_, ⟨_, rfl⟩, _, rfl⟩ := choice
  rfl

theorem chooseAcceptanceBudget_fetched (req : RelayTransactionRequest) (msgData : Bytes)
    (limits : GasAndDataLimits) (acceptanceBudget : ℕ)
    (absent : server.trustedPaymasters.get req.paymaster = none)
    (choice : server.chooseAcceptanceBudget node req msgData = .ok (limits, acceptanceBudget)) :
    node.getGasAndDataLimits req.relayRequest.relayData.paymaster = .ok limits ∧
      if server.config.maxAcceptanceBudget < server.effectiveAcceptanceBudget msgData limits then
        server.isTrustedPaymaster req.paymaster = true ∧ acceptanceBudget = limits.acceptanceBudget.val
      else acceptanceBudget = server.config.maxAcceptanceBudget := by
  simp only [RelayServer.chooseAcceptanceBudget, absent] at choice
  cases fetched : node.getGasAndDataLimits req.relayRequest.relayData.paymaster with
  | error failure =>
      rw [fetched] at choice
      cases choice
  | ok fetchedLimits =>
      rw [fetched] at choice
      simp only [bind_ok, toNumber_ok] at choice
      obtain ⟨_, ⟨_, rfl⟩, choice⟩ := choice
      split at choice
      next large =>
        simp only [bind_ok, throwIf_ok, pure_ok, Prod.mk.injEq, Bool.not_eq_false] at choice
        obtain ⟨_, trusted, rfl, rfl⟩ := choice
        rw [if_pos large]
        exact ⟨rfl, trusted, rfl⟩
      next small =>
        simp only [pure_ok, Prod.mk.injEq] at choice
        obtain ⟨rfl, rfl⟩ := choice
        rw [if_neg small]
        exact ⟨rfl, rfl⟩

theorem getPaymasterMaxAcceptanceBudget_lt (paymaster : AddressText)
    (fits : server.config.maxAcceptanceBudget < 2 ^ 256) :
    server.getPaymasterMaxAcceptanceBudget paymaster < 2 ^ 256 := by
  unfold RelayServer.getPaymasterMaxAcceptanceBudget
  split
  next limits _ => exact limits.acceptanceBudget.isLt
  next => exact fits

theorem chooseAcceptanceBudget_lt (req : RelayTransactionRequest) (msgData : Bytes)
    (limits : GasAndDataLimits) (acceptanceBudget : ℕ) (fits : server.config.maxAcceptanceBudget < 2 ^ 256)
    (choice : server.chooseAcceptanceBudget node req msgData = .ok (limits, acceptanceBudget)) :
    acceptanceBudget < 2 ^ 256 := by
  cases found : server.trustedPaymasters.get req.paymaster with
  | some cached =>
      rw [chooseAcceptanceBudget_found server node req msgData cached limits acceptanceBudget found choice]
      exact cached.acceptanceBudget.isLt
  | none =>
      have signed :=
        (chooseAcceptanceBudget_fetched server node req msgData limits acceptanceBudget found choice).2
      split at signed
      next => exact signed.2 ▸ limits.acceptanceBudget.isLt
      next => exact signed ▸ fits

/-- A trusted paymaster is found again under the text of the request, or the budget that is chosen
for it as if it were not there is the cached one. -/
def BudgetsAgree (req : RelayTransactionRequest) : Prop :=
  ∀ cached, server.trustedPaymasters.get (toLowerCase req.paymaster) = some cached →
    toLowerCase req.paymaster = req.paymaster ∨
      ∃ limits, node.getGasAndDataLimits req.relayRequest.relayData.paymaster = .ok limits ∧
        if server.config.maxAcceptanceBudget <
            server.effectiveAcceptanceBudget (firstEncoding selector server req) limits then
          limits.acceptanceBudget = cached.acceptanceBudget
        else server.config.maxAcceptanceBudget = cached.acceptanceBudget.val

theorem budget_agrees_iff (req : RelayTransactionRequest) (limits : GasAndDataLimits) (acceptanceBudget : ℕ)
    (choice : server.chooseAcceptanceBudget node req (firstEncoding selector server req) =
      .ok (limits, acceptanceBudget)) :
    acceptanceBudget = server.getPaymasterMaxAcceptanceBudget req.paymaster ↔
      BudgetsAgree selector server node req := by
  cases found : server.trustedPaymasters.get req.paymaster with
  | some cached =>
      have written := server.trustedPaymasters.get_lowerCase req.paymaster cached found
      have signed := chooseAcceptanceBudget_found server node req _ cached limits acceptanceBudget found choice
      have advertised : server.getPaymasterMaxAcceptanceBudget req.paymaster = cached.acceptanceBudget.val := by
        simp only [RelayServer.getPaymasterMaxAcceptanceBudget, written, found]
      exact iff_of_true (signed.trans advertised.symm) (fun _ _ => Or.inl written)
  | none =>
      obtain ⟨fetched, signed⟩ :=
        chooseAcceptanceBudget_fetched server node req _ limits acceptanceBudget found choice
      cases trusted : server.trustedPaymasters.get (toLowerCase req.paymaster) with
      | none =>
          have small : ¬ server.config.maxAcceptanceBudget <
              server.effectiveAcceptanceBudget (firstEncoding selector server req) limits := by
            intro large
            rw [if_pos large] at signed
            simp [RelayServer.isTrustedPaymaster, trusted] at signed
          rw [if_neg small] at signed
          have advertised : server.getPaymasterMaxAcceptanceBudget req.paymaster =
              server.config.maxAcceptanceBudget := by
            simp only [RelayServer.getPaymasterMaxAcceptanceBudget, trusted]
          apply iff_of_true (signed.trans advertised.symm)
          intro cached present
          rw [trusted] at present
          cases present
      | some cached =>
          have otherwise : toLowerCase req.paymaster ≠ req.paymaster := by
            intro written
            rw [written, found] at trusted
            cases trusted
          have advertised : server.getPaymasterMaxAcceptanceBudget req.paymaster =
              cached.acceptanceBudget.val := by
            simp only [RelayServer.getPaymasterMaxAcceptanceBudget, trusted]
          have agree : BudgetsAgree selector server node req ↔
              if server.config.maxAcceptanceBudget <
                  server.effectiveAcceptanceBudget (firstEncoding selector server req) limits then
                limits.acceptanceBudget = cached.acceptanceBudget
              else server.config.maxAcceptanceBudget = cached.acceptanceBudget.val := by
            simp [BudgetsAgree, trusted, otherwise, fetched]
          rw [advertised, agree]
          split at signed
          next large =>
            rw [if_pos large, signed.2, Fin.val_inj]
          next small =>
            rw [if_neg small, signed]

theorem relayThrough_ok (pinged : NodeView) (client : RelayClient) (relayRequest : RelayRequest)
    (relayLastKnownNonce : ℕ) (req : RelayTransactionRequest) (data : Bytes)
    (relayed : relayThrough selector server pinged node client relayRequest relayLastKnownNonce =
      .ok (req, data)) :
    req.metadata.maxAcceptanceBudget = server.getPaymasterMaxAcceptanceBudget req.paymaster ∧
      server.createRelayTransaction selector node req = .ok data := by
  unfold relayThrough at relayed
  split at relayed
  · cases relayed
  · simp only [RelayServer.pingHandler, RelayClient.prepareRelayHttpRequest, bind_ok, pure_ok,
      Prod.mk.injEq] at relayed
    obtain ⟨_, ⟨_, _, rfl⟩, _, ⟨_, _, _, _, rfl⟩, _, signed, rfl, rfl⟩ := relayed
    exact ⟨rfl, signed⟩

/-- A client accepts what is signed for its request exactly if the budgets agree. -/
theorem relayed_calldata_accepted_iff (pinged : NodeView) (client : RelayClient) (relayRequest : RelayRequest)
    (relayLastKnownNonce : ℕ) (req : RelayTransactionRequest) (data : Bytes)
    (relayed : relayThrough selector server pinged node client relayRequest relayLastKnownNonce =
      .ok (req, data)) :
    validateTransactionContent selector req data = true ↔ BudgetsAgree selector server node req := by
  obtain ⟨advertised, accepted⟩ :=
    relayThrough_ok selector server node pinged client relayRequest relayLastKnownNonce req data relayed
  obtain ⟨acceptanceBudget, gas, validated, rfl⟩ :=
    createRelayTransaction_ok selector server node req data accepted
  obtain ⟨fits, limits, choice⟩ :=
    validatePaymasterGasAndDataLimits_ok selector server node req acceptanceBudget gas validated
  have signedWord := chooseAcceptanceBudget_lt server node req _ limits acceptanceBudget fits choice
  have advertisedWord := getPaymasterMaxAcceptanceBudget_lt server req.paymaster fits
  rw [← budget_agrees_iff selector server node req limits acceptanceBudget choice, validateTransactionContent,
    advertised, decide_eq_true_iff, encodeABI_budget selector req _ _ advertisedWord signedWord]
  exact eq_comm

def samplePaymaster : AddressText := '0' :: 'x' :: List.replicate 39 '0' ++ ['a']

def sampleLimits : GasAndDataLimits := ⟨100000, 50000, 50000, 10404⟩

def sampleNode : NodeView where
  env := sampleEnv
  relayHubConfig := ⟨10, 100000, 38938, 50516, 1000, 7, 0, 0, 70⟩
  getGasAndDataLimits := fun _ => .ok sampleLimits
  balanceOf := fun _ => 10 ^ 18
  relayCall := fun _ _ => .ok true
  pollNonce := 0
  getPaymasterStatus := fun _ => .good
  secondsNow := 1000

def sampleServer : RelayServer where
  config := ⟨['u'], 285252, 10 ^ 12, 10, true, [], [], [], []⟩
  environment := ethereumMainnet
  gasOverhead := 50516
  relayHubAddress := samplePaymaster
  workerAddress := 7
  ready := true
  legacyTransactions := false
  minMaxPriorityFeePerGas := 1
  minMaxFeePerGas := 1
  maxGasLimit := 10 ^ 7
  trustedPaymasters := TrustedPaymasters.empty.set samplePaymaster sampleLimits

def sampleClient (paymaster : AddressText) : RelayClient where
  environment := ethereumMainnet
  checksummed := fun _ => true
  paymaster := paymaster
  relayHubAddress := samplePaymaster
  domainSeparatorName := [0x47]
  sizes := ⟨0, 0⟩
  maxRelayNonceGap := 3
  sign := fun _ => fullSignature
  asyncApprovalData := fun _ => []

def sampleRelayRequest : RelayRequest := ⟨⟨2, 3, 0, 100000, 0, [1, 2, 3, 4], 2000⟩, ⟨30, 2, 0, 0, 0, 6, [], 1⟩⟩

def sampleRun (paymaster : AddressText) : Except String (RelayTransactionRequest × Bytes) :=
  relayThrough [1, 2, 3, 4] sampleServer sampleNode sampleNode (sampleClient paymaster) sampleRelayRequest 0

theorem relayed_calldata_accepted_iff_sample :
    ∃ req data, sampleRun samplePaymaster = .ok (req, data) ∧
      (validateTransactionContent [1, 2, 3, 4] req data = true ↔
        BudgetsAgree [1, 2, 3, 4] sampleServer sampleNode req) := by
  have relayed : (sampleRun samplePaymaster).isOk = true := by decide +kernel
  cases result : sampleRun samplePaymaster with
  | error message =>
      rw [result] at relayed
      cases relayed
  | ok pair =>
      exact ⟨pair.1, pair.2, rfl, relayed_calldata_accepted_iff [1, 2, 3, 4] sampleServer sampleNode sampleNode
        (sampleClient samplePaymaster) sampleRelayRequest 0 pair.1 pair.2 result⟩

/-- The same paymaster with its letter in upper case is served, and refused by its client. -/
theorem upper_case_paymaster_refused :
    ((sampleRun (samplePaymaster.map Char.toUpper |>.set 1 'x')).map fun (req, data) =>
      validateTransactionContent [1, 2, 3, 4] req data) = .ok false := by
  decide +kernel

end OpenGsn.Relay
