import OpenGsn.Paymasters.HubDeposit
import OpenGsn.Paymasters.TokenConfig

/-! What the payer of a relayed call pays in tokens. -/

namespace OpenGsn.Paymasters

open Solidity Reentry RelayHub

/-! Less gas costs less -/

theorem checkedMul_mono (a b c d product : ℕ) (first : a ≤ c) (second : b ≤ d)
    (made : checkedMul 256 c d = .ok product) :
    checkedMul 256 a b = .ok (a * b) ∧ a * b ≤ product := by
  rw [checkedMul_ok] at made ⊢
  have smaller := Nat.mul_le_mul first second
  omega

theorem checkedDiv_mono (a b divisor quotient : ℕ) (smaller : a ≤ b)
    (made : checkedDiv b divisor = .ok quotient) :
    ∃ less, checkedDiv a divisor = .ok less ∧ less ≤ quotient := by
  unfold checkedDiv at made ⊢
  split at made
  · cases made
  · rename_i nonzero
    cases made
    exact ⟨a / divisor, if_neg nonzero, Nat.div_le_div_right smaller⟩

variable (env : Env) (relayData : RelayData)

theorem calculateCharge_mono (config : RelayHubConfig) (less more charge : ℕ) (smaller : less ≤ more)
    (charged : calculateCharge env config more relayData = .ok charge) :
    ∃ part, calculateCharge env config less relayData = .ok part ∧ part ≤ charge := by
  simp only [calculateCharge, bind_ok] at charged ⊢
  obtain ⟨sum, summed, price, priced, percent, shared, scaled, multiplied, added⟩ := charged
  obtain ⟨lessPriced, lessPrice⟩ := checkedMul_mono _ _ _ _ price smaller (Nat.le_refl _) priced
  obtain ⟨lessMultiplied, lessScaled⟩ := checkedMul_mono _ _ _ _ scaled lessPrice (Nat.le_refl percent) multiplied
  have divided := Nat.div_le_div_right (c := 100) lessScaled
  rw [checkedAdd_ok] at added
  refine ⟨_, ⟨sum, summed, _, lessPriced, percent, shared, _, lessMultiplied,
    (checkedAdd_ok _ _ _ _).mpr ⟨?_, rfl⟩⟩, ?_⟩
  · omega
  · omega

theorem weiToToken_mono (less more quote inTokens : ℕ) (smaller : less ≤ more)
    (converted : weiToToken more quote = .ok inTokens) :
    ∃ part, weiToToken less quote = .ok part ∧ part ≤ inTokens := by
  simp only [weiToToken, bind_ok] at converted ⊢
  obtain ⟨scaled, multiplied, divided⟩ := converted
  obtain ⟨lessMultiplied, lessScaled⟩ := checkedMul_mono _ _ _ _ scaled smaller (Nat.le_refl _) multiplied
  obtain ⟨part, lessDivided, within⟩ := checkedDiv_mono _ _ quote inTokens lessScaled divided
  exact ⟨part, ⟨_, lessMultiplied, lessDivided⟩, within⟩

theorem addPaymasterFee_mono (less more charge : ℕ) (p q : PermitPaymaster) (smaller : less ≤ more)
    (fee : p.paymasterFee ≤ q.paymasterFee) (charged : addPaymasterFee more q = .ok charge) :
    ∃ part, addPaymasterFee less p = .ok part ∧ part ≤ charge := by
  have lower : p.paymasterFee.val ≤ q.paymasterFee.val := fee
  simp only [addPaymasterFee, bind_ok, checkedAdd_ok] at charged ⊢
  obtain ⟨_, ⟨fits, rfl⟩, scaled, multiplied, divided⟩ := charged
  obtain ⟨lessMultiplied, lessScaled⟩ :=
    checkedMul_mono _ _ _ _ scaled smaller (Nat.add_le_add_left lower 100) multiplied
  obtain ⟨part, lessDivided, within⟩ := checkedDiv_mono _ _ 100 charge lessScaled divided
  exact ⟨part, ⟨_, ⟨by omega, rfl⟩, _, lessMultiplied, lessDivided⟩, within⟩

theorem calculateTokenCharge_mono (less more quote : ℕ) (charge : ℕ × ℕ) (s t : Site) (smaller : less ≤ more)
    (config : s.world.hub.config = t.world.hub.config) (fee : s.paymaster.paymasterFee ≤ t.paymaster.paymasterFee)
    (charged : calculateTokenCharge env relayData more quote t = .ok charge) :
    ∃ part, calculateTokenCharge env relayData less quote s = .ok part ∧ part.1 ≤ charge.1 := by
  simp only [calculateTokenCharge, bind_ok, config] at charged ⊢
  obtain ⟨ethCharge, inEther, inTokens, converted, tokenCharge, charged, ⟨⟩⟩ := charged
  obtain ⟨lessEther, priced, lessEtherWithin⟩ :=
    calculateCharge_mono env relayData _ less more ethCharge smaller inEther
  obtain ⟨lessTokens, exchanged, lessTokensWithin⟩ := weiToToken_mono _ _ quote inTokens lessEtherWithin converted
  obtain ⟨part, billed, within⟩ := addPaymasterFee_mono _ _ tokenCharge _ _ lessTokensWithin fee charged
  exact ⟨(part, lessEther), ⟨_, priced, _, exchanged, _, billed, rfl⟩, within⟩

/-! The balance of the payer -/

def tokenBalance (token account : Address) (s : Site) : ℕ :=
  (s.tokens token).elim 0 fun ledger => ledger.balances account

variable (around : Surroundings) (this payer : Address)

/-- A permit sets an allowance, and a swap moves tokens of its caller, its pool and the router. -/
structure SparesPayer : Prop where
  permit : ∀ token data (s : Site) tokens, around.permit token data s.tokens = .ok tokens →
    ∀ held, tokenBalance held payer (s.setTokens tokens) = tokenBalance held payer s
  swap : ∀ params (s : Site) tokens amountOut,
    around.uniswap.exactInputSingle params s.tokens = some (tokens, amountOut) →
    ∀ held, tokenBalance held payer (s.setTokens tokens) = tokenBalance held payer s
  unwrap : ∀ amount (s : Site) tokens sent, around.uniswap.unwrapWETH9 amount s.tokens = some (tokens, sent) →
    ∀ held, tokenBalance held payer (s.setTokens tokens) = tokenBalance held payer s

theorem safeTransfer_paid (token : Address) (amount : ℕ) (s : Site) (tokens : Tokens) (other : payer ≠ this)
    (paid : safeTransfer s.tokens token payer this amount = .ok tokens) :
    tokenBalance token payer s = tokenBalance token payer (s.setTokens tokens) + amount := by
  rw [safeTransfer_ok] at paid
  obtain ⟨ledger, next, found, transferred, rfl⟩ := paid
  rw [Erc20.transfer_ok] at transferred
  obtain ⟨covered, _, rfl⟩ := transferred
  have kept : Erc20.moved ledger.balances payer this amount payer = ledger.balances payer - amount := by
    rw [Erc20.moved, Function.update_of_ne other, Function.update_self]
  simp only [tokenBalance, found, Site.setTokens_tokens, Function.update_self, Option.elim_some, kept]
  omega

theorem safeTransfer_refunded (token : Address) (amount : ℕ) (s : Site) (tokens : Tokens) (other : payer ≠ this)
    (paid : safeTransfer s.tokens token this payer amount = .ok tokens) :
    tokenBalance token payer (s.setTokens tokens) = tokenBalance token payer s + amount := by
  rw [safeTransfer_ok] at paid
  obtain ⟨ledger, next, found, transferred, rfl⟩ := paid
  rw [Erc20.transfer_ok] at transferred
  obtain ⟨covered, _, rfl⟩ := transferred
  have received := Erc20.moved_into ledger.balances this payer amount other.symm
  simp only [tokenBalance, found, Site.setTokens_tokens, Function.update_self, Option.elim_some, received]

/-- What the paymaster does with its own ether and tokens leaves the payer's alone. -/
def LeavesPayer (s t : Site) : Prop := ∀ token, tokenBalance token payer t = tokenBalance token payer s

theorem leavesPayer_trans (first second third : Site) (early : LeavesPayer payer first second)
    (late : LeavesPayer payer second third) : LeavesPayer payer first third :=
  fun token => (late token).trans (early token)

theorem executePermit_leaves (token : Address) (data : TokenSwapData) (paymasterData : Bytes) (s t : Site)
    (spares : SparesPayer around payer) (taken : executePermit around token data paymasterData s = .ok t) :
    LeavesPayer payer s t ∧ ∃ tokens, t = s.setTokens tokens := by
  unfold executePermit at taken
  split at taken
  · cases taken
    exact ⟨fun _ => rfl, s.tokens, rfl⟩
  · simp only [bind_ok] at taken
    obtain ⟨_, _, _, _, permitted⟩ := taken
    split at permitted
    · rename_i tokens answered
      cases permitted
      exact ⟨spares.permit token _ s tokens answered, tokens, rfl⟩
    · cases permitted

theorem maybeSwapTokenToWeth_leaves (tokenIn : Address) (s t : Site) (amount : ℕ) (spares : SparesPayer around payer)
    (taken : maybeSwapTokenToWeth around this tokenIn s = .ok (t, amount)) : LeavesPayer payer s t := by
  unfold maybeSwapTokenToWeth at taken
  split at taken
  · cases taken
  split at taken
  · simp only [swapAll, bind_ok, Except.ok.injEq] at taken
    obtain ⟨quote, _, inWei, _, amountOutMin, _, chosen⟩ := taken
    split at chosen
    · cases chosen
      exact fun _ => rfl
    · unfold swapToToken at chosen
      split at chosen
      · rename_i tokens amountOut swapped
        cases chosen
        exact spares.swap _ s tokens _ swapped
      · cases chosen
        exact fun _ => rfl
  · cases taken
    exact fun _ => rfl

theorem swapLoop_leaves (balance depositAmount : ℕ) (tokens : List Address) (before after : ℕ) (s t : Site)
    (spares : SparesPayer around payer)
    (taken : swapLoop around this balance depositAmount tokens before s = .ok (t, after)) :
    LeavesPayer payer s t := by
  induction tokens generalizing before s with
  | nil =>
      cases taken
      exact fun _ => rfl
  | cons token rest ih =>
      simp only [swapLoop, bind_ok] at taken
      obtain ⟨sum, _, taken⟩ := taken
      split at taken
      · simp only [bind_ok] at taken
        obtain ⟨⟨middle, brought⟩, swapped, total, _, later⟩ := taken
        have first := maybeSwapTokenToWeth_leaves around this payer token s middle brought spares swapped
        exact leavesPayer_trans payer s middle t first (ih total middle later)
      · cases taken
        exact fun _ => rfl

theorem unwrapWeth_leaves (amount : ℕ) (s t : Site) (spares : SparesPayer around payer)
    (taken : unwrapWeth around amount s = .ok t) : LeavesPayer payer s t := by
  unfold unwrapWeth at taken
  split at taken
  · split at taken
    · cases taken
    · rename_i tokens sent answered
      cases taken
      exact spares.unwrap amount s tokens sent answered
  · cases taken
    exact fun _ => rfl

theorem raiseEther_leaves (depositAmount amountSwapped : ℕ) (s t : Site) (spares : SparesPayer around payer)
    (taken : raiseEther around this depositAmount s = .ok (t, amountSwapped)) : LeavesPayer payer s t := by
  unfold raiseEther at taken
  split at taken
  · simp only [bind_ok] at taken
    obtain ⟨⟨middle, brought⟩, looped, last, unwrapped, same⟩ := taken
    cases same
    have swapped := swapLoop_leaves around this payer _ _ _ _ _ s middle spares looped
    exact leavesPayer_trans payer s middle t swapped (unwrapWeth_leaves around payer brought middle t spares unwrapped)
  · cases taken
    exact fun _ => rfl

theorem depositForThis_leaves (value : ℕ) (s t : Site) (taken : depositForThis this value s = .ok t) :
    LeavesPayer payer s t := by
  unfold depositForThis at taken
  split at taken
  · cases taken
  · simp only [bind_ok, Except.ok.injEq] at taken
    obtain ⟨hub, _, rfl⟩ := taken
    exact fun _ => rfl

theorem refillHubDepositIfNeeded_leaves (ethActualCharge : ℕ) (s t : Site) (spares : SparesPayer around payer)
    (taken : refillHubDepositIfNeeded around this ethActualCharge s = .ok t) : LeavesPayer payer s t := by
  simp only [refillHubDepositIfNeeded, bind_ok] at taken
  obtain ⟨threshold, _, taken⟩ := taken
  split at taken
  · cases taken
    exact fun _ => rfl
  · simp only [refillHubDeposit, bind_ok] at taken
    obtain ⟨_, _, depositAmount, _, ⟨middle, amountSwapped⟩, raised, value, _, taken⟩ := taken
    have first := raiseEther_leaves around this payer depositAmount amountSwapped s middle spares raised
    split at taken
    · exact leavesPayer_trans payer s middle t first (depositForThis_leaves this payer value middle t taken)
    · cases taken
      exact first

theorem withdrawToOwnerIfNeeded_leaves (addresses : Immutables) (s t : Site)
    (taken : withdrawToOwnerIfNeeded addresses this s = .ok t) : LeavesPayer payer s t := by
  simp only [withdrawToOwnerIfNeeded, bind_ok] at taken
  obtain ⟨threshold, _, taken⟩ := taken
  split at taken
  · simp only [withdrawToOwner, bind_ok, Except.ok.injEq] at taken
    obtain ⟨amount, _, ⟨world, _⟩, _, rfl⟩ := taken
    exact fun _ => rfl
  · cases taken
    exact fun _ => rfl

/-! The two calls of the hub -/

/-- How the pre-charge is divided. `charged` and `called` are the states after `preRelayedCall` and
before `postRelayedCall`. -/
structure PaysActualCharge (token : Address) (tokenPreCharge tokenActualCharge : ℕ)
    (before charged called after : Site) : Prop where
  within : tokenActualCharge ≤ tokenPreCharge
  precharged : tokenBalance token payer before = tokenBalance token payer charged + tokenPreCharge
  refunded : tokenBalance token payer after =
    tokenBalance token payer called + (tokenPreCharge - tokenActualCharge)

/-- Where the relayed call leaves the tokens of the payer, the charge is what is missing. -/
theorem PaysActualCharge.exact {token : Address} {tokenPreCharge tokenActualCharge : ℕ}
    {before charged called after : Site}
    (pays : PaysActualCharge payer token tokenPreCharge tokenActualCharge before charged called after)
    (untouched : tokenBalance token payer called = tokenBalance token payer charged) :
    tokenBalance token payer before = tokenBalance token payer after + tokenActualCharge := by
  have within := pays.within
  calc tokenBalance token payer before
      = tokenBalance token payer charged + tokenPreCharge := pays.precharged
    _ = tokenBalance token payer called + (tokenPreCharge - tokenActualCharge) + tokenActualCharge := by
        rw [untouched]
        omega
    _ = tokenBalance token payer after + tokenActualCharge := by rw [pays.refunded]

/-- What `preRelayedCall` has done when it returns. -/
theorem preRelayedCall_charged (sender : Address) (relayRequest : RelayRequest) (approvalData : Bytes)
    (maxPossibleGas : ℕ) (before charged : Site) (c : PostContext)
    (other : relayRequest.request.sender ≠ this) (spares : SparesPayer around relayRequest.request.sender)
    (taken : preRelayedCall env around this sender relayRequest approvalData maxPossibleGas before =
      .ok (charged, c)) :
    c.payer = relayRequest.request.sender ∧
      priceQuoteOf around (before.paymaster.tokensSwapData c.token) = .ok c.priceQuote ∧
      (∃ ethCharge, calculateTokenCharge env relayRequest.relayData maxPossibleGas c.priceQuote before =
        .ok (c.tokenPreCharge, ethCharge)) ∧
      charged.paymaster = before.paymaster ∧
      tokenBalance c.token c.payer before = tokenBalance c.token c.payer charged + c.tokenPreCharge := by
  simp only [preRelayedCall, bind_ok, Except.ok.injEq, Prod.mk.injEq] at taken
  obtain ⟨_, _, _, _, _, _, _, _, _, _, _, _, _, _, permitted, permitting, quote, quoted, ⟨tokenCharge, ethCharge⟩,
    priced, tokens, paid, rfl, rfl⟩ := taken
  obtain ⟨leaves, permittedTokens, rfl⟩ := executePermit_leaves around _ _ _ _ before permitted spares permitting
  have balance := safeTransfer_paid this _ _ tokenCharge (before.setTokens permittedTokens) tokens other paid
  rw [leaves] at balance
  exact ⟨rfl, quoted, ⟨ethCharge, priced⟩, rfl, balance⟩

theorem postRelayedCall_pays (addresses : Immutables) (sender : Address) (c : PostContext) (gasUseWithoutPost : ℕ)
    (called after : Site) (quoted : c.priceQuote < 2 ^ 256) (precharged : c.tokenPreCharge < 2 ^ 256)
    (other : c.payer ≠ this) (spares : SparesPayer around c.payer)
    (taken : postRelayedCall addresses env around this sender (encodeContext c) gasUseWithoutPost relayData called =
      .ok after) :
    ∃ tokenActualCharge ethActualCharge,
      actualCharge env gasUseWithoutPost relayData c.priceQuote called = .ok (tokenActualCharge, ethActualCharge) ∧
      tokenActualCharge ≤ c.tokenPreCharge ∧
      tokenBalance c.token c.payer after =
        tokenBalance c.token c.payer called + (c.tokenPreCharge - tokenActualCharge) := by
  have decoded := decode_encodeContext c quoted precharged
  simp only [postRelayedCall, bind_ok, decoded, require_ok] at taken
  obtain ⟨_, _, _, ⟨⟩, ⟨tokenActualCharge, ethActualCharge⟩, charged, _, within, tokens, paid, refilled, refilling,
    withdrawn⟩ := taken
  have refund := safeTransfer_refunded this c.payer c.token _ called tokens other paid
  have refilledBalance := refillHubDepositIfNeeded_leaves around this c.payer _ _ refilled spares refilling c.token
  have afterBalance := withdrawToOwnerIfNeeded_leaves this c.payer addresses refilled after withdrawn c.token
  exact ⟨tokenActualCharge, ethActualCharge, charged, within, by rw [afterBalance, refilledBalance, refund]⟩

/-- Of the pre-charge, the payer is left with all but the actual charge, at the price of
`preRelayedCall`. If the fee is not raised in between, gas that was foreseen is covered by the
pre-charge. -/
theorem payer_pays_actual_charge (addresses : Immutables) (sender postSender : Address) (relayRequest : RelayRequest)
    (approvalData : Bytes) (maxPossibleGas : Uint256) (gasUseWithoutPost : ℕ) (before charged called : Site)
    (c : PostContext) (other : relayRequest.request.sender ≠ this)
    (spares : SparesPayer around relayRequest.request.sender)
    (prepared : preRelayedCall env around this sender relayRequest approvalData maxPossibleGas.val before =
      .ok (charged, c)) :
    priceQuoteOf around (before.paymaster.tokensSwapData c.token) = .ok c.priceQuote ∧
    (∀ after, postRelayedCall addresses env around this postSender (encodeContext c) gasUseWithoutPost
        relayRequest.relayData called = .ok after →
      ∃ tokenActualCharge ethActualCharge,
        actualCharge env gasUseWithoutPost relayRequest.relayData c.priceQuote called =
          .ok (tokenActualCharge, ethActualCharge) ∧
        PaysActualCharge relayRequest.request.sender c.token c.tokenPreCharge tokenActualCharge before charged called
          after) ∧
    (called.world.hub.config = before.world.hub.config →
      called.paymaster.paymasterFee ≤ before.paymaster.paymasterFee →
      gasUseWithoutPost + called.paymaster.gasUsedByPost.val ≤ maxPossibleGas.val →
      ∃ tokenActualCharge ethActualCharge,
        actualCharge env gasUseWithoutPost relayRequest.relayData c.priceQuote called =
          .ok (tokenActualCharge, ethActualCharge) ∧ tokenActualCharge ≤ c.tokenPreCharge) := by
  obtain ⟨quoted, precharged⟩ := preRelayedCall_bounded env around this sender relayRequest approvalData
    maxPossibleGas.val before charged c prepared
  obtain ⟨payer, quote, ⟨ethCharge, priced⟩, _, paid⟩ := preRelayedCall_charged env around this sender relayRequest
    approvalData maxPossibleGas.val before charged c other spares prepared
  refine ⟨quote, fun after taken => ?_, fun config fee foreseen => ?_⟩
  · rw [← payer] at other spares ⊢
    obtain ⟨tokenActualCharge, ethActualCharge, billed, within, refund⟩ := postRelayedCall_pays env _ around this
      addresses postSender c gasUseWithoutPost called after quoted precharged other spares taken
    exact ⟨tokenActualCharge, ethActualCharge, billed, within, paid, refund⟩
  · obtain ⟨part, billed, within⟩ := calculateTokenCharge_mono env relayRequest.relayData _ maxPossibleGas.val
      c.priceQuote _ called before foreseen config fee priced
    have fits : gasUseWithoutPost + called.paymaster.gasUsedByPost.val < 2 ^ 256 :=
      lt_of_le_of_lt foreseen maxPossibleGas.isLt
    refine ⟨part.1, part.2, ?_, within⟩
    simp only [actualCharge, bind_ok, checkedAdd_ok]
    exact ⟨_, ⟨fits, rfl⟩, billed⟩

theorem sampleSurroundings_spares : SparesPayer sampleSurroundings 34 where
  permit := by
    rintro token data s tokens ⟨⟩ held
    rfl
  swap := fun _ _ _ _ swapped => nomatch swapped
  unwrap := by
    intro amount s tokens sent answered held
    by_cases none : amount = 0
    · have same : some (s.tokens, 0) = some (tokens, sent) := (if_pos none).symm.trans answered
      cases same
      rfl
    · have refused : Option.none = some (tokens, sent) := (if_neg none).symm.trans answered
      cases refused

theorem payer_pays_actual_charge_sample :
    ∃ tokenActualCharge ethActualCharge,
      actualCharge Solidity.sampleEnv 51243 tokenArgs.relayRequest.relayData sampleContext.priceQuote
        (samplePrepared (sampleSite 10000 200000 10000)) = .ok (tokenActualCharge, ethActualCharge) ∧
      tokenActualCharge ≤ 100050 :=
  (payer_pays_actual_charge Solidity.sampleEnv sampleSurroundings 32 sampleAddresses 100 100 tokenArgs.relayRequest []
    100050 51243 (sampleSite 10000 200000 10000) (samplePrepared (sampleSite 10000 200000 10000))
    (samplePrepared (sampleSite 10000 200000 10000)) sampleContext (by decide) sampleSurroundings_spares
    (sampleAccepted 10000 200000 10000)).2.2 rfl (Nat.le_refl _) (by decide)

def doubledFee : GasAndEthConfig := ⟨0, 10000, 200000, 10000, 100⟩

theorem raised_fee_exceeds_precharge :
    ¬ ∀ (env : Env) (around : Surroundings) (this : Address) (addresses : Immutables) (sender postSender : Address)
      (relayRequest : RelayRequest) (approvalData : Bytes) (maxPossibleGas : Uint256) (gasUseWithoutPost : ℕ)
      (before charged : Site) (c : PostContext) (uniswap : Address) (config : GasAndEthConfig)
      (next : ConfiguredPaymaster),
      relayRequest.request.sender ≠ this → SparesPayer around relayRequest.request.sender →
      preRelayedCall env around this sender relayRequest approvalData maxPossibleGas.val before = .ok (charged, c) →
      setGasAndEthConfig charged.paymaster.owner config ⟨charged.paymaster, uniswap⟩ = .ok next →
      gasUseWithoutPost + next.gasUsedByPost.val ≤ maxPossibleGas.val →
      postRelayedCall addresses env around this postSender (encodeContext c) gasUseWithoutPost
        relayRequest.relayData { charged with paymaster := next.toPermitPaymaster } ≠
          .error (.reason "actual charge higher") := by
  intro passes
  have fails : (postRelayedCall sampleAddresses Solidity.sampleEnv sampleSurroundings 32 100
      (encodeContext sampleContext) 60000 tokenArgs.relayRequest.relayData
      { samplePrepared (sampleSite 10000 200000 10000) with
        paymaster := { samplePaymaster 10000 200000 10000 with paymasterFee := 100 } }).map (fun _ => ()) =
      .error (.reason "actual charge higher") := by decide +kernel
  have refused := passes Solidity.sampleEnv sampleSurroundings 32 sampleAddresses 100 100 tokenArgs.relayRequest []
    100050 60000 (sampleSite 10000 200000 10000) (samplePrepared (sampleSite 10000 200000 10000)) sampleContext 60 doubledFee
    ⟨{ samplePaymaster 10000 200000 10000 with paymasterFee := 100 }, 60⟩ (by decide) sampleSurroundings_spares
    (sampleAccepted 10000 200000 10000) rfl (by decide)
  cases ended : postRelayedCall sampleAddresses Solidity.sampleEnv sampleSurroundings 32 100
      (encodeContext sampleContext) 60000 tokenArgs.relayRequest.relayData
      { samplePrepared (sampleSite 10000 200000 10000) with
        paymaster := { samplePaymaster 10000 200000 10000 with paymasterFee := 100 } } with
  | ok after =>
      rw [ended] at fails
      cases fails
  | error error =>
      rw [ended] at fails
      cases fails
      exact refused ended

end OpenGsn.Paymasters
