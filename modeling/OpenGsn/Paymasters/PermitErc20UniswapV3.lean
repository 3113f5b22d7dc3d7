import OpenGsn.RelayHub.RelayCall

/-! `PermitERC20UniswapV3Paymaster.sol` with `BasePaymaster.sol` and `UniswapV3Helper.sol`, as far as
a relayed call goes. -/

namespace OpenGsn.Paymasters

open Solidity Reentry RelayHub

instance neZeroUint24 : NeZero (2 ^ 24) := ⟨by decide⟩

structure TokenSwapData where
  priceFeed : Address
  uniswapPoolFee : Fin (2 ^ 24)
  slippage : Fin (2 ^ 8)
  permitMethodSelector : Bytes
  priceDivisor : Uint256
  validFromBlockNumber : Uint256

structure PermitPaymaster where
  owner : Address
  relayHub : Address
  trustedForwarder : Address
  tokensSwapData : Address → TokenSwapData
  tokens : List Address
  weth : Address
  tokensBlockNumber : Uint256
  gasUsedByPost : Uint256
  minHubBalance : Uint256
  targetHubBalance : Uint256
  minWithdrawalAmount : Uint256
  minSwapAmount : Uint256
  paymasterFee : Uint256

structure ExactInputSingle where
  tokenIn : Address
  tokenOut : Address
  fee : Fin (2 ^ 24)
  amountIn : ℕ
  amountOutMinimum : ℕ

/-- The swap router. `wethHeld` is what it holds between a swap to itself and `unwrapWETH9`, which sends
all of it, in ether, with the amount sent as the answer. -/
structure SwapRouter where
  exactInputSingle : ExactInputSingle → Tokens → Option (Tokens × ℕ)
  unwrapWETH9 : ℕ → Tokens → Option (Tokens × ℕ)
  wethHeld : Tokens → ℕ
  swap_held : ∀ params tokens next amountOut, exactInputSingle params tokens = some (next, amountOut) →
    wethHeld tokens + amountOut ≤ wethHeld next
  unwrap_sent : ∀ amount tokens, amount ≤ wethHeld tokens →
    ∃ next sent, unwrapWETH9 amount tokens = some (next, sent) ∧ amount ≤ sent

structure Surroundings where
  uniswap : SwapRouter
  latestAnswer : Address → Option Uint256
  permit : Address → Bytes → Tokens → Except Bytes Tokens
  isTrustedForwarder : Address → Address → Except Bytes Bytes

structure Site where
  world : World
  tokens : Tokens
  paymaster : PermitPaymaster
  ether : ℕ

namespace Site

@[simps -fullyApplied]
def setWorld (world : World) (s : Site) : Site := { s with world }

@[simps -fullyApplied]
def setTokens (tokens : Tokens) (s : Site) : Site := { s with tokens }

@[simps -fullyApplied]
def receive (amount : ℕ) (s : Site) : Site := { s with ether := s.ether + amount }

@[simps -fullyApplied]
def spend (amount : ℕ) (s : Site) : Site := { s with ether := s.ether - amount }

end Site

variable (addresses : Immutables) (env : Env) (around : Surroundings) (this : Address)

def checkedDiv (a b : ℕ) : Except Revert ℕ :=
  if b = 0 then .error (.panic 0x12) else .ok (a / b)

def hubBalance (s : Site) : ℕ := s.world.hub.balances this

/-! Prices -/

def toActualQuote (quote divisor : ℕ) : Except Revert ℕ := do
  let scaled ← checkedMul 256 (10 ^ 54) quote
  checkedDiv scaled divisor

def tokenToWei (amount quote : ℕ) : Except Revert ℕ := do
  let scaled ← checkedMul 256 amount quote
  checkedDiv scaled (10 ^ 36)

def weiToToken (amount quote : ℕ) : Except Revert ℕ := do
  let scaled ← checkedMul 256 amount (10 ^ 36)
  checkedDiv scaled quote

def addPaymasterFee (charge : ℕ) (p : PermitPaymaster) : Except Revert ℕ := do
  let percent ← checkedAdd 256 100 p.paymasterFee.val
  let scaled ← checkedMul 256 charge percent
  checkedDiv scaled 100

def addSlippage (amount : ℕ) (slippage : Fin (2 ^ 8)) : Except Revert ℕ := do
  let share ← checkedSub 1000 slippage.val
  let scaled ← checkedMul 256 amount share
  checkedDiv scaled 1000

/-- A feed that does not answer reverts the call. -/
def priceQuoteOf (data : TokenSwapData) : Except Revert ℕ :=
  match around.latestAnswer data.priceFeed with
  | none => .error (.data [])
  | some answer => toActualQuote answer.val data.priceDivisor.val

/-- `_calculateCharge`: the charge in tokens and in ether -/
def calculateTokenCharge (relayData : RelayData) (gasUsed priceQuote : ℕ) (s : Site) :
    Except Revert (ℕ × ℕ) := do
  let ethCharge ← calculateCharge env s.world.hub.config gasUsed relayData
  let inTokens ← weiToToken ethCharge priceQuote
  let tokenCharge ← addPaymasterFee inTokens s.paymaster
  .ok (tokenCharge, ethCharge)

/-! `preRelayedCall` -/

structure PostContext where
  token : Address
  payer : Address
  priceQuote : ℕ
  tokenPreCharge : ℕ
  deriving DecidableEq, Repr

def encodeContext (c : PostContext) : Bytes :=
  word c.token.val ++ word c.payer.val ++ word c.priceQuote ++ word c.tokenPreCharge

def decodeAddress (data : Bytes) (head : ℕ) : Except Revert Address :=
  if inside : readWord data head < 2 ^ 160 then .ok ⟨readWord data head, inside⟩ else .error (.data [])

/-- `abi.decode(context, (IERC20, address, uint256, uint256))` -/
def decodeContext (data : Bytes) : Except Revert PostContext := do
  if data.length < 128 then .error (.data [])
  else do
    let token ← decodeAddress data 0
    let payer ← decodeAddress data 32
    .ok ⟨token, payer, readWord data 64, readWord data 96⟩

def verifyRelayHubOnly (sender : Address) (s : Site) : Except Revert Unit :=
  require (sender = s.paymaster.relayHub) "can only be called by RelayHub"

def verifyForwarderTrusted (relayRequest : RelayRequest) : Except Revert Unit :=
  match around.isTrustedForwarder relayRequest.request.recipient relayRequest.relayData.forwarder with
  | .error _ => .error (.reason "isTrustedForwarder: reverted")
  | .ok ret => do
      require (ret.length = 32) "isTrustedForwarder: bad response"
      let trusted ← decodeBool ret 0
      require trusted "invalid forwarder for recipient"

def getTokenFromPaymasterData (paymasterData : Bytes) : Address :=
  Fin.ofNat (2 ^ 160) (ofBigEndian (paymasterData.take 20))

def isTokenSupported (token : Address) (p : PermitPaymaster) : Prop :=
  (p.tokensSwapData token).validFromBlockNumber = p.tokensBlockNumber

instance (token : Address) (p : PermitPaymaster) : Decidable (isTokenSupported token p) :=
  inferInstanceAs (Decidable (_ = _))

def executePermit (token : Address) (data : TokenSwapData) (paymasterData : Bytes) (s : Site) :
    Except Revert Site :=
  if paymasterData.length = 20 then .ok s
  else do
    require (24 ≤ paymasterData.length) "must contain \"permit\" and token"
    require (data.permitMethodSelector = (paymasterData.drop 20).take 4) "wrong \"permit\" method sig"
    match around.permit token (paymasterData.drop 20) s.tokens with
    | .ok tokens => .ok (s.setTokens tokens)
    | .error ret =>
        .error (.data ([0x08, 0xc3, 0x79, 0xa0] ++ word 32 ++ bytesTail (utf8 "permit call reverted:" ++ ret)))

def preRelayedCall (sender : Address) (relayRequest : RelayRequest) (approvalData : Bytes)
    (maxPossibleGas : ℕ) (s : Site) : Except Revert (Site × PostContext) := do
  verifyRelayHubOnly sender s
  require (s.paymaster.trustedForwarder = relayRequest.relayData.forwarder) "Forwarder is not trusted"
  verifyForwarderTrusted around relayRequest
  require (relayRequest.request.value = 0) "value transfer not supported"
  require (approvalData.length = 0) "should have no approvalData"
  let paymasterData := relayRequest.relayData.paymasterData
  require (20 ≤ paymasterData.length) "must contain token address"
  let token := getTokenFromPaymasterData paymasterData
  require (isTokenSupported token s.paymaster) "unsupported token"
  let data := s.paymaster.tokensSwapData token
  let s ← executePermit around token data paymasterData s
  let priceQuote ← priceQuoteOf around data
  let (tokenPreCharge, _) ← calculateTokenCharge env relayRequest.relayData maxPossibleGas priceQuote s
  let payer := relayRequest.request.sender
  let tokens ← safeTransfer s.tokens token payer this tokenPreCharge
  .ok (s.setTokens tokens, ⟨token, payer, priceQuote, tokenPreCharge⟩)

/-! `postRelayedCall` -/

/-- A swap that fails is caught. -/
def swapToToken (params : ExactInputSingle) (s : Site) : Site × ℕ :=
  match around.uniswap.exactInputSingle params s.tokens with
  | some (tokens, amountOut) => (s.setTokens tokens, amountOut)
  | none => (s, 0)

def swapAll (tokenIn : Address) (tokenBalance : ℕ) (s : Site) : Except Revert (Site × ℕ) := do
  let data := s.paymaster.tokensSwapData tokenIn
  let quote ← priceQuoteOf around data
  let amount ← tokenToWei tokenBalance quote
  let amountOutMin ← addSlippage amount data.slippage
  .ok (if amountOutMin < s.paymaster.minSwapAmount.val then (s, 0)
    else swapToToken around ⟨tokenIn, s.paymaster.weth, data.uniswapPoolFee, tokenBalance, amountOutMin⟩ s)

def maybeSwapTokenToWeth (tokenIn : Address) (s : Site) : Except Revert (Site × ℕ) :=
  match s.tokens tokenIn with
  | none => .error (.data [])
  | some ledger =>
      if 0 < ledger.balances this then swapAll around tokenIn (ledger.balances this) s else .ok (s, 0)

def swapLoop (balance depositAmount : ℕ) : List Address → ℕ → Site → Except Revert (Site × ℕ)
  | [], amountSwapped, s => .ok (s, amountSwapped)
  | token :: rest, amountSwapped, s => do
      let sum ← checkedAdd 256 balance amountSwapped
      if sum < depositAmount then do
        let (s, amount) ← maybeSwapTokenToWeth around this token s
        let amountSwapped ← checkedAdd 256 amountSwapped amount
        swapLoop balance depositAmount rest amountSwapped s
      else .ok (s, amountSwapped)

/-- Ether for the amount of WETH at least. -/
def unwrapWeth (amount : ℕ) (s : Site) : Except Revert Site :=
  if 0 < amount then
    match around.uniswap.unwrapWETH9 amount s.tokens with
    | none => .error (.data [])
    | some (tokens, sent) => .ok ((s.setTokens tokens).receive sent)
  else .ok s

def raiseEther (depositAmount : ℕ) (s : Site) : Except Revert (Site × ℕ) :=
  if s.ether < depositAmount then do
    let (next, amountSwapped) ← swapLoop around this s.ether depositAmount s.paymaster.tokens 0 s
    let next ← unwrapWeth around amountSwapped next
    .ok (next, amountSwapped)
  else .ok (s, 0)

def depositForThis (value : ℕ) (s : Site) : Except Revert Site :=
  if s.ether < value then .error (.data [])
  else do
    let hub ← RelayHub.depositFor this this true value s.world.hub
    .ok ((s.spend value).setWorld ((s.world.receive value).setHub hub))

def refillHubDeposit (depositAmount : ℕ) (s : Site) : Except Revert Site := do
  let balance := s.ether
  let (s, amountSwapped) ← raiseEther around this depositAmount s
  let value ← checkedAdd 256 balance amountSwapped
  if 0 < value then depositForThis this value s else .ok s

def refillHubDepositIfNeeded (ethActualCharge : ℕ) (s : Site) : Except Revert Site := do
  let threshold ← checkedAdd 256 s.paymaster.minHubBalance.val ethActualCharge
  if threshold ≤ hubBalance this s then .ok s
  else do
    let difference ← checkedSub s.paymaster.targetHubBalance.val (hubBalance this s)
    let depositAmount ← checkedAdd 256 difference ethActualCharge
    refillHubDeposit around this depositAmount s

def takesEther (_ : Outgoing) (w : World) : Except Revert (World × Bytes) := .ok (w, [])

def withdrawToOwner (amount : ℕ) (s : Site) : Except Revert Site := do
  let (world, _) ← (RelayHub.withdraw addresses this s.paymaster.owner amount s.world).drive takesEther
  .ok (s.setWorld world)

def withdrawToOwnerIfNeeded (s : Site) : Except Revert Site := do
  let threshold ← checkedAdd 256 s.paymaster.minWithdrawalAmount.val s.paymaster.targetHubBalance.val
  if threshold ≤ hubBalance this s then do
    let amount ← checkedSub (hubBalance this s) s.paymaster.targetHubBalance.val
    withdrawToOwner addresses this amount s
  else .ok s

def actualCharge (gasUseWithoutPost : ℕ) (relayData : RelayData) (priceQuote : ℕ) (s : Site) :
    Except Revert (ℕ × ℕ) := do
  let gasUsed ← checkedAdd 256 gasUseWithoutPost s.paymaster.gasUsedByPost.val
  calculateTokenCharge env relayData gasUsed priceQuote s

def postRelayedCall (sender : Address) (context : Bytes) (gasUseWithoutPost : ℕ) (relayData : RelayData)
    (s : Site) : Except Revert Site := do
  verifyRelayHubOnly sender s
  let c ← decodeContext context
  let (tokenActualCharge, ethActualCharge) ← actualCharge env gasUseWithoutPost relayData c.priceQuote s
  require (tokenActualCharge ≤ c.tokenPreCharge) "actual charge higher"
  let tokens ← safeTransfer s.tokens c.token this c.payer (c.tokenPreCharge - tokenActualCharge)
  let s ← refillHubDepositIfNeeded around this ethActualCharge (s.setTokens tokens)
  withdrawToOwnerIfNeeded addresses this s

/-- `abi.encode(context, false)` -/
def encodePreRelayed (context : Bytes) : Bytes := word 64 ++ word 0 ++ bytesTail context

/-- The calls of `innerRelayCall`, with the paymaster's code for two of them. -/
def answerCall (relayed : Site → Except Revert (Site × Bytes)) : Outgoing → Site → Except Revert (Site × Bytes)
  | .preRelayedCall _ _ relayRequest _ approvalData maxPossibleGas, s => do
      let (s, context) ← preRelayedCall env around this addresses.this relayRequest approvalData maxPossibleGas s
      .ok (s, encodePreRelayed (encodeContext context))
  | .execute _ _ _ _ _ _, s => relayed s
  | .postRelayedCall _ _ context _ gasUseWithoutPost relayData, s => do
      let s ← postRelayedCall addresses env around this addresses.this context gasUseWithoutPost relayData s
      .ok (s, [])
  | _, _ => .error (.data [])

end OpenGsn.Paymasters
