import OpenGsn.Paymasters.PermitErc20UniswapV3
import Mathlib.Order.Fin.Basic

/-! The configuration of `PermitERC20UniswapV3Paymaster.sol`, and the tokens that it supports. -/

namespace OpenGsn.Paymasters

open Solidity

structure UniswapConfig where
  uniswap : Address
  weth : Address
  minSwapAmount : Uint256
  tokens : List Address
  priceFeeds : List Address
  uniswapPoolFees : List (Fin (2 ^ 24))
  permitMethodSignatures : List String
  slippages : List (Fin (2 ^ 8))

structure GasAndEthConfig where
  gasUsedByPost : Uint256
  minHubBalance : Uint256
  targetHubBalance : Uint256
  minWithdrawalAmount : Uint256
  paymasterFee : Uint256

/-- The paymaster with the router that may take its tokens. -/
structure ConfiguredPaymaster extends PermitPaymaster where
  uniswap : Address

structure ConfigAnswers where
  approve : Address → Address → Except Revert Bool
  decimals : Address → Except Revert (Fin (2 ^ 8))
  isRelayHub : Address → Bool
  isForwarder : Address → Bool

variable (crypto : Crypto) (env : Env) (answers : ConfigAnswers)

def onlyOwner (sender : Address) (p : ConfiguredPaymaster) : Except Revert Unit :=
  require (sender = p.owner) "Ownable: caller is not the owner"

def checkedPow (base exponent : ℕ) : Except Revert ℕ :=
  if base ^ exponent < 2 ^ 256 then .ok (base ^ exponent) else .error (.panic 0x11)

def item {α : Type} (array : List α) (i : ℕ) : Except Revert α :=
  match array[i]? with
  | some value => .ok value
  | none => .error (.panic 0x32)

/-- The data of the token that is number `i`. -/
def tokenSwapData (config : UniswapConfig) (blockNumber : Uint256) (uniswap : Address) (i : ℕ)
    (token : Address) : Except Revert TokenSwapData := do
  let _ ← answers.approve token uniswap
  let priceFeed ← item config.priceFeeds i
  let feedDecimals ← answers.decimals priceFeed
  let tokenDecimals ← answers.decimals token
  let decimals ← checkedAdd 8 feedDecimals.val tokenDecimals.val
  let priceDivisor ← checkedPow 10 decimals
  let signature ← item config.permitMethodSignatures i
  let uniswapPoolFee ← item config.uniswapPoolFees i
  let slippage ← item config.slippages i
  require (slippage.val ≤ 1000) "slippage above 100%"
  .ok ⟨priceFeed, uniswapPoolFee, slippage, (crypto.hashBytes (utf8 signature)).take 4,
    Fin.ofNat (2 ^ 256) priceDivisor, blockNumber⟩

namespace ConfiguredPaymaster

def setData (token : Address) (data : TokenSwapData) (p : ConfiguredPaymaster) : ConfiguredPaymaster :=
  { p with tokensSwapData := Function.update p.tokensSwapData token data }

def validFrom (token : Address) (p : ConfiguredPaymaster) : Uint256 :=
  (p.tokensSwapData token).validFromBlockNumber

@[simp] theorem setData_tokens (token : Address) (data : TokenSwapData) (p : ConfiguredPaymaster) :
    (p.setData token data).tokens = p.tokens := rfl

@[simp] theorem setData_tokensBlockNumber (token : Address) (data : TokenSwapData) (p : ConfiguredPaymaster) :
    (p.setData token data).tokensBlockNumber = p.tokensBlockNumber := rfl

@[simp] theorem setData_tokensSwapData (token : Address) (data : TokenSwapData) (p : ConfiguredPaymaster) :
    (p.setData token data).tokensSwapData = Function.update p.tokensSwapData token data := rfl

theorem setData_validFrom (written token : Address) (data : TokenSwapData) (p : ConfiguredPaymaster) :
    (p.setData written data).validFrom token =
      if token = written then data.validFromBlockNumber else p.validFrom token := by
  rw [validFrom, setData_tokensSwapData]
  by_cases same : token = written
  · rw [same, Function.update_self, if_pos rfl]
  · rw [Function.update_of_ne same, if_neg same, validFrom]

end ConfiguredPaymaster

def setTokensLoop (config : UniswapConfig) (blockNumber : Uint256) :
    ℕ → List Address → ConfiguredPaymaster → Except Revert ConfiguredPaymaster
  | _, [], p => .ok p
  | i, token :: rest, p => do
      let data ← tokenSwapData crypto answers config blockNumber p.uniswap i token
      setTokensLoop config blockNumber (i + 1) rest (p.setData token data)

def setTokens (config : UniswapConfig) (p : ConfiguredPaymaster) : Except Revert ConfiguredPaymaster :=
  let blockNumber := Fin.ofNat (2 ^ 256) env.number
  setTokensLoop crypto answers config blockNumber 0 config.tokens
    { p with tokens := config.tokens, tokensBlockNumber := blockNumber }

/-- `sender` is what `_msgSender()` returns. -/
def setUniswapConfig (sender : Address) (config : UniswapConfig) (p : ConfiguredPaymaster) :
    Except Revert ConfiguredPaymaster := do
  onlyOwner sender p
  setTokens crypto env answers config
    { p with weth := config.weth, uniswap := config.uniswap, minSwapAmount := config.minSwapAmount }

def setGasAndEthConfig (sender : Address) (config : GasAndEthConfig) (p : ConfiguredPaymaster) :
    Except Revert ConfiguredPaymaster := do
  onlyOwner sender p
  .ok
    { p with
      minWithdrawalAmount := config.minWithdrawalAmount
      gasUsedByPost := config.gasUsedByPost
      targetHubBalance := config.targetHubBalance
      minHubBalance := config.minHubBalance
      paymasterFee := config.paymasterFee }

def setRelayHub (sender hub : Address) (p : ConfiguredPaymaster) : Except Revert ConfiguredPaymaster := do
  onlyOwner sender p
  require (answers.isRelayHub hub = true) "target is not a valid IRelayHub"
  .ok { p with relayHub := hub }

def setTrustedForwarder (sender forwarder : Address) (p : ConfiguredPaymaster) :
    Except Revert ConfiguredPaymaster := do
  onlyOwner sender p
  require (answers.isForwarder forwarder = true) "target is not a valid IForwarder"
  .ok { p with trustedForwarder := forwarder }

def blank (deployer : Address) : ConfiguredPaymaster where
  owner := deployer
  relayHub := 0
  trustedForwarder := 0
  tokensSwapData := fun _ => ⟨0, 0, 0, [0, 0, 0, 0], 0, 0⟩
  tokens := []
  weth := 0
  tokensBlockNumber := 0
  gasUsedByPost := 0
  minHubBalance := 0
  targetHubBalance := 0
  minWithdrawalAmount := 0
  minSwapAmount := 0
  paymasterFee := 0
  uniswap := 0

def construct (deployer : Address) (uniswapConfig : UniswapConfig) (gasAndEthConfig : GasAndEthConfig)
    (forwarder hub : Address) : Except Revert ConfiguredPaymaster := do
  let p ← setUniswapConfig crypto env answers deployer uniswapConfig (blank deployer)
  let p ← setGasAndEthConfig deployer gasAndEthConfig p
  let p ← setRelayHub answers deployer hub p
  setTrustedForwarder answers deployer forwarder p

/-! What one configuration writes. -/

theorem tokenSwapData_valid (config : UniswapConfig) (blockNumber : Uint256) (uniswap : Address) (i : ℕ)
    (token : Address) (data : TokenSwapData)
    (made : tokenSwapData crypto answers config blockNumber uniswap i token = .ok data) :
    data.validFromBlockNumber = blockNumber := by
  simp only [tokenSwapData, bind_ok, Except.ok.injEq] at made
  obtain ⟨_, _, _, _, _, _, _, _, _, _, _, _, _, _, _, _, _, _, _, _, rfl⟩ := made
  rfl

theorem setTokensLoop_valid (config : UniswapConfig) (blockNumber : Uint256) (i : ℕ) (tokens : List Address)
    (p next : ConfiguredPaymaster)
    (done : setTokensLoop crypto answers config blockNumber i tokens p = .ok next) :
    next.tokens = p.tokens ∧ next.tokensBlockNumber = p.tokensBlockNumber ∧
      ∀ token, next.validFrom token = if token ∈ tokens then blockNumber else p.validFrom token := by
  induction tokens generalizing i p with
  | nil =>
      cases done
      exact ⟨rfl, rfl, fun token => by simp⟩
  | cons head rest ih =>
      rw [setTokensLoop, bind_ok] at done
      obtain ⟨data, made, done⟩ := done
      have valid := tokenSwapData_valid crypto answers config blockNumber p.uniswap i head data made
      have later := ih (i + 1) (p.setData head data) done
      refine ⟨later.1, later.2.1, fun token => ?_⟩
      rw [later.2.2 token, ConfiguredPaymaster.setData_validFrom, valid]
      by_cases same : token = head
      · simp [same]
      · simp [same]

structure Wrote (blockNumber : Uint256) (listed : List Address) (p next : ConfiguredPaymaster) : Prop where
  tokens : next.tokens = listed
  tokensBlockNumber : next.tokensBlockNumber = blockNumber
  validFrom : ∀ token, next.validFrom token = if token ∈ listed then blockNumber else p.validFrom token

theorem setUniswapConfig_wrote (sender : Address) (config : UniswapConfig) (p next : ConfiguredPaymaster)
    (done : setUniswapConfig crypto env answers sender config p = .ok next) :
    Wrote (Fin.ofNat (2 ^ 256) env.number) config.tokens p next := by
  rw [setUniswapConfig, bind_ok] at done
  obtain ⟨_, _, done⟩ := done
  have loop := setTokensLoop_valid crypto answers config _ 0 config.tokens _ next done
  exact ⟨loop.1, loop.2.1, loop.2.2⟩

structure SameTokens (p next : ConfiguredPaymaster) : Prop where
  tokens : next.tokens = p.tokens
  tokensBlockNumber : next.tokensBlockNumber = p.tokensBlockNumber
  validFrom : ∀ token, next.validFrom token = p.validFrom token

theorem setGasAndEthConfig_same (sender : Address) (config : GasAndEthConfig) (p next : ConfiguredPaymaster)
    (done : setGasAndEthConfig sender config p = .ok next) : SameTokens p next := by
  simp only [setGasAndEthConfig, bind_ok, Except.ok.injEq] at done
  obtain ⟨_, _, rfl⟩ := done
  exact ⟨rfl, rfl, fun _ => rfl⟩

theorem setRelayHub_same (sender hub : Address) (p next : ConfiguredPaymaster)
    (done : setRelayHub answers sender hub p = .ok next) : SameTokens p next := by
  simp only [setRelayHub, bind_ok, Except.ok.injEq] at done
  obtain ⟨_, _, _, _, rfl⟩ := done
  exact ⟨rfl, rfl, fun _ => rfl⟩

theorem setTrustedForwarder_same (sender forwarder : Address) (p next : ConfiguredPaymaster)
    (done : setTrustedForwarder answers sender forwarder p = .ok next) : SameTokens p next := by
  simp only [setTrustedForwarder, bind_ok, Except.ok.injEq] at done
  obtain ⟨_, _, _, _, rfl⟩ := done
  exact ⟨rfl, rfl, fun _ => rfl⟩

theorem SameTokens.after {p middle next : ConfiguredPaymaster} {blockNumber : Uint256} {listed : List Address}
    (wrote : Wrote blockNumber listed p middle) (same : SameTokens middle next) :
    Wrote blockNumber listed p next :=
  ⟨same.tokens.trans wrote.tokens, same.tokensBlockNumber.trans wrote.tokensBlockNumber,
    fun token => (same.validFrom token).trans (wrote.validFrom token)⟩

theorem construct_wrote (deployer : Address) (uniswapConfig : UniswapConfig) (gasAndEthConfig : GasAndEthConfig)
    (forwarder hub : Address) (p : ConfiguredPaymaster)
    (made : construct crypto env answers deployer uniswapConfig gasAndEthConfig forwarder hub = .ok p) :
    Wrote (Fin.ofNat (2 ^ 256) env.number) uniswapConfig.tokens (blank deployer) p := by
  simp only [construct, bind_ok] at made
  obtain ⟨first, listed, second, gas, third, hubSet, forwarderSet⟩ := made
  have wrote := setUniswapConfig_wrote crypto env answers deployer uniswapConfig _ first listed
  have wrote := (setGasAndEthConfig_same deployer gasAndEthConfig first second gas).after wrote
  have wrote := (setRelayHub_same answers deployer hub second third hubSet).after wrote
  exact (setTrustedForwarder_same answers deployer forwarder third p forwarderSet).after wrote

/-! Runs. -/

/-- The configurations that a paymaster went through, the last one first, in blocks that never
go back. -/
inductive Configured : List (ℕ × UniswapConfig) → ConfiguredPaymaster → Prop
  | construct (env : Env) (answers : ConfigAnswers) (deployer : Address) (config : UniswapConfig)
      (gasAndEthConfig : GasAndEthConfig) (forwarder hub : Address) (p : ConfiguredPaymaster)
      (isWord : env.number < 2 ^ 256)
      (made : construct crypto env answers deployer config gasAndEthConfig forwarder hub = .ok p) :
      Configured [(env.number, config)] p
  | setUniswapConfig (last : ℕ × UniswapConfig) (history : List (ℕ × UniswapConfig)) (env : Env)
      (answers : ConfigAnswers) (sender : Address) (config : UniswapConfig) (p next : ConfiguredPaymaster)
      (before : Configured (last :: history) p) (isWord : env.number < 2 ^ 256)
      (later : last.1 ≤ env.number)
      (done : setUniswapConfig crypto env answers sender config p = .ok next) :
      Configured ((env.number, config) :: last :: history) next
  | setGasAndEthConfig (history : List (ℕ × UniswapConfig)) (sender : Address) (config : GasAndEthConfig)
      (p next : ConfiguredPaymaster) (before : Configured history p)
      (done : setGasAndEthConfig sender config p = .ok next) : Configured history next

/-- A token is valid from the block of the last configuration when one of that block lists it. -/
structure Tracks (history : List (ℕ × UniswapConfig)) (number : ℕ) (p : ConfiguredPaymaster) : Prop where
  latest : ∀ call ∈ history, call.1 ≤ number
  blockNumber : p.tokensBlockNumber.val = number
  past : ∀ token, (p.validFrom token).val ≤ number
  valid : ∀ token, (p.validFrom token).val = number ↔ ∃ call ∈ history, call.1 = number ∧ token ∈ call.2.tokens

theorem ofNat_word (number : ℕ) (isWord : number < 2 ^ 256) : (Fin.ofNat (2 ^ 256) number : Uint256).val = number :=
  Nat.mod_eq_of_lt isWord

theorem tracks_wrote (history : List (ℕ × UniswapConfig)) (number earlier : ℕ) (config : UniswapConfig)
    (p next : ConfiguredPaymaster) (tracks : Tracks history earlier p) (isWord : number < 2 ^ 256)
    (later : earlier ≤ number) (wrote : Wrote (Fin.ofNat (2 ^ 256) number) config.tokens p next) :
    Tracks ((number, config) :: history) number next where
  latest := by
    rintro call (_ | ⟨_, known⟩)
    · exact Nat.le_refl _
    · exact (tracks.latest call known).trans later
  blockNumber := by rw [wrote.tokensBlockNumber, ofNat_word number isWord]
  past := by
    intro token
    rw [wrote.validFrom]
    split
    · rw [ofNat_word number isWord]
    · exact (tracks.past token).trans later
  valid := by
    intro token
    rw [wrote.validFrom]
    split
    · rename_i listed
      rw [ofNat_word number isWord]
      exact ⟨fun _ => ⟨(number, config), List.mem_cons_self, rfl, listed⟩, fun _ => rfl⟩
    · rename_i unlisted
      have past := tracks.past token
      constructor
      · intro current
        have sameBlock : earlier = number := by omega
        rw [← sameBlock] at current ⊢
        obtain ⟨call, known, found⟩ := (tracks.valid token).mp current
        exact ⟨call, List.mem_cons_of_mem _ known, found⟩
      · rintro ⟨call, _ | ⟨_, known⟩, sameBlock, listed⟩
        · exact absurd listed unlisted
        · have bound := tracks.latest call known
          have current : earlier = number := by omega
          rw [← current] at sameBlock ⊢
          exact (tracks.valid token).mpr ⟨call, known, sameBlock, listed⟩

theorem configured_tracks (history : List (ℕ × UniswapConfig)) (p : ConfiguredPaymaster)
    (run : Configured crypto history p) : ∃ last earlier, history = last :: earlier ∧
      Tracks history last.1 p ∧ p.tokens = last.2.tokens := by
  induction run with
  | construct env answers deployer config gasAndEthConfig forwarder hub p isWord made =>
      have wrote := construct_wrote crypto env answers deployer config gasAndEthConfig forwarder hub p made
      have start : Tracks [(env.number, config)] env.number p := {
        latest := fun call known => by rw [List.mem_singleton.mp known]
        blockNumber := by rw [wrote.tokensBlockNumber, ofNat_word env.number isWord]
        past := fun token => by
          rw [wrote.validFrom]
          split
          · rw [ofNat_word env.number isWord]
          · exact Nat.zero_le _
        valid := fun token => by
          rw [wrote.validFrom]
          split
          · rename_i listed
            rw [ofNat_word env.number isWord]
            exact ⟨fun _ => ⟨_, List.mem_singleton_self _, rfl, listed⟩, fun _ => rfl⟩
          · rename_i unlisted
            have positive := env.number_pos
            constructor
            · intro current
              have zero : (0 : ℕ) = env.number := current
              omega
            · rintro ⟨call, known, -, listed⟩
              rw [List.mem_singleton.mp known] at listed
              exact absurd listed unlisted }
      exact ⟨_, [], rfl, start, wrote.tokens⟩
  | setUniswapConfig last history env answers sender config p next before isWord later done ih =>
      obtain ⟨_, _, same, tracks, _⟩ := ih
      cases same
      have wrote := setUniswapConfig_wrote crypto env answers sender config p next done
      exact ⟨_, _, rfl, tracks_wrote (last :: history) env.number last.1 config p next tracks isWord later wrote,
        wrote.tokens⟩
  | setGasAndEthConfig history sender config p next before done ih =>
      obtain ⟨last, earlier, same, tracks, listed⟩ := ih
      have kept := setGasAndEthConfig_same sender config p next done
      refine ⟨last, earlier, same, ⟨tracks.latest, ?_, ?_, ?_⟩, kept.tokens.trans listed⟩
      · rw [kept.tokensBlockNumber, tracks.blockNumber]
      · exact fun token => by rw [kept.validFrom]; exact tracks.past token
      · exact fun token => by rw [kept.validFrom]; exact tracks.valid token

/-- The tokens that are supported are the listed ones exactly when every configuration of the block
of the last one lists no others. -/
theorem supported_tokens_listed_iff (last : ℕ × UniswapConfig) (history : List (ℕ × UniswapConfig))
    (p : ConfiguredPaymaster) (run : Configured crypto (last :: history) p) :
    (∀ token, isTokenSupported token p.toPermitPaymaster ↔ token ∈ p.tokens) ↔
      ∀ earlier ∈ history, earlier.1 = last.1 → earlier.2.tokens ⊆ last.2.tokens := by
  obtain ⟨_, _, same, tracks, listed⟩ := configured_tracks crypto _ p run
  cases same
  have supported : ∀ token, isTokenSupported token p.toPermitPaymaster ↔
      ∃ call ∈ last :: history, call.1 = last.1 ∧ token ∈ call.2.tokens := by
    intro token
    rw [← tracks.valid token, isTokenSupported, Fin.ext_iff, tracks.blockNumber]
    rfl
  constructor
  · intro exact earlier known sameBlock token found
    rw [← listed, ← exact token, supported token]
    exact ⟨earlier, List.mem_cons_of_mem _ known, sameBlock, found⟩
  · intro contained token
    rw [supported token, listed]
    constructor
    · rintro ⟨call, _ | ⟨_, known⟩, sameBlock, found⟩
      · exact found
      · exact contained call known sameBlock found
    · exact fun found => ⟨last, List.mem_cons_self, rfl, found⟩

/-! Two lists of one token. -/

def sampleAnswers : ConfigAnswers where
  approve := fun _ _ => .ok true
  decimals := fun _ => .ok 18
  isRelayHub := fun _ => true
  isForwarder := fun _ => true

def listing (token : Address) : UniswapConfig :=
  ⟨90, 91, 1, [token], [92], [3000], ["permit(address)"], [10]⟩

def constructed : Except Revert ConfiguredPaymaster :=
  construct sampleCrypto sampleEnv sampleAnswers 5 (listing 40) ⟨1, 2, 3, 4, 5⟩ 8 9

def laterEnv : Env := ⟨5, 1, 1, 1, 11, 1015, by decide, by decide⟩

def relisted (env : Env) : Except Revert ConfiguredPaymaster :=
  constructed.bind (setUniswapConfig sampleCrypto env sampleAnswers 5 (listing 41))

theorem relisted_configured (env : Env) (isWord : env.number < 2 ^ 256) (later : sampleEnv.number ≤ env.number)
    (p : ConfiguredPaymaster) (made : relisted env = .ok p) :
    Configured sampleCrypto [(env.number, listing 41), (sampleEnv.number, listing 40)] p := by
  rw [relisted] at made
  cases first : constructed with
  | error failure => simp [first, Except.bind] at made
  | ok start =>
      rw [first] at made
      exact .setUniswapConfig (sampleEnv.number, listing 40) [] env sampleAnswers 5 (listing 41) start p
        (.construct sampleEnv sampleAnswers 5 (listing 40) ⟨1, 2, 3, 4, 5⟩ 8 9 start (by decide) first)
        isWord later made

theorem supported_tokens_listed_iff_blocks :
    ∃ p, relisted laterEnv = .ok p ∧
      ((∀ token, isTokenSupported token p.toPermitPaymaster ↔ token ∈ p.tokens) ↔
        ∀ earlier ∈ [(sampleEnv.number, listing 40)], earlier.1 = laterEnv.number →
          earlier.2.tokens ⊆ (listing 41).tokens) := by
  have succeeded : (relisted laterEnv).isOk = true := by decide +kernel
  cases made : relisted laterEnv with
  | error failure =>
      rw [made] at succeeded
      cases succeeded
  | ok p =>
      exact ⟨p, rfl, supported_tokens_listed_iff sampleCrypto (laterEnv.number, listing 41) _ p
        (relisted_configured laterEnv (by decide) (by decide) p made)⟩

/-- In the block of the first list, the token of that list stays supported. -/
theorem unlisted_token_supported :
    ∃ p, Configured sampleCrypto [(sampleEnv.number, listing 41), (sampleEnv.number, listing 40)] p ∧
      isTokenSupported 40 p.toPermitPaymaster ∧ 40 ∉ p.tokens := by
  have evaluated : (relisted sampleEnv).map
      (fun p => (decide (isTokenSupported 40 p.toPermitPaymaster), p.tokens)) = .ok (true, [41]) := by
    decide +kernel
  cases made : relisted sampleEnv with
  | error failure => simp [made, Except.map] at evaluated
  | ok p =>
      simp only [made, Except.map, Except.ok.injEq, Prod.mk.injEq, decide_eq_true_eq] at evaluated
      refine ⟨p, relisted_configured sampleEnv (by decide) (by decide) p made, evaluated.1, ?_⟩
      rw [evaluated.2]
      decide

end OpenGsn.Paymasters
