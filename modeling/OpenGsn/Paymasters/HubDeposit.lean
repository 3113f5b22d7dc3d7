import OpenGsn.Paymasters.PermitErc20UniswapV3
import OpenGsn.RelayHub.PaymasterSafety

/-! What `postRelayedCall` does to the deposit of the paymaster, and what the hub makes of it. -/

namespace OpenGsn.Paymasters

open Solidity Reentry RelayHub

variable (addresses : Immutables) (env : Env) (around : Surroundings) (this : Address)

def Raised (depositAmount amountSwapped : ℕ) (s : Site) : Prop :=
  if s.ether < depositAmount then
    ∃ next, swapLoop around this s.ether depositAmount s.paymaster.tokens 0 s = .ok (next, amountSwapped)
  else amountSwapped = 0

/-- The deposit once the paymaster has refilled it: all its ether goes there when the deposit is below
the minimum and the charge, and the target is not below the deposit. -/
def Refilled (ethActualCharge deposit : ℕ) (s : Site) : Prop :=
  s.paymaster.minHubBalance.val + ethActualCharge ≤ hubBalance this s ∧ deposit = hubBalance this s ∨
  hubBalance this s < s.paymaster.minHubBalance.val + ethActualCharge ∧
    hubBalance this s ≤ s.paymaster.targetHubBalance.val ∧
    s.paymaster.targetHubBalance.val - hubBalance this s + ethActualCharge < 2 ^ 256 ∧
    deposit < 2 ^ 256 ∧
    ∃ amountSwapped,
      Raised around this (s.paymaster.targetHubBalance.val - hubBalance this s + ethActualCharge)
        amountSwapped s ∧
      deposit = hubBalance this s + (s.ether + amountSwapped)

/-- Either nothing is withdrawn, or what is left is enough, and the hub and the owner do their part. -/
def Remains (balanceBefore deposit ether : ℕ) (p : PermitPaymaster) : Prop :=
  deposit < p.minWithdrawalAmount.val + p.targetHubBalance.val ∧ balanceBefore ≤ deposit ∨
  p.minWithdrawalAmount.val + p.targetHubBalance.val ≤ deposit ∧ balanceBefore ≤ p.targetHubBalance.val ∧
    deposit - p.targetHubBalance.val ≤ ether ∧ p.owner ≠ addresses.this

structure Deposited (s t : Site) (amount : ℕ) : Prop where
  balance : hubBalance this t = hubBalance this s + amount
  ether : t.world.ether = s.world.ether + amount
  paymaster : t.paymaster = s.paymaster

/-- What swaps change: tokens only, and the router holds what they brought. -/
structure Swapped (s t : Site) (amount : ℕ) : Prop where
  world : t.world = s.world
  paymaster : t.paymaster = s.paymaster
  ether : t.ether = s.ether
  held : around.uniswap.wethHeld s.tokens + amount ≤ around.uniswap.wethHeld t.tokens

theorem swapped_none (s : Site) : Swapped around s s 0 := ⟨rfl, rfl, rfl, Nat.le_refl _⟩

theorem swapped_trans (first second third : Site) (one two : ℕ) (early : Swapped around first second one)
    (late : Swapped around second third two) : Swapped around first third (one + two) where
  world := late.world.trans early.world
  paymaster := late.paymaster.trans early.paymaster
  ether := late.ether.trans early.ether
  held := by
    have before := early.held
    have after := late.held
    omega

theorem swapToToken_swapped (params : ExactInputSingle) (s : Site) :
    Swapped around s (swapToToken around params s).1 (swapToToken around params s).2 := by
  unfold swapToToken
  split
  next tokens amountOut done =>
    exact ⟨rfl, rfl, rfl, around.uniswap.swap_held params s.tokens tokens amountOut done⟩
  next => exact swapped_none around s

theorem maybeSwapTokenToWeth_swapped (tokenIn : Address) (s next : Site) (amount : ℕ)
    (taken : maybeSwapTokenToWeth around this tokenIn s = .ok (next, amount)) :
    Swapped around s next amount := by
  unfold maybeSwapTokenToWeth at taken
  split at taken
  next => cases taken
  next ledger found =>
    split at taken
    next =>
      simp only [swapAll, bind_ok, Except.ok.injEq] at taken
      obtain ⟨quote, -, inWei, -, amountOutMin, -, chosen⟩ := taken
      split at chosen
      next =>
        cases chosen
        exact swapped_none around s
      next =>
        have made := swapToToken_swapped around
          ⟨tokenIn, s.paymaster.weth, (s.paymaster.tokensSwapData tokenIn).uniswapPoolFee, ledger.balances this,
            amountOutMin⟩ s
        rw [chosen] at made
        exact made
    next =>
      cases taken
      exact swapped_none around s

theorem swapLoop_swapped (balance depositAmount : ℕ) (tokens : List Address) (before after : ℕ)
    (s next : Site)
    (taken : swapLoop around this balance depositAmount tokens before s = .ok (next, after)) :
    ∃ amount, after = before + amount ∧ Swapped around s next amount := by
  induction tokens generalizing before s with
  | nil =>
      cases taken
      exact ⟨0, rfl, swapped_none around next⟩
  | cons token rest ih =>
      simp only [swapLoop, bind_ok] at taken
      obtain ⟨sum, -, taken⟩ := taken
      split at taken
      next =>
        simp only [bind_ok, checkedAdd_ok] at taken
        obtain ⟨⟨middle, brought⟩, swapped, _, ⟨-, rfl⟩, later⟩ := taken
        obtain ⟨more, rfl, final⟩ := ih (before + brought) middle later
        have first := maybeSwapTokenToWeth_swapped around this token s middle brought swapped
        exact ⟨brought + more, Nat.add_assoc .., swapped_trans around s middle next brought more first final⟩
      next =>
        cases taken
        exact ⟨0, rfl, swapped_none around next⟩

theorem raiseEther_ok (depositAmount amountSwapped : ℕ) (s next : Site)
    (taken : raiseEther around this depositAmount s = .ok (next, amountSwapped)) :
    Raised around this depositAmount amountSwapped s ∧ next.world = s.world ∧
      next.paymaster = s.paymaster ∧ s.ether + amountSwapped ≤ next.ether := by
  unfold raiseEther at taken
  unfold Raised
  split at taken
  next short =>
    rw [if_pos short]
    simp only [bind_ok] at taken
    obtain ⟨⟨middle, brought⟩, looped, last, unwrapped, same⟩ := taken
    cases same
    obtain ⟨amount, total, swapped⟩ := swapLoop_swapped around this _ _ _ _ _ _ _ looped
    refine ⟨⟨middle, looped⟩, ?_⟩
    unfold unwrapWeth at unwrapped
    split at unwrapped
    next =>
      have enough : brought ≤ around.uniswap.wethHeld middle.tokens := by
        have held := swapped.held
        omega
      obtain ⟨tokens, sent, answered, least⟩ := around.uniswap.unwrap_sent brought middle.tokens enough
      rw [answered] at unwrapped
      cases unwrapped
      refine ⟨swapped.world, swapped.paymaster, ?_⟩
      rw [← swapped.ether]
      exact Nat.add_le_add_left least _
    next none =>
      cases unwrapped
      refine ⟨swapped.world, swapped.paymaster, ?_⟩
      rw [Nat.eq_zero_of_not_pos none, swapped.ether]
      exact Nat.le_refl _
  next enough =>
    cases taken
    rw [if_neg enough]
    exact ⟨rfl, rfl, rfl, Nat.le_refl _⟩

theorem raiseEther_raised (depositAmount amountSwapped : ℕ) (s : Site)
    (raised : Raised around this depositAmount amountSwapped s) :
    ∃ next, raiseEther around this depositAmount s = .ok (next, amountSwapped) := by
  unfold Raised at raised
  unfold raiseEther
  split at raised
  next short =>
    obtain ⟨middle, looped⟩ := raised
    obtain ⟨amount, total, swapped⟩ := swapLoop_swapped around this _ _ _ _ _ _ _ looped
    rw [if_pos short]
    unfold unwrapWeth
    by_cases some : 0 < amountSwapped
    · have enough : amountSwapped ≤ around.uniswap.wethHeld middle.tokens := by
        have held := swapped.held
        omega
      obtain ⟨tokens, sent, answered, -⟩ := around.uniswap.unwrap_sent amountSwapped middle.tokens enough
      refine ⟨(middle.setTokens tokens).receive sent, ?_⟩
      simp only [bind_ok]
      exact ⟨_, looped, _, by simp only [if_pos some, answered], rfl⟩
    · refine ⟨middle, ?_⟩
      simp only [bind_ok]
      exact ⟨_, looped, _, by simp only [if_neg some], rfl⟩
  next enough =>
    subst raised
    exact ⟨s, if_neg enough⟩

theorem depositForThis_ok (value : ℕ) (s t : Site) (taken : depositForThis this value s = .ok t) :
    hubBalance this s + value < 2 ^ 256 ∧ Deposited this s t value := by
  unfold depositForThis at taken
  split at taken
  next => cases taken
  next =>
    simp only [RelayHub.depositFor, bind_ok, checkedAdd_ok, Except.ok.injEq] at taken
    obtain ⟨hub, ⟨_, -, balance, ⟨fits, rfl⟩, rfl⟩, rfl⟩ := taken
    refine ⟨fits, ?_, rfl, rfl⟩
    exact Function.update_self ..

theorem depositForThis_covered (value : ℕ) (s : Site) (fits : hubBalance this s + value < 2 ^ 256)
    (covered : value ≤ s.ether) : ∃ t, depositForThis this value s = .ok t := by
  have enough : ¬ s.ether < value := Nat.not_lt.mpr covered
  let hub := (s.world.hub.setBalance this (hubBalance this s + value)).emit (.deposited this this value)
  have taken : RelayHub.depositFor this this true value s.world.hub = .ok hub := by
    simp only [RelayHub.depositFor, bind_ok, require_ok, checkedAdd_ok]
    exact ⟨(), trivial, _, ⟨fits, rfl⟩, rfl⟩
  refine ⟨(s.spend value).setWorld ((s.world.receive value).setHub hub), ?_⟩
  rw [depositForThis, if_neg enough, taken]
  rfl

theorem refillHubDeposit_ok (depositAmount : ℕ) (s t : Site) (bounded : hubBalance this s < 2 ^ 256)
    (taken : refillHubDeposit around this depositAmount s = .ok t) :
    ∃ amountSwapped, Raised around this depositAmount amountSwapped s ∧
      hubBalance this s + (s.ether + amountSwapped) < 2 ^ 256 ∧
      Deposited this s t (s.ether + amountSwapped) := by
  simp only [refillHubDeposit, bind_ok, checkedAdd_ok] at taken
  obtain ⟨⟨middle, amountSwapped⟩, raising, _, ⟨-, rfl⟩, taken⟩ := taken
  obtain ⟨raised, world, paymaster, -⟩ := raiseEther_ok around this depositAmount amountSwapped s middle raising
  have balance : hubBalance this middle = hubBalance this s := by rw [hubBalance, world, hubBalance]
  refine ⟨amountSwapped, raised, ?_⟩
  split at taken
  next =>
    obtain ⟨fits, deposited⟩ := depositForThis_ok this _ middle t taken
    rw [balance] at fits
    refine ⟨fits, deposited.balance.trans ?_, deposited.ether.trans ?_, deposited.paymaster.trans paymaster⟩
    · rw [balance]
    · rw [world]
  next none =>
    cases taken
    rw [Nat.eq_zero_of_not_pos none]
    exact ⟨bounded, balance, by rw [world]; rfl, paymaster⟩

theorem refillHubDeposit_raised (depositAmount amountSwapped : ℕ) (s : Site)
    (raised : Raised around this depositAmount amountSwapped s)
    (fits : hubBalance this s + (s.ether + amountSwapped) < 2 ^ 256) :
    ∃ t, refillHubDeposit around this depositAmount s = .ok t ∧
      Deposited this s t (s.ether + amountSwapped) := by
  obtain ⟨middle, raising⟩ := raiseEther_raised around this depositAmount amountSwapped s raised
  obtain ⟨-, world, paymaster, covered⟩ := raiseEther_ok around this depositAmount amountSwapped s middle raising
  have balance : hubBalance this middle = hubBalance this s := by rw [hubBalance, world, hubBalance]
  by_cases some : 0 < s.ether + amountSwapped
  · rw [← balance] at fits
    obtain ⟨t, deposit⟩ := depositForThis_covered this _ middle fits covered
    have deposited := (depositForThis_ok this _ middle t deposit).2
    refine ⟨t, ?_, deposited.balance.trans ?_, deposited.ether.trans ?_, deposited.paymaster.trans paymaster⟩
    · simp only [refillHubDeposit, bind_ok, checkedAdd_ok]
      exact ⟨_, raising, _, ⟨by omega, rfl⟩, by rw [if_pos some, deposit]⟩
    · rw [balance]
    · rw [world]
  · refine ⟨middle, ?_, ?_, ?_, paymaster⟩
    · simp only [refillHubDeposit, bind_ok, checkedAdd_ok]
      exact ⟨_, raising, _, ⟨by omega, rfl⟩, by rw [if_neg some]⟩
    · rw [balance, Nat.eq_zero_of_not_pos some]
      rfl
    · rw [world, Nat.eq_zero_of_not_pos some]
      rfl

theorem refillHubDepositIfNeeded_ok (ethActualCharge : ℕ) (s t : Site)
    (taken : refillHubDepositIfNeeded around this ethActualCharge s = .ok t) :
    s.paymaster.minHubBalance.val + ethActualCharge < 2 ^ 256 ∧
      ∃ amount, Refilled around this ethActualCharge (hubBalance this s + amount) s ∧ Deposited this s t amount := by
  simp only [refillHubDepositIfNeeded, bind_ok, checkedAdd_ok] at taken
  obtain ⟨threshold, ⟨fits, rfl⟩, taken⟩ := taken
  refine ⟨fits, ?_⟩
  split at taken
  next above =>
    cases taken
    exact ⟨0, .inl ⟨above, rfl⟩, rfl, rfl, rfl⟩
  next below =>
    simp only [bind_ok, checkedAdd_ok, checkedSub_ok] at taken
    obtain ⟨_, ⟨targeted, rfl⟩, depositAmount, ⟨sum, rfl⟩, taken⟩ := taken
    have bounded : hubBalance this s < 2 ^ 256 := Nat.lt_of_le_of_lt targeted s.paymaster.targetHubBalance.isLt
    obtain ⟨amountSwapped, raised, total, deposited⟩ := refillHubDeposit_ok around this _ s t bounded taken
    exact ⟨_, .inr ⟨Nat.lt_of_not_le below, targeted, sum, total, amountSwapped, raised, rfl⟩, deposited⟩

theorem refillHubDepositIfNeeded_refilled (ethActualCharge deposit : ℕ) (s : Site)
    (fits : s.paymaster.minHubBalance.val + ethActualCharge < 2 ^ 256)
    (refilled : Refilled around this ethActualCharge deposit s) :
    ∃ t amount, refillHubDepositIfNeeded around this ethActualCharge s = .ok t ∧
      deposit = hubBalance this s + amount ∧ Deposited this s t amount := by
  rcases refilled with ⟨above, rfl⟩ | ⟨below, targeted, sum, total, amountSwapped, raised, rfl⟩
  · refine ⟨s, 0, ?_, rfl, rfl, rfl, rfl⟩
    simp only [refillHubDepositIfNeeded, bind_ok, checkedAdd_ok]
    exact ⟨_, ⟨fits, rfl⟩, if_pos above⟩
  · obtain ⟨t, refilling, deposited⟩ := refillHubDeposit_raised around this _ amountSwapped s raised total
    refine ⟨t, s.ether + amountSwapped, ?_, rfl, deposited⟩
    simp only [refillHubDepositIfNeeded, bind_ok, checkedAdd_ok]
    refine ⟨_, ⟨fits, rfl⟩, ?_⟩
    rw [if_neg (Nat.not_le_of_lt below)]
    simp only [bind_ok, checkedAdd_ok, checkedSub_ok]
    exact ⟨_, ⟨targeted, rfl⟩, _, ⟨sum, rfl⟩, refilling⟩

/-! The withdrawal -/

def withdrawn (account dest : Address) (amount : ℕ) (w : World) : World :=
  let w := w.setHub (w.hub.setBalance account (w.hub.balances account - amount))
  let w := w.send amount
  w.setHub (w.hub.emit (.withdrawn account dest amount))

theorem withdraw_drive (account dest : Address) (amount : ℕ) (w : World) (result : World × Unit) :
    (RelayHub.withdraw addresses account dest amount w).drive takesEther = .ok result ↔
      amount ≤ w.hub.balances account ∧ amount ≤ w.ether ∧ dest ≠ addresses.this ∧
        withdrawn account dest amount w = result.1 := by
  obtain ⟨next, value⟩ := result
  unfold RelayHub.withdraw withdrawMultiple
  by_cases covered : amount ≤ w.hub.balances account
  · have passed : require (amount ≤ w.hub.balances account) "insufficient funds" = .ok () :=
      (require_ok _ _ _).mpr covered
    simp only [passed, Code.check, World.setHub_ether]
    by_cases refused : w.ether < amount ∨ dest = addresses.this
    · rw [if_pos refused]
      constructor
      · intro made
        cases made
      · intro fine
        rcases refused with short | own
        · omega
        · exact absurd own fine.2.2.1
    · rw [if_neg refused]
      rw [not_or] at refused
      simp only [Code.drive, takesEther, withdrawMultiple, Except.ok.injEq, Prod.mk.injEq, and_true]
      constructor
      · intro made
        exact ⟨covered, Nat.le_of_not_lt refused.1, refused.2, made⟩
      · exact fun fine => fine.2.2.2
  · have failed : require (amount ≤ w.hub.balances account) "insufficient funds" =
        .error (.reason "insufficient funds") := if_neg covered
    simp only [failed, Code.check, Code.drive]
    constructor
    · intro made
      cases made
    · intro fine
      exact absurd fine.1 covered

theorem withdrawToOwnerIfNeeded_remains (balanceBefore : ℕ) (s : Site) :
    (∃ t, withdrawToOwnerIfNeeded addresses this s = .ok t ∧ balanceBefore ≤ hubBalance this t) ↔
      s.paymaster.minWithdrawalAmount.val + s.paymaster.targetHubBalance.val < 2 ^ 256 ∧
        Remains addresses balanceBefore (hubBalance this s) s.world.ether s.paymaster := by
  simp only [withdrawToOwnerIfNeeded, bind_ok, checkedAdd_ok]
  unfold Remains
  by_cases above : s.paymaster.minWithdrawalAmount.val + s.paymaster.targetHubBalance.val ≤ hubBalance this s
  · have left : hubBalance this s - (hubBalance this s - s.paymaster.targetHubBalance.val) =
        s.paymaster.targetHubBalance.val := by omega
    constructor
    · rintro ⟨t, ⟨_, ⟨fits, rfl⟩, taken⟩, kept⟩
      rw [if_pos above] at taken
      simp only [bind_ok, checkedSub_ok, withdrawToOwner, withdraw_drive] at taken
      obtain ⟨_, ⟨-, rfl⟩, ⟨world, _⟩, ⟨-, held, other, rfl⟩, made⟩ := taken
      cases made
      refine ⟨fits, .inr ⟨above, ?_, held, other⟩⟩
      rw [← left]
      simpa only [hubBalance, withdrawn, Site.setWorld_world, World.setHub_hub, World.send_hub,
        Hub.emit_balances, Hub.setBalance_balances, Function.update_self] using kept
    · rintro ⟨fits, ⟨below, -⟩ | ⟨-, kept, held, other⟩⟩
      · omega
      · refine ⟨s.setWorld (withdrawn this s.paymaster.owner
          (hubBalance this s - s.paymaster.targetHubBalance.val) s.world), ⟨_, ⟨fits, rfl⟩, ?_⟩, ?_⟩
        · rw [if_pos above]
          simp only [bind_ok, checkedSub_ok, withdrawToOwner, withdraw_drive]
          exact ⟨_, ⟨by omega, rfl⟩, (_, ()), ⟨Nat.sub_le .., held, other, rfl⟩, rfl⟩
        · rw [← left] at kept
          simpa only [hubBalance, withdrawn, Site.setWorld_world, World.setHub_hub, World.send_hub,
            Hub.emit_balances, Hub.setBalance_balances, Function.update_self] using kept
  · constructor
    · rintro ⟨t, ⟨_, ⟨fits, rfl⟩, taken⟩, kept⟩
      rw [if_neg above] at taken
      cases taken
      exact ⟨fits, .inl ⟨Nat.lt_of_not_le above, kept⟩⟩
    · rintro ⟨fits, ⟨below, kept⟩ | ⟨reached, -⟩⟩
      · exact ⟨s, ⟨_, ⟨fits, rfl⟩, if_neg above⟩, kept⟩
      · exact absurd reached above

/-! The encodings -/

theorem decodeAddress_word (data : Bytes) (head : ℕ) (account : Address)
    (read : readWord data head = account.val) : decodeAddress data head = .ok account := by
  have inside : readWord data head < 2 ^ 160 := read ▸ account.isLt
  rw [decodeAddress, dif_pos inside]
  exact congrArg Except.ok (Fin.ext read)

theorem decode_encodeContext (c : PostContext) (quoted : c.priceQuote < 2 ^ 256)
    (charged : c.tokenPreCharge < 2 ^ 256) : decodeContext (encodeContext c) = .ok c := by
  have first := readWord_word [] (word c.payer.val ++ word c.priceQuote ++ word c.tokenPreCharge) c.token.val
    (address_lt_word c.token)
  have second := readWord_word (word c.token.val) (word c.priceQuote ++ word c.tokenPreCharge) c.payer.val
    (address_lt_word c.payer)
  have third := readWord_word (word c.token.val ++ word c.payer.val) (word c.tokenPreCharge) c.priceQuote quoted
  have fourth := readWord_word (word c.token.val ++ word c.payer.val ++ word c.priceQuote) [] c.tokenPreCharge
    charged
  have whole : 128 ≤ (encodeContext c).length := by
    simp only [encodeContext, List.length_append, word_length]
    omega
  simp only [List.nil_append, List.append_nil, ← List.append_assoc, List.length_nil, List.length_append,
    word_length, Nat.reduceAdd] at first second third fourth
  rw [← encodeContext] at first second third fourth
  have token := decodeAddress_word (encodeContext c) 0 c.token first
  have payer := decodeAddress_word (encodeContext c) 32 c.payer second
  simp only [decodeContext, if_neg (not_lt.mpr whole), bind_ok]
  exact ⟨_, token, _, payer, by rw [third, fourth]⟩

theorem decode_encodePreRelayed (context : Bytes) (short : context.length < 2 ^ 64) :
    decodeBytesBool (encodePreRelayed context) = .ok (context, false) := by
  have first := readWord_word [] (word 0 ++ bytesTail context) 64 (by decide)
  have second := readWord_word (word 64) (bytesTail context) 0 (by decide)
  have third := readWord_word (word 64 ++ word 0)
    (context ++ List.replicate (padding context.length) 0) context.length (by omega)
  have contents : (encodePreRelayed context).drop 96 = context ++ List.replicate (padding context.length) 0 := by
    rw [encodePreRelayed, bytesTail, ← List.append_assoc, ← List.append_assoc, List.append_assoc]
    exact List.drop_left' (by simp only [List.length_append, word_length])
  have length : (encodePreRelayed context).length = 96 + context.length + padding context.length := by
    simp only [encodePreRelayed, bytesTail, List.length_append, word_length, List.length_replicate]
    omega
  simp only [List.nil_append, ← List.append_assoc, List.length_nil, word_length] at first second
  rw [← encodePreRelayed] at first second
  have tail : word 64 ++ word 0 ++ word context.length ++
      (context ++ List.replicate (padding context.length) 0) = encodePreRelayed context := by
    simp only [encodePreRelayed, bytesTail, List.append_assoc]
  rw [tail, List.length_append, word_length] at third
  have sixtyFour : readWord (encodePreRelayed context) 64 = context.length := third
  have long : ¬ (encodePreRelayed context).length < 64 := by omega
  have inside : ¬ (64 ≥ 2 ^ 64 ∨ (encodePreRelayed context).length ≤ 64 + 31) := by omega
  have small : ¬ context.length ≥ 2 ^ 64 := by omega
  have complete : ¬ (encodePreRelayed context).length < 64 + 32 + context.length := by omega
  have decoded : decodeBytes (encodePreRelayed context) 0 = .ok context := by
    simp only [decodeBytes, first, if_neg inside, sixtyFour, if_neg small, if_neg complete, contents,
      Nat.reduceAdd]
    rw [List.take_left' rfl]
  have flag : decodeBool (encodePreRelayed context) 32 = .ok false := by
    simp only [decodeBool, second]
  simp only [decodeBytesBool, if_neg long, bind_ok]
  exact ⟨context, decoded, false, flag, rfl⟩

theorem checkedDiv_lt (a b c : ℕ) (bounded : a < 2 ^ 256) (taken : checkedDiv a b = .ok c) : c < 2 ^ 256 := by
  unfold checkedDiv at taken
  split at taken
  · cases taken
  · cases taken
    exact Nat.lt_of_le_of_lt (Nat.div_le_self a b) bounded

/-! The relayed call -/

/-- The hub still is the paymaster's, the thresholds can be computed, the refund is paid, and the
deposit that is then left is enough. -/
structure Sustains (balanceBefore : ℕ) (c : PostContext) (tokenActualCharge ethActualCharge : ℕ) (s : Site) :
    Prop where
  hub : addresses.this = s.paymaster.relayHub
  lower : s.paymaster.minHubBalance.val + ethActualCharge < 2 ^ 256
  upper : s.paymaster.minWithdrawalAmount.val + s.paymaster.targetHubBalance.val < 2 ^ 256
  deposit : ∃ tokens deposit,
    safeTransfer s.tokens c.token this c.payer (c.tokenPreCharge - tokenActualCharge) = .ok tokens ∧
    Refilled around this ethActualCharge deposit (s.setTokens tokens) ∧
    Remains addresses balanceBefore deposit (s.world.ether + (deposit - hubBalance this s)) s.paymaster

theorem postRelayedCall_sustains (balanceBefore gasUseWithoutPost : ℕ) (relayData : RelayData)
    (c : PostContext) (tokenActualCharge ethActualCharge : ℕ) (s : Site)
    (quoted : c.priceQuote < 2 ^ 256) (precharged : c.tokenPreCharge < 2 ^ 256)
    (charged : actualCharge env gasUseWithoutPost relayData c.priceQuote s =
      .ok (tokenActualCharge, ethActualCharge))
    (within : tokenActualCharge ≤ c.tokenPreCharge) :
    (∃ t, postRelayedCall addresses env around this addresses.this (encodeContext c) gasUseWithoutPost relayData s =
        .ok t ∧ balanceBefore ≤ hubBalance this t) ↔
      Sustains addresses around this balanceBefore c tokenActualCharge ethActualCharge s := by
  have decoded := decode_encodeContext c quoted precharged
  simp only [postRelayedCall, bind_ok, decoded, verifyRelayHubOnly, require_ok]
  constructor
  · rintro ⟨t, ⟨_, hub, _, ⟨⟩, _, same, _, _, tokens, paid, refilled, refilling, taken⟩, kept⟩
    rw [charged] at same
    cases same
    obtain ⟨lower, amount, enough, deposited⟩ := refillHubDepositIfNeeded_ok around this _ _ refilled refilling
    obtain ⟨upper, remains⟩ :=
      (withdrawToOwnerIfNeeded_remains addresses this balanceBefore refilled).mp ⟨t, taken, kept⟩
    rw [deposited.paymaster] at upper remains
    rw [deposited.balance, deposited.ether] at remains
    have added : hubBalance this (s.setTokens tokens) + amount - hubBalance this s = amount :=
      Nat.add_sub_cancel_left ..
    refine ⟨hub, lower, upper, tokens, _, paid, enough, ?_⟩
    rw [added]
    exact remains
  · intro sustains
    obtain ⟨tokens, deposit, paid, enough, remains⟩ := sustains.deposit
    obtain ⟨refilled, amount, refilling, rfl, deposited⟩ :=
      refillHubDepositIfNeeded_refilled around this ethActualCharge deposit (s.setTokens tokens) sustains.lower
        enough
    have added : hubBalance this (s.setTokens tokens) + amount - hubBalance this s = amount :=
      Nat.add_sub_cancel_left ..
    rw [added] at remains
    obtain ⟨t, taken, kept⟩ := (withdrawToOwnerIfNeeded_remains addresses this balanceBefore refilled).mpr (by
      rw [deposited.paymaster, deposited.balance, deposited.ether]
      exact ⟨sustains.upper, remains⟩)
    exact ⟨t, ⟨(), sustains.hub, c, rfl, _, charged, (), within, tokens, paid, refilled, refilling, taken⟩, kept⟩

def runInner (crypto : Crypto) (relayed : Site → Except Revert (Site × Bytes)) (args : RelayCallArgs)
    (limits : GasAndDataLimits) (totalInitialGas maxPossibleGas : ℕ) (gas : GasReadings) (s : Site) :
    Except Revert (Site × RelayCallStatus × Bytes) :=
  ((innerRelayCall crypto addresses env addresses.this args limits totalInitialGas maxPossibleGas gas
    s.world).zoom Site.world Site.setWorld id s).drive
      (answerCall addresses env around args.relayRequest.relayData.paymaster relayed)

structure PostReached (relayed : Site → Except Revert (Site × Bytes)) (args : RelayCallArgs)
    (totalInitialGas maxPossibleGas : ℕ) (gas : GasReadings) (s middle : Site) (c : PostContext)
    (success : Bool) (ret : Bytes) (gasUseWithoutPost : ℕ) : Prop where
  reached : ∃ gasUsedToCallInner prepared returned spent,
    checkedSub totalInitialGas gas.innerLeft = .ok gasUsedToCallInner ∧
    preRelayedCall env around args.relayRequest.relayData.paymaster addresses.this args.relayRequest
      args.approvalData maxPossibleGas s = .ok (prepared, c) ∧
    relayed prepared = .ok (middle, returned) ∧
    decodeBoolBytes returned = .ok (success, ret) ∧
    checkedSub gas.innerInitial gas.innerBeforePost = .ok spent ∧
    checkedAdd 256 gasUsedToCallInner spent = .ok gasUseWithoutPost

theorem preRelayedCall_bounded (sender : Address) (relayRequest : RelayRequest) (approvalData : Bytes)
    (maxPossibleGas : ℕ) (s prepared : Site) (c : PostContext)
    (taken : preRelayedCall env around this sender relayRequest approvalData maxPossibleGas s =
      .ok (prepared, c)) : c.priceQuote < 2 ^ 256 ∧ c.tokenPreCharge < 2 ^ 256 := by
  simp only [preRelayedCall, bind_ok, Except.ok.injEq, Prod.mk.injEq] at taken
  obtain ⟨_, _, _, _, _, _, _, _, _, _, _, _, _, _, permitted, _, quote, quoted, ⟨tokenCharge, ethCharge⟩,
    charged, _, _, _, rfl⟩ := taken
  constructor
  · unfold priceQuoteOf at quoted
    split at quoted
    next => cases quoted
    next =>
      simp only [toActualQuote, bind_ok, checkedMul_ok] at quoted
      obtain ⟨_, ⟨bounded, rfl⟩, divided⟩ := quoted
      exact checkedDiv_lt _ _ _ bounded divided
  · simp only [calculateTokenCharge, addPaymasterFee, bind_ok, checkedMul_ok, Except.ok.injEq, Prod.mk.injEq]
      at charged
    obtain ⟨_, _, _, _, _, ⟨_, _, _, ⟨bounded, rfl⟩, divided⟩, rfl, _⟩ := charged
    exact checkedDiv_lt _ _ _ bounded divided

theorem finishInner_drive (handler : Outgoing → Site → Except Revert (Site × Bytes)) (paymaster : Address)
    (balanceBefore : ℕ) (success : Bool) (ret : Bytes) (final : Site) :
    ((finishInner paymaster balanceBefore success ret final.world).zoom Site.world Site.setWorld id final).drive
        handler =
      if hubBalance paymaster final < balanceBefore then
        .error (.data (revertWithStatus .paymasterBalanceChanged []))
      else .ok (final, if success then .ok else .relayedCallFailed, ret) := by
  unfold finishInner hubBalance
  split
  · rfl
  · rfl

/-- What is left of the frame once `postRelayedCall` is reached. -/
theorem runInner_reached (crypto : Crypto) (relayed : Site → Except Revert (Site × Bytes))
    (args : RelayCallArgs) (limits : GasAndDataLimits) (totalInitialGas maxPossibleGas : ℕ)
    (gas : GasReadings) (s middle : Site) (c : PostContext) (success : Bool) (ret : Bytes)
    (gasUseWithoutPost : ℕ)
    (reached : PostReached addresses env around relayed args totalInitialGas maxPossibleGas gas s middle c
      success ret gasUseWithoutPost) :
    runInner addresses env around crypto relayed args limits totalInitialGas maxPossibleGas gas s =
      match postRelayedCall addresses env around args.relayRequest.relayData.paymaster addresses.this
          (encodeContext c) gasUseWithoutPost args.relayRequest.relayData middle with
      | .error error => .error (.data (revertWithStatus .postRelayedFailed error.bytes))
      | .ok final =>
          if hubBalance args.relayRequest.relayData.paymaster final <
              hubBalance args.relayRequest.relayData.paymaster s then
            .error (.data (revertWithStatus .paymasterBalanceChanged []))
          else .ok (final, if success then .ok else .relayedCallFailed, truncateInPlace ret) := by
  obtain ⟨gasUsedToCallInner, prepared, returned, spent, first, accepted, executed, decoded, second, third⟩ :=
    reached.reached
  have short : (encodeContext c).length < 2 ^ 64 := by
    simp only [encodeContext, List.length_append, word_length]
    omega
  have context := decode_encodePreRelayed (encodeContext c) short
  have called : require (addresses.this = addresses.this) "Must be called by RelayHub" = .ok () :=
    (require_ok _ _ _).mpr rfl
  have same : ∀ t : Site, t.setWorld t.world = t := fun _ => rfl
  unfold runInner innerRelayCall
  dsimp only
  rw [first, called]
  simp only [Code.check, Code.zoom, id, Code.drive, answerCall, same, accepted, Except.bind, bind, context,
    innerExecute, executed, decoded, Bool.false_eq_true, false_and, if_false, innerPostRelayedCall, second, third]
  cases posted : postRelayedCall addresses env around args.relayRequest.relayData.paymaster addresses.this
      (encodeContext c) gasUseWithoutPost args.relayRequest.relayData middle with
  | error error => simp only [failInner, Code.zoom, Code.drive]
  | ok final =>
      exact finishInner_drive (answerCall addresses env around args.relayRequest.relayData.paymaster relayed)
        args.relayRequest.relayData.paymaster _ success _ final

/-- Once the paymaster has taken its pre-charge and the actual charge is within it, the relayed call goes
through with the paymaster's deposit intact exactly if a refill does not start from above the target,
and a withdrawal leaves what there was at the start. -/
theorem own_relayed_call_sustained_iff (crypto : Crypto) (relayed : Site → Except Revert (Site × Bytes))
    (args : RelayCallArgs) (limits : GasAndDataLimits) (totalInitialGas maxPossibleGas : ℕ)
    (gas : GasReadings) (s middle : Site) (c : PostContext) (success : Bool) (ret : Bytes)
    (gasUseWithoutPost tokenActualCharge ethActualCharge : ℕ)
    (reached : PostReached addresses env around relayed args totalInitialGas maxPossibleGas gas s middle c
      success ret gasUseWithoutPost)
    (charged : actualCharge env gasUseWithoutPost args.relayRequest.relayData c.priceQuote middle =
      .ok (tokenActualCharge, ethActualCharge))
    (within : tokenActualCharge ≤ c.tokenPreCharge) :
    (∃ final status data,
      runInner addresses env around crypto relayed args limits totalInitialGas maxPossibleGas gas s =
        .ok (final, status, data) ∧
      (status = .ok ∨ status = .relayedCallFailed) ∧
      hubBalance args.relayRequest.relayData.paymaster s ≤
        hubBalance args.relayRequest.relayData.paymaster final) ↔
    Sustains addresses around args.relayRequest.relayData.paymaster
      (hubBalance args.relayRequest.relayData.paymaster s) c tokenActualCharge ethActualCharge middle := by
  have bounded : c.priceQuote < 2 ^ 256 ∧ c.tokenPreCharge < 2 ^ 256 := by
    obtain ⟨_, prepared, _, _, _, accepted, _⟩ := reached.reached
    exact preRelayedCall_bounded env around _ _ _ _ _ s prepared c accepted
  rw [← postRelayedCall_sustains addresses env around args.relayRequest.relayData.paymaster
    (hubBalance args.relayRequest.relayData.paymaster s) gasUseWithoutPost args.relayRequest.relayData c
    tokenActualCharge ethActualCharge middle bounded.1 bounded.2 charged within]
  rw [runInner_reached addresses env around crypto relayed args limits totalInitialGas maxPossibleGas gas s
    middle c success ret gasUseWithoutPost reached]
  constructor
  · rintro ⟨final, status, data, ended, -, kept⟩
    split at ended
    next => cases ended
    next posted =>
      split at ended
      next => cases ended
      next =>
        cases ended
        exact ⟨final, posted, kept⟩
  · rintro ⟨final, posted, kept⟩
    refine ⟨final, if success then .ok else .relayedCallFailed, truncateInPlace ret, ?_, ?_, kept⟩
    · rw [posted]
      exact if_neg (Nat.not_lt.mpr kept)
    · cases success with
      | true => exact .inl rfl
      | false => exact .inr rfl

/-! A paymaster with one token, at the price of one for one, and thresholds that vary -/

/-- No pool has any liquidity, so every swap reverts. -/
def sampleRouter : SwapRouter where
  exactInputSingle := fun _ _ => none
  unwrapWETH9 := fun amount tokens => if amount = 0 then some (tokens, 0) else none
  wethHeld := fun _ => 0
  swap_held := nofun
  unwrap_sent := by
    intro amount tokens held
    rw [Nat.le_zero.mp held]
    exact ⟨tokens, 0, rfl, Nat.le_refl 0⟩

def sampleSurroundings : Surroundings where
  uniswap := sampleRouter
  latestAnswer := fun _ => some (Fin.ofNat (2 ^ 256) (10 ^ 18))
  permit := fun _ _ tokens => .ok tokens
  isTrustedForwarder := fun _ _ => .ok (word 1)

def samplePaymaster (minHubBalance targetHubBalance minWithdrawalAmount : Uint256) : PermitPaymaster where
  owner := 50
  relayHub := sampleAddresses.this
  trustedForwarder := 33
  tokensSwapData := fun _ => ⟨41, 500, 10, [0x8f, 0xcb, 0xaf, 0x0c], Fin.ofNat (2 ^ 256) (10 ^ 36), 1⟩
  tokens := [40]
  weth := 42
  tokensBlockNumber := 1
  gasUsedByPost := 0
  minHubBalance := minHubBalance
  targetHubBalance := targetHubBalance
  minWithdrawalAmount := minWithdrawalAmount
  minSwapAmount := 0
  paymasterFee := 0

def sampleSite (minHubBalance targetHubBalance minWithdrawalAmount : Uint256) : Site where
  world := sampleWorld
  tokens := Function.update (fun _ => none) 40 (some ⟨fun _ => 10 ^ 30, fun _ _ _ => true⟩)
  paymaster := samplePaymaster minHubBalance targetHubBalance minWithdrawalAmount
  ether := 0

def tokenArgs : RelayCallArgs :=
  { sampleArgs with
    relayRequest := ⟨sampleArgs.relayRequest.request, { sampleRelayData with paymasterData := addressBytes 40 }⟩
    approvalData := [] }

def sampleRelayed (s : Site) : Except Revert (Site × Bytes) := .ok (s, word 1 ++ word 64 ++ bytesTail [])

def sampleContext : PostContext := ⟨40, 34, 10 ^ 36, 100050⟩

def samplePrepared (s : Site) : Site :=
  s.setTokens (Function.update s.tokens 40
    (some ⟨Erc20.moved (fun _ => 10 ^ 30) 34 32 100050, fun _ _ _ => true⟩))

theorem sampleQuote : priceQuoteOf sampleSurroundings
    ⟨41, 500, 10, [0x8f, 0xcb, 0xaf, 0x0c], Fin.ofNat (2 ^ 256) (10 ^ 36), 1⟩ = .ok (10 ^ 36) := by
  decide +kernel

theorem sampleCharge (minHubBalance targetHubBalance minWithdrawalAmount : Uint256) (gasUsed : ℕ)
    (small : gasUsed * 100 < 2 ^ 256)
    (charged : calculateCharge Solidity.sampleEnv sampleConfig gasUsed tokenArgs.relayRequest.relayData =
      .ok gasUsed)
    (converted : weiToToken gasUsed (10 ^ 36) = .ok gasUsed) :
    calculateTokenCharge Solidity.sampleEnv tokenArgs.relayRequest.relayData gasUsed (10 ^ 36)
      (sampleSite minHubBalance targetHubBalance minWithdrawalAmount) = .ok (gasUsed, gasUsed) := by
  have percent : 100 + (0 : Uint256).val < 2 ^ 256 := by decide
  simp only [calculateTokenCharge, addPaymasterFee, bind_ok, checkedAdd_ok, checkedMul_ok]
  refine ⟨gasUsed, charged, gasUsed, converted, gasUsed, ⟨100, ⟨percent, rfl⟩, _, ⟨small, rfl⟩, ?_⟩, rfl⟩
  exact congrArg Except.ok (Nat.mul_div_cancel gasUsed (by decide))

theorem sampleAccepted (minHubBalance targetHubBalance minWithdrawalAmount : Uint256) :
    let s := sampleSite minHubBalance targetHubBalance minWithdrawalAmount
    preRelayedCall Solidity.sampleEnv sampleSurroundings 32 100 tokenArgs.relayRequest [] 100050 s =
      .ok (samplePrepared s, sampleContext) := by
  intro s
  have token : getTokenFromPaymasterData tokenArgs.relayRequest.relayData.paymasterData = 40 := by decide
  have paid : safeTransfer s.tokens 40 34 32 100050 = .ok (samplePrepared s).tokens := by
    rw [safeTransfer_ok]
    refine ⟨⟨fun _ => 10 ^ 30, fun _ _ _ => true⟩, _, rfl, ?_, rfl⟩
    rw [Erc20.transfer_ok]
    exact ⟨by decide, rfl, rfl⟩
  have trusted : verifyForwarderTrusted sampleSurroundings tokenArgs.relayRequest = .ok () := by decide +kernel
  have named : 20 ≤ tokenArgs.relayRequest.relayData.paymasterData.length := by decide
  have charge := sampleCharge minHubBalance targetHubBalance minWithdrawalAmount 100050 (by decide)
    (by decide +kernel) (by decide +kernel)
  simp only [preRelayedCall, bind_ok, verifyRelayHubOnly, require_ok, token]
  refine ⟨(), rfl, (), rfl, (), trusted, (), rfl, (), rfl, (), named, (), ?_⟩
  refine ⟨rfl, s, ?_⟩
  refine ⟨?_, 10 ^ 36, sampleQuote, (100050, 100050), charge, _, paid, rfl⟩
  rfl

theorem sampleReached (minHubBalance targetHubBalance minWithdrawalAmount : Uint256) :
    let s := sampleSite minHubBalance targetHubBalance minWithdrawalAmount
    PostReached sampleAddresses Solidity.sampleEnv sampleSurroundings sampleRelayed tokenArgs 100243 100050
      sampleGas s (samplePrepared s) sampleContext true [] 51243 := by
  intro s
  have accepted := sampleAccepted minHubBalance targetHubBalance minWithdrawalAmount
  exact ⟨21243, samplePrepared s, word 1 ++ word 64 ++ bytesTail [], 30000, by decide, accepted, rfl, by decide,
    by decide, by decide⟩

theorem sampleActual (minHubBalance targetHubBalance minWithdrawalAmount : Uint256) :
    actualCharge Solidity.sampleEnv 51243 tokenArgs.relayRequest.relayData sampleContext.priceQuote
      (samplePrepared (sampleSite minHubBalance targetHubBalance minWithdrawalAmount)) = .ok (51243, 51243) := by
  have charge := sampleCharge minHubBalance targetHubBalance minWithdrawalAmount 51243 (by decide)
    (by decide +kernel) (by decide +kernel)
  have gasUsed : 51243 + (0 : Uint256).val < 2 ^ 256 := by decide
  simp only [actualCharge, bind_ok, checkedAdd_ok]
  exact ⟨51243, ⟨gasUsed, rfl⟩, charge⟩

def sampleRun (minHubBalance targetHubBalance minWithdrawalAmount : Uint256) :
    Except Revert (Site × RelayCallStatus × Bytes) :=
  runInner sampleAddresses Solidity.sampleEnv sampleSurroundings sampleCrypto sampleRelayed tokenArgs
    sampleLimits 100243 100050 sampleGas (sampleSite minHubBalance targetHubBalance minWithdrawalAmount)

/-- With a target that the deposit stays below, the paymaster leaves it as it is. -/
theorem own_relayed_call_sustained_iff_sample : ∃ final status data,
    sampleRun 10000 200000 10000 = .ok (final, status, data) ∧
    (status = .ok ∨ status = .relayedCallFailed) ∧ 100050 ≤ hubBalance 32 final := by
  refine (own_relayed_call_sustained_iff sampleAddresses Solidity.sampleEnv sampleSurroundings sampleCrypto
    sampleRelayed tokenArgs sampleLimits 100243 100050 sampleGas (sampleSite 10000 200000 10000)
    (samplePrepared (sampleSite 10000 200000 10000)) sampleContext true [] 51243 51243 51243
    (sampleReached 10000 200000 10000) (sampleActual 10000 200000 10000) (by decide)).mpr ?_
  refine ⟨rfl, by decide, by decide, ?_⟩
  have refund : ∃ tokens, safeTransfer (samplePrepared (sampleSite 10000 200000 10000)).tokens 40 32 34 48807 =
      .ok tokens := by
    simp only [safeTransfer_ok, Erc20.transfer_ok]
    exact ⟨_, _, _, rfl, ⟨by decide, rfl, rfl⟩, rfl⟩
  obtain ⟨tokens, paid⟩ := refund
  have above : (10000 : Uint256).val + 51243 ≤ 100050 := by decide
  have below : 100050 < (10000 : Uint256).val + (200000 : Uint256).val := by decide
  exact ⟨tokens, 100050, paid, .inl ⟨above, rfl⟩, .inl ⟨below, Nat.le_refl _⟩⟩

def failure (result : Except Revert (Site × RelayCallStatus × Bytes)) : Option Revert :=
  match result with
  | .ok _ => none
  | .error error => some error

/-- A deposit of 100050 that is above the target: with the minimum at 10000, the paymaster withdraws
20050 of it, and the hub rejects that; with the minimum at 50000, it subtracts the deposit from the
target. -/
theorem own_deposit_defeats_call :
    failure (sampleRun 10000 80000 10000) = some (.data (revertWithStatus .paymasterBalanceChanged [])) ∧
    failure (sampleRun 50000 80000 10000) =
      some (.data (revertWithStatus .postRelayedFailed (Revert.panic 0x11).bytes)) := by
  refine ⟨?_, ?_⟩
  · decide +kernel
  · decide +kernel

end OpenGsn.Paymasters
