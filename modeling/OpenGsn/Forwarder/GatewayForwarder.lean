import OpenGsn.Forwarder.Replay

/-! `GatewayForwarder.sol`: who can have a call forwarded for a sender. -/

namespace OpenGsn.GatewayForwarder

open Solidity Reentry
open Forwarder (Executed Outgoing targetCall)

structure State where
  forwarder : Forwarder.State
  trustedRelayHub : Address

def setForwarder (forwarder : Forwarder.State) (s : State) : State := { s with forwarder := forwarder }

variable (crypto : Crypto)

def deploy : State := ⟨Forwarder.deploy crypto, 0⟩

def setTrustedRelayHub (trustedRelayHub : Address) (s : State) : State :=
  { s with trustedRelayHub := trustedRelayHub }

def verifySig (env : Env) (caller : Address) (req : ForwardRequest) (domainSeparator requestTypeHash : Uint256)
    (suffixData sig : Bytes) (s : State) : Except Revert Unit :=
  if caller ≠ s.trustedRelayHub ∨ sig.length ≠ 0 then
    Forwarder.verifySig crypto env req domainSeparator requestTypeHash suffixData sig s.forwarder
  else .ok ()

def verify (env : Env) (caller : Address) (req : ForwardRequest) (domainSeparator requestTypeHash : Uint256)
    (suffixData sig : Bytes) (s : State) : Except Revert Unit := do
  Forwarder.verifyNonce req s.forwarder
  verifySig crypto env caller req domainSeparator requestTypeHash suffixData sig s

/-- `Forwarder.execute` with the signature check of this contract. -/
def execute (env : Env) (caller : Address) (value : ℕ) (req : ForwardRequest)
    (domainSeparator requestTypeHash : Uint256) (suffixData sig : Bytes) (gasleft : ℕ) (s : State) :
    Code State Outgoing Bytes Revert (Bool × Bytes) :=
  let s := setForwarder { s.forwarder with ether := s.forwarder.ether + value } s
  .check (verifySig crypto env caller req domainSeparator requestTypeHash suffixData sig s) fun _ =>
  (Forwarder.executeVerified env ⟨req, domainSeparator, requestTypeHash, suffixData, sig, env.origin⟩ gasleft
    s.forwarder).zoom State.forwarder setForwarder id s

inductive Call : Type
  | receive (value : ℕ)
  | verify (caller : Address) (req : ForwardRequest) (domainSeparator requestTypeHash : Uint256)
      (suffixData sig : Bytes)
  | execute (caller : Address) (value : ℕ) (req : ForwardRequest) (domainSeparator requestTypeHash : Uint256)
      (suffixData sig : Bytes) (gasleft : ℕ)
  | registerRequestType (typeName typeSuffix : Bytes)
  | registerDomainSeparator (name version : Bytes)
  | setTrustedRelayHub (trustedRelayHub : Address)

def entry (this : Address) (env : Env) (call : Call) (s : State) : Code State Outgoing Bytes Revert (Bool × Bytes) :=
  match call with
  | .receive value => .done (setForwarder { s.forwarder with ether := s.forwarder.ether + value } s) (true, [])
  | .verify caller req domainSeparator requestTypeHash suffixData sig =>
      .check (verify crypto env caller req domainSeparator requestTypeHash suffixData sig s) fun _ =>
      .done s (true, [])
  | .execute caller value req domainSeparator requestTypeHash suffixData sig gasleft =>
      execute crypto env caller value req domainSeparator requestTypeHash suffixData sig gasleft s
  | .registerRequestType typeName typeSuffix =>
      .check (Forwarder.registerRequestType crypto typeName typeSuffix s.forwarder) fun forwarder =>
      .done (setForwarder forwarder s) (true, [])
  | .registerDomainSeparator name version =>
      .done (setForwarder (Forwarder.registerDomainSeparator crypto this env name version s.forwarder) s) (true, [])
  | .setTrustedRelayHub trustedRelayHub => .done (setTrustedRelayHub trustedRelayHub s) (true, [])

/-! Authentication -/

def Signed (use : Executed) : Prop :=
  crypto.recover (Forwarder.digest crypto use.request use.domainSeparator use.requestTypeHash use.suffixData)
    use.signature = some use.request.sender

/-- No one but the designated hub is made the trusted one. -/
def Call.Honest (designated : Address) : Call → Prop
  | .setTrustedRelayHub trustedRelayHub => trustedRelayHub = designated ∨ trustedRelayHub = 0
  | _ => True

abbrev HonestCall (designated : Address) := { call : Call // call.Honest designated }

def honestEntry (designated this : Address) (env : Env) (call : HonestCall designated) (s : State) :
    Code State Outgoing Bytes Revert (Bool × Bytes) :=
  entry crypto this env call.val s

/-- An `execute` that forwards a call or returns is signed by the sender, or comes from the designated hub. -/
def Authenticates (designated : Address) (s : State) : Prop :=
  ∀ (env : Env) (caller : Address) value req domainSeparator requestTypeHash suffixData sig gasleft
      (conducts : List (Conduct State Bytes Revert)),
    env.origin ≠ 0 → caller ≠ 0 →
    let code := execute crypto env caller value req domainSeparator requestTypeHash suffixData sig gasleft s
    (code.calls conducts ≠ [] ∨ ∃ final result, code.run conducts = .ok (final, result)) →
    Signed crypto ⟨req, domainSeparator, requestTypeHash, suffixData, sig, env.origin⟩ ∨ caller = designated

def Trusts (designated : Address) (s : State) : Prop := s.trustedRelayHub = designated ∨ s.trustedRelayHub = 0

theorem verifySig_ok (designated : Address) (env : Env) (caller : Address) (req : ForwardRequest)
    (domainSeparator requestTypeHash : Uint256) (suffixData sig : Bytes) (s : State) (trusts : Trusts designated s)
    (real : env.origin ≠ 0) (someone : caller ≠ 0)
    (verified : verifySig crypto env caller req domainSeparator requestTypeHash suffixData sig s = .ok ()) :
    Signed crypto ⟨req, domainSeparator, requestTypeHash, suffixData, sig, env.origin⟩ ∨ caller = designated := by
  unfold verifySig at verified
  split at verified
  next checked =>
    rcases Forwarder.verifySig_authorizes crypto env req domainSeparator requestTypeHash suffixData sig s.forwarder
      verified with dry | signed
    · exact absurd dry real
    · exact .inl signed
  next skipped =>
    have same : caller = s.trustedRelayHub := by
      by_contra other
      exact skipped (.inl other)
    rcases trusts with hub | unset
    · exact .inr (same.trans hub)
    · exact absurd (same.trans unset) someone

theorem trusts_authenticates (designated : Address) (s : State) (trusts : Trusts designated s) :
    Authenticates crypto designated s := by
  intro env caller value req domainSeparator requestTypeHash suffixData sig gasleft conducts real someone code done
  cases verified : verifySig crypto env caller req domainSeparator requestTypeHash suffixData sig
      (setForwarder { s.forwarder with ether := s.forwarder.ether + value } s) with
  | ok _ =>
      exact verifySig_ok crypto designated env caller req domainSeparator requestTypeHash suffixData sig _ trusts real
        someone verified
  | error error =>
      have reverts : code = .revert error := by
        simp only [code, execute, verified, Code.check]
      rw [reverts] at done
      rcases done with calls | ⟨final, result, returned⟩
      · exact absurd rfl calls
      · cases returned

def KeepsTrust (designated : Address) (first second : State) : Prop :=
  Trusts designated first → Trusts designated second

theorem honest_guarantee (designated this : Address) (env : Env) :
    Guarantee (honestEntry crypto designated this env)
      (fun first second => Trusts designated first → Trusts designated second) := by
  apply guarantee_invariant
  rintro ⟨call, honest⟩ s trusts
  cases call with
  | receive value => exact trusts
  | verify caller req domainSeparator requestTypeHash suffixData sig => exact Code.meets_check _ _ fun _ _ => trusts
  | execute caller value req domainSeparator requestTypeHash suffixData sig gasleft =>
      refine Code.meets_check _ _ fun _ _ => ?_
      have writes (forwarder : Forwarder.State) (whole : State) :
          KeepsTrust designated whole (setForwarder forwarder whole) := fun same => same
      have chained (first second third : State) (one : KeepsTrust designated first second)
          (two : KeepsTrust designated second third) : KeepsTrust designated first third := fun start => two (one start)
      have zoomed := Code.meets_zoom State.forwarder setForwarder id writes chained
        (Forwarder.executeVerified env ⟨req, domainSeparator, requestTypeHash, suffixData, sig, env.origin⟩ gasleft
          (setForwarder { s.forwarder with ether := s.forwarder.ether + value } s).forwarder)
        s (setForwarder { s.forwarder with ether := s.forwarder.ether + value } s) id
      exact Code.meets_weaken _ zoomed (fun _ kept => kept trusts) (fun _ _ kept => kept trusts)
  | registerRequestType typeName typeSuffix => exact Code.meets_check _ _ fun _ _ => trusts
  | registerDomainSeparator name version => exact trusts
  | setTrustedRelayHub trustedRelayHub => exact honest

/-- As long as no one else is made the trusted hub, a call is forwarded for a sender who signed it, or
for the designated hub. -/
theorem gateway_authenticates (designated this : Address)
    (history : List (Env × Moves (HonestCall designated) Bytes Revert)) (s : State)
    (reached : s ∈ historySeen (honestEntry crypto designated this) history (deploy crypto)) :
    Authenticates crypto designated s :=
  trusts_authenticates crypto designated s
    (history_seen_kept (honestEntry crypto designated this) _ (fun _ same => same)
      (honest_guarantee crypto designated this) history _ s reached (.inr rfl))

def someEntry (env : Env) : Call → State → Code State Outgoing Bytes Revert (Bool × Bytes) :=
  entry sampleCrypto 9 env

def someRequest : ForwardRequest := ⟨7, 8, 0, 1, 0, [3], 0⟩

def someExecute (caller : Address) (sig : Bytes) (s : State) : Code State Outgoing Bytes Revert (Bool × Bytes) :=
  execute sampleCrypto sampleEnv caller 0 someRequest Forwarder.sampleDomain Forwarder.sampleType [] sig 100 s

def honestHub : HonestCall 50 := ⟨.setTrustedRelayHub 50, .inl rfl⟩

def honestDomain : HonestCall 50 := ⟨.registerDomainSeparator [1] [2], trivial⟩

def designation : List (Env × Moves (HonestCall 50) Bytes Revert) :=
  [(sampleEnv, .enter honestDomain .none (.enter honestHub .none .stop))]

theorem gateway_authenticates_sample :
    let s := historyFinal (honestEntry sampleCrypto 50 9) designation (deploy sampleCrypto)
    ((someExecute 66 [7] s).calls [] = [.target (targetCall someRequest)]) ∧
    (Signed sampleCrypto ⟨someRequest, Forwarder.sampleDomain, Forwarder.sampleType, [], [7], sampleEnv.origin⟩ ∨
      (66 : Address) = 50) := by
  have called : (someExecute 66 [7] (historyFinal (honestEntry sampleCrypto 50 9) designation
      (deploy sampleCrypto))).calls [] = [.target (targetCall someRequest)] := by decide +kernel
  refine ⟨called, gateway_authenticates sampleCrypto 50 9 designation _ (historyFinal_seen _ _ _) sampleEnv 66 0
    someRequest Forwarder.sampleDomain Forwarder.sampleType [] [7] 100 [] (by decide) (by decide) (.inl ?_)⟩
  intro none
  rw [someExecute, none] at called
  cases called

def takeover : List (Env × Moves Call Bytes Revert) := [(sampleEnv, .enter (.setTrustedRelayHub 66) .none .stop)]

/-- After that, it has any call forwarded for account 7, without a signature. -/
theorem anyone_becomes_trusted :
    let s := historyFinal someEntry takeover (deploy sampleCrypto)
    ((someExecute 66 [] s).calls [] = [.target (targetCall someRequest)]) ∧
    ¬ Signed sampleCrypto ⟨someRequest, Forwarder.sampleDomain, Forwarder.sampleType, [], [], sampleEnv.origin⟩ ∧
    ¬ Authenticates sampleCrypto 50 s := by
  have called : (someExecute 66 [] (historyFinal someEntry takeover (deploy sampleCrypto))).calls [] =
      [.target (targetCall someRequest)] := by decide +kernel
  have unsigned : ¬ Signed sampleCrypto
      ⟨someRequest, Forwarder.sampleDomain, Forwarder.sampleType, [], [], sampleEnv.origin⟩ := by
    unfold Signed
    decide +kernel
  refine ⟨called, unsigned, fun authenticates => ?_⟩
  have authentic := authenticates sampleEnv 66 0 someRequest Forwarder.sampleDomain Forwarder.sampleType [] [] 100 []
    (by decide) (by decide) (.inl ?_)
  · rcases authentic with signed | designated
    · exact unsigned signed
    · exact absurd designated (by decide)
  · intro none
    rw [someExecute, none] at called
    cases called

end OpenGsn.GatewayForwarder
