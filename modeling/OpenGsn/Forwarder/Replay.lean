import OpenGsn.Forwarder.Model
import Mathlib.Data.List.Range
import Mathlib.Data.List.Nodup

/-! Each nonce of a sender is used once, in order, and for a call that the sender signed. -/

namespace OpenGsn.Forwarder

open Solidity Reentry

variable (crypto : Crypto)

/-- The sender signed the request, or the transaction is a dry run. -/
def Authorized (use : Executed) : Prop :=
  use.origin = 0 ∨
    crypto.recover (digest crypto use.request use.domainSeparator use.requestTypeHash use.suffixData)
      use.signature = some use.request.sender

def noncesOf (executed : List Executed) (sender : Address) : List ℕ :=
  (executed.filter (fun use => use.request.sender = sender)).map (·.request.nonce.val)

structure Consistent (s : State) : Prop where
  counted : ∀ sender, noncesOf s.executed sender = List.range (s.nonces sender)
  authorized : ∀ use ∈ s.executed, Authorized crypto use

/-- What any call, and any foreign code, does to the uses of nonces. -/
structure Keeps (first second : State) : Prop where
  grown : first.executed <+: second.executed
  consistent : Consistent crypto first → Consistent crypto second

theorem keeps_same (first second : State) (executed : second.executed = first.executed)
    (nonces : second.nonces = first.nonces) : Keeps crypto first second := by
  refine ⟨executed ▸ List.prefix_refl _, ?_⟩
  rintro ⟨counted, authorized⟩
  refine ⟨?_, ?_⟩
  · rw [executed, nonces]
    exact counted
  · rw [executed]
    exact authorized

theorem keeps_refl (s : State) : Keeps crypto s s := keeps_same crypto s s rfl rfl

theorem keeps_trans (first second third : State) (early : Keeps crypto first second)
    (late : Keeps crypto second third) : Keeps crypto first third :=
  ⟨early.grown.trans late.grown, fun start => late.consistent (early.consistent start)⟩

theorem verifyAndUpdateNonce_ok (use : Executed) (s next : State) :
    verifyAndUpdateNonce use s = .ok next ↔
      s.nonces use.request.sender + 1 < 2 ^ 256 ∧
      s.nonces use.request.sender = use.request.nonce.val ∧
      { s with
        nonces := Function.update s.nonces use.request.sender (s.nonces use.request.sender + 1)
        executed := s.executed ++ [use] } = next := by
  simp [verifyAndUpdateNonce]

theorem verifySig_authorizes (env : Env) (req : ForwardRequest)
    (domainSeparator requestTypeHash : Uint256) (suffixData sig : Bytes) (s : State)
    (verified : verifySig crypto env req domainSeparator requestTypeHash suffixData sig s = .ok ()) :
    Authorized crypto ⟨req, domainSeparator, requestTypeHash, suffixData, sig, env.origin⟩ := by
  simp only [verifySig, bind_ok, require_ok] at verified
  obtain ⟨_, _, _, _, signed⟩ := verified
  split at signed
  · rename_i dry
    exact .inl dry
  · simp only [bind_ok, recoverSigner_ok, require_ok] at signed
    obtain ⟨signer, recovered, rfl⟩ := signed
    exact .inr recovered

theorem noncesOf_append (executed : List Executed) (use : Executed) (sender : Address) :
    noncesOf (executed ++ [use]) sender =
      noncesOf executed sender ++ if use.request.sender = sender then [use.request.nonce.val] else [] := by
  by_cases same : use.request.sender = sender <;> simp [noncesOf, same]

theorem consistent_use (use : Executed) (s next : State) (authorized : Authorized crypto use)
    (consistent : Consistent crypto s) (used : verifyAndUpdateNonce use s = .ok next) :
    Consistent crypto next := by
  obtain ⟨_, matched, rfl⟩ := (verifyAndUpdateNonce_ok use s next).mp used
  refine ⟨?_, ?_⟩
  · intro sender
    rw [noncesOf_append, consistent.counted sender]
    by_cases same : use.request.sender = sender
    · subst same
      simp [matched, List.range_succ]
    · simp [same, Function.update_of_ne (Ne.symm same)]
  · intro other member
    rcases List.mem_append.mp member with earlier | now
    · exact consistent.authorized other earlier
    · rwa [List.mem_singleton.mp now]

/-- A state that a call using `use` passes through. -/
structure Books (use : Executed) (first second : State) : Prop where
  fresh : use.request.nonce.val = first.nonces use.request.sender
  grown : first.executed ++ [use] <+: second.executed
  consistent : Consistent crypto first → Consistent crypto second

theorem books_keeps (use : Executed) (first second third : State) (booked : Books crypto use first second)
    (kept : Keeps crypto second third) : Books crypto use first third :=
  ⟨booked.fresh, booked.grown.trans kept.grown, fun start => kept.consistent (booked.consistent start)⟩

theorem keeps_of_books (use : Executed) (first second : State) (booked : Books crypto use first second) :
    Keeps crypto first second :=
  ⟨(List.prefix_append _ _).trans booked.grown, booked.consistent⟩

theorem sendBack_meets (use : Executed) (req : ForwardRequest) (result : Bool × Bytes)
    (start s : State) (booked : Books crypto use start s) :
    (sendBack req result s).Meets (Keeps crypto) (Books crypto use start)
      (fun final _ => Books crypto use start final) := by
  unfold sendBack
  split
  · have emptied := books_keeps crypto use start s { s with ether := 0 } booked
      (keeps_same crypto _ _ rfl rfl)
    exact ⟨emptied, fun after _ moved => books_keeps crypto use _ _ _ emptied moved, fun _ => trivial⟩
  · exact booked

theorem executeVerified_meets (env : Env) (use : Executed) (gasleft : ℕ) (s : State)
    (authorized : Authorized crypto use) :
    (executeVerified env use gasleft s).Meets (Keeps crypto) (Books crypto use s)
      (fun final _ => Books crypto use s final) := by
  refine Code.meets_check _ _ fun next used => ?_
  have booked : Books crypto use s next := by
    refine ⟨?_, ?_, fun consistent => consistent_use crypto use s next authorized consistent used⟩
    · exact ((verifyAndUpdateNonce_ok use s next).mp used).2.1.symm
    · obtain ⟨_, _, rfl⟩ := (verifyAndUpdateNonce_ok use s next).mp used
      exact List.prefix_refl _
  refine Code.meets_check _ _ fun _ _ => ?_
  refine Code.meets_check _ _ fun _ _ => ?_
  refine Code.meets_check _ _ fun _ _ => ?_
  refine Code.meets_check _ _ fun _ _ => ?_
  split
  · exact sendBack_meets crypto use _ _ s next booked
  · have sent := books_keeps crypto use s next { next with ether := next.ether - use.request.value.val }
      booked (keeps_same crypto _ _ rfl rfl)
    refine ⟨sent, ?_, ?_⟩
    · intro after _ moved
      exact sendBack_meets crypto use _ _ s after (books_keeps crypto use _ _ _ sent moved)
    · intro _
      exact sendBack_meets crypto use _ _ s next booked

/-- An `execute` that returns has used the nonce of its request, for that request. -/
theorem execute_meets (env : Env) (value : ℕ) (req : ForwardRequest)
    (domainSeparator requestTypeHash : Uint256) (suffixData sig : Bytes) (gasleft : ℕ) (s : State) :
    let use : Executed := ⟨req, domainSeparator, requestTypeHash, suffixData, sig, env.origin⟩
    (execute crypto env value req domainSeparator requestTypeHash suffixData sig gasleft s).Meets
      (Keeps crypto) (Books crypto use s) (fun final _ => Books crypto use s final) := by
  intro use
  refine Code.meets_check _ _ fun _ verified => ?_
  have authorized := verifySig_authorizes crypto env req domainSeparator requestTypeHash suffixData sig _
    verified
  have kept := keeps_same crypto s { s with ether := s.ether + value } rfl rfl
  have passed : ∀ state, Books crypto use { s with ether := s.ether + value } state →
      Books crypto use s state :=
    fun state booked => ⟨booked.fresh, booked.grown, fun start => booked.consistent (kept.consistent start)⟩
  exact Code.meets_weaken _ (executeVerified_meets crypto env use gasleft _ authorized) passed
    fun final _ => passed final

theorem entry_guarantee (this : Address) (env : Env) :
    Guarantee (entry crypto this env) (Keeps crypto) where
  reflexive := keeps_refl crypto
  chained := keeps_trans crypto
  keeps := by
    intro call s
    cases call with
    | receive value => exact keeps_same crypto _ _ rfl rfl
    | verify req domainSeparator requestTypeHash suffixData sig =>
        exact Code.meets_check _ _ fun _ _ => keeps_refl crypto s
    | execute value req domainSeparator requestTypeHash suffixData sig gasleft =>
        exact Code.meets_weaken _ (execute_meets crypto env value req domainSeparator requestTypeHash
          suffixData sig gasleft s) (fun _ => keeps_of_books crypto _ _ _)
          (fun _ _ => keeps_of_books crypto _ _ _)
    | registerRequestType typeName typeSuffix =>
        refine Code.meets_check _ _ fun next registered => ?_
        simp only [registerRequestType, bind_ok, Except.ok.injEq] at registered
        obtain ⟨_, _, rfl⟩ := registered
        exact keeps_same crypto _ _ rfl rfl
    | registerDomainSeparator name version => exact keeps_same crypto _ _ rfl rfl

theorem deploy_consistent : Consistent crypto (deploy crypto) :=
  ⟨fun _ => rfl, by simp [deploy, registerRequestTypeInternal]⟩

theorem reachable_consistent (this : Address) (history : List (Env × Moves Call Bytes Revert)) (s : State)
    (reached : s ∈ historySeen (entry crypto this) history (deploy crypto)) : Consistent crypto s :=
  (history_seen_kept (entry crypto this) (Keeps crypto) (keeps_refl crypto)
    (entry_guarantee crypto this) history _ s reached).consistent (deploy_consistent crypto)

/-- The calls of an `execute`: the one that was signed, and the refund to its sender. -/
def SignedCalls (use : Executed) (calls : List Outgoing) : Prop :=
  ∃ made refund, calls = made ++ refund ∧
    (made = [] ∨ made = [.target (targetCall use.request)] ∧ Authorized crypto use) ∧
    (refund = [] ∨ ∃ amount, refund = [.transfer use.request.sender amount])

theorem sendBack_calls (req : ForwardRequest) (result : Bool × Bytes) (s : State)
    (conducts : List (Conduct State Bytes Revert)) :
    (sendBack req result s).calls conducts = [] ∨
      ∃ amount, (sendBack req result s).calls conducts = [.transfer req.sender amount] := by
  unfold sendBack
  split
  · right
    refine ⟨s.ether, ?_⟩
    cases conducts with
    | nil => rfl
    | cons conduct rest => cases answered : conduct.answer <;> simp [Code.calls, answered]
  · exact .inl rfl

theorem executeVerified_calls (env : Env) (use : Executed) (gasleft : ℕ) (s : State)
    (conducts : List (Conduct State Bytes Revert)) (authorized : Authorized crypto use) :
    SignedCalls crypto use ((executeVerified env use gasleft s).calls conducts) := by
  have silent : SignedCalls crypto use [] := ⟨[], [], rfl, .inl rfl, .inl rfl⟩
  refine Code.calls_check _ _ _ _ silent fun next _ => ?_
  refine Code.calls_check _ _ _ _ silent fun _ _ => ?_
  refine Code.calls_check _ _ _ _ silent fun _ _ => ?_
  refine Code.calls_check _ _ _ _ silent fun _ _ => ?_
  refine Code.calls_check _ _ _ _ silent fun _ _ => ?_
  have called : ∀ result after rest, SignedCalls crypto use
      (.target (targetCall use.request) :: (sendBack use.request result after).calls rest) :=
    fun result after rest => ⟨[_], _, rfl, .inr ⟨rfl, authorized⟩, sendBack_calls _ result after rest⟩
  split
  · exact ⟨[], _, rfl, .inl rfl, sendBack_calls _ _ next conducts⟩
  · cases conducts with
    | nil => exact called _ _ _
    | cons conduct rest =>
        rw [Code.calls]
        cases conduct.answer with
        | ok ret => exact called _ _ _
        | error error => exact called _ _ _

theorem execute_calls (env : Env) (value : ℕ) (req : ForwardRequest)
    (domainSeparator requestTypeHash : Uint256) (suffixData sig : Bytes) (gasleft : ℕ) (s : State)
    (conducts : List (Conduct State Bytes Revert)) :
    SignedCalls crypto ⟨req, domainSeparator, requestTypeHash, suffixData, sig, env.origin⟩
      ((execute crypto env value req domainSeparator requestTypeHash suffixData sig gasleft s).calls
        conducts) := by
  refine Code.calls_check _ _ _ _ ⟨[], [], rfl, .inl rfl, .inl rfl⟩ fun _ verified => ?_
  exact executeVerified_calls crypto env _ gasleft _ conducts
    (verifySig_authorizes crypto env req domainSeparator requestTypeHash suffixData sig _ verified)

/-- The call is made by each run that does not revert, unless the forwarder lacks the ether for it. -/
theorem executeVerified_reaches (env : Env) (use : Executed) (gasleft : ℕ) (s : State)
    (conducts : List (Conduct State Bytes Revert)) (last : State × Bool × Bytes)
    (returned : (executeVerified env use gasleft s).run conducts = .ok last)
    (enough : use.request.value.val ≤ s.ether) :
    .target (targetCall use.request) ∈ (executeVerified env use gasleft s).calls conducts := by
  let holds (calls : List Outgoing) : Prop := .target (targetCall use.request) ∈ calls
  refine Code.calls_check_returned holds _ _ _ last returned fun next used returned => ?_
  have kept : next.ether = s.ether := by
    obtain ⟨_, _, rfl⟩ := (verifyAndUpdateNonce_ok use s next).mp used
    rfl
  refine Code.calls_check_returned holds _ _ _ last returned fun _ _ returned => ?_
  refine Code.calls_check_returned holds _ _ _ last returned fun _ _ returned => ?_
  refine Code.calls_check_returned holds _ _ _ last returned fun _ _ returned => ?_
  refine Code.calls_check_returned holds _ _ _ last returned fun _ _ _ => ?_
  rw [if_neg (by omega)]
  cases conducts with
  | nil => exact List.mem_cons_self
  | cons conduct rest =>
      rw [Code.calls]
      exact List.mem_cons_self

theorem execute_reaches (env : Env) (value : ℕ) (req : ForwardRequest)
    (domainSeparator requestTypeHash : Uint256) (suffixData sig : Bytes) (gasleft : ℕ) (s : State)
    (conducts : List (Conduct State Bytes Revert)) (last : State × Bool × Bytes)
    (returned : (execute crypto env value req domainSeparator requestTypeHash suffixData sig gasleft s).run
      conducts = .ok last) (enough : req.value.val ≤ s.ether + value) :
    .target (targetCall req) ∈
      (execute crypto env value req domainSeparator requestTypeHash suffixData sig gasleft s).calls conducts := by
  refine Code.calls_check_returned (fun calls => .target (targetCall req) ∈ calls) _ _ _ last returned
    fun _ _ returned => ?_
  exact executeVerified_reaches env ⟨req, domainSeparator, requestTypeHash, suffixData, sig, env.origin⟩ gasleft _
    conducts last returned enough

def hashedStrings (req : ForwardRequest) (domainSeparator requestTypeHash : Uint256)
    (suffixData : Bytes) : Set Bytes :=
  {digestInput crypto req domainSeparator requestTypeHash suffixData,
    getEncoded crypto req requestTypeHash suffixData, req.data}

theorem getEncoded_inj (a b : ForwardRequest) (typeA typeB : Uint256) (suffixA suffixB : Bytes)
    (strings : Set Bytes) (free : crypto.CollisionFree strings) (first : a.data ∈ strings)
    (second : b.data ∈ strings)
    (same : getEncoded crypto a typeA suffixA = getEncoded crypto b typeB suffixB) :
    a = b ∧ typeA = typeB ∧ suffixA = suffixB := by
  obtain ⟨header, suffix⟩ := List.append_inj same (by simp [Crypto.hashBytes])
  obtain ⟨header, validUntilTime⟩ := append_word_injective _ _ _ _ (Fin.isLt _) (Fin.isLt _) header
  obtain ⟨header, dataHash⟩ := append_word_injective _ _ _ _ (Fin.isLt _) (Fin.isLt _) header
  obtain ⟨header, nonce⟩ := append_word_injective _ _ _ _ (Fin.isLt _) (Fin.isLt _) header
  obtain ⟨header, gas⟩ := append_word_injective _ _ _ _ (Fin.isLt _) (Fin.isLt _) header
  obtain ⟨header, value⟩ := append_word_injective _ _ _ _ (Fin.isLt _) (Fin.isLt _) header
  obtain ⟨header, recipient⟩ :=
    append_word_injective _ _ _ _ (address_lt_word _) (address_lt_word _) header
  obtain ⟨header, sender⟩ :=
    append_word_injective _ _ _ _ (address_lt_word _) (address_lt_word _) header
  have type := word_injective _ _ (Fin.isLt _) (Fin.isLt _) header
  have data := free first second (Fin.ext dataHash)
  refine ⟨?_, Fin.ext type, suffix⟩
  cases a
  cases b
  simp only [ForwardRequest.mk.injEq]
  exact ⟨Fin.ext sender, Fin.ext recipient, Fin.ext value, Fin.ext gas, Fin.ext nonce, data,
    Fin.ext validUntilTime⟩

theorem digest_inj (a b : ForwardRequest) (domainA domainB typeA typeB : Uint256)
    (suffixA suffixB : Bytes)
    (free : crypto.CollisionFree
      (hashedStrings crypto a domainA typeA suffixA ∪ hashedStrings crypto b domainB typeB suffixB))
    (same : digest crypto a domainA typeA suffixA = digest crypto b domainB typeB suffixB) :
    a = b ∧ domainA = domainB ∧ typeA = typeB ∧ suffixA = suffixB := by
  have inputs := free (.inl (.inl rfl)) (.inr (.inl rfl)) same
  obtain ⟨header, encodedHash⟩ := append_word_injective _ _ _ _ (Fin.isLt _) (Fin.isLt _) inputs
  obtain ⟨_, domain⟩ := append_word_injective _ _ _ _ (Fin.isLt _) (Fin.isLt _) header
  have encoded := free (.inl (.inr (.inl rfl))) (.inr (.inr (.inl rfl))) (Fin.ext encodedHash)
  obtain ⟨requests, types, suffixes⟩ := getEncoded_inj crypto a b typeA typeB suffixA suffixB _ free
    (.inl (.inr (.inr rfl))) (.inr (.inr (.inr rfl))) encoded
  exact ⟨requests, Fin.ext domain, types, suffixes⟩

/-- In every state in which anyone has control, the nonces of a sender have been used from 0
up, once each, for requests that the sender signed; and an `execute` there either reverts
without effect or uses the next one, and makes the signed call only: always, when it has the ether. -/
theorem execute_replay_protection (this : Address) (history : List (Env × Moves Call Bytes Revert))
    (s : State) (reached : s ∈ historySeen (entry crypto this) history (deploy crypto)) :
    (∀ sender, noncesOf s.executed sender = List.range (s.nonces sender)) ∧
    (∀ sender nonce, (noncesOf s.executed sender).count nonce ≤ 1) ∧
    (∀ use ∈ s.executed, Authorized crypto use) ∧
    ∀ env value req domainSeparator requestTypeHash suffixData sig gasleft
        (replies : Replies Call Bytes Revert),
      let code := execute crypto env value req domainSeparator requestTypeHash suffixData sig gasleft s
      let conducts := replies.conducts (entry crypto this env)
      let use : Executed := ⟨req, domainSeparator, requestTypeHash, suffixData, sig, env.origin⟩
      (∀ error, code.run conducts = .error error → code.commit s conducts = s) ∧
      (∀ final result, code.run conducts = .ok (final, result) →
        req.nonce.val = s.nonces req.sender ∧ s.executed ++ [use] <+: final.executed ∧
        (req.value.val ≤ s.ether + value → .target (targetCall req) ∈ code.calls conducts)) ∧
      SignedCalls crypto use (code.calls conducts) ∧
      ∀ other domain type suffix,
        crypto.CollisionFree (hashedStrings crypto req domainSeparator requestTypeHash suffixData ∪
          hashedStrings crypto other domain type suffix) →
        digest crypto req domainSeparator requestTypeHash suffixData =
          digest crypto other domain type suffix →
        targetCall req = targetCall other := by
  have consistent := reachable_consistent crypto this history s reached
  refine ⟨consistent.counted, ?_, consistent.authorized, ?_⟩
  · intro sender nonce
    rw [consistent.counted sender]
    exact List.nodup_iff_count_le_one.mp List.nodup_range nonce
  · intro env value req domainSeparator requestTypeHash suffixData sig gasleft replies code conducts use
    refine ⟨?_, ?_, execute_calls crypto env value req domainSeparator requestTypeHash suffixData sig
      gasleft s conducts, ?_⟩
    · intro error reverted
      simp [Code.commit, reverted]
    · intro final result returned
      have conform := replies_kept (entry_guarantee crypto this env) replies
      have booked := Code.run_meets code conducts (execute_meets crypto env value req domainSeparator
        requestTypeHash suffixData sig gasleft s) conform final result returned
      exact ⟨booked.fresh, booked.grown, execute_reaches crypto env value req domainSeparator requestTypeHash
        suffixData sig gasleft s conducts _ returned⟩
    · intro other domain type suffix free same
      rw [(digest_inj crypto req other domainSeparator domain requestTypeHash type suffixData suffix free
        same).1]

def sampleDomain : Uint256 := sampleCrypto.keccak256 (domainValue sampleCrypto 9 1 [1] [2])

def sampleType : Uint256 :=
  sampleCrypto.keccak256 (utf8 ("ForwardRequest(" ++ genericParams ++ ")"))

def sampleExecute (nonce : Uint256) : Call :=
  .execute 0 ⟨7, 8, 0, 1, nonce, [3], 0⟩ sampleDomain sampleType [] [7] 100

/-- The recipient of the first request has the second one executed, and a third reverts. -/
def sampleHistory : List (Env × Moves Call Bytes Revert) :=
  [(sampleEnv, .enter (.registerDomainSeparator [1] [2]) .none .stop),
    (sampleEnv, .enter (sampleExecute 0)
      (.reply (.enter (sampleExecute 1) (.reply .stop (.ok []) .none) .stop) (.ok [1]) .none)
      (.enter (sampleExecute 1) .none .stop))]

theorem execute_replay_protection_nested :
    let final := historyFinal (entry sampleCrypto 9) sampleHistory (deploy sampleCrypto)
    final.nonces 7 = 2 ∧ noncesOf final.executed 7 = List.range (final.nonces 7) :=
  ⟨by decide +kernel, (execute_replay_protection sampleCrypto 9 sampleHistory _
    (historyFinal_seen _ _ _)).1 7⟩

end OpenGsn.Forwarder
