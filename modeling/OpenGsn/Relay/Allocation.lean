import OpenGsn.Relay.TransactionManager

/-! The calls of `sendTransaction` and `pollNonce` that run at the same time, each at one of its
awaits. -/

namespace OpenGsn.Relay

open Solidity Async

/-- A transaction to send, with its prices known. -/
structure Priced where
  details : SendTransactionDetails
  gasLimit : ℕ
  maxFeePerGas : ℕ
  maxPriorityFeePerGas : ℕ

/-- Where a call is. From `counting` to `releasing` it holds the mutex. -/
inductive CallPhase : Type
  | done
  | pricing (details : SendTransactionDetails)
  | estimating (details : SendTransactionDetails) (maxFeePerGas : ℕ)
  | balancing (priced : Priced)
  | acquiring (priced : Priced)
  | counting (priced : Priced)
  | raising (priced : Priced) (count : ℕ)
  | signing (priced : Priced) (nonce : ℕ)
  | finding (signed : SignedTransaction) (storedTx : StoredTransaction)
  | inserting (signed : SignedTransaction) (storedTx : StoredTransaction)
  | releasing (result : Except String SignedTransaction)
  | broadcasting (signed : SignedTransaction)
  | polling (signer : Address) (relayMaxNonce : ℕ)
  | pollRaising (signer : Address) (relayMaxNonce count : ℕ)

namespace Allocation

variable (config : Config) (hash : SignedTransaction → Uint256)

/-! The pieces of `sendTransaction` that come after each await -/

def priced (details : SendTransactionDetails) (maxFeePerGas gasLimit : ℕ) : Priced :=
  ⟨details, gasLimit, maxFeePerGas, details.maxPriorityFeePerGas.getD maxFeePerGas⟩

def afterPrice (details : SendTransactionDetails) (maxFeePerGas : ℕ) : CallPhase :=
  match details.gasLimit with
  | some gasLimit => .balancing (priced details maxFeePerGas gasLimit)
  | none => .estimating details maxFeePerGas

def begin (details : SendTransactionDetails) : CallPhase :=
  match details.maxFeePerGas with
  | some maxFeePerGas => afterPrice details maxFeePerGas
  | none => .pricing details

def raise (signer : Address) (count : ℕ) (s : State) : State :=
  { s with
    nonces := if s.nonces signer < count then Function.update s.nonces signer count else s.nonces }

/-- `this.nonces[txDetails.signer]++` -/
def countNonce (signer : Address) (s : State) : State :=
  { s with nonces := Function.update s.nonces signer (s.nonces signer + 1) }

def withStore (txstore : TxStore) (s : State) : State := { s with txstore := txstore }

def sign (priced : Priced) (nonce : ℕ) (reply : Reply) (s : State) :
    Except String (SignedTransaction × StoredTransaction) := do
  reply.ok
  let details := priced.details
  let tx : TxData :=
    ⟨nonce, priced.gasLimit, some details.destination, details.value.getD 0, details.method.getD []⟩
  let signed ← signTransaction config details.signer tx
    (envelope config s.transactionType priced.maxFeePerGas priced.maxPriorityFeePerGas)
  let storedTx ← createStoredTransaction hash signed
    ⟨1, details.serverAction, details.creationBlock, none, none⟩
  .ok (signed, storedTx)

def resume (task : ℕ) (reply : Reply) (s : State) : CallPhase → State × CallPhase
  | .done => (s, .done)
  | .pricing details =>
      match reply.asNumber with
      | .error _ => (s, .done)
      | .ok maxFeePerGas => (s, afterPrice details maxFeePerGas)
  | .estimating details maxFeePerGas =>
      match reply.asNumber with
      | .error _ => (s, .done)
      | .ok gasLimit => (s, .balancing (priced details maxFeePerGas gasLimit))
  | .balancing priced =>
      match reply.asNumber with
      | .error _ => (s, .done)
      | .ok signerBalance =>
          if priced.maxFeePerGas * priced.gasLimit ≤ signerBalance ∧ priced.details.destination ≠ 0 then
            (s, .acquiring priced)
          else (s, .done)
  | .acquiring priced =>
      if s.nonceMutex.isNone then ({ s with nonceMutex := some task }, .counting priced)
      else (s, .acquiring priced)
  | .counting priced =>
      match reply.asNumber with
      | .error message => (s, .releasing (.error message))
      | .ok n =>
          let count := max n (s.mined priced.details.signer)
          (s.claim (some task) (.atLeast priced.details.signer count), .raising priced count)
  | .raising priced count =>
      let signer := priced.details.signer
      let raised := raise signer count s
      (raised.claim (some task) (.exactly signer (raised.nonces signer)), .signing priced (raised.nonces signer))
  | .signing priced nonce =>
      match sign config hash priced nonce reply s with
      | .error message => (s, .releasing (.error message))
      | .ok (signed, storedTx) => (countNonce priced.details.signer s, .finding signed storedTx)
  | .finding signed storedTx =>
      match reply.ok with
      | .error message => (s, .releasing (.error message))
      | .ok _ => (s, .inserting signed storedTx)
  | .inserting signed storedTx =>
      match reply.ok, s.txstore.insert storedTx with
      | .ok _, .ok txstore => (withStore txstore s, .releasing (.ok signed))
      | .error message, _ => (s, .releasing (.error message))
      | _, .error message => (s, .releasing (.error message))
  | .releasing result =>
      (releaseMutex task s, match result with
        | .error _ => .done
        | .ok signed => .broadcasting signed)
  | .broadcasting signed => ({ s with broadcasts := s.broadcasts ++ [signed] }, .done)
  | .polling signer relayMaxNonce =>
      match reply.asNumber with
      | .error _ => (s, .done)
      | .ok n => (s, .pollRaising signer relayMaxNonce (max n (s.mined signer)))
  | .pollRaising signer _ count => (raise signer count s, .done)

theorem sign_ok (priced : Priced) (nonce : ℕ) (reply : Reply) (s : State) (signed : SignedTransaction)
    (storedTx : StoredTransaction) (made : sign config hash priced nonce reply s = .ok (signed, storedTx)) :
    storedTx.attempts = 1 ∧ storedTx.sender = priced.details.signer ∧ storedTx.nonce = nonce := by
  unfold sign at made
  simp only [bind_ok] at made
  obtain ⟨_, _, tx, signing, storedTx', created, ended⟩ := made
  obtain ⟨rfl, rfl⟩ := Prod.mk.inj (Except.ok.inj ended)
  obtain ⟨_, rfl⟩ := signTransaction_ok config _ _ _ tx signing
  obtain rfl := Except.ok.inj created
  exact ⟨rfl, rfl, rfl⟩

/-! The phases are the code of `sendTransaction` and `validateMaxNonce` at its awaits. -/

section Code

/-- What is left of `sendTransaction` while `body` is left of its `try`. -/
def locked (task : ℕ) (body : Promise SignedTransaction) : Promise SignedTransaction := do
  let signed ← Promise.ensure body (releaseMutex task)
  broadcastTransaction signed

def signAndStore (priced : Priced) (nonce : ℕ) : Promise SignedTransaction := do
  let (signed, storedTx) ← signNew config hash priced.details priced.gasLimit priced.maxFeePerGas
    priced.maxPriorityFeePerGas nonce
  putTx storedTx false
  pure signed

def acquireAndSend (task : ℕ) (priced : Priced) : Promise SignedTransaction := do
  acquireNonceMutex task
  locked task (storeNew config hash task priced.details priced.gasLimit priced.maxFeePerGas
    priced.maxPriorityFeePerGas)

def balanceAndSend (task : ℕ) (priced : Priced) : Promise SignedTransaction := do
  validateBalance priced.details.signer priced.maxFeePerGas priced.gasLimit
  check (priced.details.destination ≠ 0)
    "Preventing to send transaction to address(0)! Validate your configuration!"
  acquireAndSend config hash task priced

def code (task : ℕ) : CallPhase → Proc State Reply Unit
  | .done => .done ()
  | .pricing details => ended (do
      let maxFeePerGas ← ask Reply.asNumber
      let gasLimit ← orAsk details.gasLimit
      balanceAndSend config hash task (priced details maxFeePerGas gasLimit))
  | .estimating details maxFeePerGas => ended (do
      let gasLimit ← ask Reply.asNumber
      balanceAndSend config hash task (priced details maxFeePerGas gasLimit))
  | .balancing priced => ended (balanceAndSend config hash task priced)
  | .acquiring priced => ended (acquireAndSend config hash task priced)
  | .counting priced => ended (locked task (storeNew config hash task priced.details priced.gasLimit
      priced.maxFeePerGas priced.maxPriorityFeePerGas))
  | .raising priced count => ended (locked task (do
      let nonce ← Promise.sync fun s =>
        let raised := raise priced.details.signer count s
        (raised.nonces priced.details.signer,
          raised.claim (some task) (.exactly priced.details.signer (raised.nonces priced.details.signer)))
      signAndStore config hash priced nonce))
  | .signing priced nonce => ended (locked task (signAndStore config hash priced nonce))
  | .finding signed storedTx => ended (locked task (do
      let _ ← readStore fun store => store.findOne storedTx.nonceSigner
      writeStore (TxStore.insert storedTx)
      pure signed))
  | .inserting signed storedTx => ended (locked task (do
      writeStore (TxStore.insert storedTx)
      pure signed))
  | .releasing result => ended (locked task (Promise.ofExcept result))
  | .broadcasting signed => ended (broadcastTransaction signed)
  | .polling signer relayMaxNonce => ended (do
      let nonce ← pollNonce none signer
      check (nonce ≤ relayMaxNonce)
        s!"Unacceptable relayMaxNonce: {relayMaxNonce}. current nonce: {nonce}")
  | .pollRaising signer relayMaxNonce count => ended (do
      let nonce ← Promise.sync fun s =>
        let raised := raise signer count s
        (raised.nonces signer, raised)
      check (nonce ≤ relayMaxNonce)
        s!"Unacceptable relayMaxNonce: {relayMaxNonce}. current nonce: {nonce}")

theorem code_afterPrice (task : ℕ) (details : SendTransactionDetails) (maxFeePerGas : ℕ) :
    code config hash task (afterPrice details maxFeePerGas) = ended (do
      let gasLimit ← orAsk details.gasLimit
      balanceAndSend config hash task (priced details maxFeePerGas gasLimit)) := by
  unfold afterPrice
  cases details.gasLimit with
  | none => rfl
  | some gasLimit => rfl

theorem signNew_eq (priced : Priced) (nonce : ℕ) :
    signNew config hash priced.details priced.gasLimit priced.maxFeePerGas priced.maxPriorityFeePerGas nonce =
      Promise.serve fun reply s =>
        match sign config hash priced nonce reply s with
        | .error message => (.error message, s)
        | .ok made => (.ok made, countNonce priced.details.signer s) := rfl

theorem putTx_new (storedTx : StoredTransaction) (attempts : storedTx.attempts = 1) :
    putTx storedTx false = (do
      let _ ← readStore fun store => store.findOne storedTx.nonceSigner
      writeStore (TxStore.insert storedTx)) := by
  have valid : check (storedTx.attempts ≠ 0) "Invalid tx" = pure () := by
    rw [check, if_pos (by omega)]
    rfl
  rw [putTx_inserts, valid, pure_bind]

/-- A call begins with its first await. -/
theorem code_begin (task : ℕ) (details : SendTransactionDetails) :
    code config hash task (begin details) = program config hash task (.sendTransaction details) := by
  unfold begin
  cases price : details.maxFeePerGas with
  | none =>
      simp only [code, program, sendTransaction, price]
      rfl
  | some maxFeePerGas =>
      rw [code_afterPrice]
      simp only [program, sendTransaction, price]
      rfl

theorem code_polling (task relayMaxNonce : ℕ) :
    code config hash task (.polling config.workerAddress relayMaxNonce) =
      program config hash task (.validateMaxNonce relayMaxNonce) := rfl

/-- Each phase waits once, and what the code does with the reply is the next phase. -/
theorem code_resume (task : ℕ) (reply : Reply) (s : State) (phase : CallPhase) :
    (code config hash task phase).resume reply s =
      ((resume config hash task reply s phase).1, code config hash task (resume config hash task reply s phase).2) := by
  cases phase with
  | done => rfl
  | pricing details =>
      rw [code, ask, resume_serve]
      simp only [resume]
      cases reply.asNumber with
      | error message => rfl
      | ok maxFeePerGas => exact Prod.ext rfl (code_afterPrice config hash task details maxFeePerGas).symm
  | estimating details maxFeePerGas =>
      rw [code, ask, resume_serve]
      simp only [resume]
      cases reply.asNumber with
      | error message => rfl
      | ok gasLimit => rfl
  | balancing priced =>
      rw [code, balanceAndSend, validateBalance]
      simp only [bind_assoc]
      rw [ask, resume_serve]
      simp only [resume]
      cases reply.asNumber with
      | error message => rfl
      | ok signerBalance =>
          by_cases enough : priced.maxFeePerGas * priced.gasLimit ≤ signerBalance
          · by_cases missing : priced.details.destination = 0
            · simp only [continued, check, enough, missing, ne_eq, not_true_eq_false, and_false, if_true, if_false]
              rfl
            · simp only [continued, check, enough, missing, ne_eq, not_false_eq_true, and_true, if_true]
              rfl
          · simp only [continued, check, enough, false_and, if_false]
            rfl
  | acquiring priced =>
      calc (code config hash task (.acquiring priced)).resume reply s
          = if s.nonceMutex.isNone = true then
              ({ s with nonceMutex := some task }, code config hash task (.counting priced))
            else (s, code config hash task (.acquiring priced)) := rfl
        _ = _ := by
            simp only [resume]
            split
            · rfl
            · rfl
  | counting priced =>
      rw [code, storeNew]
      simp only [locked, pollNonce, getPendingCount, bind_assoc]
      rw [resume_ensure]
      simp only [resume]
      cases reply.asNumber with
      | error message => rfl
      | ok n => rfl
  | raising priced count => rfl
  | signing priced nonce =>
      rw [code, signAndStore, signNew_eq, locked, resume_ensure]
      simp only [resume]
      cases made : sign config hash priced nonce reply s with
      | error message => rfl
      | ok pair =>
          have attempts := (sign_ok config hash priced nonce reply s pair.1 pair.2 made).1
          simp only [putTx_new pair.2 attempts, bind_assoc]
          rfl
  | finding signed storedTx =>
      rw [code, locked, readStore, onStore, resume_ensure]
      simp only [resume]
      cases reply.ok with
      | error message => rfl
      | ok value => rfl
  | inserting signed storedTx =>
      rw [code, locked, writeStore, onStore, resume_ensure]
      simp only [resume]
      cases reply.ok with
      | error message => rfl
      | ok value =>
          cases s.txstore.insert storedTx with
          | error message => rfl
          | ok txstore => rfl
  | releasing result =>
      cases result with
      | error message => rfl
      | ok signed => rfl
  | broadcasting signed =>
      calc (code config hash task (.broadcasting signed)).resume reply s
          = ({ s with broadcasts := s.broadcasts ++ [signed] },
              Proc.bind (.done (reply.ok.map fun _ => signed)) fun _ => .done ()) := rfl
        _ = _ := rfl
  | polling signer relayMaxNonce =>
      rw [code]
      simp only [pollNonce, getPendingCount, bind_assoc]
      rw [resume_serve]
      simp only [resume]
      cases reply.asNumber with
      | error message => rfl
      | ok n => rfl
  | pollRaising signer relayMaxNonce count =>
      calc (code config hash task (.pollRaising signer relayMaxNonce count)).resume reply s
          = (raise signer count s, ended (check ((raise signer count s).nonces signer ≤ relayMaxNonce)
              s!"Unacceptable relayMaxNonce: {relayMaxNonce}. current nonce: {(raise signer count s).nonces signer}")) :=
            rfl
        _ = (raise signer count s, .done ()) := by
            rw [check]
            split
            · rfl
            · rfl

end Code

/-! Any number of calls -/

inductive Call : Type
  | send (details : SendTransactionDetails)
  | poll (signer : Address) (relayMaxNonce : ℕ)

def Call.first : Call → CallPhase
  | .send details => begin details
  | .poll signer relayMaxNonce => .polling signer relayMaxNonce

structure Calls where
  state : State
  phases : ℕ → CallPhase

inductive CallEvent : Type
  | start (task : ℕ) (call : Call)
  | resume (task : ℕ) (reply : Reply)
  | outside (mined : Address → ℕ)

def next (c : Calls) : CallEvent → Calls
  | .start task call =>
      match c.phases task with
      | .done => { c with phases := Function.update c.phases task call.first }
      | _ => c
  | .resume task reply =>
      let moved := resume config hash task reply c.state (c.phases task)
      ⟨moved.1, Function.update c.phases task moved.2⟩
  | .outside mined => { c with state := mine mined c.state }

def initial (transactionType : TransactionType) (mined : Address → ℕ) : Calls :=
  ⟨(Relay.initial transactionType mined).state, fun _ => .done⟩

end Allocation

end OpenGsn.Relay
