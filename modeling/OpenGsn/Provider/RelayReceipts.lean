import OpenGsn.Forwarder.Model
import OpenGsn.Text.Hex

/-! The receipts of relayed transactions in `RelayProvider.ts`: what is answered for a relay
request before its events are on the chain, and after. -/

namespace OpenGsn.Provider.Receipts

open Solidity

def BLOCKS_FOR_LOOKUP : ℕ := 5000

/-- `Number.MAX_SAFE_INTEGER` -/
def MAX_SAFE_INTEGER : ℕ := 2 ^ 53 - 1

inductive HubEventName : Type
  | transactionRelayed
  | transactionRejectedByPaymaster
  deriving DecidableEq, Repr

structure HubEvent where
  name : HubEventName
  relayRequestID : Uint256
  blockNumber : ℕ
  transactionHash : Uint256
  deriving DecidableEq, Repr

structure SubmittedRelayRequestInfo where
  submissionBlock : ℕ
  validUntilTime : ℕ
  deriving DecidableEq, Repr

structure RelayingResult where
  relayRequestID : Option Uint256
  submissionBlock : Option ℕ
  validUntilTime : Option ℕ

/-- A log as `abiDecoder` decodes it, with the parameter that is looked for, if it is there. -/
inductive DecodedLog : Type
  | transactionRejectedByPaymaster (reason : Option String)
  | transactionRelayed (status : Option ℕ)
  | other
  deriving DecidableEq, Repr

structure NodeReceipt where
  transactionHash : Uint256
  logs : List DecodedLog

/-- The receipt that simulates a failure, or the one of the transaction that was mined. -/
inductive TransactionReceipt : Type
  | reverted
  | translated (transactionHash actualTransactionHash : Uint256) (status : Bool)
  deriving DecidableEq, Repr

inductive TransactionId : Type
  | future
  | notFound
  | mined (transactionHash : Uint256)
  deriving DecidableEq, Repr

/-- `now` is `Date.now()`, in milliseconds. -/
structure State where
  now : ℕ
  blockNumber : ℕ
  hubEvents : List HubEvent
  submittedRelayRequests : Uint256 → Option SubmittedRelayRequestInfo

def cacheSubmittedTransactionDetails (relayingResult : RelayingResult) (s : State) : Except String State :=
  match relayingResult.relayRequestID, relayingResult.submissionBlock, relayingResult.validUntilTime with
  | some relayRequestID, some submissionBlock, some validUntilTime =>
      .ok { s with
        submittedRelayRequests :=
          Function.update s.submittedRelayRequests relayRequestID (some ⟨submissionBlock, validUntilTime⟩) }
  | _, _, _ => .error "Missing info in RelayingResult - internal GSN error, should not happen"

def onRelayTransactionFulfilled (relayingResult : RelayingResult) (s : State) : State :=
  match relayingResult.relayRequestID with
  | some _ => (cacheSubmittedTransactionDetails relayingResult s).toOption.getD s
  | none => s

def getSubmissionDetailsForRelayRequestId (relayRequestID : Uint256) (s : State) : SubmittedRelayRequestInfo :=
  match s.submittedRelayRequests relayRequestID with
  | some submissionDetails => submissionDetails
  | none => ⟨max 1 (s.blockNumber - BLOCKS_FOR_LOOKUP), MAX_SAFE_INTEGER⟩

/-- The first of the last blocks with a rejection, unless the transaction was relayed. -/
def pickSingleEvent (events : List HubEvent) (relayRequestID : Uint256) : Except String (Option HubEvent) :=
  match events.filter fun event => event.name = .transactionRelayed with
  | [] => .ok (events.mergeSort fun a b => b.blockNumber ≤ a.blockNumber).head?
  | [event] => .ok (some event)
  | _ =>
      .error ("Multiple TransactionRelayed events with the same 0x" ++
        String.ofList (Text.toHex (word relayRequestID.val)) ++ " found!")

def eventsOf (relayRequestID : Uint256) (s : State) : List HubEvent :=
  s.hubEvents.filter fun event => event.relayRequestID = relayRequestID

def getTransactionIdFromRequestId (relayRequestID : Uint256) (submissionDetails : SubmittedRelayRequestInfo)
    (s : State) : Except String TransactionId := do
  let events := (eventsOf relayRequestID s).filter fun event => submissionDetails.submissionBlock ≤ event.blockNumber
  match events with
  | [] => .ok (if s.now < submissionDetails.validUntilTime then .future else .notFound)
  | _ :: _ => do
      let event ← pickSingleEvent events relayRequestID
      .ok (event.elim .notFound fun event => .mined event.transactionHash)

def relayedStatus (logs : List DecodedLog) : Bool :=
  match logs.findSome? fun log => match log with
      | .transactionRejectedByPaymaster reason => some reason
      | _ => none with
  | some reason => reason.isNone
  | none =>
      match logs.findSome? fun log => match log with
          | .transactionRelayed status => some status
          | _ => none with
      | some status => status.getD 0 = 0
      | none => true

def getTranslatedGsnResponseResult (respResult : NodeReceipt) (relayRequestID : Uint256) : TransactionReceipt :=
  .translated relayRequestID respResult.transactionHash (relayedStatus respResult.logs)

variable (getTransactionReceipt : Uint256 → Except String NodeReceipt)

def createTransactionReceiptForRelayRequestID (relayRequestID : Uint256) (s : State) :
    Except String (Option TransactionReceipt) := do
  let submissionDetails := getSubmissionDetailsForRelayRequestId relayRequestID s
  let transactionHash ← getTransactionIdFromRequestId relayRequestID submissionDetails s
  match transactionHash with
  | .future => .ok none
  | .notFound => .ok (some .reverted)
  | .mined transactionHash => do
      let originalTransactionReceipt ← getTransactionReceipt transactionHash
      .ok (some (getTranslatedGsnResponseResult originalTransactionReceipt relayRequestID))

/-! The provider, its chain and its clock -/

/-- A relay request is submitted, with or without success; a block is mined; a provider without
records takes the place of the one before. -/
inductive ProviderEvent : Type
  | elapse (milliseconds : ℕ)
  | submit (relayRequestID : Option Uint256) (submissionBlock : ℕ)
  | mine (hubEvents : List HubEvent)
  | reload

/-- The id is the hash of a signature, which covers `validUntilTime`. -/
def relayingResult (validUntilTime : Uint256 → ℕ) (relayRequestID : Option Uint256) (submissionBlock : ℕ) :
    RelayingResult :=
  ⟨relayRequestID, some submissionBlock, relayRequestID.map validUntilTime⟩

def next (validUntilTime : Uint256 → ℕ) (s : State) : ProviderEvent → State
  | .elapse milliseconds => { s with now := s.now + milliseconds }
  | .submit relayRequestID submissionBlock =>
      onRelayTransactionFulfilled (relayingResult validUntilTime relayRequestID submissionBlock) s
  | .mine hubEvents => { s with blockNumber := s.blockNumber + 1, hubEvents := s.hubEvents ++ hubEvents }
  | .reload => { s with submittedRelayRequests := fun _ => none }

def start (now : ℕ) : State := ⟨now, 0, [], fun _ => none⟩

def after (validUntilTime : Uint256 → ℕ) (now : ℕ) (events : List ProviderEvent) : State :=
  events.foldl (next validUntilTime) (start now)

def Recorded (validUntilTime : Uint256 → ℕ) (s : State) : Prop :=
  ∀ relayRequestID info, s.submittedRelayRequests relayRequestID = some info →
    info.validUntilTime = validUntilTime relayRequestID

theorem next_recorded (validUntilTime : Uint256 → ℕ) (s : State) (event : ProviderEvent)
    (recorded : Recorded validUntilTime s) : Recorded validUntilTime (next validUntilTime s event) := by
  cases event with
  | elapse milliseconds => exact recorded
  | mine hubEvents => exact recorded
  | reload => exact fun _ _ none => nomatch none
  | submit relayRequestID submissionBlock =>
      cases relayRequestID with
      | none => exact recorded
      | some submitted =>
          intro relayRequestID info found
          have updated : Function.update s.submittedRelayRequests submitted
              (some ⟨submissionBlock, validUntilTime submitted⟩) relayRequestID = some info := found
          by_cases same : relayRequestID = submitted
          · subst same
            rw [Function.update_self, Option.some.injEq] at updated
            rw [← updated]
          · rw [Function.update_of_ne same] at updated
            exact recorded relayRequestID info updated

theorem after_recorded (validUntilTime : Uint256 → ℕ) (now : ℕ) (events : List ProviderEvent) :
    Recorded validUntilTime (after validUntilTime now events) := by
  have run : ∀ s, Recorded validUntilTime s → Recorded validUntilTime (events.foldl (next validUntilTime) s) := by
    induction events with
    | nil => exact fun _ recorded => recorded
    | cons event rest ih => exact fun s recorded => ih _ (next_recorded validUntilTime s event recorded)
  exact run _ fun _ _ none => nomatch none

/-! When a request can be mined -/

/-- The check of the `Forwarder`. -/
def Unexpired (validUntilTime timestamp : ℕ) : Prop := validUntilTime = 0 ∨ timestamp < validUntilTime

theorem execute_expired (env : Env) (use : Forwarder.Executed) (gasleft : ℕ) (s : Forwarder.State)
    (expired : ¬ Unexpired use.request.validUntilTime.val env.timestamp) :
    ∃ error, Forwarder.executeVerified env use gasleft s = .revert error := by
  rw [Forwarder.executeVerified]
  cases Forwarder.verifyAndUpdateNonce use s with
  | error error => exact ⟨error, rfl⟩
  | ok next =>
      have refused : require (use.request.validUntilTime.val = 0 ∨
          env.timestamp < use.request.validUntilTime.val) "FWD: request expired" =
          .error (.reason "FWD: request expired") := if_neg expired
      refine ⟨.reason "FWD: request expired", ?_⟩
      simp only [Reentry.Code.check, refused]

/-- No event of the request is on the chain, and the block of this second can still include it. -/
def Pending (validUntilTime : ℕ) (relayRequestID : Uint256) (s : State) : Prop :=
  eventsOf relayRequestID s = [] ∧ Unexpired validUntilTime (s.now / 1000)

/-- A pending request has no receipt. The receipt of a failure is for one that is not pending. -/
structure ReportedRight (validUntilTime : ℕ) (relayRequestID : Uint256) (s : State) : Prop where
  pending : Pending validUntilTime relayRequestID s →
    createTransactionReceiptForRelayRequestID getTransactionReceipt relayRequestID s = .ok none
  failed : createTransactionReceiptForRelayRequestID getTransactionReceipt relayRequestID s =
    .ok (some .reverted) → ¬ Pending validUntilTime relayRequestID s

theorem receipt_without_events (relayRequestID : Uint256) (s : State) (none : eventsOf relayRequestID s = []) :
    createTransactionReceiptForRelayRequestID getTransactionReceipt relayRequestID s =
      .ok (if s.now < (getSubmissionDetailsForRelayRequestId relayRequestID s).validUntilTime then Option.none
        else some .reverted) := by
  rw [createTransactionReceiptForRelayRequestID, getTransactionIdFromRequestId, none]
  dsimp only [List.filter_nil]
  split <;> rfl

theorem reportedRight_iff (validUntilTime : ℕ) (relayRequestID : Uint256) (s : State) :
    ReportedRight getTransactionReceipt validUntilTime relayRequestID s ↔
      (Pending validUntilTime relayRequestID s →
        s.now < (getSubmissionDetailsForRelayRequestId relayRequestID s).validUntilTime) := by
  constructor
  · intro right pending
    have answered := right.pending pending
    rw [receipt_without_events _ _ _ pending.1] at answered
    by_contra late
    rw [if_neg late] at answered
    cases answered
  · intro early
    refine ⟨fun pending => ?_, fun reverted pending => ?_⟩
    · rw [receipt_without_events _ _ _ pending.1, if_pos (early pending)]
    · rw [receipt_without_events _ _ _ pending.1, if_pos (early pending)] at reverted
      cases reverted

/-- The last time that a `Date` has. -/
def MAX_TIME : ℕ := 8640000000000000

/-- In every state of a run, a request is reported right exactly if the provider has no record of
it, it is not pending, or its seconds are more than the milliseconds of the clock. -/
theorem pending_reported_right_iff (validUntilTime : Uint256 → ℕ) (now : ℕ) (events : List ProviderEvent)
    (relayRequestID : Uint256) (clock : (after validUntilTime now events).now ≤ MAX_TIME) :
    ReportedRight getTransactionReceipt (validUntilTime relayRequestID) relayRequestID
        (after validUntilTime now events) ↔
      (after validUntilTime now events).submittedRelayRequests relayRequestID = none ∨
        ¬ Pending (validUntilTime relayRequestID) relayRequestID (after validUntilTime now events) ∨
        (after validUntilTime now events).now < validUntilTime relayRequestID := by
  have recorded := after_recorded validUntilTime now events relayRequestID
  generalize after validUntilTime now events = s at *
  rw [reportedRight_iff, getSubmissionDetailsForRelayRequestId]
  cases found : s.submittedRelayRequests relayRequestID with
  | none =>
      have early : s.now < MAX_SAFE_INTEGER := lt_of_le_of_lt clock (by decide)
      exact ⟨fun _ => .inl rfl, fun _ _ => early⟩
  | some info =>
      rw [← recorded info found]
      simp only [reduceCtorEq, false_or]
      exact imp_iff_not_or

def sampleRun : List ProviderEvent := [.elapse 3000, .submit (some 5) 100]

def sampleDeadline (_ : Uint256) : ℕ := 1700172800

theorem pending_reported_right_iff_reload :
    ReportedRight (fun _ => .error "not found") (sampleDeadline 5) 5
      (after sampleDeadline 1700000000000 (sampleRun ++ [.reload])) :=
  (pending_reported_right_iff (fun _ => .error "not found") sampleDeadline 1700000000000 (sampleRun ++ [.reload]) 5
    (by decide)).mpr (.inl rfl)

/-- The request is reported as failed when it has just been submitted. -/
theorem submitted_request_failed :
    ¬ ∀ (getTransactionReceipt : Uint256 → Except String NodeReceipt) (validUntilTime : Uint256 → ℕ) (now : ℕ)
      (events : List ProviderEvent) (relayRequestID : Uint256), (after validUntilTime now events).now ≤ MAX_TIME →
      ReportedRight getTransactionReceipt (validUntilTime relayRequestID) relayRequestID
        (after validUntilTime now events) := by
  intro right
  have pending : Pending 1700172800 5 (after sampleDeadline 1700000000000 sampleRun) :=
    ⟨rfl, .inr (by decide)⟩
  have answered := (right (fun _ => .error "") sampleDeadline 1700000000000 sampleRun 5 (by decide)).pending pending
  exact absurd answered (by decide)

end OpenGsn.Provider.Receipts
