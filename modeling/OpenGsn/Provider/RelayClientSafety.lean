import OpenGsn.Provider.RelayClient
import OpenGsn.Provider.RelaySelection
import OpenGsn.Provider.AcceptedResponses

/-! A client asks one relay after the other, for the same thing, and stops at the first good answer. -/

namespace OpenGsn.Provider

open Solidity
open Relay (RelayTransactionRequest)

namespace Selection

variable (config : SelectionConfig) (s : Selection)

def Follows (s next : Selection) (possible : Except String (Option RelayInfo) → Prop) : Prop :=
  (next.call ≠ none ∧ next.outcomes = s.outcomes) ∨
    (next.call = none ∧ ∃ outcome, next.outcomes = s.outcomes ++ [outcome] ∧ possible outcome)

theorem loop_follows (relayHub : AddressText) :
    Follows s (s.loop config relayHub) fun outcome => ∀ relayInfo, outcome ≠ .ok (some relayInfo) := by
  rw [Selection.loop]
  split
  · exact .inr ⟨rfl, _, rfl, fun _ => by simp⟩
  · split_ifs
    · split
      · exact .inr ⟨rfl, _, rfl, fun _ => by simp⟩
      · exact .inl ⟨Option.some_ne_none _, rfl⟩
    · exact .inr ⟨rfl, _, rfl, fun _ => by simp⟩

theorem Follows.weaken {s next : Selection} {stronger possible : Except String (Option RelayInfo) → Prop}
    (follows : Follows s next stronger) (implied : ∀ outcome, stronger outcome → possible outcome) :
    Follows s next possible :=
  follows.imp_right fun ended =>
    ⟨ended.1, ended.2.imp fun outcome added => ⟨added.1, implied outcome added.2⟩⟩

theorem afterRace_follows (known : KnownRelaysManager) (call : SelectionCall) :
    Follows s (s.afterRace config known call) fun _ => True := by
  rw [Selection.afterRace]
  split
  · exact .inr ⟨rfl, _, rfl, trivial⟩
  · split
    · exact .inr ⟨rfl, _, rfl, trivial⟩
    · exact (loop_follows config _ call.relayHub).weaken fun _ _ => trivial

theorem step_follows (event : SelectionEvent) (next : Selection) (calling : s.call ≠ none)
    (taken : s.step config event = .ok next) : Follows s next fun _ => True := by
  cases step_moves event next taken with
  | called relayHub idle => exact absurd idle calling
  | pinged call race _ moved => exact .inl ⟨Option.some_ne_none _, rfl⟩
  | raced known call _ resolved => exact afterRace_follows config s known call

theorem returnedUrls_append (s next : Selection) (outcome : Except String (Option RelayInfo))
    (added : next.outcomes = s.outcomes ++ [outcome]) :
    next.returnedUrls = s.returnedUrls ++ (returnedUrl outcome).toList := by
  rw [returnedUrls, added, List.filterMap_append]
  cases given : returnedUrl outcome with
  | none => simp [given, returnedUrls]
  | some url => simp [given, returnedUrls]

theorem Follows.urls {s next : Selection} {possible : Except String (Option RelayInfo) → Prop}
    (follows : Follows s next possible) : s.returnedUrls <+: next.returnedUrls := by
  rcases follows with ⟨_, same⟩ | ⟨_, outcome, added, _⟩
  · rw [returnedUrls, returnedUrls, same]
  · rw [returnedUrls_append s next outcome added]
    exact List.prefix_append _ _

end Selection

theorem fillRelayInfo_again (environment : Environment) (selector domainSeparatorName : Bytes)
    (sizes : VariableFieldSizes) (first second : Address) (relayRequest : RelayRequest) :
    Relay.fillRelayInfo environment selector domainSeparatorName sizes second
        (Relay.fillRelayInfo environment selector domainSeparatorName sizes first relayRequest) =
      Relay.fillRelayInfo environment selector domainSeparatorName sizes second relayRequest := rfl

namespace Relaying

variable {Raw : Type} (config : ClientConfig Raw) (offered : List RelayInfoUrl) (asked : RelayRequest)

def Filled (request : RelayRequest) : Prop :=
  ∃ relayWorker, request = Relay.fillRelayInfo config.environment config.selector config.domainSeparatorName
    config.sizes relayWorker asked

structure Core (s : Relaying Raw) : Prop where
  selection : Selection.Sound offered s.selection
  same : s.relayRequest = asked ∨ Filled config asked s.relayRequest
  signed : ∀ request ∈ s.signed, Filled config asked request
  posted : ∀ entry ∈ s.posted, entry.2.relayRequest ∈ s.signed
  blamed : ∀ failure ∈ s.relayFailures, failure.relayUrl ∈ s.posted.map Prod.fst
  tried : s.posted.map Prod.fst <+: s.selection.returnedUrls

/-- Each relay that was chosen got the request, and failed. -/
structure Between (s : Relaying Raw) : Prop where
  tried : s.posted.map Prod.fst = s.selection.returnedUrls
  errors : s.relayingErrors.keys = s.selection.returnedUrls
  silent : s.broadcasts = []

structure Trying (s : Relaying Raw) (activeRelay : RelayInfo) : Prop where
  tried : s.posted.map Prod.fst ++ [activeRelay.relayUrl] = s.selection.returnedUrls
  errors : s.relayingErrors.keys = s.posted.map Prod.fst
  silent : s.broadcasts = []
  filled : s.relayRequest ∈ s.signed

structure Asked (s : Relaying Raw) (url : List Char) (httpRequest : RelayTransactionRequest) : Prop where
  last : ∃ earlier, s.posted = earlier ++ [(url, httpRequest)] ∧ s.relayingErrors.keys = earlier.map Prod.fst
  tried : s.posted.map Prod.fst = s.selection.returnedUrls

/-- The answer to the last request is the transaction that was asked for. -/
structure Accepted (s : Relaying Raw) (httpRequest : RelayTransactionRequest) (transaction : TypedTransaction) :
    Prop where
  asked : ∃ url, Asked s url httpRequest
  answers : RelayedTransactionValidator.Answers config.validator httpRequest transaction
  gap : ∃ nonceGapFilled, RelayedTransactionValidator.FillsGap config.validator httpRequest nonceGapFilled
    transaction.tx.nonce

/-- No relay is left, or an attempt ended with an error that is not counted as the relay's. -/
structure GaveUp (s : Relaying Raw) : Prop where
  errors : s.relayingErrors.keys = s.selection.returnedUrls
  silent : s.broadcasts = []
  reason : (∃ url ∈ s.relayingErrors.keys, s.stopped = some url) ∨
    (.ok none ∈ s.selection.outcomes ∧ s.posted.map Prod.fst = s.selection.returnedUrls)

def Ended (s : Relaying Raw) (result : RelayingResult) : Prop :=
  result.relayingErrors = s.relayingErrors ∧ result.pingErrors = s.selection.manager.errors ∧
    match result.transaction with
    | none => GaveUp s
    | some transaction => s.broadcasts.Sublist [transaction] ∧ ∃ httpRequest, Accepted config s httpRequest transaction

def At (s : Relaying Raw) : Stage → Prop
  | .selecting => Selection.Invariant offered s.selection ∧ s.selection.call ≠ none ∧ Between s
  | .signing activeRelay => Trying s activeRelay
  | .approving activeRelay _ => Trying s activeRelay
  | .countingTransactions activeRelay _ _ => Trying s activeRelay
  | .viewing activeRelay httpRequest => Trying s activeRelay ∧ httpRequest.relayRequest ∈ s.signed
  | .posting activeRelay httpRequest => Asked s activeRelay.relayUrl httpRequest ∧ s.broadcasts = []
  | .lookingUp httpRequest transaction => Accepted config s httpRequest transaction ∧ s.broadcasts = []
  | .sending httpRequest transaction => Accepted config s httpRequest transaction ∧ s.broadcasts = [transaction]
  | .finished (.error _) => False
  | .finished (.ok result) => Ended config s result

structure Invariant (s : Relaying Raw) : Prop extends Core config offered asked s where
  here : At config offered s s.stage

variable {config offered asked} {s : Relaying Raw}

/-- Where the loop is, the errors, the auditors and the broadcasts are not in the core. -/
theorem Core.kept (core : Core config offered asked s) (stage : Stage)
    (relayingErrors : InsertionMap (List Char) String) (audited : List Raw) (broadcasts : List TypedTransaction)
    (stopped : Option (List Char)) :
    Core config offered asked { s with stage, relayingErrors, audited, broadcasts, stopped } :=
  ⟨core.selection, core.same, core.signed, core.posted, core.blamed, core.tried⟩

theorem Core.asked_once (core : Core config offered asked s) (url : List Char)
    (tried : s.relayingErrors.keys ++ [url] = s.selection.returnedUrls) : url ∉ s.relayingErrors.keys := by
  have once := core.selection.returnsOnce
  rw [← tried] at once
  intro before
  exact List.disjoint_of_nodup_append once before List.mem_cons_self

theorem Core.recordError_keys (core : Core config offered asked s) (activeRelay : RelayInfo) (error : String)
    (tried : s.relayingErrors.keys ++ [activeRelay.relayUrl] = s.selection.returnedUrls) :
    (s.recordError activeRelay error).relayingErrors.keys = s.selection.returnedUrls := by
  have new := core.asked_once activeRelay.relayUrl tried
  rw [← tried]
  exact InsertionMap.keys_set_new _ _ _ new

theorem Core.recordError (core : Core config offered asked s) (activeRelay : RelayInfo) (error : String) :
    Core config offered asked (s.recordError activeRelay error) :=
  core.kept s.stage _ s.audited s.broadcasts s.stopped

theorem stops_invariant (core : Core config offered asked s) (activeRelay : RelayInfo) (error : String)
    (tried : s.relayingErrors.keys ++ [activeRelay.relayUrl] = s.selection.returnedUrls)
    (silent : s.broadcasts = []) : Invariant config offered asked (s.stops config activeRelay error) := by
  have keys := core.recordError_keys activeRelay error tried
  refine ⟨core.kept _ _ _ _ _, rfl, rfl, ?_⟩
  refine ⟨keys, silent, .inl ⟨activeRelay.relayUrl, ?_, rfl⟩⟩
  change activeRelay.relayUrl ∈ (s.recordError activeRelay error).relayingErrors.keys
  rw [keys, ← tried]
  exact List.mem_append_right _ List.mem_cons_self

theorem Trying.stops (core : Core config offered asked s) (activeRelay : RelayInfo) (trying : Trying s activeRelay)
    (error : String) : Invariant config offered asked (s.stops config activeRelay error) :=
  stops_invariant core activeRelay error (trying.errors ▸ trying.tried) trying.silent

theorem Asked.errors (activeRelay : RelayInfo) (httpRequest : RelayTransactionRequest)
    (now : Asked s activeRelay.relayUrl httpRequest) :
    s.relayingErrors.keys ++ [activeRelay.relayUrl] = s.selection.returnedUrls := by
  obtain ⟨⟨earlier, posted, errors⟩, tried⟩ := now
  rw [errors, ← tried, posted, List.map_append]
  rfl

theorem fillRelayInfo_filled (pingResponse : PingResponse) (filled : RelayRequest)
    (same : s.relayRequest = asked ∨ Filled config asked s.relayRequest)
    (made : config.fillRelayInfo s.relayRequest pingResponse = .ok filled) : Filled config asked filled := by
  unfold ClientConfig.fillRelayInfo at made
  split at made
  · cases made
  · rename_i relayWorker _
    cases made
    rcases same with same | ⟨before, same⟩
    · exact ⟨relayWorker, by rw [same]⟩
    · exact ⟨relayWorker, by rw [same, fillRelayInfo_again]⟩

theorem attempt_invariant (core : Core config offered asked s) (activeRelay : RelayInfo)
    (tried : s.posted.map Prod.fst ++ [activeRelay.relayUrl] = s.selection.returnedUrls)
    (errors : s.relayingErrors.keys = s.posted.map Prod.fst) (silent : s.broadcasts = []) :
    Invariant config offered asked (s.attempt config activeRelay) := by
  unfold attempt
  split
  · exact stops_invariant core activeRelay _ (errors ▸ tried) silent
  · rename_i filled made
    have fresh := fillRelayInfo_filled _ filled core.same made
    refine ⟨⟨core.selection, .inr fresh, ?_, ?_, core.blamed, core.tried⟩, tried, errors, silent, ?_⟩
    · intro request member
      rcases List.mem_append.mp member with before | now
      · exact core.signed request before
      · rw [List.mem_singleton.mp now]
        exact fresh
    · exact fun entry member => List.mem_append_left _ (core.posted entry member)
    · exact List.mem_append_right _ List.mem_cons_self

/-- `selectNextRelay` has gone on, where all relays before have failed. -/
theorem chosen_invariant (before : Selection) (stage : s.stage = .selecting) (core : Core config offered asked s)
    (sound : Selection.Invariant offered s.selection)
    (follows : Selection.Follows before s.selection fun _ => True)
    (tried : s.posted.map Prod.fst = before.returnedUrls) (errors : s.relayingErrors.keys = before.returnedUrls)
    (silent : s.broadcasts = []) : Invariant config offered asked (s.chosen config) := by
  unfold chosen
  rcases follows with ⟨calling, outcomes⟩ | ⟨idle, outcome, outcomes, _⟩
  · have same : s.selection.returnedUrls = before.returnedUrls := by
      rw [Selection.returnedUrls, outcomes]
      rfl
    obtain ⟨call, called⟩ := Option.ne_none_iff_exists'.mp calling
    rw [called]
    refine ⟨core, ?_⟩
    rw [stage]
    exact ⟨sound, calling, tried.trans same.symm, errors.trans same.symm, silent⟩
  · rw [idle, outcomes, List.getLast?_concat]
    have urls := Selection.returnedUrls_append before s.selection outcome outcomes
    have member : outcome ∈ s.selection.outcomes := by simp [outcomes]
    obtain ⟨relayInfo, rfl⟩ := sound.answers outcome member
    cases relayInfo with
    | none =>
        have same : s.selection.returnedUrls = before.returnedUrls := urls.trans (List.append_nil _)
        refine ⟨core.kept _ _ _ _ _, rfl, rfl, ?_⟩
        exact ⟨errors.trans same.symm, silent, .inr ⟨member, tried.trans same.symm⟩⟩
    | some activeRelay =>
        refine attempt_invariant core activeRelay ?_ (errors.trans tried.symm) silent
        rw [tried]
        exact urls.symm

theorem loop_invariant (positive : 1 ≤ config.selection.waitForSuccessSliceSize) (core : Core config offered asked s)
    (between : Between s) : Invariant config offered asked (s.loop config) := by
  have looped := (core.selection.loop positive config.relayHubAddress).1
  have follows := (Selection.loop_follows config.selection s.selection config.relayHubAddress).weaken
    fun (_ : Except String (Option RelayInfo)) _ => trivial
  exact chosen_invariant s.selection rfl
    ⟨looped.toSound, core.same, core.signed, core.posted, core.blamed, core.tried.trans follows.urls⟩ looped follows
    between.tried between.errors between.silent

theorem continues_invariant (positive : 1 ≤ config.selection.waitForSuccessSliceSize)
    (core : Core config offered asked s) (activeRelay : RelayInfo) (httpRequest : RelayTransactionRequest)
    (now : Asked s activeRelay.relayUrl httpRequest) (silent : s.broadcasts = []) (error : String) :
    Invariant config offered asked (s.continues config activeRelay error) := by
  have keys := core.recordError_keys activeRelay error (now.errors activeRelay httpRequest)
  exact loop_invariant positive (core.recordError activeRelay error) ⟨now.tried, keys, silent⟩

theorem saveRelayFailure_core (core : Core config offered asked s) (now : ℕ) (activeRelay : RelayInfo)
    (httpRequest : RelayTransactionRequest) (current : Asked s activeRelay.relayUrl httpRequest) :
    Core config offered asked (s.saveRelayFailure now activeRelay) := by
  refine ⟨core.selection, core.same, core.signed, core.posted, ?_, core.tried⟩
  intro failure member
  rcases List.mem_append.mp member with before | last
  · exact core.blamed failure before
  · obtain ⟨earlier, posted, _⟩ := current.last
    rw [List.mem_singleton.mp last]
    change activeRelay.relayUrl ∈ s.posted.map Prod.fst
    rw [posted]
    simp

theorem refused_invariant (positive : 1 ≤ config.selection.waitForSuccessSliceSize)
    (core : Core config offered asked s) (now : ℕ) (activeRelay : RelayInfo) (httpRequest : RelayTransactionRequest)
    (current : Asked s activeRelay.relayUrl httpRequest) (silent : s.broadcasts = []) (message : Option String) :
    Invariant config offered asked (s.refused config now activeRelay message) := by
  unfold refused
  split
  · exact continues_invariant positive (saveRelayFailure_core core now activeRelay httpRequest current) activeRelay
      httpRequest ⟨current.last, current.tried⟩ silent _
  · exact continues_invariant positive core activeRelay httpRequest current silent _

theorem answered_invariant (positive : 1 ≤ config.selection.waitForSuccessSliceSize)
    (core : Core config offered asked s) (now : ℕ) (activeRelay : RelayInfo) (httpRequest : RelayTransactionRequest)
    (current : Asked s activeRelay.relayUrl httpRequest) (silent : s.broadcasts = []) (signedTx : Raw)
    (nonceGapFilled : ObjectMap Raw) :
    Invariant config offered asked (s.answered config now activeRelay httpRequest signedTx nonceGapFilled) := by
  unfold answered
  split
  · exact refused_invariant positive core now activeRelay httpRequest current silent _
  · rename_i transaction parsed
    set audited : Relaying Raw := { s with audited := s.audited ++ [signedTx] }
    have auditedCore : Core config offered asked audited := core.kept _ _ _ _ _
    have auditedNow : Asked audited activeRelay.relayUrl httpRequest := ⟨current.last, current.tried⟩
    dsimp only
    split
    · exact stops_invariant auditedCore activeRelay _ (auditedNow.errors activeRelay httpRequest) silent
    · rename_i validationResponse validated
      split
      · rename_i valid
        have sound := config.validator.validated_sound httpRequest signedTx nonceGapFilled validationResponse validated
          valid transaction parsed
        exact ⟨core.kept _ _ _ _ _, ⟨⟨_, current.last, current.tried⟩, sound.1, _, sound.2⟩, silent⟩
      · exact continues_invariant positive
          (saveRelayFailure_core auditedCore now activeRelay httpRequest auditedNow) activeRelay httpRequest
          ⟨current.last, current.tried⟩ silent _

/-! Steps. -/

def preparing : Stage → Option RelayInfo
  | .signing activeRelay => some activeRelay
  | .approving activeRelay _ => some activeRelay
  | .countingTransactions activeRelay _ _ => some activeRelay
  | .viewing activeRelay _ => some activeRelay
  | _ => none

inductive Moves (config : ClientConfig Raw) (s : Relaying Raw) : Relaying Raw → Prop
  | selected (event : SelectionEvent) (selection : Selection) (waiting : s.stage = .selecting)
      (taken : s.selection.step config.selection event = .ok selection) :
      Moves config s ({ s with selection }.chosen config)
  | stopped (activeRelay : RelayInfo) (message : String) (turn : preparing s.stage = some activeRelay) :
      Moves config s (s.stops config activeRelay message)
  | signed (activeRelay : RelayInfo) (signature : Bytes) (waiting : s.stage = .signing activeRelay) :
      Moves config s { s with stage := .approving activeRelay signature }
  | approved (activeRelay : RelayInfo) (signature approvalData : Bytes)
      (waiting : s.stage = .approving activeRelay signature) :
      Moves config s (s.approved config activeRelay signature approvalData)
  | counted (activeRelay : RelayInfo) (signature approvalData : Bytes) (count : ℕ)
      (waiting : s.stage = .countingTransactions activeRelay signature approvalData) :
      Moves config s (s.counted config activeRelay signature approvalData count)
  | viewed (activeRelay : RelayInfo) (httpRequest : RelayTransactionRequest) (result : ViewCallVerificationResult)
      (waiting : s.stage = .viewing activeRelay httpRequest) :
      Moves config s (s.viewed config activeRelay httpRequest result)
  | refused (now : ℕ) (activeRelay : RelayInfo) (httpRequest : RelayTransactionRequest) (message : Option String)
      (waiting : s.stage = .posting activeRelay httpRequest) : Moves config s (s.refused config now activeRelay message)
  | answered (now : ℕ) (activeRelay : RelayInfo) (httpRequest : RelayTransactionRequest) (signedTx : Raw)
      (nonceGapFilled : ObjectMap Raw) (waiting : s.stage = .posting activeRelay httpRequest) :
      Moves config s (s.answered config now activeRelay httpRequest signedTx nonceGapFilled)
  | broadcast (httpRequest : RelayTransactionRequest) (transaction : TypedTransaction)
      (waiting : s.stage = .lookingUp httpRequest transaction) :
      Moves config s
        { s with stage := .sending httpRequest transaction, broadcasts := s.broadcasts ++ [transaction] }
  | relayed (httpRequest : RelayTransactionRequest) (transaction : TypedTransaction)
      (waiting : s.stage = .lookingUp httpRequest transaction ∨ s.stage = .sending httpRequest transaction) :
      Moves config s (s.returns config (some (httpRequest, transaction)))

theorem step_moves (event : ClientEvent Raw) (next : Relaying Raw) (taken : s.step config event = .ok next) :
    Moves config s next := by
  unfold step at taken
  cases event with
  | selection event =>
      dsimp only at taken
      split at taken
      next waiting =>
        cases moved : s.selection.step config.selection event with
        | error refused =>
            rw [moved] at taken
            cases taken
        | ok selection =>
            rw [moved] at taken
            cases taken
            exact .selected event selection waiting moved
      next => cases taken
  | signature answer =>
      dsimp only at taken
      split at taken
      next activeRelay waiting =>
        cases answer with
        | error message =>
            cases taken
            exact .stopped activeRelay message (by rw [waiting]; rfl)
        | ok signature =>
            cases taken
            exact .signed activeRelay signature waiting
      next => cases taken
  | approvalData answer =>
      dsimp only at taken
      split at taken
      next activeRelay signature waiting =>
        cases answer with
        | error message =>
            cases taken
            exact .stopped activeRelay message (by rw [waiting]; rfl)
        | ok approvalData =>
            cases taken
            exact .approved activeRelay signature approvalData waiting
      next => cases taken
  | transactionCount answer =>
      dsimp only at taken
      split at taken
      next activeRelay signature approvalData waiting =>
        cases answer with
        | error message =>
            cases taken
            exact .stopped activeRelay message (by rw [waiting]; rfl)
        | ok count =>
            cases taken
            exact .counted activeRelay signature approvalData count waiting
      next => cases taken
  | viewCall answer =>
      dsimp only at taken
      split at taken
      next activeRelay httpRequest waiting =>
        cases answer with
        | error message =>
            cases taken
            exact .stopped activeRelay message (by rw [waiting]; rfl)
        | ok result =>
            cases taken
            exact .viewed activeRelay httpRequest result waiting
      next => cases taken
  | response now answer =>
      dsimp only at taken
      split at taken
      next activeRelay httpRequest waiting =>
        cases answer with
        | error message =>
            cases taken
            exact .refused now activeRelay httpRequest message waiting
        | ok answer =>
            cases taken
            exact .answered now activeRelay httpRequest answer.1 answer.2 waiting
      next => cases taken
  | alreadySubmitted answer =>
      dsimp only at taken
      split at taken
      next httpRequest transaction waiting =>
        split at taken
        · cases taken
          exact .broadcast httpRequest transaction waiting
        · cases taken
          exact .relayed httpRequest transaction (.inl waiting)
      next => cases taken
  | sent answer =>
      dsimp only at taken
      split at taken
      next httpRequest transaction waiting =>
        cases taken
        exact .relayed httpRequest transaction (.inr waiting)
      next => cases taken

theorem Invariant.preparing (invariant : Invariant config offered asked s) (activeRelay : RelayInfo)
    (turn : preparing s.stage = some activeRelay) : Trying s activeRelay := by
  have here := invariant.here
  cases stage : s.stage with
  | signing relay | approving relay | countingTransactions relay =>
      rw [stage] at here turn
      obtain rfl := Option.some.inj turn
      exact here
  | viewing relay httpRequest =>
      rw [stage] at here turn
      obtain rfl := Option.some.inj turn
      exact here.1
  | _ => simp [stage, Relaying.preparing] at turn

theorem Invariant.moves (positive : 1 ≤ config.selection.waitForSuccessSliceSize)
    (invariant : Invariant config offered asked s) (next : Relaying Raw) (moved : Moves config s next) :
    Invariant config offered asked next := by
  have core := invariant.toCore
  have here := invariant.here
  cases moved with
  | selected event selection waiting taken =>
      rw [waiting] at here
      obtain ⟨selecting, calling, between⟩ := here
      have moved := selecting.moves positive selection (Selection.step_moves event selection taken)
      have follows := Selection.step_follows config.selection s.selection event selection calling taken
      exact chosen_invariant s.selection waiting
        ⟨moved.toSound, core.same, core.signed, core.posted, core.blamed, core.tried.trans follows.urls⟩ moved follows
        between.tried between.errors between.silent
  | stopped activeRelay message turn => exact (invariant.preparing activeRelay turn).stops core activeRelay message
  | signed activeRelay signature waiting =>
      rw [waiting] at here
      exact ⟨core.kept _ _ _ _ _, here.tried, here.errors, here.silent, here.filled⟩
  | approved activeRelay signature approvalData waiting =>
      rw [waiting] at here
      unfold approved
      split
      · exact here.stops core activeRelay _
      · split
        · exact here.stops core activeRelay _
        · exact ⟨core.kept _ _ _ _ _, here.tried, here.errors, here.silent, here.filled⟩
  | counted activeRelay signature approvalData count waiting =>
      rw [waiting] at here
      unfold counted
      split
      · exact here.stops core activeRelay _
      · exact ⟨core.kept _ _ _ _ _, ⟨here.tried, here.errors, here.silent, here.filled⟩, here.filled⟩
  | viewed activeRelay httpRequest result waiting =>
      rw [waiting] at here
      obtain ⟨trying, filled⟩ := here
      unfold viewed
      split
      · exact trying.stops core activeRelay _
      · have tried : (s.posted ++ [(activeRelay.relayUrl, httpRequest)]).map Prod.fst = s.selection.returnedUrls := by
          rw [List.map_append]
          exact trying.tried
        refine ⟨⟨core.selection, core.same, core.signed, ?_, ?_, tried ▸ List.prefix_refl _⟩,
          ⟨⟨s.posted, rfl, trying.errors⟩, tried⟩, trying.silent⟩
        · intro entry member
          rcases List.mem_append.mp member with before | now
          · exact core.posted entry before
          · rw [List.mem_singleton.mp now]
            exact filled
        · intro failure member
          rw [List.map_append]
          exact List.mem_append_left _ (core.blamed failure member)
  | refused now activeRelay httpRequest message waiting =>
      rw [waiting] at here
      exact refused_invariant positive core now activeRelay httpRequest here.1 here.2 message
  | answered now activeRelay httpRequest signedTx nonceGapFilled waiting =>
      rw [waiting] at here
      exact answered_invariant positive core now activeRelay httpRequest here.1 here.2 signedTx nonceGapFilled
  | broadcast httpRequest transaction waiting =>
      rw [waiting] at here
      obtain ⟨⟨⟨url, now⟩, answers, gap⟩, silent⟩ := here
      refine ⟨core.kept _ _ _ _ _, ⟨⟨url, now.last, now.tried⟩, answers, gap⟩, ?_⟩
      change s.broadcasts ++ [transaction] = [transaction]
      rw [silent]
      rfl
  | relayed httpRequest transaction waiting =>
      have accepted : Accepted config s httpRequest transaction ∧ s.broadcasts.Sublist [transaction] := by
        rcases waiting with waiting | waiting
        · rw [waiting] at here
          exact ⟨here.1, here.2 ▸ List.nil_sublist _⟩
        · rw [waiting] at here
          exact ⟨here.1, here.2 ▸ List.Sublist.refl _⟩
      obtain ⟨⟨⟨url, now⟩, answers, gap⟩, broadcasts⟩ := accepted
      exact ⟨core.kept _ _ _ _ _, rfl, rfl, broadcasts, httpRequest, ⟨url, now.last, now.tried⟩, answers, gap⟩

/-! Termination. -/

/-- How many answers the current attempt still waits for, at most. -/
def Stage.rank : Stage → ℕ
  | .signing _ => 7
  | .approving _ _ => 6
  | .countingTransactions _ _ _ => 5
  | .viewing _ _ => 4
  | .posting _ _ => 3
  | .lookingUp _ _ => 2
  | .sending _ _ => 1
  | _ => 0

/-- The relays that are left, then the current attempt, then the current race. -/
def rank (s : Relaying Raw) : ℕ ×ₗ ℕ ×ₗ ℕ :=
  toLex (s.selection.manager.relaysLeft.length,
    toLex (Stage.rank s.stage, (s.selection.call.map fun call => call.race.rank).getD 0))

theorem rank_stage (next : Relaying Raw) (left : next.selection.manager.relaysLeft = s.selection.manager.relaysLeft)
    (lower : Stage.rank next.stage < Stage.rank s.stage) : next.rank < s.rank :=
  Prod.Lex.toLex_lt_toLex.mpr (.inr ⟨by rw [left], Prod.Lex.toLex_lt_toLex.mpr (.inl lower)⟩)

@[simp] theorem returns_selection (relayed : Option (RelayTransactionRequest × TypedTransaction)) :
    (s.returns config relayed).selection = s.selection := rfl

@[simp] theorem stops_selection (activeRelay : RelayInfo) (error : String) :
    (s.stops config activeRelay error).selection = s.selection := rfl

@[simp] theorem stops_rank (activeRelay : RelayInfo) (error : String) :
    Stage.rank (s.stops config activeRelay error).stage = 0 := rfl

theorem chosen_selection : (s.chosen config).selection = s.selection := by
  unfold chosen
  split
  · rfl
  · split
    · unfold attempt
      split
      · rfl
      · rfl
    · rfl
    · rfl

theorem loop_rank (positive : 1 ≤ config.selection.waitForSuccessSliceSize) (core : Core config offered asked s) :
    (s.loop config).selection.manager.relaysLeft = s.selection.manager.relaysLeft ∧
      Stage.rank (s.loop config).stage = 0 := by
  have looped := core.selection.loop positive config.relayHubAddress
  refine ⟨?_, ?_⟩
  · rw [loop, chosen_selection, looped.2]
  · unfold loop chosen
    rcases Selection.loop_follows config.selection s.selection config.relayHubAddress with
      ⟨calling, _⟩ | ⟨idle, outcome, outcomes, none⟩
    · obtain ⟨call, called⟩ := Option.ne_none_iff_exists'.mp calling
      simp only [called]
      rfl
    · simp only [idle, outcomes, List.getLast?_concat]
      cases outcome with
      | error message => rfl
      | ok relayInfo =>
          cases relayInfo with
          | none => rfl
          | some activeRelay => exact absurd rfl (none activeRelay)

theorem continues_rank (positive : 1 ≤ config.selection.waitForSuccessSliceSize) (core : Core config offered asked s)
    (activeRelay : RelayInfo) (error : String) (waiting : 0 < Stage.rank s.stage) :
    (s.continues config activeRelay error).rank < s.rank := by
  obtain ⟨left, stage⟩ := loop_rank positive (core.recordError activeRelay error)
  exact rank_stage _ left (stage ▸ waiting)

theorem refused_rank (positive : 1 ≤ config.selection.waitForSuccessSliceSize) (core : Core config offered asked s)
    (now : ℕ) (activeRelay : RelayInfo) (httpRequest : RelayTransactionRequest)
    (current : Asked s activeRelay.relayUrl httpRequest) (message : Option String) (waiting : 0 < Stage.rank s.stage) :
    (s.refused config now activeRelay message).rank < s.rank := by
  unfold refused
  split
  · exact continues_rank positive (saveRelayFailure_core core now activeRelay httpRequest current) activeRelay _ waiting
  · exact continues_rank positive core activeRelay _ waiting

theorem answered_rank (positive : 1 ≤ config.selection.waitForSuccessSliceSize) (core : Core config offered asked s)
    (now : ℕ) (activeRelay : RelayInfo) (httpRequest : RelayTransactionRequest)
    (current : Asked s activeRelay.relayUrl httpRequest) (signedTx : Raw) (nonceGapFilled : ObjectMap Raw)
    (waiting : 2 < Stage.rank s.stage) :
    (s.answered config now activeRelay httpRequest signedTx nonceGapFilled).rank < s.rank := by
  have positiveRank := (Nat.zero_lt_two).trans waiting
  unfold answered
  split
  · exact refused_rank positive core now activeRelay httpRequest current _ positiveRank
  · have auditedCore : Core config offered asked { s with audited := s.audited ++ [signedTx] } :=
      core.kept _ _ _ _ _
    dsimp only
    split
    · exact rank_stage _ rfl positiveRank
    · split
      · exact rank_stage _ rfl waiting
      · have current : Asked { s with audited := s.audited ++ [signedTx] } activeRelay.relayUrl httpRequest :=
          ⟨current.last, current.tried⟩
        exact continues_rank positive (saveRelayFailure_core auditedCore now activeRelay httpRequest current)
          activeRelay _ positiveRank

def Finished (s : Relaying Raw) : Prop := ∃ outcome, s.stage = .finished outcome

theorem Invariant.lowers (positive : 1 ≤ config.selection.waitForSuccessSliceSize)
    (invariant : Invariant config offered asked s) (next : Relaying Raw) (moved : Moves config s next) :
    next.rank < s.rank := by
  have core := invariant.toCore
  have here := invariant.here
  cases moved with
  | selected event selection waiting taken =>
      rw [waiting] at here
      obtain ⟨selecting, calling, _⟩ := here
      cases Selection.step_moves event selection taken with
      | called relayHub idle => exact absurd idle calling
      | pinged call race called moved =>
          have lower := call.race.moves_rank race moved
          unfold chosen
          refine Prod.Lex.toLex_lt_toLex.mpr (.inr ⟨rfl, Prod.Lex.toLex_lt_toLex.mpr (.inr ⟨rfl, ?_⟩)⟩)
          rw [called]
          exact lower
      | raced known call called resolved =>
          have fewer := (selecting.toSound.afterRace positive known call (selecting.racing call called) resolved).2
          refine Prod.Lex.toLex_lt_toLex.mpr (.inl ?_)
          rw [chosen_selection]
          exact fewer
  | stopped activeRelay message turn =>
      refine rank_stage _ rfl ?_
      rw [stops_rank]
      cases stage : s.stage with
      | signing | approving | countingTransactions | viewing => exact Nat.succ_pos _
      | _ => simp [stage, Relaying.preparing] at turn
  | signed activeRelay signature waiting =>
      refine rank_stage _ rfl ?_
      rw [waiting]
      exact Nat.lt_succ_self 6
  | approved activeRelay signature approvalData waiting =>
      unfold approved
      split
      · refine rank_stage _ rfl ?_
        rw [waiting]
        exact Nat.succ_pos _
      · split
        · refine rank_stage _ rfl ?_
          rw [waiting]
          exact Nat.succ_pos _
        · refine rank_stage _ rfl ?_
          rw [waiting]
          exact Nat.lt_succ_self 5
  | counted activeRelay signature approvalData count waiting =>
      unfold counted
      split
      · refine rank_stage _ rfl ?_
        rw [waiting]
        exact Nat.succ_pos _
      · refine rank_stage _ rfl ?_
        rw [waiting]
        exact Nat.lt_succ_self 4
  | viewed activeRelay httpRequest result waiting =>
      unfold viewed
      split
      · refine rank_stage _ rfl ?_
        rw [waiting]
        exact Nat.succ_pos _
      · refine rank_stage _ rfl ?_
        rw [waiting]
        exact Nat.lt_succ_self 3
  | refused now activeRelay httpRequest message waiting =>
      rw [waiting] at here
      refine refused_rank positive core now activeRelay httpRequest here.1 message ?_
      rw [waiting]
      exact Nat.succ_pos _
  | answered now activeRelay httpRequest signedTx nonceGapFilled waiting =>
      rw [waiting] at here
      refine answered_rank positive core now activeRelay httpRequest here.1 signedTx nonceGapFilled ?_
      rw [waiting]
      exact Nat.lt_succ_self 2
  | broadcast httpRequest transaction waiting =>
      refine rank_stage _ rfl ?_
      rw [waiting]
      exact Nat.lt_succ_self 1
  | relayed httpRequest transaction waiting =>
      refine rank_stage _ rfl ?_
      rcases waiting with waiting | waiting
      · rw [waiting]
        exact Nat.succ_pos _
      · rw [waiting]
        exact Nat.succ_pos _

theorem Invariant.possible (invariant : Invariant config offered asked s) (unfinished : ¬ Finished s) :
    ∃ event next, s.step config event = .ok next := by
  cases stage : s.stage with
  | selecting =>
      have here := invariant.here
      rw [stage] at here
      have goes : ∃ event selection, s.selection.step config.selection event = .ok selection :=
        here.1.possible here.2.1
      obtain ⟨event, selection, taken⟩ := goes
      refine ⟨.selection event, ?_⟩
      simp only [step, stage, taken]
      exact ⟨_, rfl⟩
  | signing activeRelay => exact ⟨.signature (.error ""), by simp [step, stage]⟩
  | approving activeRelay signature => exact ⟨.approvalData (.error ""), by simp [step, stage]⟩
  | countingTransactions activeRelay => exact ⟨.transactionCount (.error ""), by simp [step, stage]⟩
  | viewing activeRelay httpRequest => exact ⟨.viewCall (.error ""), by simp [step, stage]⟩
  | posting activeRelay httpRequest => exact ⟨.response 0 (.error none), by simp [step, stage]⟩
  | lookingUp httpRequest transaction => exact ⟨.alreadySubmitted (.error ""), by simp [step, stage]⟩
  | sending httpRequest transaction => exact ⟨.sent (.ok ()), by simp [step, stage]⟩
  | finished outcome => exact absurd ⟨outcome, stage⟩ unfinished

/-! Runs. -/

theorem Invariant.after (positive : 1 ≤ config.selection.waitForSuccessSliceSize)
    (invariant : Invariant config offered asked s) (events : List (ClientEvent Raw)) :
    Invariant config offered asked (Runs.after (step config) events s) :=
  Runs.after_invariant (step config) (Invariant config offered asked)
    (fun event _ next held taken => held.moves positive next (step_moves event next taken)) events s invariant

theorem Invariant.terminates (positive : 1 ≤ config.selection.waitForSuccessSliceSize)
    (invariant : Invariant config offered asked s) : Runs.Inevitable (step config) Finished s :=
  Runs.inevitable_of_rank (step config) rank (Invariant config offered asked) Finished
    (fun _ held unfinished => held.possible unfinished)
    (fun event _ next held taken => held.moves positive next (step_moves event next taken))
    (fun event _ next held _ taken => held.lowers positive next (step_moves event next taken)) s invariant

/-- What a client can rely on, in a state of the loop for the request. -/
structure RelaysWell (config : ClientConfig Raw) (known : KnownRelaysManager) (asked : RelayRequest)
    (s : Relaying Raw) : Prop where
  terminates : Runs.Inevitable (step config) Finished s
  once : (s.posted.map Prod.fst).Nodup
  signed : ∀ request ∈ s.signed, Filled config asked request
  posted : ∀ entry ∈ s.posted, entry.2.relayRequest ∈ s.signed
  blamed : ∀ failure ∈ s.relayFailures, failure.relayUrl ∈ s.posted.map Prod.fst
  broadcast : s.broadcasts = [] ∨
    ∃ httpRequest transaction, s.broadcasts = [transaction] ∧ Accepted config s httpRequest transaction
  returns : ∀ outcome, s.stage = .finished outcome → ∃ result, outcome = .ok result
  relayed : ∀ result transaction, s.stage = .finished (.ok result) → result.transaction = some transaction →
    result.relayingErrors = s.relayingErrors ∧ ∃ httpRequest, Accepted config s httpRequest transaction
  gaveUp : ∀ result, s.stage = .finished (.ok result) → result.transaction = none →
    (∃ url ∈ result.relayingErrors.keys, s.stopped = some url) ∨
    ∀ relay ∈ known.preferredRelayers ++ known.allRelayers.map RelayInfoUrl.event,
      config.validateRelayUrl relay.relayUrl = true →
      relay.relayUrl ∈ s.posted.map Prod.fst ∧ relay.relayUrl ∈ result.relayingErrors.keys ∨
      relay.relayUrl ∈ result.pingErrors.keys ∨
      ∃ entry ∈ s.selection.dropped, entry.1.relayUrl = relay.relayUrl ∧
        Selection.Unregistered known.preferredRelayers entry

theorem Core.once (core : Core config offered asked s) : (s.posted.map Prod.fst).Nodup :=
  core.tried.sublist.nodup core.selection.returnsOnce

theorem Invariant.broadcast (invariant : Invariant config offered asked s) : s.broadcasts = [] ∨
    ∃ httpRequest transaction, s.broadcasts = [transaction] ∧ Accepted config s httpRequest transaction := by
  have here := invariant.here
  cases stage : s.stage with
  | selecting =>
      rw [stage] at here
      exact .inl here.2.2.silent
  | signing activeRelay | approving activeRelay | countingTransactions activeRelay =>
      rw [stage] at here
      exact .inl here.silent
  | viewing activeRelay httpRequest =>
      rw [stage] at here
      exact .inl here.1.silent
  | posting activeRelay httpRequest =>
      rw [stage] at here
      exact .inl here.2
  | lookingUp httpRequest transaction =>
      rw [stage] at here
      exact .inl here.2
  | sending httpRequest transaction =>
      rw [stage] at here
      exact .inr ⟨httpRequest, transaction, here.2, here.1⟩
  | finished outcome =>
      rw [stage] at here
      cases outcome with
      | error message => exact here.elim
      | ok result =>
          obtain ⟨_, _, ended⟩ := here
          split at ended
          · exact .inl ended.silent
          · rename_i transaction _
            obtain ⟨broadcasts, httpRequest, accepted⟩ := ended
            rcases List.sublist_singleton.mp broadcasts with none | one
            · exact .inl none
            · exact .inr ⟨httpRequest, transaction, one, accepted⟩

theorem Invariant.relaysWell (positive : 1 ≤ config.selection.waitForSuccessSliceSize) (known : KnownRelaysManager)
    (random : Bool → ℕ → Random) (invariant : Invariant config
      (known.getRelaysShuffledForTransaction config.validateRelayUrl random).flatten asked s) :
    RelaysWell config known asked s where
  terminates := invariant.terminates positive
  once := invariant.toCore.once
  signed := invariant.signed
  posted := invariant.posted
  blamed := invariant.blamed
  broadcast := invariant.broadcast
  returns := by
    intro outcome stage
    have here := invariant.here
    rw [stage] at here
    cases outcome with
    | error message => exact here.elim
    | ok result => exact ⟨result, rfl⟩
  relayed := by
    intro result transaction stage relayed
    have here := invariant.here
    rw [stage] at here
    obtain ⟨errors, _, ended⟩ := here
    rw [relayed] at ended
    exact ⟨errors, ended.2⟩
  gaveUp := by
    intro result stage none
    have here := invariant.here
    rw [stage] at here
    obtain ⟨errors, pingErrors, ended⟩ := here
    rw [none] at ended
    rw [errors, pingErrors]
    rcases ended.reason with stopped | ⟨undefined, posted⟩
    · exact .inl stopped
    · refine .inr fun relay member valid => ?_
      have empty := invariant.selection.exhausted undefined
      have offered := (known.getRelaysShuffledForTransaction_perm config.validateRelayUrl random).symm.subset
        (List.mem_filter.mpr ⟨member, valid⟩)
      rcases invariant.selection.tried relay offered with left | tried
      · rw [Selection.remainingUrls, empty] at left
        exact absurd left List.not_mem_nil
      · rcases tried.preferred known config.validateRelayUrl random with returned | rest
        · rw [posted, ended.errors]
          exact .inl ⟨returned, returned⟩
        · exact .inr rest

theorem relayTransaction_starts (positive : 1 ≤ config.selection.waitForSuccessSliceSize)
    (details : GsnTransactionDetails) (told : Preparation) (start : Relaying Raw)
    (begun : relayTransaction config details told = .ok (.inr start)) :
    ∃ gas request, told.gasFor details = .ok gas ∧ prepareRelayRequest config details gas told = .ok request ∧
      Invariant config (told.known.getRelaysShuffledForTransaction config.validateRelayUrl told.random).flatten request
        start := by
  unfold relayTransaction at begun
  simp only [bind_ok] at begun
  obtain ⟨_, _, gas, limited, begun⟩ := begun
  cases prepared : prepareRelayRequest config details gas told with
  | error message => simp [prepared] at begun
  | ok request =>
      simp only [prepared, bind_ok] at begun
      obtain ⟨failure, _, begun⟩ := begun
      cases failure with
      | some message => simp at begun
      | none =>
          dsimp only at begun
          split at begun
          · cases begun
          · simp only [bind_ok, Except.ok.injEq, Sum.inr.injEq] at begun
            obtain ⟨submissionBlock, _, rfl⟩ := begun
            refine ⟨gas, request, limited, prepared, ?_⟩
            have fresh := (Selection.start_invariant
              (told.known.getRelaysShuffledForTransaction config.validateRelayUrl told.random)).toSound
            refine loop_invariant positive ⟨fresh, .inl rfl, ?_, ?_, ?_, List.nil_prefix⟩ ⟨rfl, rfl, rfl⟩
            · exact fun request impossible => absurd impossible List.not_mem_nil
            · exact fun entry impossible => absurd impossible List.not_mem_nil
            · exact fun failure impossible => absurd impossible List.not_mem_nil

end Relaying

/-- However relays, accounts and the node answer, a client that has begun to look for a relay comes to an end.
It asks one relay at a time and none twice, each for the very request it was given but for the worker and the
estimate of the calldata gas; it broadcasts at most one transaction, which answers the last request; and it gives
up only when an attempt ends with an error that is not counted as the relay's, though its response may be what it
was thrown over, or when no known relay is left to try. -/
theorem relayTransaction_relays_well {Raw : Type} (config : ClientConfig Raw)
    (positive : 1 ≤ config.selection.waitForSuccessSliceSize) (details : GsnTransactionDetails) (told : Preparation)
    (start : Relaying Raw) (begun : relayTransaction config details told = .ok (.inr start))
    (events : List (ClientEvent Raw)) :
    ∃ gas asked, told.gasFor details = .ok gas ∧ prepareRelayRequest config details gas told = .ok asked ∧
      Relaying.RelaysWell config told.known asked (Runs.after (Relaying.step config) events start) := by
  obtain ⟨gas, asked, limited, prepared, invariant⟩ :=
    Relaying.relayTransaction_starts positive details told start begun
  exact ⟨gas, asked, limited, prepared, (invariant.after positive events).relaysWell positive told.known told.random⟩

/-! Two relays, of which the first does not answer. -/

def accountText (digit : Char) : AddressText := '0' :: 'x' :: List.replicate 39 '0' ++ [digit]

def twoRelays : KnownRelaysManager :=
  ⟨.empty, [], [⟨4, 40, 4, 40, ['p'], ['M']⟩, ⟨5, 50, 5, 50, ['q'], ['N']⟩]⟩

def spreadCrypto : Crypto :=
  { sampleCrypto with
    keccak256 := fun bytes => Fin.ofNat (2 ^ 256) (bytes.foldl (fun n byte => 65599 * n + byte.toNat + 1) 7) }

def plainClient : ClientConfig TypedTransaction where
  crypto := spreadCrypto
  environment := ethereumMainnet
  selector := [1, 2, 3, 4]
  deployment := some ⟨['h'], 6, 8, accountText '8'⟩
  checksummed := fun _ => true
  validateRelayUrl := fun _ => true
  selection := Selection.someConfig
  validator := ⟨some 9, [1, 2, 3, 4], Except.ok⟩
  parseNumber := fun digits => .ok (digits.foldl (fun n digit => 10 * n + (digit.toNat - 48)) 0)
  stringify := fun _ => "{}"
  domainSeparatorName := [0x47]
  sizes := ⟨0, 0⟩
  maxRelayNonceGap := 3
  requestValidSeconds := 172800
  clientId := 1
  performDryRunViewRelayCall := true

def accepting : ViewCallVerificationResult := ⟨true, false, false, "0x"⟩

def plainDetails : GsnTransactionDetails := ⟨2, 3, [5], none, some 100000, 20, 2⟩

def plainPreparation : Preparation where
  refreshed := .ok ()
  estimatedGas := .error "not asked"
  senderNonce := .ok 0
  secondsNow := 1000
  asyncPaymasterData := fun _ => .ok []
  dryRun := fun _ => .ok accepting
  known := twoRelays
  random := fun _ _ => Selection.someRandom
  blockNumber := .ok 77

def attemptWith (promise : ℕ) (worker : Char) : List (ClientEvent TypedTransaction) :=
  let ping : PingResponse := { Selection.somePing ['x'] with relayWorkerAddress := accountText worker }
  [.selection (.ping (.settle promise (.ok ping))), .selection (.ping (.timeout Selection.someRandom)),
    .selection (.raceFinished twoRelays), .signature (.ok [1]), .approvalData (.ok []), .transactionCount (.ok 4),
    .viewCall (.ok accepting)]

def signedFor (httpRequest : RelayTransactionRequest) : TypedTransaction :=
  ⟨⟨4, 500000, some 9, 0, encodeABI [1, 2, 3, 4] (httpRequest.call httpRequest.metadata.maxAcceptanceBudget)⟩,
    .type2 1 2 20 [], .ok httpRequest.relayRequest.relayData.relayWorker⟩

def secondChance : List (ClientEvent TypedTransaction) :=
  attemptWith 0 'a' ++ .response 5 (.error (some "timeout of 3000ms exceeded")) :: attemptWith 0 'b'

def rescued (start : Relaying TypedTransaction) : List (ClientEvent TypedTransaction) :=
  match (Runs.after (Relaying.step plainClient) secondChance start).posted.getLast? with
  | some (_, httpRequest) =>
      secondChance ++
        [.response 9 (.ok (signedFor httpRequest, ⟨[], List.nodup_nil⟩)), .alreadySubmitted (.ok false), .sent (.ok ())]
  | none => []

def plainStart : Option (Relaying TypedTransaction) :=
  match relayTransaction plainClient plainDetails plainPreparation with
  | .ok (.inr start) => some start
  | _ => none

theorem plainStart_begun (start : Relaying TypedTransaction) (started : plainStart = some start) :
    relayTransaction plainClient plainDetails plainPreparation = .ok (.inr start) := by
  unfold plainStart at started
  split at started
  · rename_i other made
    rw [made, Option.some.inj started]
  · cases started

theorem relayTransaction_relays_well_second :
    ∃ start, relayTransaction plainClient plainDetails plainPreparation = .ok (.inr start) ∧
      let s := Runs.after (Relaying.step plainClient) (rescued start) start
      s.posted.map Prod.fst = [['q'], ['p']] ∧ s.broadcasts.length = 1 ∧
        ∃ asked, Relaying.RelaysWell plainClient twoRelays asked s := by
  have ran : (plainStart.map fun start =>
      let s := Runs.after (Relaying.step plainClient) (rescued start) start
      (s.posted.map Prod.fst, s.broadcasts.length)) = some ([['q'], ['p']], 1) := by decide +kernel
  obtain ⟨start, started, ran⟩ := Option.map_eq_some_iff.mp ran
  obtain ⟨posted, broadcasts⟩ := Prod.mk.inj ran
  have begun := plainStart_begun start started
  obtain ⟨_, asked, _, _, well⟩ := relayTransaction_relays_well plainClient (by decide) plainDetails plainPreparation
    start begun (rescued start)
  exact ⟨start, begun, posted, broadcasts, asked, well⟩

end OpenGsn.Provider
