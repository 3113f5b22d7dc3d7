import OpenGsn.Relay.ReputationCalls
import OpenGsn.Runs

/-! Which updates of an entry are kept when calls overlap. -/

namespace OpenGsn.Relay

namespace ReputationStore

theorem findOne_indexed (store : ReputationStore) (paymaster : AddressText) (entry : ReputationEntry)
    (found : store.findOne paymaster = some entry) : entry.paymaster = toLowerCase paymaster :=
  store.indexed (toLowerCase paymaster) entry found

theorem findOne_put (store : ReputationStore) (paymaster : AddressText) (entry : ReputationEntry)
    (own : entry.paymaster = toLowerCase paymaster) : (store.put entry).findOne paymaster = some entry := by
  rw [findOne, ← own]
  exact Function.update_self entry.paymaster (some entry) store.entries

theorem findOne_update (store : ReputationStore) (paymaster : AddressText) (entry : ReputationEntry)
    (own : entry.paymaster = toLowerCase paymaster) (present : store.findOne paymaster ≠ none) :
    (store.update entry).findOne paymaster = some entry := by
  have stored : store.entries entry.paymaster ≠ none := by
    rw [own]
    exact present
  unfold update
  cases found : store.entries entry.paymaster with
  | none => exact absurd found stored
  | some existing => exact findOne_put store paymaster entry own

end ReputationStore

namespace Reputation

variable (config : ReputationManagerConfiguration) (paymaster : AddressText)

def Calls.entry (c : Calls) : Option ReputationEntry := c.state.store.findOne paymaster

def acceptNumber : Phase → Option ℕ
  | .finding (.accepted number _) => some number
  | .writing (.accepted number _) _ => some number
  | _ => none

/-- No change of a call that has ended is lost, and when no accepted request is on its way, the
timestamp is that of the last one. -/
structure Kept (start : ℤ) (c : Calls) : Prop where
  reputation : reputationOf config (c.entry paymaster) = start + c.ended.sum
  timestamp : (∀ task, acceptNumber (c.phases task) = none) →
    c.accepted.getLast? = some (timestampOf (c.entry paymaster))

/-! What is assumed of a run: no abuse flag is set or cleared, and the maximum is not reached. -/

def CalmChange (change : ℤ) (eventBlockNumber : ℕ) (entry : ReputationEntry) : Prop :=
  entry.reputation + change ≤ config.maximumReputation ∧ ¬ tooFast config entry eventBlockNumber

instance (change : ℤ) (eventBlockNumber : ℕ) (entry : ReputationEntry) :
    Decidable (CalmChange config change eventBlockNumber entry) :=
  inferInstanceAs (Decidable (_ ∧ _))

def calmPhase (c : Calls) : Phase → Prop
  | .looking currentBlockNumber =>
      ∀ entry ∈ c.entry paymaster, config.blockReputation < entry.reputation → ¬ clears config entry currentBlockNumber
  | .reading change eventBlockNumber => ∀ entry ∈ c.entry paymaster, CalmChange config change eventBlockNumber entry
  | .creating change eventBlockNumber =>
      CalmChange config change eventBlockNumber (newEntry paymaster config.initialReputation)
  | _ => True

instance (c : Calls) (phase : Phase) : Decidable (calmPhase config paymaster c phase) := by
  unfold calmPhase
  split <;> infer_instance

def Calm (c : Calls) : Event → Prop
  | .resume task _ => calmPhase config paymaster c (c.phases task)
  | .start _ _ => True

instance (c : Calls) (event : Event) : Decidable (Calm config paymaster c event) := by
  unfold Calm
  split <;> infer_instance

/-! What was read is still so when it is written. -/

def UpdatePurpose.fresh (c : Calls) (existing entry : ReputationEntry) : UpdatePurpose → Prop
  | .accepted number _ => existing.reputation = entry.reputation ∧ c.written ≤ number
  | .changing base _ _ =>
      base.reputation = entry.reputation ∧
        existing.lastAcceptedRelayRequestTs = entry.lastAcceptedRelayRequestTs
  | _ => True

instance (c : Calls) (existing entry : ReputationEntry) (purpose : UpdatePurpose) :
    Decidable (purpose.fresh c existing entry) := by
  unfold UpdatePurpose.fresh
  split <;> infer_instance

def freshPhase (c : Calls) : Phase → Prop
  | .creating _ _ => c.entry paymaster = none
  | .finding (.accepted _ _) => c.entry paymaster ≠ none
  | .writing purpose existing => ∀ entry ∈ c.entry paymaster, purpose.fresh c existing entry
  | _ => True

instance (c : Calls) (phase : Phase) : Decidable (freshPhase paymaster c phase) := by
  unfold freshPhase
  split <;> infer_instance

def Fresh (c : Calls) : Event → Prop
  | .resume task _ => freshPhase paymaster c (c.phases task)
  | .start _ _ => True

instance (c : Calls) (event : Event) : Decidable (Fresh paymaster c event) := by
  unfold Fresh
  split <;> infer_instance

/-! The invariant -/

def UpdatePurpose.pending (accepted : List ℕ) (entry : Option ReputationEntry) : UpdatePurpose → Prop
  | .accepted number now => accepted[number]? = some now
  | .changing _ _ _ => entry ≠ none
  | _ => False

def pendingPhase (accepted : List ℕ) (entry : Option ReputationEntry) : Phase → Prop
  | .merging _ _ => entry ≠ none
  | .finding purpose => purpose.pending accepted entry
  | .writing purpose existing =>
      purpose.pending accepted entry ∧ existing.paymaster = toLowerCase paymaster ∧ entry ≠ none
  | _ => True

structure Tracked (start : ℤ) (c : Calls) : Prop where
  reputation : reputationOf config (c.entry paymaster) = start + c.ended.sum
  timestamp : c.accepted[c.written]? = some (timestampOf (c.entry paymaster))
  pending : ∀ task, pendingPhase paymaster c.accepted (c.entry paymaster) (c.phases task)
  latest : c.written + 1 = c.accepted.length ∨ ∃ task number,
    acceptNumber (c.phases task) = some number ∧ number + 1 = c.accepted.length

theorem purpose_pending_mono (accepted more : List ℕ) (entry later : Option ReputationEntry)
    (present : entry ≠ none → later ≠ none) (purpose : UpdatePurpose) (pending : purpose.pending accepted entry) :
    purpose.pending (accepted ++ more) later := by
  cases purpose with
  | accepted number now =>
      have inside := (List.getElem?_eq_some_iff.mp pending).1
      rw [UpdatePurpose.pending, List.getElem?_append_left inside]
      exact pending
  | changing base change eventBlockNumber => exact present pending
  | clearing entry => exact pending
  | flagging change eventBlockNumber => exact pending

theorem pending_mono (accepted more : List ℕ) (entry later : Option ReputationEntry)
    (present : entry ≠ none → later ≠ none) (phase : Phase)
    (pending : pendingPhase paymaster accepted entry phase) :
    pendingPhase paymaster (accepted ++ more) later phase := by
  cases phase with
  | merging change eventBlockNumber => exact present pending
  | finding purpose => exact purpose_pending_mono accepted more entry later present purpose pending
  | writing purpose existing =>
      exact ⟨purpose_pending_mono accepted more entry later present purpose pending.1, pending.2.1,
        present pending.2.2⟩
  | _ => trivial

structure Advances (c : Calls) (task : ℕ) (moved : ReputationState × Phase) : Prop where
  reputation : reputationOf config (moved.1.store.findOne paymaster) =
    reputationOf config (c.entry paymaster) + (settledChange (owed config (c.phases task)) (owed config moved.2)).sum
  timestamp : c.accepted[lastWritten c.written (c.phases task)]? =
    some (timestampOf (moved.1.store.findOne paymaster))
  present : c.entry paymaster ≠ none → moved.1.store.findOne paymaster ≠ none
  pending : pendingPhase paymaster c.accepted (moved.1.store.findOne paymaster) moved.2
  latest : c.written + 1 = c.accepted.length →
    lastWritten c.written (c.phases task) + 1 = c.accepted.length
  own : ∀ number, acceptNumber (c.phases task) = some number → number + 1 = c.accepted.length →
    lastWritten c.written (c.phases task) + 1 = c.accepted.length ∨ acceptNumber moved.2 = some number

theorem tracked_resume (start : ℤ) (c : Calls) (task now : ℕ) (tracked : Tracked config paymaster start c)
    (advances : Advances config paymaster c task (resume config paymaster task now c.state (c.phases task))) :
    Tracked config paymaster start (next config paymaster c (.resume task now)) where
  reputation := by
    calc reputationOf config ((next config paymaster c (.resume task now)).entry paymaster)
        = reputationOf config (c.entry paymaster) + (settledChange (owed config (c.phases task))
            (owed config (resume config paymaster task now c.state (c.phases task)).2)).sum := advances.reputation
      _ = start + (next config paymaster c (.resume task now)).ended.sum := by
          rw [tracked.reputation, next, List.sum_append, add_assoc]
  timestamp := advances.timestamp
  pending := by
    intro other
    by_cases same : other = task
    · subst same
      simp only [next, Function.update_self]
      exact advances.pending
    · simp only [next, Function.update_of_ne same]
      have kept := pending_mono paymaster c.accepted [] _ _ advances.present (c.phases other) (tracked.pending other)
      rw [List.append_nil] at kept
      exact kept
  latest := by
    rcases tracked.latest with written | ⟨other, number, accepting, last⟩
    · exact .inl (advances.latest written)
    · by_cases same : other = task
      · subst same
        rcases advances.own number accepting last with written | still
        · exact .inl written
        · refine .inr ⟨other, number, ?_, last⟩
          simp only [next, Function.update_self]
          exact still
      · refine .inr ⟨other, number, ?_, last⟩
        simp only [next, Function.update_of_ne same]
        exact accepting

theorem advances_still (start : ℤ) (c : Calls) (task : ℕ) (phase : Phase) (moved : ReputationState × Phase)
    (tracked : Tracked config paymaster start c) (running : c.phases task = phase)
    (entry : moved.1.store.findOne paymaster = c.entry paymaster)
    (silent : lastWritten c.written phase = c.written)
    (owes : settledChange (owed config phase) (owed config moved.2) = [])
    (accepts : acceptNumber moved.2 = acceptNumber phase)
    (pending : pendingPhase paymaster c.accepted (c.entry paymaster) moved.2) :
    Advances config paymaster c task moved where
  reputation := by rw [entry, running, owes, List.sum_nil, add_zero]
  timestamp := by rw [entry, running, silent, tracked.timestamp]
  present := by
    intro some
    rw [entry]
    exact some
  pending := by
    rw [entry]
    exact pending
  latest := by
    intro written
    rw [running, silent]
    exact written
  own := by
    intro number accepting _
    rw [accepts, ← running]
    exact .inr accepting

theorem advances_added (start : ℤ) (c : Calls) (task : ℕ) (phase : Phase) (moved : ReputationState × Phase)
    (tracked : Tracked config paymaster start c) (running : c.phases task = phase)
    (missing : c.entry paymaster = none)
    (entry : moved.1.store.findOne paymaster = some (newEntry paymaster config.initialReputation))
    (silent : lastWritten c.written phase = c.written)
    (owes : settledChange (owed config phase) (owed config moved.2) = [])
    (accepts : acceptNumber moved.2 = acceptNumber phase)
    (pending : pendingPhase paymaster c.accepted (some (newEntry paymaster config.initialReputation)) moved.2) :
    Advances config paymaster c task moved where
  reputation := by
    rw [entry, missing, running, owes, List.sum_nil, add_zero]
    rfl
  timestamp := by
    rw [entry, running, silent, tracked.timestamp, missing]
    rfl
  present := fun some => absurd missing some
  pending := by
    rw [entry]
    exact pending
  latest := by
    intro written
    rw [running, silent]
    exact written
  own := by
    intro number accepting _
    rw [accepts, ← running]
    exact .inr accepting

/-! The phases -/

theorem insertEntry_missing (reputation : ℤ) (store : ReputationStore) (missing : store.findOne paymaster = none) :
    insertEntry (newEntry paymaster reputation) store =
      (.ok (newEntry paymaster reputation), store.put (newEntry paymaster reputation)) := by
  have free : store.entries (newEntry paymaster reputation).paymaster = none := missing
  simp only [insertEntry, ReputationStore.insert, free]

theorem insertEntry_present (reputation : ℤ) (store : ReputationStore) (present : store.findOne paymaster ≠ none) :
    ∃ message, insertEntry (newEntry paymaster reputation) store = (.error message, store) := by
  obtain ⟨entry, found⟩ := Option.ne_none_iff_exists'.mp present
  have taken : store.entries (newEntry paymaster reputation).paymaster = some entry := found
  simp only [insertEntry, ReputationStore.insert, taken]
  exact ⟨_, rfl⟩

theorem owed_mergePhase (change : ℤ) (eventBlockNumber : ℕ) :
    owed config (mergePhase config change eventBlockNumber) = unlessRefused config change eventBlockNumber := by
  unfold mergePhase unlessRefused
  cases checkExpiration (oldChangesExpirationBlock config eventBlockNumber) eventBlockNumber with
  | ok value => rfl
  | error message => rfl

theorem acceptNumber_mergePhase (change : ℤ) (eventBlockNumber : ℕ) :
    acceptNumber (mergePhase config change eventBlockNumber) = none := by
  unfold mergePhase
  cases checkExpiration (oldChangesExpirationBlock config eventBlockNumber) eventBlockNumber with
  | ok value => rfl
  | error message => rfl

theorem pending_mergePhase (accepted : List ℕ) (entry : ReputationEntry) (change : ℤ) (eventBlockNumber : ℕ) :
    pendingPhase paymaster accepted (some entry) (mergePhase config change eventBlockNumber) := by
  unfold mergePhase
  cases checkExpiration (oldChangesExpirationBlock config eventBlockNumber) eventBlockNumber with
  | ok value => exact Option.some_ne_none entry
  | error message => trivial

theorem recordPhase_calm (change : ℤ) (eventBlockNumber : ℕ) (entry : ReputationEntry)
    (calm : CalmChange config change eventBlockNumber entry) :
    recordPhase config change eventBlockNumber entry = mergePhase config change eventBlockNumber := by
  rw [recordPhase, if_neg (not_lt.mpr calm.1), if_neg calm.2]

theorem settledChange_self (change : Option ℤ) : settledChange change change = [] := by
  cases change with
  | none => rfl
  | some change => rfl

def Watching (phase : Phase) : Prop := (∃ entry, phase = .judging entry) ∨ ∃ result, phase = .releasing result

theorem watching_acceptNumber (phase : Phase) (watching : Watching phase) : acceptNumber phase = none := by
  rcases watching with ⟨entry, rfl⟩ | ⟨result, rfl⟩
  · rfl
  · rfl

theorem watching_pending (accepted : List ℕ) (entry : Option ReputationEntry) (phase : Phase)
    (watching : Watching phase) : pendingPhase paymaster accepted entry phase := by
  rcases watching with ⟨judged, rfl⟩ | ⟨result, rfl⟩
  · trivial
  · trivial

theorem statusPhase_calm (currentBlockNumber : ℕ) (entry : ReputationEntry)
    (calm : config.blockReputation < entry.reputation → ¬ clears config entry currentBlockNumber) :
    Watching (statusPhase config currentBlockNumber entry) := by
  unfold statusPhase
  split
  next => exact .inr ⟨_, rfl⟩
  next unblocked =>
    rw [if_neg (calm (not_le.mp unblocked))]
    split
    · exact .inr ⟨_, rfl⟩
    · exact .inl ⟨_, rfl⟩

theorem newEntry_not_clears (currentBlockNumber : ℕ) :
    ¬ clears config (newEntry paymaster config.initialReputation) currentBlockNumber :=
  fun clears => clears.1 rfl

theorem accepted_advances (c : Calls) (task number accepted : ℕ) (existing entry : ReputationEntry)
    (moved : ReputationState × Phase) (running : c.phases task = .writing (.accepted number accepted) existing)
    (called : c.accepted[number]? = some accepted) (found : c.entry paymaster = some entry)
    (stored : moved.1.store.findOne paymaster = some ((acceptedUpdate accepted).assign existing))
    (phase : moved.2 = .done) (same : existing.reputation = entry.reputation) (latest : c.written ≤ number) :
    Advances config paymaster c task moved where
  reputation := by
    rw [stored, found, running, phase]
    simp [reputationOf, acceptedUpdate, ReputationUpdate.assign, same, settledChange, owed, UpdatePurpose.owed]
  timestamp := by
    rw [stored, running]
    exact called
  present := by simp [stored]
  pending := by
    rw [phase]
    trivial
  latest := by
    have inside := (List.getElem?_eq_some_iff.mp called).1
    intro written
    rw [running, lastWritten]
    omega
  own := by
    intro other accepting last
    rw [running] at accepting ⊢
    cases accepting
    exact .inl last

theorem changing_advances (start : ℤ) (c : Calls) (task : ℕ) (base existing entry : ReputationEntry) (change : ℤ)
    (eventBlockNumber : ℕ) (moved : ReputationState × Phase) (tracked : Tracked config paymaster start c)
    (running : c.phases task = .writing (.changing base change eventBlockNumber) existing)
    (found : c.entry paymaster = some entry)
    (stored : moved.1.store.findOne paymaster =
      some (((UpdatePurpose.changing base change eventBlockNumber).update config).assign existing))
    (phase : moved.2 = .done) (reputation : base.reputation = entry.reputation)
    (timestamp : existing.lastAcceptedRelayRequestTs = entry.lastAcceptedRelayRequestTs) :
    Advances config paymaster c task moved where
  reputation := by
    rw [stored, found, running, phase]
    simp [reputationOf, UpdatePurpose.update, changesUpdate, ReputationUpdate.assign, reputation, settledChange, owed,
      UpdatePurpose.owed]
  timestamp := by
    rw [stored, running]
    change c.accepted[c.written]? = _
    rw [tracked.timestamp, found]
    simp [timestampOf, UpdatePurpose.update, changesUpdate, ReputationUpdate.assign, timestamp]
  present := by simp [stored]
  pending := by
    rw [phase]
    trivial
  latest := by
    intro written
    rw [running]
    exact written
  own := by
    intro number accepting
    rw [running] at accepting
    cases accepting

theorem writing_advances (start : ℤ) (c : Calls) (task now : ℕ) (purpose : UpdatePurpose)
    (existing entry : ReputationEntry)
    (running : c.phases task = .writing purpose existing) (found : c.entry paymaster = some entry)
    (tracked : Tracked config paymaster start c) (fresh : purpose.fresh c existing entry) :
    Advances config paymaster c task (resume config paymaster task now c.state (.writing purpose existing)) := by
  have pending := tracked.pending task
  rw [running] at pending
  have stored : (c.state.store.update ((purpose.update config).assign existing)).findOne paymaster =
      some ((purpose.update config).assign existing) :=
    ReputationStore.findOne_update _ _ _ pending.2.1 pending.2.2
  cases purpose with
  | accepted number accepted =>
      exact accepted_advances config paymaster c task number accepted existing entry _ running pending.1 found stored
        rfl fresh.1 fresh.2
  | changing base change eventBlockNumber =>
      exact changing_advances config paymaster start c task base existing entry change eventBlockNumber _ tracked
        running found stored rfl fresh.1 fresh.2
  | clearing judged => exact pending.1.elim
  | flagging change eventBlockNumber => exact pending.1.elim

theorem phase_advances (start : ℤ) (c : Calls) (task now : ℕ) (phase : Phase) (running : c.phases task = phase)
    (tracked : Tracked config paymaster start c) (calm : calmPhase config paymaster c phase)
    (fresh : freshPhase paymaster c phase) :
    Advances config paymaster c task (resume config paymaster task now c.state phase) := by
  have pending := tracked.pending task
  rw [running] at pending
  cases phase with
  | done => exact advances_still config paymaster start c task _ _ tracked running rfl rfl rfl rfl trivial
  | acquiring currentBlockNumber =>
      by_cases free : c.state.mutex.isNone = true
      · rw [resume, if_pos free]
        exact advances_still config paymaster start c task _ _ tracked running rfl rfl rfl rfl trivial
      · rw [resume, if_neg free]
        exact advances_still config paymaster start c task _ _ tracked running rfl rfl rfl rfl trivial
  | looking currentBlockNumber =>
      cases found : c.entry paymaster with
      | none =>
          have missing : c.state.store.findOne paymaster = none := found
          rw [resume, missing]
          exact advances_still config paymaster start c task _ _ tracked running rfl rfl rfl rfl trivial
      | some entry =>
          have present : c.state.store.findOne paymaster = some entry := found
          have watching := statusPhase_calm config currentBlockNumber entry (calm entry found)
          rw [resume, present]
          exact advances_still config paymaster start c task _ _ tracked running rfl rfl rfl
            (watching_acceptNumber _ watching) (watching_pending paymaster _ _ _ watching)
  | adding currentBlockNumber =>
      have watching := statusPhase_calm config currentBlockNumber (newEntry paymaster config.initialReputation)
        fun _ => newEntry_not_clears config paymaster currentBlockNumber
      cases found : c.entry paymaster with
      | none =>
          rw [resume, insertEntry_missing paymaster config.initialReputation c.state.store found]
          exact advances_added config paymaster start c task _ _ tracked running found
            (ReputationStore.findOne_put _ _ _ rfl) rfl rfl (watching_acceptNumber _ watching)
            (watching_pending paymaster _ _ _ watching)
      | some entry =>
          obtain ⟨message, refused⟩ := insertEntry_present paymaster config.initialReputation c.state.store
            (Option.ne_none_iff_exists'.mpr ⟨entry, found⟩)
          rw [resume, refused]
          exact advances_still config paymaster start c task _ _ tracked running rfl rfl rfl rfl trivial
  | judging entry => exact advances_still config paymaster start c task _ _ tracked running rfl rfl rfl rfl trivial
  | releasing result => exact advances_still config paymaster start c task _ _ tracked running rfl rfl rfl rfl trivial
  | reading change eventBlockNumber =>
      cases found : c.entry paymaster with
      | none =>
          have missing : c.state.store.findOne paymaster = none := found
          rw [resume, missing]
          exact advances_still config paymaster start c task _ _ tracked running rfl rfl
            (settledChange_self _) rfl trivial
      | some entry =>
          have present : c.state.store.findOne paymaster = some entry := found
          rw [resume, present]
          simp only [recordPhase_calm config change eventBlockNumber entry (calm entry found)]
          apply advances_still config paymaster start c task _ _ tracked running rfl rfl
          · rw [owed_mergePhase]
            exact settledChange_self _
          · exact acceptNumber_mergePhase config change eventBlockNumber
          · rw [found]
            exact pending_mergePhase config paymaster _ entry change eventBlockNumber
  | creating change eventBlockNumber =>
      rw [resume, insertEntry_missing paymaster config.initialReputation c.state.store fresh]
      simp only [recordPhase_calm config change eventBlockNumber _ calm]
      apply advances_added config paymaster start c task _ _ tracked running fresh
        (ReputationStore.findOne_put _ _ _ rfl) rfl
      · rw [owed_mergePhase]
        exact settledChange_self _
      · exact acceptNumber_mergePhase config change eventBlockNumber
      · exact pending_mergePhase config paymaster _ _ change eventBlockNumber
  | merging change eventBlockNumber =>
      obtain ⟨base, found⟩ := Option.ne_none_iff_exists'.mp pending
      have present : c.state.store.findOne paymaster = some base := found
      rw [resume, present]
      exact advances_still config paymaster start c task _ _ tracked running rfl rfl (settledChange_self _) rfl pending
  | finding purpose =>
      have some : c.entry paymaster ≠ none := by
        cases purpose with
        | accepted number accepted => exact fresh
        | changing base change eventBlockNumber => exact pending
        | clearing judged => exact pending.elim
        | flagging change eventBlockNumber => exact pending.elim
      obtain ⟨existing, found⟩ := Option.ne_none_iff_exists'.mp some
      have present : c.state.store.findOne paymaster = Option.some existing := found
      have own := ReputationStore.findOne_indexed c.state.store paymaster existing present
      rw [resume, present]
      apply advances_still config paymaster start c task _ _ tracked running rfl rfl (settledChange_self _)
      · cases purpose with
        | _ => rfl
      · exact ⟨pending, own, some⟩
  | writing purpose existing =>
      obtain ⟨entry, found⟩ := Option.ne_none_iff_exists'.mp pending.2.2
      exact writing_advances config paymaster start c task now purpose existing entry running found tracked
        (fresh entry found)

/-! Runs -/

theorem begin_pending (start : ℤ) (c : Calls) (task : ℕ) (call : Call) (tracked : Tracked config paymaster start c)
    (other : ℕ) :
    pendingPhase paymaster (c.begin task call).accepted (c.entry paymaster) ((c.begin task call).phases other) := by
  unfold Calls.begin
  by_cases same : other = task
  · subst same
    simp only [Function.update_self]
    cases call with
    | onRelayRequestAccepted now => exact List.getElem?_concat_length
    | getPaymasterStatus currentBlockNumber => trivial
    | updatePaymasterStatus transactionSuccess eventBlockNumber => trivial
  · simp only [Function.update_of_ne same]
    exact pending_mono paymaster c.accepted _ _ _ id _ (tracked.pending other)

theorem begin_accepting (c : Calls) (task : ℕ) (call : Call) (idle : c.phases task = .done)
    (latest : c.written + 1 = c.accepted.length ∨ ∃ other number,
      acceptNumber (c.phases other) = some number ∧ number + 1 = c.accepted.length) :
    c.written + 1 = (c.begin task call).accepted.length ∨ ∃ other number,
      acceptNumber ((c.begin task call).phases other) = some number ∧
        number + 1 = (c.begin task call).accepted.length := by
  unfold Calls.begin
  cases call with
  | onRelayRequestAccepted now =>
      refine .inr ⟨task, c.accepted.length, ?_, ?_⟩
      · simp only [Function.update_self]
        rfl
      · simp only [Call.acceptedAt, List.length_append, List.length_singleton]
  | _ =>
      simp only [Call.acceptedAt, List.append_nil]
      rcases latest with written | ⟨other, number, accepting, last⟩
      · exact .inl written
      · have apart : other ≠ task := by
          intro same
          rw [same, idle] at accepting
          cases accepting
        refine .inr ⟨other, number, ?_, last⟩
        rw [Function.update_of_ne apart]
        exact accepting

theorem begin_tracked (start : ℤ) (c : Calls) (task : ℕ) (call : Call) (idle : c.phases task = .done)
    (tracked : Tracked config paymaster start c) : Tracked config paymaster start (c.begin task call) where
  reputation := tracked.reputation
  timestamp := by
    have inside : c.written < c.accepted.length := (List.getElem?_eq_some_iff.mp tracked.timestamp).1
    calc (c.accepted ++ call.acceptedAt)[c.written]?
        = c.accepted[c.written]? := List.getElem?_append_left inside
      _ = some (timestampOf (c.entry paymaster)) := tracked.timestamp
  pending := begin_pending config paymaster start c task call tracked
  latest := begin_accepting c task call idle tracked.latest

theorem next_tracked (start : ℤ) (c : Calls) (event : Event) (tracked : Tracked config paymaster start c)
    (permitted : Calm config paymaster c event ∧ Fresh paymaster c event) :
    Tracked config paymaster start (next config paymaster c event) := by
  cases event with
  | start task call =>
      cases running : c.phases task with
      | done =>
          simp only [next, running]
          exact begin_tracked config paymaster start c task call running tracked
      | _ =>
          simp only [next, running]
          exact tracked
  | resume task now =>
      apply tracked_resume config paymaster start c task now tracked
      exact phase_advances config paymaster start c task now _ rfl tracked permitted.1 permitted.2

theorem tracked_kept (start : ℤ) (c : Calls) (tracked : Tracked config paymaster start c) :
    Kept config paymaster start c where
  reputation := tracked.reputation
  timestamp := by
    intro idle
    rcases tracked.latest with written | ⟨task, number, accepting, _⟩
    · have last : c.written = c.accepted.length - 1 := by omega
      rw [List.getLast?_eq_getElem?, ← last]
      exact tracked.timestamp
    · rw [idle task] at accepting
      cases accepting

theorem initial_tracked (store : ReputationStore) :
    Tracked config paymaster (reputationOf config (store.findOne paymaster)) (initial paymaster store) :=
  ⟨(add_zero _).symm, rfl, fun _ => trivial, .inl rfl⟩

/-- If what a call has read of the entry is still stored when it writes it back, no change and no
timestamp is lost. -/
theorem updates_kept (store : ReputationStore) (events : List Event)
    (calm : Runs.Along (next config paymaster) (Calm config paymaster) events (initial paymaster store))
    (fresh : Runs.Along (next config paymaster) (Fresh paymaster) events (initial paymaster store)) :
    Runs.Always (next config paymaster) (Kept config paymaster (reputationOf config (store.findOne paymaster))) events
      (initial paymaster store) :=
  Runs.along_always _ _ _ _ (next_tracked config paymaster _) (tracked_kept config paymaster _) events _
    (initial_tracked config paymaster store) (Runs.along_and _ _ _ events _ calm fresh)

def somePaymaster : AddressText := ['0', 'x', 'a']

def someStore : ReputationStore := ReputationStore.empty.put ⟨somePaymaster, 10, 5, 0, []⟩

def oneByOne : List Event :=
  [.start 0 (.onRelayRequestAccepted 7), .start 2 (.getPaymasterStatus 4), .resume 2 8, .resume 0 8, .resume 2 8,
    .resume 0 8, .start 1 (.updatePaymasterStatus false 4), .resume 1 9, .resume 1 9, .resume 2 9, .resume 1 9,
    .resume 1 9]

theorem updates_kept_sample :
    Runs.Always (next defaultReputationConfig somePaymaster) (Kept defaultReputationConfig somePaymaster 10) oneByOne
      (initial somePaymaster someStore) :=
  updates_kept defaultReputationConfig somePaymaster someStore oneByOne (by decide) (by decide)

/-- While an accepted request is about to write its timestamp, a failed one is counted. -/
def countedMeanwhile : List Event :=
  [.start 0 (.onRelayRequestAccepted 7), .resume 0 8, .start 1 (.updatePaymasterStatus false 4), .resume 1 9,
    .resume 1 9, .resume 1 9, .resume 1 9, .resume 0 9]

def acceptedMeanwhile : List Event :=
  [.start 1 (.updatePaymasterStatus false 4), .resume 1 6, .resume 1 6, .resume 1 6,
    .start 0 (.onRelayRequestAccepted 7), .resume 0 8, .resume 0 8, .resume 1 9]

def lastEntry (events : List Event) : Option ReputationEntry :=
  (events.foldl (next defaultReputationConfig somePaymaster) (initial somePaymaster someStore)).entry somePaymaster

theorem overlapping_update_lost :
    (lastEntry countedMeanwhile).map ReputationEntry.reputation = some 10 ∧
    (lastEntry acceptedMeanwhile).map ReputationEntry.lastAcceptedRelayRequestTs = some 5 ∧
    Runs.Along (next defaultReputationConfig somePaymaster) (Calm defaultReputationConfig somePaymaster)
      countedMeanwhile (initial somePaymaster someStore) ∧
    ¬ Runs.Always (next defaultReputationConfig somePaymaster) (Kept defaultReputationConfig somePaymaster 10)
      countedMeanwhile (initial somePaymaster someStore) := by
  refine ⟨by decide, by decide, by decide, fun always => ?_⟩
  have kept := (Runs.always_end _ _ _ _ always).reputation
  exact absurd kept (by decide)

end Reputation

end OpenGsn.Relay
