import OpenGsn.Relay.HandleChanges
import OpenGsn.Runs

/-! Which events the reputations are updated for, and how often. -/

namespace OpenGsn.Relay

open Paging (PaginatedQuery)

def EventData.Handled (event : EventData) : Prop :=
  match event.event with
  | .transactionRelayed _ => True
  | .transactionRejectedByPaymaster _ => True
  | _ => False

instance (event : EventData) : Decidable event.Handled := by
  unfold EventData.Handled
  split <;> infer_instance

theorem EventData.handled_source (event : EventData) (handled : event.Handled) : event.event.source = .hub := by
  unfold Handled at handled
  unfold ManagerEvent.source
  split
  · next registered => simp only [registered] at handled
  · rfl

/-- Of the handled events, the list has those that were mined in the blocks, each once. -/
def Exactly (chain : Chain) (low high : ℕ) (events : List EventData) : Prop :=
  ∀ event : EventData, event.Handled →
    events.count event =
      if event ∈ chain.logs ∧ low < event.blockNumber ∧ event.blockNumber ≤ high then 1 else 0

theorem exactly_mine (chain : Chain) (block : List ManagerEvent) (low high : ℕ) (events : List EventData)
    (seen : high ≤ low ∨ high ≤ chain.head) (exact : Exactly chain low high events) :
    Exactly (chain.mine block) low high events := by
  intro event handled
  rw [exact event handled]
  by_cases within : low < event.blockNumber ∧ event.blockNumber ≤ high
  · simp only [within, and_true, Chain.mem_mine block chain event (by omega)]
  · simp only [within, and_false]

theorem exactly_append (chain : Chain) (low middle high : ℕ) (early late : List EventData)
    (first : low ≤ middle) (second : middle ≤ high) (one : Exactly chain low middle early)
    (two : Exactly chain middle high late) : Exactly chain low high (early ++ late) := by
  intro event handled
  rw [List.count_append, one event handled, two event handled]
  by_cases member : event ∈ chain.logs
  · simp only [member, true_and]
    split_ifs <;> omega
  · simp only [member, false_and, if_false, Nat.add_zero]

theorem exactly_append_unhandled (chain : Chain) (low high : ℕ) (events others : List EventData)
    (exact : Exactly chain low high events) (ignored : ∀ event ∈ others, ¬ event.Handled) :
    Exactly chain low high (events ++ others) := by
  intro event handled
  have absent : event ∉ others := fun member => ignored event member handled
  rw [List.count_append, List.count_eq_zero_of_not_mem absent]
  exact exact event handled

namespace Scan

variable (config : ScanConfig) (start : ℕ)

/-- No page has a handled event from a block after that of the pass, no query that has some is
split again, and none are left out or lost once the new `lastScannedBlock` is set. -/
def Sound (s : Scan) : ScanInput → Prop
  | .reply answer =>
      match s.phase, answer with
      | .askingHub block query, .returned =>
          ∀ event ∈ s.pageOf query, event.Handled → event.blockNumber ≤ block
      | .askingHub _ query, .failed returnedMoreThan =>
          100 ≤ query.attempts + 1 → returnedMoreThan = true → query.pagesCurrent ≤ 16 →
            ∀ event ∈ query.relayEventParts.flatten, ¬ event.Handled
      | .registering events, .registered isRegistered =>
          (∃ event ∈ events, event.Handled) → isRegistered = true ∧ config.runPaymasterReputations = true
      | .registering events, .failed _ => ∀ event ∈ events, ¬ event.Handled
      | .alerting _ _, .failed _ => False
      | .updating _ _, .failed _ => False
      | _, _ => True
  | _ => True

instance (s : Scan) (input : ScanInput) : Decidable (s.Sound config input) := by
  unfold Sound
  split
  · split <;> infer_instance
  · infer_instance

/-- The handled events that the pass has got, and that the cursor is past. -/
def pending : ScanPhase → List EventData
  | .registering events => events
  | .alerting event rest => event :: rest
  | .updating event rest => event :: rest
  | _ => []

/-- What the requests for the remaining ranges add to the parts is what is mined up to the block of
the pass. -/
structure Collecting (chain : Chain) (low block : ℕ) (query : PastEventsQuery) : Prop where
  source : query.source = .hub
  starts : query.fromBlock = low + 1
  reaches : ∀ last ∈ query.toBlock, block ≤ last
  pages : 0 < query.pagesCurrent
  rest : ∀ event : EventData, event.Handled → event ∈ chain.logs → event.blockNumber ≤ block →
    query.relayEventParts.flatten.count event +
      query.rangeParts.countP (fun range => range.Contains event.blockNumber) =
        if low < event.blockNumber then 1 else 0
  others : ∀ event : EventData, event.Handled → ¬ (event ∈ chain.logs ∧ event.blockNumber ≤ block) →
    event ∉ query.relayEventParts.flatten

theorem collecting_done (chain : Chain) (low block : ℕ) (query : PastEventsQuery)
    (collecting : Collecting chain low block query) (done : query.rangeParts = []) :
    Exactly chain low block query.relayEventParts.flatten := by
  intro event handled
  by_cases mined : event ∈ chain.logs ∧ event.blockNumber ≤ block
  · have all := collecting.rest event handled mined.1 mined.2
    rw [done, List.countP_nil, Nat.add_zero] at all
    rw [all]
    simp only [mined.1, mined.2, true_and, and_true]
  · rw [List.count_eq_zero_of_not_mem (collecting.others event handled mined), if_neg]
    exact fun within => mined ⟨within.1, within.2.2⟩

theorem collecting_mine (chain : Chain) (mined : List ManagerEvent) (low block : ℕ) (query : PastEventsQuery)
    (seen : block ≤ chain.head) (collecting : Collecting chain low block query) :
    Collecting (chain.mine mined) low block query := by
  refine ⟨collecting.source, collecting.starts, collecting.reaches, collecting.pages, ?_, ?_⟩
  · intro event handled member early
    exact collecting.rest event handled ((Chain.mem_mine mined chain event (by omega)).mp member) early
  · intro event handled unmined
    refine collecting.others event handled fun old => unmined ⟨?_, old.2⟩
    exact (Chain.mem_mine mined chain event (by omega)).mpr old.1

theorem splitRange_counts (low block : ℕ) (toBlock : Option ℕ) (parts : ℕ) (ranges : List BlockRange)
    (positive : 0 < parts) (below : low < block) (reaches : ∀ last ∈ toBlock, block ≤ last)
    (split : splitRange (low + 1) toBlock parts = some ranges) (blockNumber : ℕ) (early : blockNumber ≤ block) :
    ranges.countP (fun range => range.Contains blockNumber) = if low < blockNumber then 1 else 0 := by
  have ordered : ∀ last ∈ toBlock, low + 1 ≤ last := fun last ends => Nat.le_trans below (reaches last ends)
  rw [splitRange_cover (low + 1) toBlock parts blockNumber ranges positive ordered split]
  have inside : (⟨low + 1, toBlock⟩ : BlockRange).Contains blockNumber ↔ low < blockNumber :=
    ⟨fun contained => contained.1, fun later => ⟨later, fun last ends => Nat.le_trans early (reaches last ends)⟩⟩
  simp only [inside]

theorem pagesForRange_pos (limits : PageLimits) (fromBlock : ℕ) (toBlock : Option ℕ) (pages : ℕ)
    (found : PastEventsQuery.getLogsPagesForRange limits fromBlock toBlock = some pages) : 0 < pages := by
  unfold PastEventsQuery.getLogsPagesForRange at found
  split at found
  all_goals cases found
  · exact Nat.one_pos
  · exact Nat.lt_of_lt_of_le Nat.one_pos (Nat.le_max_right _ _)

theorem start_some (limits : PageLimits) (source : EventSource) (fromBlock : ℕ) (toBlock : Option ℕ)
    (query : PastEventsQuery) (started : PastEventsQuery.start limits source fromBlock toBlock = some query) :
    ∃ pages ranges, 0 < pages ∧ splitRange fromBlock toBlock pages = some ranges ∧
      query = ⟨⟨fromBlock, toBlock, pages, ranges, 0, []⟩, source⟩ := by
  obtain ⟨paginated, begun, rfl⟩ := Option.map_eq_some_iff.mp started
  unfold PaginatedQuery.start at begun
  split at begun
  next => cases begun
  next =>
    obtain ⟨pages, found, rest⟩ := Option.bind_eq_some_iff.mp begun
    split at rest
    next => cases rest
    next =>
      obtain ⟨ranges, split, made⟩ := Option.bind_eq_some_iff.mp rest
      cases made
      exact ⟨pages, ranges, pagesForRange_pos limits fromBlock toBlock pages found, split, rfl⟩

theorem collecting_start (chain : Chain) (limits : PageLimits) (low block : ℕ) (toBlock : Option ℕ)
    (query : PastEventsQuery) (below : low < block) (reaches : ∀ last ∈ toBlock, block ≤ last)
    (started : PastEventsQuery.start limits .hub (low + 1) toBlock = some query) :
    Collecting chain low block query := by
  obtain ⟨pages, ranges, positive, split, rfl⟩ := start_some limits .hub (low + 1) toBlock query started
  refine ⟨rfl, rfl, reaches, positive, fun event _ _ early => ?_, fun event _ _ member => by cases member⟩
  have counts := splitRange_counts low block toBlock pages ranges positive below reaches split
    event.blockNumber early
  simpa only [List.flatten_nil, List.count_nil, Nat.zero_add] using counts

theorem collecting_answered (s : Scan) (low block : ℕ) (query : PastEventsQuery)
    (collecting : Collecting s.chain low block query)
    (sound : ∀ event ∈ s.pageOf query, event.Handled → event.blockNumber ≤ block) :
    Collecting s.chain low block (query.answered (s.pageOf query)) := by
  have parts : (query.answered (s.pageOf query)).relayEventParts.flatten =
      query.relayEventParts.flatten ++ s.pageOf query := by
    simp only [PastEventsQuery.answered, PaginatedQuery.answered, List.flatten_append, List.flatten_singleton]
  have mined : ∀ event ∈ s.pageOf query, event ∈ s.chain.logs := by
    intro event member
    unfold pageOf at member
    split at member
    next => cases member
    next => exact List.mem_of_mem_filter member
  refine ⟨collecting.source, collecting.starts, collecting.reaches, collecting.pages, ?_, ?_⟩
  · intro event handled member early
    have before := collecting.rest event handled member early
    rw [parts, List.count_append]
    cases ranges : query.rangeParts with
    | nil =>
        rw [ranges, List.countP_nil, Nat.add_zero] at before
        simp only [PastEventsQuery.answered, PaginatedQuery.answered, pageOf, ranges, List.tail_nil, List.countP_nil, List.count_nil,
          Nat.add_zero]
        exact before
    | cons range others =>
        rw [ranges, List.countP_cons] at before
        simp only [decide_eq_true_eq] at before
        simp only [PastEventsQuery.answered, PaginatedQuery.answered, pageOf, ranges, List.tail_cons]
        rw [Chain.count_getPastEvents query.source range s.chain event
          (collecting.source ▸ event.handled_source handled)]
        simp only [member, true_and]
        omega
  · intro event handled unmined member
    rw [parts] at member
    rcases List.mem_append.mp member with old | new
    · exact collecting.others event handled unmined old
    · exact unmined ⟨mined event new, sound event new handled⟩

theorem collecting_failed (s : Scan) (low block : ℕ) (query again : PastEventsQuery) (returnedMoreThan : Bool)
    (below : low < block) (collecting : Collecting s.chain low block query)
    (sound : 100 ≤ query.attempts + 1 → returnedMoreThan = true → query.pagesCurrent ≤ 16 →
      ∀ event ∈ query.relayEventParts.flatten, ¬ event.Handled)
    (tried : query.failed returnedMoreThan = some again) : Collecting s.chain low block again := by
  obtain ⟨paginated, retried, rfl⟩ := Option.map_eq_some_iff.mp tried
  unfold PaginatedQuery.failed at retried
  split at retried
  · cases retried
    exact ⟨collecting.source, collecting.starts, collecting.reaches, collecting.pages, collecting.rest,
      collecting.others⟩
  next last =>
    split at retried
    next more =>
      unfold PaginatedQuery.splitAgain at retried
      split at retried
      next => cases retried
      next few =>
        obtain ⟨ranges, split, rfl⟩ := Option.map_eq_some_iff.mp retried
        have empty := sound (by omega) more (by omega)
        have positive : 0 < query.pagesCurrent * 4 := Nat.mul_pos collecting.pages (by omega)
        rw [collecting.starts] at split
        refine ⟨collecting.source, collecting.starts, collecting.reaches, positive, ?_, collecting.others⟩
        intro event handled member early
        have absent : event ∉ query.relayEventParts.flatten := fun got => empty event got handled
        rw [List.count_eq_zero_of_not_mem absent, Nat.zero_add]
        exact splitRange_counts low block query.toBlock _ ranges positive below collecting.reaches split
          event.blockNumber early
    next => cases retried

/-! What holds at each await -/

def Ahead (chain : Chain) (cursor block : ℕ) : Prop := cursor < block ∧ block ≤ chain.head

def Steady (chain : Chain) (cursor : ℕ) : ScanPhase → Prop
  | .withdrawing block => Ahead chain cursor block
  | .refreshing block => Ahead chain cursor block
  | .numbering block => Ahead chain cursor block
  | .askingHub block query => Ahead chain cursor block ∧ Collecting chain cursor block query
  | .askingRegistrar block hubEvents query =>
      Ahead chain cursor block ∧ Exactly chain cursor block hubEvents ∧ query.source = .registrar ∧
        ∀ event ∈ query.relayEventParts.flatten, ¬ event.Handled
  | .managing block events => Ahead chain cursor block ∧ Exactly chain cursor block events
  | .alerting _ _ => config.runPaymasterReputations = true
  | .updating _ _ => config.runPaymasterReputations = true
  | _ => True

structure Counted (s : Scan) : Prop where
  later : start ≤ s.lastScannedBlock
  seen : s.lastScannedBlock = start ∨ s.lastScannedBlock ≤ s.chain.head
  exact : Exactly s.chain start s.lastScannedBlock (s.updated ++ pending s.phase)
  steady : Steady config s.chain s.lastScannedBlock s.phase

/-- A step that leaves chain, cursor and updates as they are, with as much to do as before. -/
theorem counted_moved (s t : Scan) (counted : Counted config start s) (chain : t.chain = s.chain)
    (cursor : t.lastScannedBlock = s.lastScannedBlock) (updates : t.updated = s.updated)
    (todo : ∀ event : EventData, event.Handled → (pending t.phase).count event = (pending s.phase).count event)
    (steady : Steady config s.chain s.lastScannedBlock t.phase) : Counted config start t := by
  refine ⟨?_, ?_, ?_, ?_⟩
  · rw [cursor]
    exact counted.later
  · rw [cursor, chain]
    exact counted.seen
  · intro event handled
    have before := counted.exact event handled
    rw [List.count_append] at before
    rw [cursor, chain, updates, List.count_append, todo event handled]
    exact before
  · rw [chain, cursor]
    exact steady

theorem counted_abandon (s : Scan) (counted : Counted config start s)
    (done : ∀ event ∈ pending s.phase, ¬ event.Handled) : Counted config start s.abandon := by
  refine counted_moved config start s _ counted rfl rfl rfl ?_ trivial
  intro event handled
  have absent : event ∉ pending s.phase := fun member => done event member handled
  rw [List.count_eq_zero_of_not_mem absent]
  rfl

theorem steady_mine (chain : Chain) (mined : List ManagerEvent) (cursor : ℕ) (phase : ScanPhase)
    (steady : Steady config chain cursor phase) : Steady config (chain.mine mined) cursor phase := by
  have ahead : ∀ block, Ahead chain cursor block → Ahead (chain.mine mined) cursor block :=
    fun block before => ⟨before.1, Nat.le_succ_of_le before.2⟩
  cases phase with
  | withdrawing block => exact ahead block steady
  | refreshing block => exact ahead block steady
  | numbering block => exact ahead block steady
  | askingHub block query =>
      exact ⟨ahead block steady.1, collecting_mine chain mined cursor block query steady.1.2 steady.2⟩
  | askingRegistrar block hubEvents query =>
      exact ⟨ahead block steady.1, exactly_mine chain mined cursor block hubEvents (.inr steady.1.2) steady.2.1,
        steady.2.2⟩
  | managing block events =>
      exact ⟨ahead block steady.1, exactly_mine chain mined cursor block events (.inr steady.1.2) steady.2⟩
  | _ => exact steady

theorem counted_mined (s : Scan) (mined : List ManagerEvent) (counted : Counted config start s) :
    Counted config start (s.next config (.mined mined)) := by
  refine ⟨counted.later, ?_, ?_, steady_mine config s.chain mined _ _ counted.steady⟩
  · exact counted.seen.imp id Nat.le_succ_of_le
  · exact exactly_mine s.chain mined start _ _ (counted.seen.imp Nat.le_of_eq id) counted.exact

theorem counted_askRegistrar (s : Scan) (block : ℕ) (hubEvents : List EventData)
    (query : Option PastEventsQuery) (counted : Counted config start s) (idle : pending s.phase = [])
    (ahead : Ahead s.chain s.lastScannedBlock block)
    (exact : Exactly s.chain s.lastScannedBlock block hubEvents)
    (asked : ∀ found ∈ query, found.source = .registrar ∧
      ∀ event ∈ found.relayEventParts.flatten, ¬ event.Handled) :
    Counted config start (s.askRegistrar block hubEvents query) := by
  have todo : ∀ phase, pending phase = [] → ∀ event : EventData, event.Handled →
      (pending phase).count event = (pending s.phase).count event := by
    intro phase none event _
    rw [none, idle]
  cases query with
  | none =>
      refine counted_abandon config start s counted ?_
      rw [idle]
      exact fun _ member => by cases member
  | some query =>
      obtain ⟨source, ignored⟩ := asked query rfl
      simp only [askRegistrar]
      split
      · exact counted_moved config start s _ counted rfl rfl rfl (todo _ rfl)
          ⟨ahead, exactly_append_unhandled s.chain _ block hubEvents _ exact ignored⟩
      · exact counted_moved config start s _ counted rfl rfl rfl (todo _ rfl) ⟨ahead, exact, source, ignored⟩

theorem counted_askHub (s : Scan) (block : ℕ) (query : Option PastEventsQuery)
    (counted : Counted config start s) (idle : pending s.phase = [])
    (ahead : Ahead s.chain s.lastScannedBlock block)
    (collecting : ∀ found ∈ query, Collecting s.chain s.lastScannedBlock block found) :
    Counted config start (s.askHub config block query) := by
  cases query with
  | none =>
      refine counted_abandon config start s counted ?_
      rw [idle]
      exact fun _ member => by cases member
  | some query =>
      have found := collecting query rfl
      simp only [askHub]
      split
      next done =>
        refine counted_askRegistrar config start s block _ _ counted idle ahead
          (collecting_done s.chain _ block query found done) ?_
        intro asked started
        obtain ⟨pages, ranges, -, -, rfl⟩ := start_some config.limits .registrar _ _ asked started
        exact ⟨rfl, fun _ member => by cases member⟩
      next =>
        refine counted_moved config start s _ counted rfl rfl rfl ?_ ⟨ahead, found⟩
        intro event _
        rw [idle]
        rfl

/-- What `handlePastHubEvents` skips is not handled. -/
theorem pending_handle (events : List EventData)
    (running : (∃ event ∈ events, event.Handled) → config.runPaymasterReputations = true)
    (event : EventData) (handled : event.Handled) :
    (pending (handlePastHubEvents config events)).count event = events.count event := by
  induction events with
  | nil => rfl
  | cons first rest ih =>
      have later := ih fun ⟨other, member, its⟩ => running ⟨other, List.mem_cons_of_mem first member, its⟩
      have skipped : ¬ first.Handled →
          (pending (handlePastHubEvents config rest)).count event = (first :: rest).count event := by
        intro ignored
        rw [later, List.count_cons_of_ne]
        rintro rfl
        exact ignored handled
      unfold handlePastHubEvents
      cases kind : first.event with
      | transactionRejectedByPaymaster paymaster => rfl
      | transactionRelayed paymaster =>
          have on := running ⟨first, List.mem_cons_self, by simp only [EventData.Handled, kind]⟩
          simp only [on, if_true]
          rfl
      | relayWorkersAdded => exact skipped (by simp only [EventData.Handled, kind, not_false_eq_true])
      | relayServerRegistered => exact skipped (by simp only [EventData.Handled, kind, not_false_eq_true])

theorem steady_handle (chain : Chain) (cursor : ℕ) (events : List EventData)
    (running : (∃ event ∈ events, event.Handled) → config.runPaymasterReputations = true) :
    Steady config chain cursor (handlePastHubEvents config events) := by
  induction events with
  | nil => trivial
  | cons first rest ih =>
      have later := ih fun ⟨other, member, its⟩ => running ⟨other, List.mem_cons_of_mem first member, its⟩
      unfold handlePastHubEvents
      cases kind : first.event with
      | transactionRejectedByPaymaster paymaster =>
          exact running ⟨first, List.mem_cons_self, by simp only [EventData.Handled, kind]⟩
      | transactionRelayed paymaster =>
          have on := running ⟨first, List.mem_cons_self, by simp only [EventData.Handled, kind]⟩
          simp only [on, if_true]
          exact on
      | relayWorkersAdded => exact later
      | relayServerRegistered => exact later

theorem counted_handle (s : Scan) (events : List EventData) (counted : Counted config start s)
    (todo : pending s.phase = events)
    (running : (∃ event ∈ events, event.Handled) → config.runPaymasterReputations = true) :
    Counted config start (s.goTo (handlePastHubEvents config events)) := by
  refine counted_moved config start s _ counted rfl rfl rfl ?_ (steady_handle config _ _ events running)
  intro event handled
  rw [todo]
  exact pending_handle config events running event handled

/-- The events of the pass are those of the blocks that the cursor moves past. -/
theorem counted_cursor (s : Scan) (block : ℕ) (events : List EventData) (counted : Counted config start s)
    (managing : s.phase = .managing block events) :
    Counted config start { s with lastScannedBlock := block, phase := .registering events } := by
  have steady := counted.steady
  have exact := counted.exact
  rw [managing] at steady exact
  simp only [pending, List.append_nil] at exact
  constructor
  · exact Nat.le_trans counted.later (Nat.le_of_lt steady.1.1)
  · exact .inr steady.1.2
  · exact exactly_append s.chain start _ block _ events counted.later (Nat.le_of_lt steady.1.1) exact steady.2
  · trivial

theorem counted_updated (s : Scan) (event : EventData) (rest : List EventData)
    (counted : Counted config start s) (updating : s.phase = .updating event rest) :
    Counted config start { s with updated := s.updated ++ [event], phase := handlePastHubEvents config rest } := by
  have running := counted.steady
  have exact := counted.exact
  rw [updating] at running exact
  refine ⟨counted.later, counted.seen, ?_, steady_handle config _ _ rest fun _ => running⟩
  intro other handled
  calc
    (s.updated ++ [event] ++ pending (handlePastHubEvents config rest)).count other =
        (s.updated ++ [event]).count other + rest.count other := by
      rw [List.count_append, pending_handle config rest (fun _ => running) other handled]
    _ = (s.updated ++ event :: rest).count other := by
      rw [← List.count_append, List.append_assoc, List.singleton_append]
    _ = _ := exact other handled

theorem counted_refreshed (s : Scan) (block : ℕ) (ready isManagerBalanceReady : Bool)
    (counted : Counted config start s) (refreshing : s.phase = .refreshing block) :
    Counted config start
      (if isManagerBalanceReady then ({ s with ready := ready } : Scan).getAllHubEventsSinceLastScan config block
      else ({ s with ready := ready } : Scan).goTo .idle) := by
  have ahead := counted.steady
  rw [refreshing] at ahead
  have same : Counted config start { s with ready := ready } :=
    ⟨counted.later, counted.seen, counted.exact, counted.steady⟩
  have idle : pending s.phase = [] := by rw [refreshing]; rfl
  have still : ∀ phase, pending phase = [] → ∀ event : EventData, event.Handled →
      (pending phase).count event = (pending s.phase).count event := fun _ none _ _ => by rw [none, idle]
  split
  · unfold getAllHubEventsSinceLastScan
    split
    · refine counted_askHub config start _ block _ same idle ahead ?_
      intro query started
      exact collecting_start s.chain config.limits _ block none query ahead.1 (fun _ ends => by cases ends) started
    · exact counted_moved config start _ _ same rfl rfl rfl (still _ rfl) ahead
  · exact counted_moved config start _ _ same rfl rfl rfl (still _ rfl) trivial

theorem counted_numbered (s : Scan) (block : ℕ) (counted : Counted config start s)
    (numbering : s.phase = .numbering block) : Counted config start (s.numbered config block s.chain.head) := by
  have ahead := counted.steady
  rw [numbering] at ahead
  have idle : pending s.phase = [] := by rw [numbering]; rfl
  refine counted_askHub config start s block _ counted idle ahead ?_
  intro query started
  refine collecting_start s.chain config.limits _ block _ query ahead.1 ?_ started
  intro last ends
  cases ends
  exact Nat.le_trans ahead.2 (Nat.le_max_left _ _)

theorem counted_registered (s : Scan) (events : List EventData) (isRegistered : Bool)
    (counted : Counted config start s) (registering : s.phase = .registering events)
    (sound : (∃ event ∈ events, event.Handled) →
      isRegistered = true ∧ config.runPaymasterReputations = true) :
    Counted config start
      (if isRegistered then s.goTo (handlePastHubEvents config events) else s.abandon) := by
  have todo : pending s.phase = events := by rw [registering]; rfl
  split
  next => exact counted_handle config start s events counted todo fun some => (sound some).2
  next unregistered =>
    refine counted_abandon config start s counted ?_
    intro event member handled
    rw [todo] at member
    exact unregistered (sound ⟨event, member, handled⟩).1

theorem registrar_answered (s : Scan) (query : PastEventsQuery) (source : query.source = .registrar)
    (ignored : ∀ event ∈ query.relayEventParts.flatten, ¬ event.Handled) :
    ∀ event ∈ (query.answered (s.pageOf query)).relayEventParts.flatten, ¬ event.Handled := by
  intro event member handled
  simp only [PastEventsQuery.answered, PaginatedQuery.answered, List.flatten_append, List.flatten_singleton, List.mem_append] at member
  rcases member with old | new
  · exact ignored event old handled
  · unfold pageOf at new
    split at new
    next => cases new
    next =>
      have its := (List.mem_filter.mp new).2
      simp only [decide_eq_true_eq, source, event.handled_source handled, reduceCtorEq, false_and] at its

theorem registrar_failed (query again : PastEventsQuery) (returnedMoreThan : Bool)
    (tried : query.failed returnedMoreThan = some again) :
    again.source = query.source ∧ again.relayEventParts = query.relayEventParts := by
  obtain ⟨paginated, retried, rfl⟩ := Option.map_eq_some_iff.mp tried
  unfold PaginatedQuery.failed at retried
  split at retried
  next =>
    cases retried
    exact ⟨rfl, rfl⟩
  next =>
    split at retried
    next =>
      unfold PaginatedQuery.splitAgain at retried
      split at retried
      next => cases retried
      next =>
        obtain ⟨ranges, -, rfl⟩ := Option.map_eq_some_iff.mp retried
        exact ⟨rfl, rfl⟩
    next => cases retried

theorem counted_resume (s : Scan) (answer : ScanReply) (counted : Counted config start s)
    (sound : s.Sound config (.reply answer)) : Counted config start (s.resume config answer) := by
  have steady := counted.steady
  unfold resume
  split
  next gettingBlock =>
    have idle : pending s.phase = [] := by rw [gettingBlock]; rfl
    have still : ∀ phase, pending phase = [] → ∀ event : EventData, event.Handled →
        (pending phase).count event = (pending s.phase).count event := fun _ none _ _ => by rw [none, idle]
    unfold worker
    split
    next news => exact counted_moved config start s _ counted rfl rfl rfl (still _ rfl) ⟨news.1, Nat.le_refl _⟩
    next => exact counted_moved config start s _ counted rfl rfl rfl (still _ rfl) trivial
  next block withdrawing =>
    rw [withdrawing] at steady
    refine counted_moved config start s _ counted rfl rfl rfl ?_ steady
    rw [withdrawing]
    exact fun _ _ => rfl
  next block isManagerBalanceReady isWorkerBalanceReady refreshing =>
    exact counted_refreshed config start s block _ isManagerBalanceReady counted refreshing
  next block numbering => exact counted_numbered config start s block counted numbering
  next block query asking =>
    simp only [Sound, asking] at sound
    rw [asking] at steady
    refine counted_askHub config start s block _ counted (by rw [asking]; rfl) steady.1 ?_
    intro found answered
    cases answered
    exact collecting_answered s _ block query steady.2 sound
  next block query returnedMoreThan asking =>
    simp only [Sound, asking] at sound
    rw [asking] at steady
    refine counted_askHub config start s block _ counted (by rw [asking]; rfl) steady.1 ?_
    intro found tried
    exact collecting_failed s _ block query found returnedMoreThan steady.1.1 steady.2 sound tried
  next block hubEvents query asking =>
    rw [asking] at steady
    refine counted_askRegistrar config start s block hubEvents _ counted (by rw [asking]; rfl) steady.1 steady.2.1 ?_
    intro found answered
    cases answered
    exact ⟨steady.2.2.1, registrar_answered s query steady.2.2.1 steady.2.2.2⟩
  next block hubEvents query returnedMoreThan asking =>
    rw [asking] at steady
    refine counted_askRegistrar config start s block hubEvents _ counted (by rw [asking]; rfl) steady.1 steady.2.1 ?_
    intro found tried
    obtain ⟨source, parts⟩ := registrar_failed query found returnedMoreThan tried
    rw [source, parts]
    exact steady.2.2
  next block events managing => exact counted_cursor config start s block events counted managing
  next events isRegistered registering =>
    simp only [Sound, registering] at sound
    exact counted_registered config start s events isRegistered counted registering sound
  next event rest alerting =>
    rw [alerting] at steady
    have running : config.runPaymasterReputations = true := steady
    rw [if_pos running]
    refine counted_moved config start s _ counted rfl rfl rfl ?_ steady
    rw [alerting]
    exact fun _ _ => rfl
  next event rest updating => exact counted_updated config start s event rest counted updating
  next replenishing =>
    refine counted_moved config start s _ counted rfl rfl rfl ?_ trivial
    rw [replenishing]
    exact fun _ _ => rfl
  next => exact counted
  next returnedMoreThan _ _ _ _ _ =>
    refine counted_abandon config start s counted ?_
    intro event member
    cases phase : s.phase with
    | registering events =>
        simp only [Sound, phase] at sound
        rw [phase] at member
        exact sound event member
    | alerting first rest => simp only [Sound, phase] at sound
    | updating first rest => simp only [Sound, phase] at sound
    | _ =>
        rw [phase] at member
        cases member
  next => exact counted

theorem counted_next (s : Scan) (input : ScanInput) (counted : Counted config start s)
    (sound : s.Sound config input) : Counted config start (s.next config input) := by
  cases input with
  | mined block => exact counted_mined config start s block counted
  | timer =>
      simp only [next]
      split
      next idle =>
        refine counted_moved config start s _ counted rfl rfl rfl ?_ trivial
        rw [idle]
        exact fun _ _ => rfl
      next => exact counted
  | reply answer => exact counted_resume config start s answer counted sound

theorem counted_initial (chain : Chain) : Counted config start (initial chain start) := by
  refine ⟨Nat.le_refl _, .inl rfl, ?_, trivial⟩
  intro event _
  rw [if_neg]
  · rfl
  · exact fun within => Nat.lt_irrefl _ (Nat.lt_of_lt_of_le within.2.1 within.2.2)

/-- In the runs of sound steps, no event is used twice; and between the passes, those of the blocks
that the server has scanned were used once. -/
theorem events_applied_once (chain : Chain) (inputs : List ScanInput)
    (sound : Runs.Along (next config) (Sound config) inputs (initial chain start)) :
    (∀ event : EventData, event.Handled →
      (inputs.foldl (next config) (initial chain start)).updated.count event ≤ 1) ∧
    ((inputs.foldl (next config) (initial chain start)).phase = .idle →
      ∀ event ∈ (inputs.foldl (next config) (initial chain start)).chain.logs, event.Handled →
        start < event.blockNumber →
        event.blockNumber ≤ (inputs.foldl (next config) (initial chain start)).lastScannedBlock →
          (inputs.foldl (next config) (initial chain start)).updated.count event = 1) := by
  have counted := Runs.along_invariant (next config) (Sound config) (Counted config start)
    (counted_next config start) inputs (initial chain start) (counted_initial config start chain) sound
  constructor
  · intro event handled
    have all := counted.exact event handled
    rw [List.count_append] at all
    split at all <;> omega
  · intro idle event mined handled late scanned
    have all := counted.exact event handled
    rw [idle, if_pos ⟨mined, late, scanned⟩] at all
    simpa only [pending, List.append_nil] using all

/-! A server that looks at every block, and one relayed transaction -/

def sampleConfig : ScanConfig := ⟨⟨none, none⟩, 1, true⟩

def sampleChain : Chain := ⟨1, [], nofun, List.nodup_nil⟩

def relayed : EventData := ⟨.transactionRelayed 7, 2, 0⟩

def passStart : List ScanInput := [.timer, .reply .returned, .reply .returned, .reply (.balances true true)]

def passEnd (isRegistered : Bool) : List ScanInput :=
  [.reply .returned, .reply .returned, .reply .returned, .reply (.registered isRegistered), .reply .returned,
    .reply .returned]

def earlyBlock : List ScanInput := .mined [.transactionRelayed 7] :: passStart ++ passEnd true

theorem events_applied_once_sample :
    (earlyBlock.foldl (next sampleConfig) (initial sampleChain 0)).updated.count relayed = 1 :=
  (events_applied_once sampleConfig 0 sampleChain earlyBlock (by decide)).2 rfl relayed (by decide)
    (by decide) (by decide) (by decide)

/-- A block that arrives after the pass has begun is scanned again by the next pass. -/
def lateBlock : List ScanInput :=
  passStart ++ .mined [.transactionRelayed 7] :: passEnd true ++ passStart ++ passEnd true

def notRegistered : List ScanInput := .mined [.transactionRelayed 7] :: passStart ++ passEnd false

theorem late_block_applied_twice :
    ((lateBlock.foldl (next sampleConfig) (initial sampleChain 0)).phase = .idle ∧
      relayed ∈ (lateBlock.foldl (next sampleConfig) (initial sampleChain 0)).chain.logs ∧
      (lateBlock.foldl (next sampleConfig) (initial sampleChain 0)).lastScannedBlock = relayed.blockNumber ∧
      (lateBlock.foldl (next sampleConfig) (initial sampleChain 0)).updated.count relayed = 2) ∧
    ((notRegistered.foldl (next sampleConfig) (initial sampleChain 0)).phase = .idle ∧
      relayed ∈ (notRegistered.foldl (next sampleConfig) (initial sampleChain 0)).chain.logs ∧
      (notRegistered.foldl (next sampleConfig) (initial sampleChain 0)).lastScannedBlock = relayed.blockNumber ∧
      (notRegistered.foldl (next sampleConfig) (initial sampleChain 0)).updated.count relayed = 0) := by
  refine ⟨⟨?_, ?_, ?_, ?_⟩, ?_, ?_, ?_, ?_⟩
  all_goals decide

end Scan

end OpenGsn.Relay
