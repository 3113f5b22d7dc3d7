import OpenGsn.Inevitable
import OpenGsn.Provider.RelaySelectionManager
import OpenGsn.Provider.WaitForSuccess
import Mathlib.Data.Prod.Lex

/-! Every relay is tried once, and every call of `selectNextRelay` returns. -/

namespace OpenGsn.Provider


def PartialRelayInfo.relayUrl (info : PartialRelayInfo) : List Char := info.relayInfo.relayUrl

namespace RelaySelectionManager

variable (config : SelectionConfig)

theorem firstSlice_subset (lists : List (List RelayInfoUrl)) : firstSlice config lists ⊆ lists.flatten := by
  induction lists with
  | nil => exact List.nil_subset _
  | cons relays rest ih =>
      rw [firstSlice, List.flatten_cons]
      split_ifs with empty
      · exact List.subset_append_of_subset_right relays ih
      · exact List.subset_append_of_subset_left _ (List.take_subset _ relays)

theorem firstSlice_nil (positive : 1 ≤ config.waitForSuccessSliceSize) (lists : List (List RelayInfoUrl))
    (empty : firstSlice config lists = []) : lists.flatten = [] := by
  induction lists with
  | nil => rfl
  | cons relays rest ih =>
      rw [firstSlice] at empty
      split_ifs at empty with short
      · have none_left : relays.length = 0 := by
          rw [List.length_take] at short
          omega
        rw [List.flatten_cons, List.length_eq_zero_iff.mp none_left, ih empty]
        rfl
      · exact absurd (congrArg List.length empty) short

theorem asArray_urls (relays : List RelayInfoUrl) :
    (asArray relays).map RelayInfoUrl.relayUrl =
      (InsertionMap.empty.merge (relays.map fun relay => (relay.relayUrl, relay))).keys := by
  rw [asArray, InsertionMap.values, InsertionMap.keys, List.map_map]
  apply List.map_congr_left
  intro entry member
  cases InsertionMap.mem_entries_merge _ _ entry member with
  | inl before => exact absurd before List.not_mem_nil
  | inr set =>
      obtain ⟨relay, _, same⟩ := List.mem_map.mp set
      rw [← same]
      rfl

theorem asArray_nodup (relays : List RelayInfoUrl) : ((asArray relays).map RelayInfoUrl.relayUrl).Nodup := by
  rw [asArray_urls]
  exact InsertionMap.keys_nodup _

theorem asArray_subset (relays : List RelayInfoUrl) : asArray relays ⊆ relays := by
  intro relay member
  obtain ⟨entry, found, value⟩ := List.mem_map.mp member
  cases InsertionMap.mem_entries_merge _ _ entry found with
  | inl before => exact absurd before List.not_mem_nil
  | inr set =>
      obtain ⟨other, there, same⟩ := List.mem_map.mp set
      rw [← value, ← same]
      exact there

theorem asArray_ne_nil (relays : List RelayInfoUrl) (some_relay : relays ≠ []) : asArray relays ≠ [] := by
  intro empty
  obtain ⟨relay, member⟩ := List.exists_mem_of_ne_nil relays some_relay
  have url : relay.relayUrl ∈ (asArray relays).map RelayInfoUrl.relayUrl := by
    rw [asArray_urls, InsertionMap.mem_keys_merge, List.map_map]
    exact Or.inr (List.mem_map_of_mem member)
  rw [empty] at url
  exact List.not_mem_nil url

theorem getRelayAddressPing_ok (relayHub : AddressText) (relayInfo : RelayInfoUrl) (pong : Pong)
    (result : PartialRelayInfo) (answered : getRelayAddressPing config relayHub relayInfo pong = .ok result) :
    result.relayInfo = relayInfo := by
  cases pong with
  | error err => cases answered
  | ok pingResponse =>
      change (if _ then _ else if _ then _ else _) = _ at answered
      split_ifs at answered
      cases filtered : config.pingFilter pingResponse with
      | error err =>
          rw [filtered] at answered
          cases answered
      | ok accepted =>
          rw [filtered] at answered
          cases answered
          rfl

end RelaySelectionManager

structure Racing (left : List RelayInfoUrl) (race : Race Pong PartialRelayInfo) : Prop where
  consistent : race.Consistent PartialRelayInfo.relayUrl
  nonempty : race.errorKeys ≠ []
  keys : race.errorKeys ⊆ left.map RelayInfoUrl.relayUrl
  gives : ∀ errorKey result, race.Gives errorKey result → result.relayInfo ∈ left

namespace Racing

open RelaySelectionManager

theorem started (config : SelectionConfig) (relays left : List RelayInfoUrl) (relayHub : AddressText)
    (some_relay : relays ≠ []) (within : relays ⊆ left) :
    ∃ race, startRace config relays relayHub = .ok race ∧ Racing left race := by
  have promised (promise : ℕ) (waiting : Pong → Except String PartialRelayInfo) (answer : Pong)
      (result : PartialRelayInfo)
      (found : ((asArray relays).map (getRelayAddressPing config relayHub))[promise]? = some waiting)
      (answered : waiting answer = .ok result) : (asArray relays)[promise]? = some result.relayInfo := by
    rw [List.getElem?_map] at found
    obtain ⟨relay, asked, same⟩ := Option.map_eq_some_iff.mp found
    rw [← same] at answered
    rw [asked, getRelayAddressPing_ok config relayHub relay answer result answered]
  have named (promise : ℕ) (waiting : Pong → Except String PartialRelayInfo) (errorKey : List Char) (answer : Pong)
      (result : PartialRelayInfo)
      (found : ((asArray relays).map (getRelayAddressPing config relayHub))[promise]? = some waiting)
      (key : ((asArray relays).map RelayInfoUrl.relayUrl)[promise]? = some errorKey)
      (answered : waiting answer = .ok result) : result.relayUrl = errorKey := by
    rw [List.getElem?_map, promised promise waiting answer result found answered] at key
    exact Option.some.inj key
  have some_promise : (asArray relays).map (getRelayAddressPing config relayHub) ≠ [] := by
    rw [ne_eq, List.map_eq_nil_iff]
    exact asArray_ne_nil relays some_relay
  obtain ⟨race, started, promises, errorKeys, consistent⟩ :=
    Race.waitForSuccess_starts ((asArray relays).map (getRelayAddressPing config relayHub))
      ((asArray relays).map RelayInfoUrl.relayUrl) (by simp) (asArray_nodup relays) some_promise named
  refine ⟨race, started, consistent, ?_, ?_, ?_⟩
  · rw [errorKeys, ne_eq, List.map_eq_nil_iff]
    exact asArray_ne_nil relays some_relay
  · rw [errorKeys]
    exact List.map_subset _ fun relay member => within (asArray_subset relays member)
  · intro errorKey result gives
    obtain ⟨promise, waiting, answer, found, _, answered⟩ := gives
    rw [promises] at found
    exact within (asArray_subset relays (List.mem_of_getElem? (promised promise waiting answer result found answered)))

theorem moves {left : List RelayInfoUrl} {race next : Race Pong PartialRelayInfo} (racing : Racing left race)
    (moved : race.Moves next) : Racing left next := by
  have consistent := racing.consistent.moves next moved
  obtain ⟨promises, keys⟩ := moved.kept
  refine ⟨consistent, keys ▸ racing.nonempty, keys ▸ racing.keys, ?_⟩
  intro errorKey result gives
  rw [Race.Gives, promises, keys] at gives
  exact racing.gives errorKey result gives

theorem fewer {left : List RelayInfoUrl} {race : Race Pong PartialRelayInfo} (racing : Racing left race)
    (resolved : race.resolved = true) : (left.filter (stays race.ret)).length < left.length := by
  have gone : ∃ url ∈ race.errorKeys, ∀ relay : RelayInfoUrl, relay.relayUrl = url → stays race.ret relay ≠ true := by
    cases picked : race.ret.winner with
    | none =>
        obtain ⟨url, member⟩ := List.exists_mem_of_ne_nil _ racing.nonempty
        have failed := racing.consistent.all_failed resolved picked url member
        refine ⟨url, member, fun relay same kept => ?_⟩
        exact (of_decide_eq_true kept).2 (same ▸ failed)
    | some winner =>
        refine ⟨winner.relayUrl, racing.consistent.winner_mem winner picked, fun relay same kept => ?_⟩
        refine (of_decide_eq_true kept).1 ?_
        rw [picked, same]
        rfl
  obtain ⟨url, member, gone⟩ := gone
  obtain ⟨relay, there, same⟩ := List.mem_map.mp (racing.keys member)
  exact List.length_filter_lt_length_iff_exists.mpr ⟨relay, there, gone relay same⟩

end Racing

namespace Selection

def remainingUrls (s : Selection) : List (List Char) := s.manager.relaysLeft.map RelayInfoUrl.relayUrl

def returnedUrl : Except String (Option RelayInfo) → Option (List Char)
  | .ok (some relayInfo) => some relayInfo.relayInfo.relayUrl
  | _ => none

def returnedUrls (s : Selection) : List (List Char) := s.outcomes.filterMap returnedUrl

/-- A preferred relay whose manager is not registered. -/
def Unregistered (preferred : List RelayInfoUrl) (entry : PartialRelayInfo × KnownRelaysManager) : Prop :=
  .url entry.1.relayUrl ∈ preferred ∧
    entry.2.getRelayInfoForManager entry.1.pingResponse.relayManagerAddress = none

def Tried (preferred : List RelayInfoUrl) (s : Selection) (url : List Char) : Prop :=
  url ∈ s.returnedUrls ∨ url ∈ s.manager.errors.keys ∨
    ∃ entry ∈ s.dropped, entry.1.relayUrl = url ∧ Unregistered preferred entry

/-- The part of the invariant that does not speak of a call in progress. -/
structure Sound (offered : List RelayInfoUrl) (s : Selection) : Prop where
  initialized : s.manager.isInitialized = true
  within : s.manager.relaysLeft ⊆ offered
  returnsOnce : s.returnedUrls.Nodup
  returned : ∀ url ∈ s.returnedUrls, url ∉ s.remainingUrls ∧ url ∉ s.manager.errors.keys
  failed : ∀ url ∈ s.manager.errors.keys, url ∉ s.remainingUrls
  tried : ∀ relay ∈ offered, relay.relayUrl ∈ s.remainingUrls ∨ s.Tried offered relay.relayUrl
  answers : ∀ outcome ∈ s.outcomes, ∃ relayInfo, outcome = .ok relayInfo
  exhausted : .ok none ∈ s.outcomes → s.manager.relaysLeft = []

structure Invariant (offered : List RelayInfoUrl) (s : Selection) : Prop extends Sound offered s where
  racing : ∀ call, s.call = some call → Racing s.manager.relaysLeft call.race

inductive Fate (preferred : List RelayInfoUrl) (winner : Option PartialRelayInfo)
    (dropped : List (PartialRelayInfo × KnownRelaysManager)) : List (List Char) → Prop
  | failed (unpicked : winner = none) : Fate preferred winner dropped []
  | returned (info : PartialRelayInfo) (picked : winner = some info) : Fate preferred winner dropped [info.relayUrl]
  | dropped (entry : PartialRelayInfo × KnownRelaysManager) (picked : winner = some entry.1) (member : entry ∈ dropped)
      (unregistered : Unregistered preferred entry) : Fate preferred winner dropped []

section Races

variable {offered : List RelayInfoUrl} {s next : Selection} {race : Race Pong PartialRelayInfo}

theorem handled (manager next : RelaySelectionManager) (raceResult : WaitForSuccessResults PartialRelayInfo)
    (handled : manager.handleWaitForSuccessResults raceResult = .ok next) :
    next.isInitialized = true ∧
      next.relaysLeft = manager.relaysLeft.filter (RelaySelectionManager.stays raceResult) ∧
      ∀ url, url ∈ next.errors.keys ↔ url ∈ manager.errors.keys ∨ url ∈ raceResult.errors.keys := by
  rw [RelaySelectionManager.handleWaitForSuccessResults] at handled
  split_ifs at handled with initialized
  cases handled
  exact ⟨initialized, List.filter_flatten.symm, InsertionMap.mem_keys_merge _ _⟩

theorem mem_remainingUrls
    (handled : s.manager.handleWaitForSuccessResults race.ret = .ok next.manager) (url : List Char) :
    url ∈ next.remainingUrls ↔ url ∈ s.remainingUrls ∧ race.ret.winner.map PartialRelayInfo.relayUrl ≠ some url ∧
      url ∉ race.ret.errors.keys := by
  rw [remainingUrls, (Selection.handled _ _ _ handled).2.1]
  constructor
  · intro member
    obtain ⟨relay, kept, same⟩ := List.mem_map.mp member
    obtain ⟨there, stays⟩ := List.mem_filter.mp kept
    exact ⟨List.mem_map.mpr ⟨relay, there, same⟩, same ▸ of_decide_eq_true stays⟩
  · intro ⟨member, stays⟩
    obtain ⟨relay, there, same⟩ := List.mem_map.mp member
    exact List.mem_map.mpr ⟨relay, List.mem_filter.mpr ⟨there, decide_eq_true (same ▸ stays)⟩, same⟩

theorem Fate.winner {preferred : List RelayInfoUrl} {winner : Option PartialRelayInfo}
    {dropped : List (PartialRelayInfo × KnownRelaysManager)} {found : List (List Char)}
    (fate : Fate preferred winner dropped found) (url : List Char) (member : url ∈ found) :
    winner.map PartialRelayInfo.relayUrl = some url := by
  cases fate with
  | failed unpicked => exact absurd member List.not_mem_nil
  | returned info picked =>
      rw [picked, List.mem_singleton.mp member]
      rfl
  | dropped entry picked kept unregistered => exact absurd member List.not_mem_nil

theorem Fate.tried {preferred : List RelayInfoUrl} {winner : Option PartialRelayInfo}
    {dropped : List (PartialRelayInfo × KnownRelaysManager)} {found : List (List Char)}
    (fate : Fate preferred winner dropped found) (url : List Char)
    (won : winner.map PartialRelayInfo.relayUrl = some url) :
    url ∈ found ∨ ∃ entry ∈ dropped, entry.1.relayUrl = url ∧ Unregistered preferred entry := by
  cases fate with
  | failed unpicked =>
      rw [unpicked] at won
      cases won
  | returned info picked =>
      rw [picked] at won
      exact Or.inl (List.mem_singleton.mpr (Option.some.inj won).symm)
  | dropped entry picked kept unregistered =>
      rw [picked] at won
      exact Or.inr ⟨entry, kept, Option.some.inj won, unregistered⟩

theorem Fate.nodup {preferred : List RelayInfoUrl} {winner : Option PartialRelayInfo}
    {dropped : List (PartialRelayInfo × KnownRelaysManager)} {found : List (List Char)}
    (fate : Fate preferred winner dropped found) : found.Nodup := by
  cases fate with
  | failed unpicked => exact List.nodup_nil
  | returned info picked => exact List.nodup_singleton _
  | dropped entry picked kept unregistered => exact List.nodup_nil

theorem Sound.raced (sound : Sound offered s) (racing : Racing s.manager.relaysLeft race)
    (handled : s.manager.handleWaitForSuccessResults race.ret = .ok next.manager) (found : List (List Char))
    (returned : next.returnedUrls = s.returnedUrls ++ found) (kept : s.dropped ⊆ next.dropped)
    (fate : Fate offered race.ret.winner next.dropped found)
    (answers : ∀ outcome ∈ next.outcomes, ∃ relayInfo, outcome = .ok relayInfo)
    (before : .ok none ∈ next.outcomes → .ok none ∈ s.outcomes) : Sound offered next := by
  obtain ⟨initialized, left, failed⟩ := Selection.handled _ _ _ handled
  have remaining := mem_remainingUrls handled
  have won (url : List Char) (picked : race.ret.winner.map PartialRelayInfo.relayUrl = some url) :
      url ∈ s.remainingUrls ∧ url ∉ race.ret.errors.keys := by
    obtain ⟨winner, chosen, same⟩ := Option.map_eq_some_iff.mp picked
    rw [← same]
    exact ⟨racing.keys (racing.consistent.winner_mem winner chosen), racing.consistent.winner_unfailed winner chosen⟩
  have lost (url : List Char) (member : url ∈ race.ret.errors.keys) : url ∈ s.remainingUrls :=
    racing.keys (racing.consistent.errors_subset url member)
  constructor
  case initialized => exact initialized
  case within =>
    rw [left]
    exact fun relay member => sound.within (List.mem_of_mem_filter member)
  case returnsOnce =>
    rw [returned]
    refine List.nodup_append.mpr ⟨sound.returnsOnce, fate.nodup, fun url old other new same => ?_⟩
    exact (sound.returned url old).1 (won url (fate.winner url (same ▸ new))).1
  case returned =>
    intro url member
    rw [returned, List.mem_append] at member
    rw [remaining url, failed url]
    cases member with
    | inl old =>
        obtain ⟨gone, unfailed⟩ := sound.returned url old
        exact ⟨fun there => gone there.1, fun there => there.elim unfailed fun now => gone (lost url now)⟩
    | inr new =>
        have picked := fate.winner url new
        obtain ⟨there, unfailed⟩ := won url picked
        exact ⟨fun stays => stays.2.1 picked, fun fails => fails.elim (fun old => sound.failed url old there) unfailed⟩
  case failed =>
    intro url member
    rw [remaining url]
    cases (failed url).mp member with
    | inl old => exact fun there => sound.failed url old there.1
    | inr now => exact fun there => there.2.2 now
  case tried =>
    intro relay member
    rw [remaining relay.relayUrl]
    unfold Tried
    rw [returned, List.mem_append, failed]
    cases sound.tried relay member with
    | inl there =>
        by_cases picked : race.ret.winner.map PartialRelayInfo.relayUrl = some relay.relayUrl
        · cases fate.tried relay.relayUrl picked with
          | inl now => exact Or.inr (Or.inl (Or.inr now))
          | inr now => exact Or.inr (Or.inr (Or.inr now))
        · by_cases now : relay.relayUrl ∈ race.ret.errors.keys
          · exact Or.inr (Or.inr (Or.inl (Or.inr now)))
          · exact Or.inl ⟨there, picked, now⟩
    | inr tried =>
        right
        rcases tried with old | old | ⟨entry, old, same, unregistered⟩
        · exact Or.inl (Or.inl old)
        · exact Or.inr (Or.inl (Or.inl old))
        · exact Or.inr (Or.inr ⟨entry, kept old, same, unregistered⟩)
  case answers => exact answers
  case exhausted =>
    intro undefined
    rw [left, sound.exhausted (before undefined)]
    rfl

end Races

variable {config : SelectionConfig} {offered : List RelayInfoUrl} {s : Selection}

/-- The loop starts a race, or the call ends with `undefined`. -/
theorem Sound.loop (positive : 1 ≤ config.waitForSuccessSliceSize) (sound : Sound offered s) (relayHub : AddressText) :
    Invariant offered (s.loop config relayHub) ∧ (s.loop config relayHub).manager = s.manager := by
  have slice : s.manager.getNextSlice config =
      .ok (RelaySelectionManager.firstSlice config s.manager.remainingRelays) := if_pos sound.initialized
  rw [Selection.loop, slice]
  cases empty : RelaySelectionManager.firstSlice config s.manager.remainingRelays with
  | nil =>
      have none_left := RelaySelectionManager.firstSlice_nil config positive s.manager.remainingRelays empty
      have urls : (s.ends (.ok none)).returnedUrls = s.returnedUrls := by
        simp [Selection.returnedUrls, ends, returnedUrl]
      have tried : Tried offered (s.ends (.ok none)) = Tried offered s := by
        funext url
        rw [Tried, urls]
        rfl
      refine ⟨⟨⟨sound.initialized, sound.within, urls ▸ sound.returnsOnce, urls ▸ sound.returned, sound.failed,
        tried ▸ sound.tried, ?_, fun _ => none_left⟩, fun call calling => nomatch calling⟩, rfl⟩
      intro outcome member
      cases List.mem_append.mp member with
      | inl before => exact sound.answers outcome before
      | inr now => exact ⟨none, List.mem_singleton.mp now⟩
  | cons relay rest =>
      have within : relay :: rest ⊆ s.manager.relaysLeft :=
        empty ▸ RelaySelectionManager.firstSlice_subset config s.manager.remainingRelays
      obtain ⟨race, started, racing⟩ :=
        Racing.started config (relay :: rest) s.manager.relaysLeft relayHub (List.cons_ne_nil relay rest) within
      have some_relay : (relay :: rest).length > 0 := Nat.succ_pos _
      dsimp only
      rw [if_pos some_relay, started]
      refine ⟨⟨⟨sound.initialized, sound.within, sound.returnsOnce, sound.returned, sound.failed, sound.tried,
        sound.answers, sound.exhausted⟩, ?_⟩, rfl⟩
      intro call calling
      cases calling
      exact racing

theorem relayOf_url (known : KnownRelaysManager) (raceResult : WaitForSuccessResults PartialRelayInfo)
    (relayInfo : RelayInfo) (found : RelaySelectionManager.relayOf known raceResult = some relayInfo) :
    ∃ winner, raceResult.winner = some winner ∧ relayInfo.relayInfo.relayUrl = winner.relayUrl := by
  obtain ⟨winner, picked, chosen⟩ := Option.bind_eq_some_iff.mp found
  refine ⟨winner, picked, ?_⟩
  rw [PartialRelayInfo.relayUrl]
  cases info : winner.relayInfo with
  | event registered =>
      rw [info] at chosen
      cases chosen
      rfl
  | url relayUrl =>
      rw [info] at chosen
      obtain ⟨registered, _, same⟩ := Option.map_eq_some_iff.mp chosen
      rw [← same]
      rfl

theorem relayOf_none (known : KnownRelaysManager) (raceResult : WaitForSuccessResults PartialRelayInfo)
    (winner : PartialRelayInfo) (picked : raceResult.winner = some winner)
    (lost : RelaySelectionManager.relayOf known raceResult = none) :
    winner.relayInfo = .url winner.relayUrl ∧
      known.getRelayInfoForManager winner.pingResponse.relayManagerAddress = none := by
  rw [RelaySelectionManager.relayOf, picked, Option.bind_some] at lost
  rw [PartialRelayInfo.relayUrl]
  cases info : winner.relayInfo with
  | event registered =>
      rw [info] at lost
      cases lost
  | url relayUrl =>
      rw [info] at lost
      exact ⟨rfl, Option.map_eq_none_iff.mp lost⟩

theorem Sound.afterRace (positive : 1 ≤ config.waitForSuccessSliceSize) (sound : Sound offered s)
    (known : KnownRelaysManager) (call : SelectionCall) (racing : Racing s.manager.relaysLeft call.race)
    (resolved : call.race.resolved = true) :
    Invariant offered (s.afterRace config known call) ∧
      (s.afterRace config known call).manager.relaysLeft.length < s.manager.relaysLeft.length := by
  obtain ⟨manager, handled⟩ : ∃ manager, s.manager.handleWaitForSuccessResults call.race.ret = .ok manager :=
    ⟨_, if_pos sound.initialized⟩
  have fewer : manager.relaysLeft.length < s.manager.relaysLeft.length := by
    rw [(Selection.handled _ _ _ handled).2.1]
    exact racing.fewer resolved
  rw [Selection.afterRace, handled]
  dsimp only
  cases relay : RelaySelectionManager.relayOf known call.race.ret with
  | some relayInfo =>
      obtain ⟨winner, picked, url⟩ := relayOf_url known call.race.ret relayInfo relay
      refine ⟨⟨?_, fun call calling => nomatch calling⟩, fewer⟩
      have urls : (({ s with manager } : Selection).ends (.ok (some relayInfo))).returnedUrls =
          s.returnedUrls ++ [winner.relayUrl] := by
        simp [Selection.returnedUrls, ends, returnedUrl, url]
      refine sound.raced racing handled [winner.relayUrl] urls (List.Subset.refl s.dropped)
        (.returned winner picked) ?_ ?_
      · intro outcome member
        cases List.mem_append.mp member with
        | inl before => exact sound.answers outcome before
        | inr now => exact ⟨some relayInfo, List.mem_singleton.mp now⟩
      · intro member
        cases List.mem_append.mp member with
        | inl before => exact before
        | inr now => cases List.mem_singleton.mp now
  | none =>
      have fate : Fate offered call.race.ret.winner
          (s.dropped ++ (call.race.ret.winner.map fun winner => (winner, known)).toList) [] := by
        cases picked : call.race.ret.winner with
        | none => exact .failed rfl
        | some winner =>
            obtain ⟨preferred, unregistered⟩ := relayOf_none known call.race.ret winner picked relay
            obtain ⟨errorKey, gives⟩ := racing.consistent.given winner (racing.consistent.among winner picked)
            have there := sound.within (racing.gives errorKey winner gives)
            exact .dropped (winner, known) rfl (List.mem_append_right _ List.mem_cons_self)
              ⟨preferred ▸ there, unregistered⟩
      have raced : Sound offered
          { s with manager, dropped := s.dropped ++ (call.race.ret.winner.map fun winner => (winner, known)).toList } :=
        sound.raced racing handled [] (List.append_nil _).symm (List.subset_append_left _ _) fate sound.answers id
      obtain ⟨invariant, same⟩ := raced.loop positive call.relayHub
      exact ⟨invariant, same ▸ fewer⟩

inductive Moves (config : SelectionConfig) (s : Selection) : Selection → Prop
  | called (relayHub : AddressText) (idle : s.call = none) : Moves config s (s.loop config relayHub)
  | pinged (call : SelectionCall) (race : Race Pong PartialRelayInfo) (calling : s.call = some call)
      (moved : call.race.Moves race) : Moves config s { s with call := some { call with race } }
  | raced (known : KnownRelaysManager) (call : SelectionCall) (calling : s.call = some call)
      (resolved : call.race.resolved = true) : Moves config s (s.afterRace config known call)

theorem step_moves (event : SelectionEvent) (next : Selection) (taken : s.step config event = .ok next) :
    Moves config s next := by
  cases event with
  | selectNextRelay relayHub =>
      cases calling : s.call with
      | some call => simp [Selection.step, calling] at taken
      | none =>
          rw [Selection.step, calling] at taken
          cases taken
          exact .called relayHub calling
  | ping event =>
      cases calling : s.call with
      | none => simp [Selection.step, calling] at taken
      | some call =>
          rw [Selection.step, calling] at taken
          dsimp only at taken
          cases stepped : call.race.step event with
          | error refused => simp [stepped, Except.map] at taken
          | ok race =>
              rw [stepped] at taken
              cases taken
              exact .pinged call race calling (call.race.step_moves event race stepped)
  | raceFinished known =>
      cases calling : s.call with
      | none => simp [Selection.step, calling] at taken
      | some call =>
          rw [Selection.step, calling] at taken
          dsimp only at taken
          split_ifs at taken with resolved
          cases taken
          exact .raced known call calling resolved

theorem Invariant.moves (positive : 1 ≤ config.waitForSuccessSliceSize) (invariant : Invariant offered s)
    (next : Selection) (moved : Moves config s next) : Invariant offered next := by
  cases moved with
  | called relayHub idle => exact (invariant.toSound.loop positive relayHub).1
  | pinged call race calling moved =>
      have racing := (invariant.racing call calling).moves moved
      refine ⟨⟨invariant.initialized, invariant.within, invariant.returnsOnce, invariant.returned, invariant.failed,
        invariant.tried, invariant.answers, invariant.exhausted⟩, ?_⟩
      intro later now
      cases now
      exact racing
  | raced known call calling resolved =>
      exact (invariant.toSound.afterRace positive known call (invariant.racing call calling) resolved).1

/-- How far the call is from its end: the relays that are left, then what can still happen in the race. -/
def rank (s : Selection) : ℕ ×ₗ ℕ := toLex (s.manager.relaysLeft.length, (s.call.map fun call => call.race.rank).getD 0)

theorem Invariant.lowers (positive : 1 ≤ config.waitForSuccessSliceSize) (invariant : Invariant offered s)
    (next : Selection) (unfinished : s.call ≠ none) (moved : Moves config s next) : next.rank < s.rank := by
  cases moved with
  | called relayHub idle => exact absurd idle unfinished
  | pinged call race calling moved =>
      have lower := call.race.moves_rank race moved
      rw [rank, rank, calling]
      exact Prod.Lex.toLex_lt_toLex.mpr (Or.inr ⟨rfl, lower⟩)
  | raced known call calling resolved =>
      have fewer := (invariant.toSound.afterRace positive known call (invariant.racing call calling) resolved).2
      exact Prod.Lex.toLex_lt_toLex.mpr (Or.inl fewer)

/-- A call that has not returned can go on: a ping is still to settle, or the code goes on by itself. -/
theorem Invariant.possible (invariant : Invariant offered s) (unfinished : s.call ≠ none) :
    ∃ event next, s.step config event = .ok next := by
  obtain ⟨call, calling⟩ := Option.ne_none_iff_exists'.mp unfinished
  by_cases resolved : call.race.resolved = true
  · refine ⟨.raceFinished ⟨.empty, [], []⟩, ?_⟩
    rw [Selection.step, calling]
    exact ⟨_, if_pos resolved⟩
  · have pong : Nonempty Pong := ⟨.error ""⟩
    obtain ⟨event, race, stepped⟩ := (invariant.racing call calling).consistent.possible resolved
    refine ⟨.ping event, ?_⟩
    rw [Selection.step, calling]
    dsimp only
    rw [stepped]
    exact ⟨_, rfl⟩

theorem start_invariant (relays : List (List RelayInfoUrl)) : Invariant relays.flatten (start relays) where
  initialized := rfl
  within := List.Subset.refl _
  returnsOnce := List.nodup_nil
  returned := fun _ member => absurd member List.not_mem_nil
  failed := fun _ member => absurd member List.not_mem_nil
  tried := fun _ member => Or.inl (List.mem_map_of_mem member)
  answers := fun _ member => absurd member List.not_mem_nil
  exhausted := fun undefined => absurd undefined List.not_mem_nil
  racing := fun _ calling => nomatch calling

theorem errors_kept (event : SelectionEvent) (s next : Selection) (taken : s.step config event = .ok next) :
    s.manager.errors.keys ⊆ next.manager.errors.keys := by
  have looped (s : Selection) (relayHub : AddressText) : (s.loop config relayHub).manager = s.manager := by
    rw [Selection.loop]
    split
    · rfl
    · split_ifs
      · split
        · rfl
        · rfl
      · rfl
  cases step_moves event next taken with
  | called relayHub idle => exact (looped s relayHub) ▸ List.Subset.refl _
  | pinged call race calling moved => exact List.Subset.refl _
  | raced known call calling resolved =>
      rw [Selection.afterRace]
      split
      · exact List.Subset.refl _
      · next manager handled =>
        have grown : s.manager.errors.keys ⊆ manager.errors.keys := fun url member =>
          ((Selection.handled _ _ _ handled).2.2 url).mpr (Or.inl member)
        split
        · exact grown
        · rw [looped]
          exact grown

end Selection

open Runs

/-- What a client can rely on, in a state of a run that started with the known relays. -/
structure Progresses (config : SelectionConfig) (known : KnownRelaysManager) (validateRelayUrl : List Char → Bool)
    (s : Selection) : Prop where
  terminates : Inevitable (Selection.step config) (fun later => later.call = none) s
  settles : ∀ call, s.call = some call → call.race.unsettled = [] → call.race.settled = [] → call.race.resolved = true
  answers : ∀ outcome ∈ s.outcomes, ∃ relayInfo, outcome = .ok relayInfo
  returnsOnce : s.returnedUrls.Nodup
  avoidsErrors : ∀ url ∈ s.manager.errors.keys, ∀ events, url ∉ (after (Selection.step config) events s).returnedUrls
  exhausts : .ok none ∈ s.outcomes → s.manager.relaysLeft = [] ∧
    ∀ relay ∈ known.preferredRelayers ++ known.allRelayers.map RelayInfoUrl.event,
      validateRelayUrl relay.relayUrl = true → s.Tried known.preferredRelayers relay.relayUrl

namespace Selection

variable {config : SelectionConfig} {offered : List RelayInfoUrl} {s : Selection}

theorem Invariant.after (positive : 1 ≤ config.waitForSuccessSliceSize) (invariant : Invariant offered s)
    (events : List SelectionEvent) : Invariant offered (after (step config) events s) :=
  after_invariant (step config) (Invariant offered)
    (fun event _ next held taken => held.moves positive next (step_moves event next taken)) events s invariant

theorem Invariant.terminates (positive : 1 ≤ config.waitForSuccessSliceSize) (invariant : Invariant offered s) :
    Inevitable (step config) (fun later => later.call = none) s :=
  inevitable_of_rank (step config) rank (Invariant offered) (fun later => later.call = none)
    (fun _ held unfinished => held.possible unfinished)
    (fun event _ next held taken => held.moves positive next (step_moves event next taken))
    (fun event _ next held unfinished taken => held.lowers positive next unfinished (step_moves event next taken))
    s invariant

theorem Invariant.avoidsErrors (positive : 1 ≤ config.waitForSuccessSliceSize) (invariant : Invariant offered s)
    (url : List Char) (failed : url ∈ s.manager.errors.keys) (events : List SelectionEvent) :
    url ∉ (Runs.after (step config) events s).returnedUrls := by
  have kept : s.manager.errors.keys ⊆ (Runs.after (step config) events s).manager.errors.keys :=
    after_kept (step config) (fun first second => first.manager.errors.keys ⊆ second.manager.errors.keys)
      (fun _ => List.Subset.refl _) (fun _ _ _ first second => List.Subset.trans first second) errors_kept events s
  exact fun returned => ((invariant.after positive events).returned url returned).2 (kept failed)

theorem Tried.preferred (known : KnownRelaysManager) (validateRelayUrl : List Char → Bool)
    (random : Bool → ℕ → Random) (url : List Char)
    (tried : s.Tried (known.getRelaysShuffledForTransaction validateRelayUrl random).flatten url) :
    s.Tried known.preferredRelayers url := by
  refine tried.imp_right fun rest => rest.imp_right fun dropped => ?_
  obtain ⟨entry, member, same, offered, unregistered⟩ := dropped
  have known_relay := List.mem_of_mem_filter
    ((known.getRelaysShuffledForTransaction_perm validateRelayUrl random).subset offered)
  refine ⟨entry, member, same, ?_, unregistered⟩
  cases List.mem_append.mp known_relay with
  | inl preferred => exact preferred
  | inr registered =>
      obtain ⟨info, _, other⟩ := List.mem_map.mp registered
      cases other

end Selection

theorem selectNextRelay_progresses (config : SelectionConfig) (positive : 1 ≤ config.waitForSuccessSliceSize)
    (known : KnownRelaysManager) (validateRelayUrl : List Char → Bool) (random : Bool → ℕ → Random)
    (events : List SelectionEvent) :
    Progresses config known validateRelayUrl
      (after (Selection.step config) events
        (Selection.start (known.getRelaysShuffledForTransaction validateRelayUrl random))) := by
  have invariant := (Selection.start_invariant
    (known.getRelaysShuffledForTransaction validateRelayUrl random)).after positive events
  constructor
  case terminates => exact invariant.terminates positive
  case settles => exact fun call calling => (invariant.racing call calling).consistent.resolves
  case answers => exact invariant.answers
  case returnsOnce => exact invariant.returnsOnce
  case avoidsErrors => exact invariant.avoidsErrors positive
  case exhausts =>
    intro undefined
    have empty := invariant.exhausted undefined
    refine ⟨empty, fun relay member valid => ?_⟩
    have offered := (known.getRelaysShuffledForTransaction_perm validateRelayUrl random).symm.subset
      (List.mem_filter.mpr ⟨member, valid⟩)
    cases invariant.tried relay offered with
    | inl left =>
        rw [Selection.remainingUrls, empty] at left
        exact absurd left List.not_mem_nil
    | inr tried => exact tried.preferred known validateRelayUrl random

namespace Selection

def somePing (relayManagerAddress : AddressText) : PingResponse :=
  ⟨['w'], relayManagerAddress, ['h'], ['o'], ['9'], ['1'], ['1'], ['5'], none, none, true, ['3']⟩

def someConfig : SelectionConfig := ⟨2, fun _ => .ok (), fun _ => "ping"⟩

def someRandom : Random := ⟨0, le_refl 0, one_pos⟩

def someRelays : KnownRelaysManager :=
  ⟨.empty, [.url ['p'], .url ['p']], [⟨4, 40, 4, 40, ['p'], ['M']⟩, ⟨5, 50, 5, 50, ['q'], ['N']⟩]⟩

def someEvents : List SelectionEvent :=
  [.selectNextRelay ['H'], .ping (.settle 0 (.ok (somePing ['x']))), .ping (.finish 0 someRandom),
    .raceFinished someRelays, .ping (.settle 0 (.ok (somePing ['n']))), .ping (.timeout someRandom),
    .raceFinished someRelays, .selectNextRelay ['H']]

end Selection

theorem selectNextRelay_progresses_duplicates :
    (after (Selection.step Selection.someConfig) Selection.someEvents
        (Selection.start (Selection.someRelays.getRelaysShuffledForTransaction (fun _ => true)
          fun _ _ => Selection.someRandom))).returnedUrls = [['q']] ∧
      Progresses Selection.someConfig Selection.someRelays (fun _ => true)
        (after (Selection.step Selection.someConfig) Selection.someEvents
          (Selection.start (Selection.someRelays.getRelaysShuffledForTransaction (fun _ => true)
            fun _ _ => Selection.someRandom))) :=
  ⟨by decide +kernel, selectNextRelay_progresses Selection.someConfig (by decide) Selection.someRelays (fun _ => true)
    (fun _ _ => Selection.someRandom) Selection.someEvents⟩

end OpenGsn.Provider
