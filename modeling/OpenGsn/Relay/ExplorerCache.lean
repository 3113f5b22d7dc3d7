import OpenGsn.Solidity.Abi
import OpenGsn.Text.Hex
import OpenGsn.Utils
import Mathlib.Data.List.Induction
import Mathlib.Data.List.Nodup

/-! `EtherscanCachedService.ts` and `TransactionDataCache.ts`: the transactions of an account by
their nonces, from an explorer whose pages are cached. -/

namespace OpenGsn.Relay.Explorer

open Solidity

structure TransactionData where
  hash : Uint256
  nonce : ℕ
  sender : List Char
  deriving DecidableEq, Repr

structure PagesQueried where
  sender : List Char
  page : ℕ
  deriving DecidableEq, Repr

/-- The hashes in one store and the senders in the other are unique. -/
structure TransactionDataCache where
  txstore : List TransactionData
  pagesStore : List PagesQueried
  deriving DecidableEq, Repr

namespace TransactionDataCache

def empty : TransactionDataCache := ⟨[], []⟩

end TransactionDataCache

open TransactionDataCache

/-- `transaction.from = transaction.from.toLowerCase()` -/
def lowered (transaction : TransactionData) : TransactionData :=
  { transaction with sender := toLowerCase transaction.sender }

/-- The loop over `insertAsync`. What was inserted before a failure stays. -/
def insertTransactions : List TransactionData → TransactionDataCache →
    Except String Unit × TransactionDataCache
  | [], cache => (.ok (), cache)
  | transaction :: rest, cache =>
      if cache.txstore.any fun known => known.hash = transaction.hash then
        (.error ("Can't insert key 0x" ++ String.ofList (Text.toHex (word transaction.hash.val)) ++
          ", it violates the unique constraint"), cache)
      else insertTransactions rest { cache with txstore := cache.txstore ++ [lowered transaction] }

def pagesOf (sender : List Char) (cache : TransactionDataCache) : Option PagesQueried :=
  cache.pagesStore.find? fun pages => pages.sender = sender

def putTransactions (transactions : List TransactionData) (sender : List Char) (page : ℕ)
    (cache : TransactionDataCache) : Except String Unit × TransactionDataCache :=
  match pagesOf sender cache with
  | none => insertTransactions transactions { cache with pagesStore := cache.pagesStore ++ [⟨sender, page⟩] }
  | some existing =>
      if page ≤ existing.page then
        (.error ("Trying to cache page " ++ toString page ++ " when already have " ++ toString existing.page ++
          " pages for sender " ++ String.ofList sender), cache)
      else insertTransactions transactions cache

def getLastPageQueried (sender : List Char) (cache : TransactionDataCache) : ℕ :=
  ((pagesOf (toLowerCase sender) cache).map PagesQueried.page).getD 0

def cachedTransaction (address : List Char) (nonce : ℕ) (cache : TransactionDataCache) :
    Option TransactionData :=
  cache.txstore.find? fun transaction => transaction.sender = toLowerCase address ∧ transaction.nonce = nonce

def served (listing : List TransactionData) (page : ℕ) : List TransactionData :=
  (listing.drop (10 * (page - 1))).take 10

def outgoingTransactions (address : List Char) (response : List TransactionData) : List TransactionData :=
  response.filter fun transaction => isSameAddress transaction.sender address

/-- The loop over the pages. The last one is not full, so that the fuel does not run out. -/
def searchTransactionEtherscan (listing : List TransactionData) (address : List Char) (nonce : ℕ) :
    ℕ → ℕ → TransactionDataCache → Except String (Option TransactionData) × TransactionDataCache
  | 0, _, cache => (.ok none, cache)
  | fuel + 1, page, cache =>
      let response := served listing page
      let outgoing := outgoingTransactions address response
      match putTransactions outgoing address page cache with
      | (.error error, cache) => (.error error, cache)
      | (.ok _, cache) =>
          match (outgoing.map lowered).find? fun transaction => transaction.nonce = nonce with
          | some transaction => (.ok (some transaction), cache)
          | none =>
              if 10 ≤ response.length then searchTransactionEtherscan listing address nonce fuel (page + 1) cache
              else (.ok none, cache)

structure Query where
  listing : List TransactionData
  address : List Char
  nonce : ℕ

def getTransactionByNonce (query : Query) (cache : TransactionDataCache) :
    Except String (Option TransactionData) × TransactionDataCache :=
  match cachedTransaction query.address query.nonce cache with
  | some transaction => (.ok (some transaction), cache)
  | none =>
      searchTransactionEtherscan query.listing query.address query.nonce (query.listing.length + 1)
        (getLastPageQueried query.address cache + 1) cache

def replay (queries : List Query) : TransactionDataCache :=
  queries.foldl (fun cache query => (getTransactionByNonce query cache).2) empty

def scan (address : List Char) (nonce : ℕ) (listing : List TransactionData) : Option TransactionData :=
  ((outgoingTransactions address listing).map lowered).find? fun transaction => transaction.nonce = nonce

def uncached (query : Query) : Option TransactionData := scan query.address query.nonce query.listing

/-- The explorer lists a transaction once, and an account has one transaction of a nonce. -/
structure Distinct (account : List Char) (listing : List TransactionData) : Prop where
  hashes : (listing.map TransactionData.hash).Nodup
  nonces : ((outgoingTransactions account listing).map TransactionData.nonce).Nodup

/-- Queries for one account, while its list grows. -/
structure Growing (account : List Char) (queries : List Query) : Prop where
  grows : queries.Pairwise fun earlier later => earlier.listing <+: later.listing
  distinct : ∀ query ∈ queries, Distinct query.address query.listing
  account : ∀ query ∈ queries, toLowerCase query.address = account

/-! The stores -/

def Unknown (transactions : List TransactionData) (cache : TransactionDataCache) : Prop :=
  ∀ transaction ∈ transactions, ∀ known ∈ cache.txstore, known.hash ≠ transaction.hash

theorem unknown_append (front back : List TransactionData) (cache : TransactionDataCache) :
    Unknown (front ++ back) cache ↔ Unknown front cache ∧ Unknown back cache := List.forall_mem_append

theorem insertTransactions_ok (transactions : List TransactionData) (cache : TransactionDataCache)
    (distinct : (transactions.map TransactionData.hash).Nodup) :
    (insertTransactions transactions cache).1 = .ok () ↔ Unknown transactions cache := by
  induction transactions generalizing cache with
  | nil => exact ⟨fun _ _ none => (nomatch none), fun _ => rfl⟩
  | cons transaction rest ih =>
      rw [List.map_cons, List.nodup_cons] at distinct
      have others := distinct.1
      rw [insertTransactions]
      split
      · rename_i known
        refine ⟨fun failed => (nomatch failed), fun unknown => ?_⟩
        obtain ⟨other, stored, same⟩ := List.any_eq_true.mp known
        exact absurd (of_decide_eq_true same) (unknown transaction List.mem_cons_self other stored)
      · rename_i fresh
        rw [ih _ distinct.2]
        simp only [Unknown, List.mem_append, List.mem_singleton, List.forall_mem_cons] at *
        constructor
        · intro unknown
          refine ⟨fun known stored same => fresh ?_, fun later listed known stored => ?_⟩
          · exact List.any_eq_true.mpr ⟨known, stored, decide_eq_true same⟩
          · exact unknown later listed known (.inl stored)
        · rintro ⟨_, unknown⟩ later listed known (stored | rfl)
          · exact unknown later listed known stored
          · exact fun same => others (List.mem_map.mpr ⟨later, listed, same.symm⟩)

theorem insertTransactions_stored (transactions : List TransactionData) (cache : TransactionDataCache)
    (inserted : (insertTransactions transactions cache).1 = .ok ()) :
    (insertTransactions transactions cache).2 =
      { cache with txstore := cache.txstore ++ transactions.map lowered } := by
  induction transactions generalizing cache with
  | nil => simp [insertTransactions]
  | cons transaction rest ih =>
      rw [insertTransactions] at inserted ⊢
      split
      · rename_i known
        rw [if_pos known] at inserted
        cases inserted
      · rename_i fresh
        rw [if_neg fresh] at inserted
        rw [ih _ inserted]
        simp

def PageFollows (sender : List Char) (page : ℕ) (cache : TransactionDataCache) : Prop :=
  ∀ existing, pagesOf sender cache = some existing → existing.page < page

theorem putTransactions_ok (transactions : List TransactionData) (sender : List Char) (page : ℕ)
    (cache : TransactionDataCache) (distinct : (transactions.map TransactionData.hash).Nodup) :
    (putTransactions transactions sender page cache).1 = .ok () ↔
      PageFollows sender page cache ∧ Unknown transactions cache := by
  unfold putTransactions PageFollows
  cases found : pagesOf sender cache with
  | none =>
      dsimp only
      rw [insertTransactions_ok _ _ distinct]
      exact ⟨fun unknown => ⟨fun _ none => (nomatch none), unknown⟩, fun both => both.2⟩
  | some existing =>
      dsimp only
      split
      · rename_i queried
        refine ⟨fun failed => (nomatch failed), fun both => ?_⟩
        have follows := both.1 existing rfl
        omega
      · rename_i later
        rw [insertTransactions_ok _ _ distinct]
        refine ⟨fun unknown => ⟨fun other same => ?_, unknown⟩, fun both => both.2⟩
        cases same
        omega

/-- After a page, the next one can be cached, and what was unknown is, but for the page. -/
theorem putTransactions_next (transactions later : List TransactionData) (sender : List Char) (page : ℕ)
    (cache : TransactionDataCache) (put : (putTransactions transactions sender page cache).1 = .ok ())
    (distinct : ((transactions ++ later).map TransactionData.hash).Nodup) :
    PageFollows sender (page + 1) (putTransactions transactions sender page cache).2 ∧
      (Unknown later (putTransactions transactions sender page cache).2 ↔ Unknown later cache) := by
  have disjoint : ∀ transaction ∈ later, ∀ known ∈ transactions.map lowered,
      known.hash ≠ transaction.hash := by
    intro transaction listed known stored same
    obtain ⟨original, among, rfl⟩ := List.mem_map.mp stored
    rw [List.map_append] at distinct
    exact (List.nodup_append.mp distinct).2.2 _ (List.mem_map_of_mem among) _ (List.mem_map_of_mem listed) same
  have unknown_iff : ∀ pages : List PagesQueried,
      Unknown later ⟨cache.txstore ++ transactions.map lowered, pages⟩ ↔ Unknown later cache := by
    intro pages
    constructor
    · intro unknown transaction listed known stored
      exact unknown transaction listed known (List.mem_append_left _ stored)
    · intro unknown transaction listed known stored
      rcases List.mem_append.mp stored with old | new
      · exact unknown transaction listed known old
      · exact disjoint transaction listed known new
  unfold putTransactions at put ⊢
  cases found : pagesOf sender cache with
  | none =>
      simp only [found] at put ⊢
      rw [insertTransactions_stored _ _ put]
      refine ⟨fun existing same => ?_, unknown_iff _⟩
      simp only [pagesOf, List.find?_append] at found same
      rw [found] at same
      simp only [List.find?_singleton, decide_true, if_true, Option.none_or, Option.some.injEq] at same
      rw [← same]
      exact Nat.lt_succ_self page
  | some existing =>
      simp only [found] at put ⊢
      split
      · rename_i queried
        rw [if_pos queried] at put
        cases put
      · rename_i follows
        rw [if_neg follows] at put
        rw [insertTransactions_stored _ _ put]
        refine ⟨fun other same => ?_, unknown_iff _⟩
        have first : pagesOf sender cache = some other := same
        rw [found] at first
        cases first
        omega

/-! The search -/

section

variable (address : List Char) (nonce : ℕ)

def requested (transaction : TransactionData) : Bool :=
  isSameAddress transaction.sender address ∧ transaction.nonce = nonce

def searched (listing : List TransactionData) : List TransactionData :=
  listing.take (10 * (listing.findIdx (requested address nonce) / 10 + 1))

theorem scan_eq (listing : List TransactionData) :
    scan address nonce listing = (listing.find? (requested address nonce)).map lowered := by
  rw [scan, List.find?_map, outgoingTransactions, List.find?_filter]
  congr 2
  funext transaction
  have wanted : requested address nonce transaction = true ↔
      isSameAddress transaction.sender address = true ∧ transaction.nonce = nonce := by simp [requested]
  rw [Bool.eq_iff_iff, wanted]
  exact decide_eq_true_iff.trans (and_congr_right fun _ => decide_eq_true_iff)

theorem findIdx_page (listing : List TransactionData) :
    listing.findIdx (requested address nonce) =
      if (listing.take 10).findIdx (requested address nonce) < (listing.take 10).length then
        (listing.take 10).findIdx (requested address nonce)
      else (listing.drop 10).findIdx (requested address nonce) + (listing.take 10).length := by
  rw [← List.findIdx_append, List.take_append_drop]

/-- The page of the requested transaction is the last one searched, and so is one that is not
full. -/
theorem searched_last (listing : List TransactionData)
    (last : (∃ transaction ∈ listing.take 10, requested address nonce transaction = true) ∨
      listing.length < 10) :
    searched address nonce listing = listing.take 10 := by
  have index : listing.findIdx (requested address nonce) < 10 := by
    rcases last with ⟨transaction, listed, found⟩ | short
    · have within := List.findIdx_lt_length_of_exists ⟨transaction, listed, found⟩
      have long := List.length_take_le 10 listing
      rw [findIdx_page, if_pos within]
      omega
    · exact List.findIdx_le_length.trans_lt short
  rw [searched, Nat.div_eq_of_lt index]

theorem searched_more (listing : List TransactionData)
    (missing : ∀ transaction ∈ listing.take 10, requested address nonce transaction = false)
    (full : 10 ≤ listing.length) :
    searched address nonce listing = listing.take 10 ++ searched address nonce (listing.drop 10) := by
  have outside := List.findIdx_eq_length.mpr missing
  have index := findIdx_page address nonce listing
  rw [outside, if_neg (Nat.lt_irrefl _), List.length_take, Nat.min_eq_left full] at index
  have further : 10 * (listing.findIdx (requested address nonce) / 10 + 1) =
      10 + 10 * ((listing.drop 10).findIdx (requested address nonce) / 10 + 1) := by omega
  rw [searched, further, List.take_add, searched]

theorem outgoing_append (front back : List TransactionData) :
    outgoingTransactions address (front ++ back) =
      outgoingTransactions address front ++ outgoingTransactions address back :=
  List.filter_append front back

theorem outgoing_hashes_nodup (listing part : List TransactionData) (sub : part.Sublist listing)
    (distinct : (listing.map TransactionData.hash).Nodup) :
    ((outgoingTransactions address part).map TransactionData.hash).Nodup :=
  distinct.sublist ((List.filter_sublist.trans sub).map _)

theorem unknown_page (listing : List TransactionData) (cache : TransactionDataCache)
    (unknown : Unknown (outgoingTransactions address (searched address nonce listing)) cache) :
    Unknown (outgoingTransactions address (listing.take 10)) cache := by
  intro transaction sent
  apply unknown
  rw [outgoingTransactions, List.mem_filter] at sent ⊢
  exact ⟨(List.take_sublist_take_left (by omega)).mem sent.1, sent.2⟩

theorem scan_split (listing : List TransactionData) (count : ℕ) :
    scan address nonce listing =
      (scan address nonce (listing.take count)).or (scan address nonce (listing.drop count)) := by
  rw [scan_eq, scan_eq, scan_eq, ← Option.map_or, ← List.find?_append, List.take_append_drop]

theorem scan_none (listing : List TransactionData) (missing : scan address nonce listing = none) :
    ∀ transaction ∈ listing, requested address nonce transaction = false := by
  rw [scan_eq, Option.map_eq_none_iff, List.find?_eq_none] at missing
  exact fun transaction listed => Bool.eq_false_iff.mpr (missing transaction listed)

theorem take_full (listing : List TransactionData) : 10 ≤ (listing.take 10).length ↔ 10 ≤ listing.length := by
  rw [List.length_take]
  omega

theorem found_page (listing : List TransactionData) (transaction : TransactionData)
    (found : scan address nonce (listing.take 10) = some transaction) :
    searched address nonce listing = listing.take 10 ∧ scan address nonce listing = some transaction := by
  have present : ∃ transaction ∈ listing.take 10, requested address nonce transaction = true := by
    rw [scan_eq, Option.map_eq_some_iff] at found
    obtain ⟨original, known, _⟩ := found
    exact ⟨original, List.mem_of_find?_eq_some known, List.find?_some known⟩
  rw [scan_split address nonce listing 10, found]
  exact ⟨searched_last address nonce listing (.inl present), rfl⟩

theorem last_page (listing : List TransactionData) (missing : scan address nonce (listing.take 10) = none)
    (short : listing.length < 10) :
    searched address nonce listing = listing.take 10 ∧ scan address nonce listing = none := by
  have ended : listing.drop 10 = [] := List.drop_eq_nil_of_le (by omega)
  rw [scan_split address nonce listing 10, missing, ended]
  exact ⟨searched_last address nonce listing (.inr short), rfl⟩

theorem full_page (listing : List TransactionData) (missing : scan address nonce (listing.take 10) = none)
    (full : 10 ≤ listing.length) :
    searched address nonce listing = listing.take 10 ++ searched address nonce (listing.drop 10) ∧
      scan address nonce listing = scan address nonce (listing.drop 10) := by
  rw [scan_split address nonce listing 10, missing]
  exact ⟨searched_more address nonce listing (scan_none address nonce _ missing) full, rfl⟩

/-- Once a full page has been put, the rest of the search is about what comes after it. -/
theorem full_page_put (listing : List TransactionData) (page : ℕ) (cache : TransactionDataCache)
    (missing : scan address nonce (listing.take 10) = none) (full : 10 ≤ listing.length)
    (distinct : (listing.map TransactionData.hash).Nodup)
    (put : (putTransactions (outgoingTransactions address (listing.take 10)) address page cache).1 = .ok ()) :
    PageFollows address (page + 1)
        (putTransactions (outgoingTransactions address (listing.take 10)) address page cache).2 ∧
      (Unknown (outgoingTransactions address (searched address nonce (listing.drop 10)))
          (putTransactions (outgoingTransactions address (listing.take 10)) address page cache).2 ↔
        Unknown (outgoingTransactions address (searched address nonce (listing.drop 10))) cache) := by
  have parts : (listing.take 10 ++ searched address nonce (listing.drop 10)).Sublist listing := by
    rw [← (full_page address nonce listing missing full).1]
    exact List.take_sublist _ _
  apply putTransactions_next _ _ address page cache put
  rw [← outgoing_append]
  exact outgoing_hashes_nodup address listing _ parts distinct

theorem searchTransactionEtherscan_iff (listing : List TransactionData) (fuel page : ℕ)
    (cache : TransactionDataCache) (result : Option TransactionData)
    (enough : (listing.drop (10 * page)).length < 10 * fuel)
    (distinct : ((listing.drop (10 * page)).map TransactionData.hash).Nodup)
    (follows : PageFollows address (page + 1) cache) :
    (searchTransactionEtherscan listing address nonce fuel (page + 1) cache).1 = .ok result ↔
      Unknown (outgoingTransactions address (searched address nonce (listing.drop (10 * page)))) cache ∧
        result = scan address nonce (listing.drop (10 * page)) := by
  induction fuel generalizing page cache with
  | zero => exact absurd enough (Nat.not_lt_zero _)
  | succ fuel ih =>
      let remaining := listing.drop (10 * page)
      have response : served listing (page + 1) = remaining.take 10 := by rw [served, Nat.add_sub_cancel]
      have after : listing.drop (10 * (page + 1)) = remaining.drop 10 := by rw [List.drop_drop, Nat.mul_succ]
      have put_iff := putTransactions_ok (outgoingTransactions address (remaining.take 10)) address (page + 1)
        cache (outgoing_hashes_nodup address remaining _ (List.take_sublist _ _) distinct)
      rw [searchTransactionEtherscan, response]
      cases put : putTransactions (outgoingTransactions address (remaining.take 10)) address (page + 1) cache with
      | mk status later =>
          rw [put] at put_iff
          cases status with
          | error error =>
              refine ⟨fun failed => (nomatch failed), fun searching => ?_⟩
              have first := unknown_page address nonce remaining cache searching.1
              exact nomatch put_iff.mpr ⟨follows, first⟩
          | ok _ =>
              have first := (put_iff.mp rfl).2
              dsimp only
              cases found : scan address nonce (remaining.take 10) with
              | some transaction =>
                  have ⟨pages, whole⟩ := found_page address nonce remaining transaction found
                  rw [show ((outgoingTransactions address (remaining.take 10)).map lowered).find? _ = _ from found,
                    pages, whole]
                  simp only [Except.ok.injEq]
                  exact ⟨fun same => ⟨first, same.symm⟩, fun both => both.2.symm⟩
              | none =>
                  rw [show ((outgoingTransactions address (remaining.take 10)).map lowered).find? _ = _ from found]
                  dsimp only
                  split
                  next served =>
                    have full := (take_full remaining).mp served
                    have ⟨pages, whole⟩ := full_page address nonce remaining found full
                    have next := full_page_put address nonce remaining (page + 1) cache found full distinct (by rw [put])
                    rw [put] at next
                    have bounded : remaining.length < 10 * (fuel + 1) := enough
                    have shorter : (remaining.drop 10).length = remaining.length - 10 := List.length_drop
                    have nodup : ((remaining.drop 10).map TransactionData.hash).Nodup :=
                      distinct.sublist ((List.drop_sublist _ _).map _)
                    have searching := ih (page + 1) later (by rw [after]; omega) (by rw [after]; exact nodup) next.1
                    rw [after, next.2] at searching
                    rw [searching, pages, whole, outgoing_append, unknown_append]
                    exact ⟨fun both => ⟨⟨first, both.1⟩, both.2⟩, fun both => ⟨both.1.2, both.2⟩⟩
                  next served =>
                    have short := not_le.mp (mt (take_full remaining).mpr served)
                    have ⟨pages, whole⟩ := last_page address nonce remaining found short
                    rw [pages, whole]
                    simp only [Except.ok.injEq]
                    exact ⟨fun same => ⟨first, same.symm⟩, fun both => both.2.symm⟩

theorem searchTransactionEtherscan_refused (listing : List TransactionData) (fuel page : ℕ)
    (cache : TransactionDataCache) (result : Option TransactionData) (refused : ¬ PageFollows address page cache)
    (distinct : (listing.map TransactionData.hash).Nodup) :
    (searchTransactionEtherscan listing address nonce (fuel + 1) page cache).1 ≠ .ok result := by
  have within : (served listing page).Sublist listing := (List.take_sublist _ _).trans (List.drop_sublist _ _)
  have put_iff := putTransactions_ok (outgoingTransactions address (served listing page)) address page
    cache (outgoing_hashes_nodup address listing _ within distinct)
  rw [searchTransactionEtherscan]
  cases put : putTransactions (outgoingTransactions address (served listing page)) address page cache with
  | mk status later =>
      rw [put] at put_iff
      cases status with
      | error error => exact fun failed => nomatch failed
      | ok _ => exact absurd (put_iff.mp rfl).1 refused

end

/-! The cache over a run of queries -/

def Known (account : List Char) (listing : List TransactionData) (cache : TransactionDataCache) : Prop :=
  ∀ known ∈ cache.txstore, ∃ transaction ∈ outgoingTransactions account listing, known = lowered transaction

theorem insertTransactions_known (account : List Char) (listing transactions : List TransactionData)
    (cache : TransactionDataCache)
    (listed : ∀ transaction ∈ transactions, transaction ∈ outgoingTransactions account listing)
    (known : Known account listing cache) : Known account listing (insertTransactions transactions cache).2 := by
  induction transactions generalizing cache with
  | nil => exact known
  | cons transaction rest ih =>
      rw [insertTransactions]
      split
      · exact known
      · apply ih _ fun other later => listed other (List.mem_cons_of_mem _ later)
        intro other stored
        rcases List.mem_append.mp stored with old | new
        · exact known other old
        · exact ⟨transaction, listed transaction List.mem_cons_self, List.mem_singleton.mp new⟩

theorem putTransactions_known (account sender : List Char) (listing transactions : List TransactionData) (page : ℕ)
    (cache : TransactionDataCache)
    (listed : ∀ transaction ∈ transactions, transaction ∈ outgoingTransactions account listing)
    (known : Known account listing cache) :
    Known account listing (putTransactions transactions sender page cache).2 := by
  unfold putTransactions
  split
  · exact insertTransactions_known account listing transactions _ listed known
  · split
    · exact known
    · exact insertTransactions_known account listing transactions _ listed known

theorem served_listed (address : List Char) (listing : List TransactionData) (page : ℕ) :
    ∀ transaction ∈ outgoingTransactions address (served listing page),
      transaction ∈ outgoingTransactions address listing := by
  intro transaction sent
  rw [outgoingTransactions, List.mem_filter] at sent ⊢
  exact ⟨List.mem_of_mem_drop (List.mem_of_mem_take sent.1), sent.2⟩

theorem searchTransactionEtherscan_known (address : List Char) (nonce : ℕ) (listing : List TransactionData)
    (fuel page : ℕ) (cache : TransactionDataCache) (known : Known address listing cache) :
    Known address listing (searchTransactionEtherscan listing address nonce fuel page cache).2 := by
  induction fuel generalizing page cache with
  | zero => exact known
  | succ fuel ih =>
      have put := putTransactions_known address address listing _ page cache (served_listed address listing page) known
      rw [searchTransactionEtherscan]
      split
      · rename_i failed
        rwa [failed] at put
      · rename_i stored
        rw [stored] at put
        split
        · exact put
        · split
          · exact ih (page + 1) _ put
          · exact put

theorem getTransactionByNonce_known (query : Query) (cache : TransactionDataCache)
    (known : Known query.address query.listing cache) :
    Known query.address query.listing (getTransactionByNonce query cache).2 := by
  unfold getTransactionByNonce
  split
  · exact known
  · exact searchTransactionEtherscan_known _ _ _ _ _ _ known

theorem outgoing_same (address account : List Char) (listing : List TransactionData)
    (same : toLowerCase address = toLowerCase account) :
    outgoingTransactions address listing = outgoingTransactions account listing := by
  simp only [outgoingTransactions, isSameAddress, same]

theorem known_grown (earlier later : Query) (cache : TransactionDataCache)
    (grows : earlier.listing <+: later.listing) (same : toLowerCase earlier.address = toLowerCase later.address)
    (known : Known earlier.address earlier.listing cache) : Known later.address later.listing cache := by
  intro stored member
  obtain ⟨transaction, listed, lower⟩ := known stored member
  rw [outgoing_same _ _ _ same] at listed
  exact ⟨transaction, (grows.sublist.filter _).mem listed, lower⟩

theorem replay_concat (history : List Query) (query : Query) :
    replay (history ++ [query]) = (getTransactionByNonce query (replay history)).2 := by
  rw [replay, replay, List.foldl_concat]

theorem replay_known (account : List Char) (history : List Query) (query : Query)
    (growing : Growing account (history ++ [query])) : Known query.address query.listing (replay history) := by
  induction history using List.reverseRecOn generalizing query with
  | nil => exact fun _ none => nomatch none
  | append_singleton earlier last ih =>
      have sub : (earlier ++ [last]).Sublist (earlier ++ [last] ++ [query]) := List.sublist_append_left _ _
      have before : Growing account (earlier ++ [last]) :=
        ⟨growing.grows.sublist sub, fun other member => growing.distinct other (sub.mem member),
          fun other member => growing.account other (sub.mem member)⟩
      have known := getTransactionByNonce_known last (replay earlier) (ih last before)
      have grown : last.listing <+: query.listing :=
        (List.pairwise_append.mp growing.grows).2.2 last (by simp) query (by simp)
      have same : toLowerCase last.address = toLowerCase query.address :=
        (growing.account last (by simp)).trans (growing.account query (by simp)).symm
      rw [replay_concat]
      exact known_grown last query _ grown same known

/-- The pages after the last one queried do for the query: they can be cached, with none of their
transactions cached before, and the pages that are left out do not have the requested one. -/
structure NextPagesSuffice (query : Query) (cache : TransactionDataCache) : Prop where
  follows : PageFollows query.address (getLastPageQueried query.address cache + 1) cache
  skipped : ∀ transaction ∈ outgoingTransactions query.address
    (query.listing.take (10 * getLastPageQueried query.address cache)), transaction.nonce ≠ query.nonce
  unknown : Unknown (outgoingTransactions query.address (searched query.address query.nonce
    (query.listing.drop (10 * getLastPageQueried query.address cache)))) cache

/-- The requested transaction is cached, or found on the pages that the query asks for. -/
def Answerable (query : Query) (cache : TransactionDataCache) : Prop :=
  (∃ transaction ∈ cache.txstore, transaction.sender = toLowerCase query.address ∧
    transaction.nonce = query.nonce) ∨ NextPagesSuffice query cache

theorem requested_iff (address : List Char) (nonce : ℕ) (listing : List TransactionData)
    (transaction : TransactionData) :
    transaction ∈ listing ∧ requested address nonce transaction = true ↔
      transaction ∈ outgoingTransactions address listing ∧ transaction.nonce = nonce := by
  simp [outgoingTransactions, requested, and_assoc]

theorem scan_found (address : List Char) (nonce : ℕ) (listing : List TransactionData)
    (distinct : Distinct address listing) (transaction : TransactionData)
    (listed : transaction ∈ outgoingTransactions address listing) (same : transaction.nonce = nonce) :
    scan address nonce listing = some (lowered transaction) := by
  cases found : scan address nonce listing with
  | none =>
      have wanted := (requested_iff address nonce listing transaction).mpr ⟨listed, same⟩
      exact absurd wanted.2 (Bool.eq_false_iff.mp (scan_none address nonce listing found transaction wanted.1))
  | some other =>
      rw [scan_eq, Option.map_eq_some_iff] at found
      obtain ⟨original, known, rfl⟩ := found
      have wanted := (requested_iff address nonce listing original).mp
        ⟨List.mem_of_find?_eq_some known, List.find?_some known⟩
      rw [List.inj_on_of_nodup_map distinct.nonces wanted.1 listed (wanted.2.trans same.symm)]

/-- The pages that are left out do not matter exactly if the requested transaction is not there. -/
theorem scan_drop_iff (address : List Char) (nonce count : ℕ) (listing : List TransactionData)
    (distinct : Distinct address listing) :
    scan address nonce (listing.drop count) = scan address nonce listing ↔
      ∀ transaction ∈ outgoingTransactions address (listing.take count), transaction.nonce ≠ nonce := by
  have split := scan_split address nonce listing count
  constructor
  · intro same transaction early wanted
    have first := (requested_iff address nonce (listing.take count) transaction).mpr ⟨early, wanted⟩
    have listed := (requested_iff address nonce listing transaction).mp ⟨List.mem_of_mem_take first.1, first.2⟩
    have whole := scan_found address nonce listing distinct transaction listed.1 wanted
    rw [whole, scan_eq, Option.map_eq_some_iff] at same
    obtain ⟨original, known, _⟩ := same
    have second := (requested_iff address nonce (listing.drop count) original).mp
      ⟨List.mem_of_find?_eq_some known, List.find?_some known⟩
    have nonces := distinct.nonces
    rw [← List.take_append_drop count listing, outgoing_append, List.map_append] at nonces
    exact (List.nodup_append.mp nonces).2.2 _ (List.mem_map_of_mem early) _ (List.mem_map_of_mem second.1)
      (wanted.trans second.2.symm)
  · intro skipped
    have none : scan address nonce (listing.take count) = none := by
      cases found : scan address nonce (listing.take count) with
      | none => rfl
      | some other =>
          rw [scan_eq, Option.map_eq_some_iff] at found
          obtain ⟨original, known, _⟩ := found
          have first := (requested_iff address nonce (listing.take count) original).mp
            ⟨List.mem_of_find?_eq_some known, List.find?_some known⟩
          exact absurd first.2 (skipped original first.1)
    rw [split, none, Option.none_or]

theorem getTransactionByNonce_iff (query : Query) (cache : TransactionDataCache)
    (distinct : Distinct query.address query.listing) (known : Known query.address query.listing cache) :
    (getTransactionByNonce query cache).1 = .ok (uncached query) ↔ Answerable query cache := by
  unfold getTransactionByNonce
  cases found : cachedTransaction query.address query.nonce cache with
  | some transaction =>
      have matching := List.find?_some found
      rw [decide_eq_true_eq] at matching
      have stored := List.mem_of_find?_eq_some found
      obtain ⟨original, listed, rfl⟩ := known transaction stored
      have whole := scan_found query.address query.nonce query.listing distinct original listed matching.2
      exact ⟨fun _ => .inl ⟨_, stored, matching⟩, fun _ => by rw [uncached, whole]⟩
  | none =>
      have absent : ¬ ∃ transaction ∈ cache.txstore, transaction.sender = toLowerCase query.address ∧
          transaction.nonce = query.nonce := by
        rintro ⟨transaction, stored, matching⟩
        exact List.find?_eq_none.mp found transaction stored (decide_eq_true matching)
      rw [Answerable, or_iff_right absent]
      have rest : ((query.listing.drop (10 * getLastPageQueried query.address cache)).map
          TransactionData.hash).Nodup := distinct.hashes.sublist ((List.drop_sublist _ _).map _)
      by_cases follows : PageFollows query.address (getLastPageQueried query.address cache + 1) cache
      · have searching := searchTransactionEtherscan_iff query.address query.nonce query.listing
          (query.listing.length + 1) (getLastPageQueried query.address cache) cache (uncached query)
          (by rw [List.length_drop]; omega) rest follows
        refine searching.trans ?_
        rw [uncached, eq_comm, scan_drop_iff _ _ _ _ distinct]
        exact ⟨fun both => ⟨follows, both.2, both.1⟩, fun suffice => ⟨suffice.unknown, suffice.skipped⟩⟩
      · have refused := searchTransactionEtherscan_refused query.address query.nonce query.listing
          query.listing.length (getLastPageQueried query.address cache + 1) cache (uncached query) follows
        exact ⟨fun answered => absurd answered (refused distinct.hashes),
          fun suffice => absurd suffice.follows follows⟩

/-- Every query of a run returns what an uncached scan does exactly if each, in the cache that it
meets, asks for a cached transaction or for one on pages that it can still query. -/
theorem cache_transparent_iff (account : List Char) (queries : List Query) (growing : Growing account queries) :
    (∀ history query later, queries = history ++ query :: later →
        (getTransactionByNonce query (replay history)).1 = .ok (uncached query)) ↔
      ∀ history query later, queries = history ++ query :: later → Answerable query (replay history) := by
  have each : ∀ history query later, queries = history ++ query :: later →
      ((getTransactionByNonce query (replay history)).1 = .ok (uncached query) ↔
        Answerable query (replay history)) := by
    rintro history query later rfl
    have sub : (history ++ [query]).Sublist (history ++ query :: later) :=
      (List.Sublist.refl history).append (List.singleton_sublist.mpr List.mem_cons_self)
    have before : Growing account (history ++ [query]) :=
      ⟨growing.grows.sublist sub, fun other member => growing.distinct other (sub.mem member),
        fun other member => growing.account other (sub.mem member)⟩
    exact getTransactionByNonce_iff query (replay history) (growing.distinct query (by simp))
      (replay_known account history query before)
  constructor
  · intro answers history query later split
    exact (each history query later split).mp (answers history query later split)
  · intro answerable history query later split
    exact (each history query later split).mpr (answerable history query later split)

def sampleAccount : List Char := ['0', 'x', 'a', 'b']

def firstTransaction : TransactionData := ⟨10, 0, sampleAccount⟩

def secondTransaction : TransactionData := ⟨11, 1, sampleAccount⟩

theorem sample_growing (nonce other : ℕ) : Growing sampleAccount
    [⟨[firstTransaction], sampleAccount, nonce⟩, ⟨[firstTransaction, secondTransaction], sampleAccount, other⟩] := by
  refine ⟨by simp, ?_, ?_⟩
  · simp only [List.forall_mem_cons]
    refine ⟨⟨by decide, by decide⟩, ⟨by decide, by decide⟩, fun _ none => nomatch none⟩
  · simp only [List.forall_mem_cons]
    exact ⟨rfl, rfl, fun _ none => nomatch none⟩

theorem cache_transparent_iff_cached :
    Answerable ⟨[firstTransaction, secondTransaction], sampleAccount, 0⟩
      (replay [⟨[firstTransaction], sampleAccount, 0⟩]) := by
  refine (cache_transparent_iff sampleAccount _ (sample_growing 0 0)).mp ?_
    [⟨[firstTransaction], sampleAccount, 0⟩] _ [] rfl
  intro history query later split
  cases history with
  | nil =>
      cases split
      decide
  | cons first history =>
      cases history with
      | nil =>
          cases split
          decide
      | cons second history =>
          have lengths := congrArg List.length split
          simp at lengths

/-- The first page is not full, and is not asked for again when it has grown. -/
theorem grown_page_skipped :
    ¬ ∀ (account : List Char) (queries : List Query), Growing account queries →
      ∀ history query later, queries = history ++ query :: later →
        (getTransactionByNonce query (replay history)).1 = .ok (uncached query) := by
  intro transparent
  have answered := transparent sampleAccount _ (sample_growing 0 1) [⟨[firstTransaction], sampleAccount, 0⟩] _ [] rfl
  exact absurd answered (by decide)

end OpenGsn.Relay.Explorer
