import OpenGsn.Relay.PastEvents
import OpenGsn.Utils

/-! `getLogsPagesForRange` and `splitRange` in `ContractInteractor.ts`, in the arithmetic of doubles. -/

namespace OpenGsn.Paging

structure PageRange where
  fromBlock : ℤ
  toBlock : ℤ
  deriving DecidableEq, Repr

namespace PageRange

def size (range : PageRange) : ℤ := range.toBlock - range.fromBlock + 1

def Contains (range : PageRange) (block : ℤ) : Prop := range.fromBlock ≤ block ∧ block ≤ range.toBlock

end PageRange

/-- `Number.MAX_SAFE_INTEGER` -/
def maxSafeInteger : ℤ := 2 ^ 53 - 1

def rangeSize (fromBlock toBlock : ℤ) : ℤ := number (number (toBlock - fromBlock) + 1)

/-- The largest number stands for no limit. -/
def getLogsPagesForRange (maxPageSize fromBlock toBlock : ℤ) : ℤ :=
  if maxPageSize = maxSafeInteger then 1
  else max ⌈toDouble (rangeSize fromBlock toBlock / maxPageSize)⌉ 1

/-- The loop of `splitRange` from `b` on. It may take more rounds than it is given. -/
def splitLoop (toBlock splitSize : ℤ) : ℕ → ℤ → Option (List PageRange)
  | 0, b => if b ≤ toBlock then none else some []
  | rounds + 1, b =>
      if b ≤ toBlock then
        (splitLoop toBlock splitSize rounds (number (b + splitSize))).map fun rest =>
          ⟨b, min toBlock (number (number (b + splitSize) - 1))⟩ :: rest
      else some []

def splitRange (fromBlock toBlock parts : ℤ) : Option (List PageRange) :=
  if parts = 1 then some [⟨fromBlock, toBlock⟩]
  else
    let rangeSize := rangeSize fromBlock toBlock
    let splitSize := ⌈toDouble (rangeSize / parts)⌉
    splitLoop toBlock splitSize rangeSize.toNat fromBlock

/-! Safe numbers. -/

/-- The next block is exact, or behind all that are safe; the end of a page is right in either case. -/
theorem number_next (b toBlock : ℤ) (low : -2 ^ 53 < b) (high : toBlock ≤ maxSafeInteger) :
    (number b = b ∨ toBlock < number b ∧ toBlock < b) ∧
      min toBlock (number (number b - 1)) = min toBlock (b - 1) := by
  unfold maxSafeInteger at high
  by_cases small : b ≤ 2 ^ 53
  · rw [number_small b (by omega) small, number_small (b - 1) (by omega) (by omega)]
    exact ⟨.inl rfl, rfl⟩
  · have beyond := le_number (2 ^ 53) b (by omega) (by omega) (by omega)
    have last := le_number (2 ^ 53 - 1) (number b - 1) (by omega) (by omega) (by omega)
    exact ⟨.inr ⟨by omega, by omega⟩, by omega⟩

theorem rangeSize_small (fromBlock toBlock : ℤ) (ordered : fromBlock ≤ toBlock)
    (short : toBlock - fromBlock ≤ maxSafeInteger) : rangeSize fromBlock toBlock = toBlock - fromBlock + 1 := by
  unfold maxSafeInteger at short
  rw [rangeSize, number_small (toBlock - fromBlock) (by omega) (by omega), number_small _ (by omega) (by omega)]

theorem le_ceil_mul (size parts : ℤ) (positive : 0 < parts) : size ≤ ⌈(size : ℚ) / parts⌉ * parts := by
  have many : (0 : ℚ) < parts := by exact_mod_cast positive
  have bound := (div_le_iff₀ many).mp (Int.le_ceil ((size : ℚ) / parts))
  exact_mod_cast bound

theorem ceil_le (size parts most : ℤ) (positive : 0 < parts) (bound : size ≤ most * parts) :
    ⌈(size : ℚ) / parts⌉ ≤ most := by
  have many : (0 : ℚ) < parts := by exact_mod_cast positive
  rw [Int.ceil_le, div_le_iff₀ many]
  exact_mod_cast bound

theorem ceil_natCast (size parts : ℕ) (positive : 0 < parts) :
    ⌈((size : ℤ) : ℚ) / (parts : ℤ)⌉ = (size ⌈/⌉ parts : ℕ) := by
  apply le_antisymm
  · apply ceil_le _ _ _ (by exact_mod_cast positive)
    rw [mul_comm]
    exact_mod_cast le_smul_ceilDiv (b := size) positive
  · have enough := le_ceil_mul size parts (by exact_mod_cast positive)
    have least : size ⌈/⌉ parts ≤ ⌈((size : ℤ) : ℚ) / (parts : ℤ)⌉.toNat := by
      rw [ceilDiv_le_iff_le_smul positive, smul_eq_mul]
      have natural := Int.self_le_toNat ⌈((size : ℤ) : ℚ) / (parts : ℤ)⌉
      have bound : (size : ℤ) ≤ parts * ⌈((size : ℤ) : ℚ) / (parts : ℤ)⌉.toNat := by
        rw [mul_comm] at enough
        exact enough.trans (mul_le_mul_of_nonneg_left natural (Int.natCast_nonneg parts))
      exact_mod_cast bound
    have nonneg : 0 ≤ ⌈((size : ℤ) : ℚ) / (parts : ℤ)⌉ :=
      Int.ceil_nonneg (div_nonneg (by exact_mod_cast Nat.zero_le size) (by exact_mod_cast Nat.zero_le parts))
    omega

theorem ceil_toDouble_div (size parts : ℕ) (nonempty : 0 < size) (short : size ≤ 2 ^ 53) (positive : 0 < parts) :
    ⌈toDouble (((size : ℤ) : ℚ) / (parts : ℤ))⌉ = (size ⌈/⌉ parts : ℕ) := by
  rw [toDouble, Rounding.ceil_nearest_div 53 (by decide) size parts (by exact_mod_cast nonempty)
    (by exact_mod_cast short) (by exact_mod_cast positive), ceil_natCast size parts positive]

structure Partitions (fromBlock toBlock : ℤ) (ranges : List PageRange) : Prop where
  nonempty : ∀ range ∈ ranges, range.fromBlock ≤ range.toBlock
  consecutive : ranges.IsChain fun first second => second.fromBlock = first.toBlock + 1
  disjoint : ranges.Pairwise fun first second => first.toBlock < second.fromBlock
  cover : ∀ block, (∃ range ∈ ranges, range.Contains block) ↔ fromBlock ≤ block ∧ block ≤ toBlock

theorem partitions_nil (b toBlock : ℤ) (beyond : ¬b ≤ toBlock) : Partitions b toBlock [] where
  nonempty := fun _ member => by cases member
  consecutive := List.IsChain.nil
  disjoint := List.Pairwise.nil
  cover := by
    intro block
    constructor
    · rintro ⟨range, member, _⟩
      cases member
    · omega

theorem partitions_whole (fromBlock toBlock : ℤ) (ordered : fromBlock ≤ toBlock) :
    Partitions fromBlock toBlock [⟨fromBlock, toBlock⟩] where
  nonempty := by
    intro range member
    rw [List.mem_singleton.mp member]
    exact ordered
  consecutive := List.IsChain.singleton _
  disjoint := List.pairwise_singleton _ _
  cover := by
    intro block
    simp only [List.mem_singleton, exists_eq_left, PageRange.Contains]

theorem partitions_cons (b toBlock splitSize : ℤ) (rest : List PageRange) (inside : b ≤ toBlock)
    (positive : 0 < splitSize) (partitions : Partitions (b + splitSize) toBlock rest) :
    Partitions b toBlock (⟨b, min toBlock (b + splitSize - 1)⟩ :: rest) := by
  have later : ∀ range ∈ rest, b + splitSize ≤ range.fromBlock ∧ range.fromBlock ≤ toBlock := by
    intro range member
    have whole := partitions.nonempty range member
    exact (partitions.cover range.fromBlock).mp ⟨range, member, le_refl _, whole⟩
  refine ⟨?_, ?_, ?_, ?_⟩
  · intro range member
    rcases List.mem_cons.mp member with rfl | member
    · dsimp only
      omega
    · exact partitions.nonempty range member
  · cases rest with
    | nil => exact List.IsChain.singleton _
    | cons second tail =>
        rw [List.isChain_cons_cons]
        refine ⟨?_, partitions.consecutive⟩
        have bounds := later second List.mem_cons_self
        -- the first block of the rest is in one of its ranges, and none begins before `second`
        obtain ⟨range, member, contains⟩ :=
          (partitions.cover (b + splitSize)).mpr ⟨le_refl _, bounds.1.trans bounds.2⟩
        have first : second.fromBlock ≤ range.fromBlock := by
          rcases List.mem_cons.mp member with rfl | member
          · exact le_refl _
          · have after := List.rel_of_pairwise_cons partitions.disjoint member
            have whole := partitions.nonempty second List.mem_cons_self
            omega
        have begins := contains.1
        dsimp only
        omega
  · rw [List.pairwise_cons]
    refine ⟨?_, partitions.disjoint⟩
    intro range member
    have bounds := later range member
    dsimp only
    omega
  · intro block
    simp only [List.mem_cons, exists_eq_or_imp]
    rw [partitions.cover block, PageRange.Contains]
    dsimp only
    omega

/-! The ranges of `Relay.splitRange`, which are on natural numbers. -/

def shifted (fromBlock : ℤ) (range : Relay.BlockRange) : PageRange :=
  ⟨fromBlock + range.fromBlock, fromBlock + (range.toBlock.getD 0 : ℕ)⟩

section Pages

variable (fromBlock : ℤ) (last splitSize : ℕ) (sized : 0 < splitSize)

def page (start : ℕ) : Relay.BlockRange := ⟨start, some (min last (start + splitSize - 1))⟩

theorem shifted_page (start : ℕ) (positive : 0 < splitSize) :
    shifted fromBlock (page last splitSize start) =
      ⟨fromBlock + start, min (fromBlock + last) (fromBlock + start + splitSize - 1)⟩ := by
  rw [shifted, page, PageRange.mk.injEq]
  refine ⟨rfl, ?_⟩
  dsimp only [Option.getD_some]
  omega

theorem least_next (pages b : ℕ) (least : pages + 1 = 0 ∨ b + (pages + 1 - 1) * splitSize ≤ last) :
    b ≤ last ∧ (pages = 0 ∨ b + splitSize + (pages - 1) * splitSize ≤ last) := by
  have begins := least.resolve_left (Nat.succ_ne_zero pages)
  rw [Nat.add_sub_cancel] at begins
  refine ⟨(Nat.le_add_right _ _).trans begins, ?_⟩
  cases pages with
  | zero => exact .inl rfl
  | succ pages =>
      right
      rw [Nat.succ_mul] at begins
      rw [Nat.add_sub_cancel]
      omega

include sized

/-- The pages from `b` on, when the last one reaches the end and none begins behind it. -/
theorem pages_partition (pages b : ℕ) (reach : last < b + pages * splitSize)
    (least : pages = 0 ∨ b + (pages - 1) * splitSize ≤ last) :
    Partitions (fromBlock + b) (fromBlock + last)
      (((List.range' b pages splitSize).map (page last splitSize)).map (shifted fromBlock)) := by
  induction pages generalizing b with
  | zero => exact partitions_nil _ _ (by omega)
  | succ pages ih =>
      obtain ⟨begins, more⟩ := least_next last splitSize pages b least
      have rest := ih (b + splitSize) (by rw [Nat.succ_mul] at reach; omega) more
      rw [List.range'_succ, List.map_cons, List.map_cons, shifted_page fromBlock last splitSize b sized]
      apply partitions_cons _ _ splitSize _ (by omega) (by omega)
      rwa [Nat.cast_add, ← add_assoc] at rest

/-- The loop finds these pages. By induction on the rounds; where the next block is not a safe number, no page
is left. -/
theorem splitLoop_pages (low : -maxSafeInteger ≤ fromBlock) (high : fromBlock + last ≤ maxSafeInteger)
    (rounds pages b : ℕ) (enough : last < b + rounds) (reach : last < b + pages * splitSize)
    (least : pages = 0 ∨ b + (pages - 1) * splitSize ≤ last) :
    splitLoop (fromBlock + last) splitSize rounds (fromBlock + b) =
      some (((List.range' b pages splitSize).map (page last splitSize)).map (shifted fromBlock)) := by
  induction rounds generalizing b pages with
  | zero =>
      have none : pages = 0 := by
        rcases least with none | begins
        · exact none
        · omega
      rw [splitLoop, if_neg (by omega), none]
      rfl
  | succ rounds ih =>
      cases pages with
      | zero =>
          rw [splitLoop, if_neg (by omega)]
          rfl
      | succ pages =>
          obtain ⟨begins, more⟩ := least_next last splitSize pages b least
          obtain ⟨next, ends⟩ := number_next (fromBlock + b + splitSize) (fromBlock + last)
            (by unfold maxSafeInteger at low; omega) high
          have rest : splitLoop (fromBlock + last) splitSize rounds (number (fromBlock + b + splitSize)) =
              some (((List.range' (b + splitSize) pages splitSize).map (page last splitSize)).map
                (shifted fromBlock)) := by
            rcases next with exact_ | ⟨beyond, behind⟩
            · have later := ih pages (b + splitSize) (by omega) (by rw [Nat.succ_mul] at reach; omega) more
              rwa [Nat.cast_add, ← add_assoc, ← exact_] at later
            · obtain rfl : pages = 0 := by
                rcases more with none | begins
                · exact none
                · omega
              cases rounds <;> rw [splitLoop, if_neg (by omega)] <;> rfl
          rw [splitLoop, if_pos (by omega), rest, ends, List.range'_succ, List.map_cons, List.map_cons,
            shifted_page fromBlock last splitSize b sized, Option.map_some]

end Pages

theorem splitRange_pages (last parts : ℕ) (several : parts ≠ 1) :
    Relay.splitRange 0 (some last) parts =
      some ((List.range' 0 (last / ((last + 1) ⌈/⌉ parts) + 1) ((last + 1) ⌈/⌉ parts)).map
        (page last ((last + 1) ⌈/⌉ parts))) := by
  rw [Relay.splitRange, if_neg several]
  rfl

theorem ceilDiv_pos (last parts : ℕ) (positive : 0 < parts) : 0 < (last + 1) ⌈/⌉ parts := by
  by_contra none
  have enough := le_smul_ceilDiv (b := last + 1) positive
  rw [Nat.eq_zero_of_not_pos none, smul_zero] at enough
  omega

theorem splitRange_exact (fromBlock : ℤ) (last parts : ℕ) (low : -maxSafeInteger ≤ fromBlock)
    (high : fromBlock + last ≤ maxSafeInteger) (short : (last : ℤ) ≤ maxSafeInteger) (positive : 0 < parts) :
    splitRange fromBlock (fromBlock + last) parts =
      (Relay.splitRange 0 (some last) parts).map (List.map (shifted fromBlock)) := by
  rw [splitRange]
  by_cases whole : parts = 1
  · rw [if_pos (by exact_mod_cast whole), Relay.splitRange, if_pos whole]
    simp [shifted]
  · have size : rangeSize fromBlock (fromBlock + last) = (last + 1 : ℕ) := by
      rw [rangeSize_small _ _ (by omega) (by omega)]
      omega
    have split := ceil_toDouble_div (last + 1) parts (by omega) (by unfold maxSafeInteger at short; omega) positive
    have sized := ceilDiv_pos last parts positive
    have pages := Nat.div_mul_le_self last ((last + 1) ⌈/⌉ parts)
    have rest := Nat.lt_div_mul_add sized (a := last)
    have found := splitLoop_pages fromBlock last ((last + 1) ⌈/⌉ parts) sized low high (last + 1)
      (last / ((last + 1) ⌈/⌉ parts) + 1) 0 (by omega) (by rw [Nat.succ_mul]; omega)
      (.inr (by rw [Nat.add_sub_cancel]; omega))
    rw [Nat.cast_zero, add_zero] at found
    rw [if_neg (by exact_mod_cast whole), splitRange_pages last parts whole, Option.map_some, size, ← found]
    dsimp only
    rw [split, Int.toNat_natCast]

theorem splitRange_parts (fromBlock : ℤ) (last parts : ℕ) (positive : 0 < parts) :
    ∃ ranges, Relay.splitRange 0 (some last) parts = some ranges ∧
      Partitions fromBlock (fromBlock + last) (ranges.map (shifted fromBlock)) ∧ ranges.length ≤ parts ∧
      ∀ range ∈ ranges.map (shifted fromBlock), range.size ≤ ((last + 1) ⌈/⌉ parts : ℕ) := by
  by_cases whole : parts = 1
  · rw [Relay.splitRange, if_pos whole]
    refine ⟨_, rfl, ?_, by simp [whole], ?_⟩
    · have single := partitions_whole fromBlock (fromBlock + last) (by omega)
      simpa [shifted] using single
    · simp [shifted, PageRange.size, whole]
      omega
  · have sized := ceilDiv_pos last parts positive
    have enough := le_smul_ceilDiv (b := last + 1) positive
    rw [smul_eq_mul] at enough
    rw [splitRange_pages last parts whole]
    generalize (last + 1) ⌈/⌉ parts = splitSize at sized enough
    have partition := pages_partition fromBlock last splitSize sized (last / splitSize + 1) 0
      (by rw [Nat.succ_mul, Nat.zero_add]; exact Nat.lt_div_mul_add sized)
      (.inr (by rw [Nat.add_sub_cancel, Nat.zero_add]; exact Nat.div_mul_le_self _ _))
    rw [Nat.cast_zero, add_zero] at partition
    refine ⟨_, rfl, partition, ?_, ?_⟩
    · rw [List.length_map, List.length_range']
      exact Nat.div_lt_of_lt_mul (by rw [Nat.mul_comm]; omega)
    · intro range member
      obtain ⟨_, listed, rfl⟩ := List.mem_map.mp member
      obtain ⟨start, _, rfl⟩ := List.mem_map.mp listed
      rw [shifted_page fromBlock last splitSize start sized, PageRange.size]
      dsimp only
      omega

theorem getLogsPagesForRange_exact (maxPageSize last : ℕ) (fromBlock : ℤ) (short : (last : ℤ) ≤ maxSafeInteger)
    (positive : 0 < maxPageSize) (limited : (maxPageSize : ℤ) ≠ maxSafeInteger) :
    getLogsPagesForRange maxPageSize fromBlock (fromBlock + last) = (max ((last + 1) ⌈/⌉ maxPageSize) 1 : ℕ) := by
  have size : rangeSize fromBlock (fromBlock + last) = (last + 1 : ℕ) := by
    rw [rangeSize_small _ _ (by omega) (by omega)]
    omega
  rw [getLogsPagesForRange, if_neg limited, size,
    ceil_toDouble_div (last + 1) maxPageSize (by omega) (by unfold maxSafeInteger at short; omega) positive, Nat.cast_max,
    Nat.cast_one]

theorem splitRange_partitions (fromBlock toBlock maxPageSize : ℤ) (ordered : fromBlock ≤ toBlock)
    (low : -maxSafeInteger ≤ fromBlock) (high : toBlock ≤ maxSafeInteger)
    (short : toBlock - fromBlock ≤ maxSafeInteger) (positive : 1 ≤ maxPageSize) :
    (∃ ranges, splitRange fromBlock toBlock (getLogsPagesForRange maxPageSize fromBlock toBlock) = some ranges ∧
      Partitions fromBlock toBlock ranges ∧
      (ranges.length : ℤ) ≤ getLogsPagesForRange maxPageSize fromBlock toBlock ∧
      (maxPageSize ≠ maxSafeInteger → ∀ range ∈ ranges, range.size ≤ maxPageSize) ∧
      (maxPageSize = maxSafeInteger → ranges = [⟨fromBlock, toBlock⟩])) ∧
    ∀ parts ≥ 2, ∃ ranges, splitRange fromBlock toBlock parts = some ranges ∧
      Partitions fromBlock toBlock ranges ∧ (ranges.length : ℤ) ≤ parts := by
  obtain ⟨last, rfl⟩ : ∃ last : ℕ, toBlock = fromBlock + last := ⟨(toBlock - fromBlock).toNat, by omega⟩
  rw [add_sub_cancel_left] at short
  have parted : ∀ parts : ℕ, 0 < parts → ∃ ranges, splitRange fromBlock (fromBlock + last) parts = some ranges ∧
      Partitions fromBlock (fromBlock + last) ranges ∧ (ranges.length : ℤ) ≤ parts ∧
      ∀ range ∈ ranges, range.size ≤ ((last + 1) ⌈/⌉ parts : ℕ) := by
    intro parts some
    obtain ⟨ranges, found, partitions, count, sizes⟩ := splitRange_parts fromBlock last parts some
    refine ⟨_, by rw [splitRange_exact fromBlock last parts low high short some, found, Option.map_some], partitions,
      ?_, sizes⟩
    rw [List.length_map]
    exact_mod_cast count
  constructor
  · by_cases unlimited : maxPageSize = maxSafeInteger
    · have one : getLogsPagesForRange maxPageSize fromBlock (fromBlock + last) = 1 := by
        rw [getLogsPagesForRange, if_pos unlimited]
      rw [one]
      exact ⟨_, rfl, partitions_whole fromBlock _ ordered, le_refl _, fun limited => absurd unlimited limited,
        fun _ => rfl⟩
    · obtain ⟨most, rfl⟩ : ∃ most : ℕ, maxPageSize = most := ⟨maxPageSize.toNat, by omega⟩
      have most_pos : 0 < most := by omega
      have counted := getLogsPagesForRange_exact most last fromBlock short most_pos unlimited
      have pages : 0 < max ((last + 1) ⌈/⌉ most) 1 := lt_max_of_lt_right Nat.one_pos
      obtain ⟨ranges, found, partitions, count, sizes⟩ := parted _ pages
      rw [counted]
      refine ⟨ranges, found, partitions, count, fun _ range member => ?_, fun limit => absurd limit unlimited⟩
      -- the pages are enough for all blocks
      have fits : (last + 1) ⌈/⌉ max ((last + 1) ⌈/⌉ most) 1 ≤ most := by
        rw [ceilDiv_le_iff_le_mul pages]
        calc
          last + 1 ≤ most * ((last + 1) ⌈/⌉ most) := le_smul_ceilDiv most_pos
          _ = (last + 1) ⌈/⌉ most * most := Nat.mul_comm _ _
          _ ≤ max ((last + 1) ⌈/⌉ most) 1 * most := Nat.mul_le_mul_right _ (le_max_left _ _)
      exact (sizes range member).trans (by exact_mod_cast fits)
  · intro parts many
    obtain ⟨count, rfl⟩ : ∃ count : ℕ, parts = count := ⟨parts.toNat, by omega⟩
    obtain ⟨ranges, found, partitions, few, _⟩ := parted count (by omega)
    exact ⟨ranges, found, partitions, few⟩

theorem splitRange_partitions_ten :
    ∃ ranges, splitRange 1 10 (getLogsPagesForRange 4 1 10) = some ranges ∧ Partitions 1 10 ranges ∧
      ∀ range ∈ ranges, range.size ≤ 4 := by
  obtain ⟨ranges, found, partitions, _, sizes, _⟩ :=
    (splitRange_partitions 1 10 4 (by decide) (by decide) (by decide) (by decide) (by decide)).1
  exact ⟨ranges, found, partitions, sizes (by decide)⟩

/-- From the first number on whose successor is none, the loop stays where it is. -/
theorem splitLoop_stays (rounds : ℕ) : splitLoop (2 ^ 53 + 2) 1 rounds (2 ^ 53) = none := by
  have stays : number (2 ^ 53 + 1) = 2 ^ 53 := by decide +kernel
  induction rounds with
  | zero => rfl
  | succ rounds ih =>
      rw [splitLoop, if_pos (by decide), stays, ih]
      rfl

/-- All blocks with safe numbers are one more than the largest page size, and three blocks behind them are never
split into pages of one. -/
theorem unlimited_range_too_long :
    (¬∀ fromBlock toBlock maxPageSize : ℤ, fromBlock ≤ toBlock → 1 ≤ maxPageSize →
      ∃ ranges, splitRange fromBlock toBlock (getLogsPagesForRange maxPageSize fromBlock toBlock) = some ranges ∧
        ∀ range ∈ ranges, range.size ≤ maxPageSize) ∧
    getLogsPagesForRange 1 (2 ^ 53) (2 ^ 53 + 2) = 3 ∧ ∀ rounds, splitLoop (2 ^ 53 + 2) 1 rounds (2 ^ 53) = none := by
  refine ⟨fun limited => ?_, by decide +kernel, splitLoop_stays⟩
  obtain ⟨ranges, found, sizes⟩ := limited 0 maxSafeInteger maxSafeInteger (by decide) (by decide)
  cases found
  exact absurd (sizes ⟨0, maxSafeInteger⟩ List.mem_cons_self) (by decide)

end OpenGsn.Paging
