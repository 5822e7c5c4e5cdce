import OtaPlatform.Controlplane.Caps

/-!
# Pages of a list

A request names a page and the size of a page as text. The texts are read by `parseInt`, which
wraps at every digit, so that a long text may be read as any number; a number that is not positive,
or a size above 100, is ignored. The offset of the page is a product and wraps as well.

The cards of a campaign are cut after they have been loaded: offset and end are limited by the
number of cards from above, but not by zero from below.

* `parseInt_eq`: `parseInt` is the decimal number, wrapped once.
* `pages_of_cards`: for which requests and lists of cards the page is a part of the list, and that
  the pages of a list make up the list.
-/

namespace OtaPlatform

open List

/-! ## The code -/

structure PageQuery where
  page : String
  pageSize : String
  perPage : String

/-- What `paginationParams` returns. -/
structure Pagination where
  page : ℤ
  perPage : ℤ
  offset : ℤ
deriving DecidableEq

/-- The size of a page, if the text gives one. -/
def sizeParam (v : String) (perPage : ℤ) : ℤ :=
  if v ≠ "" ∧ parseInt v > 0 ∧ parseInt v ≤ 100 then parseInt v else perPage

/-- The page that a request asks for. -/
def paginationParams (c : PageQuery) : Pagination :=
  let page := if c.page ≠ "" ∧ parseInt c.page > 0 then parseInt c.page else 1
  let perPage := sizeParam c.perPage (sizeParam c.pageSize 20)
  ⟨page, perPage, wrapInt (wrapInt (page - 1) * perPage)⟩

section Cards

variable {α : Type*}

/-- A slice expression. It panics if the bounds are not in order. -/
def sliceBetween (l : List α) (low high : ℤ) : Option (List α) :=
  if 0 ≤ low ∧ low ≤ high ∧ high ≤ l.length then
    some ((l.drop low.toNat).take (high - low).toNat)
  else none

structure CardPage (α : Type*) where
  totalPages : ℤ
  cardOffset : ℤ
  cardEnd : ℤ
  /-- The cards of the page, unless taking them panics. -/
  pageCards : Option (List α)

/-- The part of `GetCampaign` that cuts the list of cards. -/
def campaignCardPage (c : PageQuery) (campaignCards : List α) : CardPage α :=
  let p := paginationParams c
  let cardTotal : ℤ := campaignCards.length
  let totalPages :=
    if cardTotal.tmod p.perPage ≠ 0 then cardTotal.tdiv p.perPage + 1
    else cardTotal.tdiv p.perPage
  let cardOffset := if p.offset > cardTotal then cardTotal else p.offset
  let sum := wrapInt (cardOffset + p.perPage)
  let cardEnd := if sum > cardTotal then cardTotal else sum
  ⟨totalPages, cardOffset, cardEnd, sliceBetween campaignCards cardOffset cardEnd⟩

end Cards

/-! ## What a request asks for -/

/-- The number that is written in decimal digits. -/
def decimalValue (s : String) : Option ℕ :=
  if s.toList.all Char.isDigit then some (Nat.ofDigitChars 10 s.toList 0) else none

/-- The positive 64-bit number with the residue of the text. -/
def positiveNumber (s : String) : Option ℕ :=
  (decimalValue s).bind fun n ↦
    if 0 < n % 2 ^ 64 ∧ n % 2 ^ 64 < 2 ^ 63 then some (n % 2 ^ 64) else none

/-- The page that is asked for, counted from one. -/
def requestedPage (c : PageQuery) : ℕ := (positiveNumber c.page).getD 1

def requestedSize (c : PageQuery) : ℕ :=
  (((positiveNumber c.perPage).filter (· ≤ 100)).or
    ((positiveNumber c.pageSize).filter (· ≤ 100))).getD 20

def pageOf {α : Type*} (cards : List α) (page size : ℕ) : List α :=
  (cards.drop ((page - 1) * size)).take size

structure PageInList {α : Type*} (c : PageQuery) (cards : List α) : Prop where
  page_pos : 1 ≤ (paginationParams c).page
  perPage_pos : 1 ≤ (paginationParams c).perPage
  perPage_le : (paginationParams c).perPage ≤ 100
  offset_eq : (paginationParams c).offset =
    ((paginationParams c).page - 1) * (paginationParams c).perPage
  offset_nonneg : 0 ≤ (paginationParams c).offset
  cardOffset_nonneg : 0 ≤ (campaignCardPage c cards).cardOffset
  cardOffset_le : (campaignCardPage c cards).cardOffset ≤ (campaignCardPage c cards).cardEnd
  cardEnd_le : (campaignCardPage c cards).cardEnd ≤ cards.length
  pageCards_eq : (campaignCardPage c cards).pageCards =
    some (pageOf cards (paginationParams c).page.toNat (paginationParams c).perPage.toNat)
  later_empty : (campaignCardPage c cards).totalPages < (paginationParams c).page →
    (campaignCardPage c cards).pageCards = some []

/-- **The condition.** Neither the cards before the page nor those up to its end are more than a
64-bit number counts. -/
structure PageFits (c : PageQuery) (total : ℕ) : Prop where
  before : (requestedPage c - 1) * requestedSize c < 2 ^ 63
  upTo : min ((requestedPage c - 1) * requestedSize c) total + requestedSize c < 2 ^ 63

/-! ## Reading a number -/

theorem wrapInt_wrapInt_mul_add (n m d : ℤ) :
    wrapInt (wrapInt n * m + d) = wrapInt (n * m + d) := by
  rw [wrapInt, wrapInt, wrapInt, ← Int.bmod_add_bmod, Int.bmod_mul_bmod, Int.bmod_add_bmod]

private theorem isDigit_iff (c : Char) : c.isDigit = true ↔ ¬(c < '0' ∨ '9' < c) := by
  rw [Char.isDigit, Bool.and_eq_true, decide_eq_true_iff, decide_eq_true_iff, not_or, Char.not_lt,
    Char.not_lt]
  exact Iff.rfl

private theorem parseIntLoop_wrapInt {cs : List Char} (h : cs.all Char.isDigit) (n : ℕ) :
    parseIntLoop cs (wrapInt n) = wrapInt (Nat.ofDigitChars 10 cs n) := by
  induction cs generalizing n with
  | nil => rfl
  | cons c cs ih =>
    rw [all_cons, Bool.and_eq_true] at h
    have hc := (isDigit_iff c).mp h.1
    have hle : 48 ≤ c.toNat := by
      rw [not_or, Char.not_lt] at hc
      exact hc.1
    have hdigit : (n : ℤ) * 10 + (c.toNat - 48) = (10 * n + (c.toNat - '0'.toNat) : ℕ) := by
      change _ = ((10 * n + (c.toNat - 48) : ℕ) : ℤ)
      omega
    rw [parseIntLoop, if_neg hc, wrapInt_wrapInt_mul_add, hdigit, ih h.2, Nat.ofDigitChars_cons]

private theorem parseIntLoop_of_not_digits {cs : List Char} (h : ¬cs.all Char.isDigit) (n : ℤ) :
    parseIntLoop cs n = 0 := by
  induction cs generalizing n with
  | nil => exact absurd rfl h
  | cons c cs ih =>
    rw [parseIntLoop]
    split_ifs with hc
    · rfl
    · refine ih (fun hall ↦ h ?_) _
      rw [all_cons, (isDigit_iff c).mpr hc, hall]
      rfl

/-- **What `parseInt` reads.** -/
theorem parseInt_eq (s : String) : parseInt s = wrapInt ((decimalValue s).getD 0 : ℕ) := by
  rw [parseInt, decimalValue]
  split_ifs with h
  · exact parseIntLoop_wrapInt h 0
  · exact parseIntLoop_of_not_digits h 0

/-- What is read is a positive number, the one that the text stands for, or is ignored. -/
private theorem parseInt_cases (s : String) :
    (∃ m : ℕ, positiveNumber s = some m ∧ parseInt s = m ∧ 0 < m ∧ m < 2 ^ 63) ∨
      positiveNumber s = none ∧ parseInt s ≤ 0 := by
  rw [parseInt_eq, positiveNumber]
  cases decimalValue s with
  | none => exact .inr ⟨rfl, by decide⟩
  | some n =>
    rw [Option.bind_some, Option.getD_some, wrapInt, Int.bmod_def]
    by_cases hnat : 0 < n % 2 ^ 64 ∧ n % 2 ^ 64 < 2 ^ 63
    · exact .inl ⟨n % 2 ^ 64, if_pos hnat, by omega, hnat⟩
    · exact .inr ⟨if_neg hnat, by omega⟩

private theorem ne_empty_of_parseInt_pos {s : String} (h : 0 < parseInt s) : s ≠ "" := by
  rintro rfl
  exact absurd h (by decide)

variable (c : PageQuery)

private theorem paginationParams_page : (paginationParams c).page = requestedPage c := by
  change (if c.page ≠ "" ∧ parseInt c.page > 0 then parseInt c.page else 1) = _
  rw [requestedPage]
  rcases parseInt_cases c.page with ⟨m, hm, hparse, hpos, -⟩ | ⟨hnone, hparse⟩
  · rw [hm, if_pos ⟨ne_empty_of_parseInt_pos (by omega), by omega⟩, hparse]
    rfl
  · rw [hnone, if_neg (by omega)]
    rfl

private theorem sizeParam_eq (v : String) (perPage : ℕ) :
    sizeParam v perPage = (((positiveNumber v).filter (· ≤ 100)).getD perPage : ℕ) := by
  rw [sizeParam]
  rcases parseInt_cases v with ⟨m, hm, hparse, hpos, -⟩ | ⟨hnone, hparse⟩
  · rw [hm, hparse, Option.filter_some]
    by_cases hle : m ≤ 100
    · rw [if_pos ⟨ne_empty_of_parseInt_pos (by omega), by omega, by omega⟩,
        if_pos (decide_eq_true hle)]
      rfl
    · rw [if_neg (by omega), if_neg (by simpa using hle)]
      rfl
  · rw [hnone, if_neg (by omega)]
    rfl

private theorem paginationParams_perPage : (paginationParams c).perPage = requestedSize c := by
  change sizeParam c.perPage (sizeParam c.pageSize (20 : ℕ)) = _
  rw [sizeParam_eq, sizeParam_eq, requestedSize]
  cases (positiveNumber c.perPage).filter (· ≤ 100) <;> rfl

private theorem requestedPage_pos : 0 < requestedPage c := by
  rw [requestedPage]
  rcases parseInt_cases c.page with ⟨m, hm, -, hpos, -⟩ | ⟨hnone, -⟩
  · rwa [hm]
  · rw [hnone]
    exact Nat.one_pos

private theorem requestedPage_lt : requestedPage c < 2 ^ 63 := by
  rw [requestedPage]
  rcases parseInt_cases c.page with ⟨m, hm, -, -, hlt⟩ | ⟨hnone, -⟩
  · rwa [hm]
  · rw [hnone]
    decide

private theorem requestedSize_bounds : 0 < requestedSize c ∧ requestedSize c ≤ 100 := by
  have hsize : ∀ s m, (positiveNumber s).filter (· ≤ 100) = some m → 0 < m ∧ m ≤ 100 := by
    intro s m hm
    rw [Option.filter_eq_some_iff, decide_eq_true_iff] at hm
    rcases parseInt_cases s with ⟨m', hm', -, hpos, -⟩ | ⟨hnone, -⟩
    · obtain rfl := Option.some.inj (hm.1.symm.trans hm')
      exact ⟨hpos, hm.2⟩
    · cases hm.1.symm.trans hnone
  rw [requestedSize]
  cases hper : (positiveNumber c.perPage).filter (· ≤ 100) with
  | some m => exact hsize _ m hper
  | none =>
    cases hsz : (positiveNumber c.pageSize).filter (· ≤ 100) with
    | some m => exact hsize _ m hsz
    | none => decide

/-! ## Cutting the list -/

theorem paginationParams_offset :
    (paginationParams c).offset = wrapInt ((requestedPage c - 1) * requestedSize c : ℕ) := by
  have hpos := requestedPage_pos c
  have hlt := requestedPage_lt c
  have hfirst : wrapInt ((requestedPage c : ℤ) - 1) = (requestedPage c - 1 : ℕ) := by
    rw [wrapInt_of_lt (by omega) (by omega)]
    omega
  change wrapInt (wrapInt ((paginationParams c).page - 1) * (paginationParams c).perPage) = _
  rw [paginationParams_page, paginationParams_perPage, hfirst, Nat.cast_mul]

section Cards

variable {α : Type*} {cards : List α} {c : PageQuery}

private theorem ite_gt_eq_min (a b : ℤ) : (if a > b then b else a) = min a b := by
  rw [min_def]
  split_ifs <;> omega

theorem cardOffset_eq : (campaignCardPage c cards).cardOffset
      = min (wrapInt ((requestedPage c - 1) * requestedSize c : ℕ)) cards.length := by
  rw [← paginationParams_offset]
  exact ite_gt_eq_min _ _

theorem cardEnd_eq : (campaignCardPage c cards).cardEnd
      = min (wrapInt ((campaignCardPage c cards).cardOffset + requestedSize c)) cards.length := by
  rw [← paginationParams_perPage]
  exact ite_gt_eq_min _ _

theorem sliceBetween_page (k m : ℕ) :
    sliceBetween cards (min k cards.length : ℕ) (min (min k cards.length + m) cards.length : ℕ)
      = some ((cards.drop k).take m) := by
  rw [sliceBetween, if_pos (by omega)]
  rcases le_total k cards.length with hle | hge
  · rw [Nat.min_eq_left hle, Int.toNat_natCast, Option.some.injEq, take_eq_take_iff, length_drop]
    omega
  · rw [Nat.min_eq_right hge, Int.toNat_natCast, drop_length, drop_eq_nil_of_le hge,
      take_nil, take_nil]

def pageCount (total size : ℕ) : ℕ := if total % size ≠ 0 then total / size + 1 else total / size

theorem pageCount_le_iff {total size : ℕ} (hsize : 0 < size) (n : ℕ) :
    pageCount total size ≤ n ↔ total ≤ n * size := by
  rw [pageCount]
  split_ifs with hmod
  · rw [Nat.succ_le_iff, Nat.div_lt_iff_lt_mul hsize]
    refine ⟨le_of_lt, fun hle ↦ lt_of_le_of_ne hle fun heq ↦ hmod ?_⟩
    rw [heq, Nat.mul_mod_left]
  · rw [not_not] at hmod
    exact Nat.div_le_iff_le_mul_of_dvd hsize.ne' (Nat.dvd_of_mod_eq_zero hmod)

theorem totalPages_eq :
    (campaignCardPage c cards).totalPages = pageCount cards.length (requestedSize c) := by
  rw [campaignCardPage, paginationParams_perPage, pageCount,
    Int.tdiv_eq_ediv_of_nonneg (by omega), Int.tmod_eq_emod_of_nonneg (by omega)]
  norm_cast

private theorem pageInList_of_fits (h : PageFits c cards.length) : PageInList c cards := by
  obtain ⟨hbefore, hupTo⟩ := h
  obtain ⟨hsize, hsizeLe⟩ := requestedSize_bounds c
  have hpage := requestedPage_pos c
  have hoffset : (paginationParams c).offset
      = ((requestedPage c - 1) * requestedSize c : ℕ) := by
    rw [paginationParams_offset, wrapInt_of_lt (by omega) (by omega)]
  have hcard : (campaignCardPage c cards).cardOffset
      = (min ((requestedPage c - 1) * requestedSize c) cards.length : ℕ) := by
    rw [cardOffset_eq, wrapInt_of_lt (by omega) (by omega)]
    omega
  have hend : (campaignCardPage c cards).cardEnd
      = (min (min ((requestedPage c - 1) * requestedSize c) cards.length + requestedSize c)
          cards.length : ℕ) := by
    rw [cardEnd_eq, hcard, wrapInt_of_lt (by omega) (by omega)]
    omega
  have hcards : (campaignCardPage c cards).pageCards
      = some (pageOf cards (requestedPage c) (requestedSize c)) := by
    change sliceBetween cards (campaignCardPage c cards).cardOffset
      (campaignCardPage c cards).cardEnd = _
    rw [hcard, hend]
    exact sliceBetween_page _ _
  refine ⟨?_, ?_, ?_, ?_, ?_, ?_, ?_, ?_, ?_, ?_⟩
  · rw [paginationParams_page]
    omega
  · rw [paginationParams_perPage]
    omega
  · rw [paginationParams_perPage]
    omega
  · rw [hoffset, paginationParams_page, paginationParams_perPage]
    push_cast [hpage]
    rfl
  · omega
  · omega
  · omega
  · omega
  · rw [hcards, paginationParams_page, paginationParams_perPage]
    rfl
  · intro hlater
    have hle : cards.length ≤ (requestedPage c - 1) * requestedSize c := by
      rw [← pageCount_le_iff hsize]
      rw [paginationParams_page, totalPages_eq] at hlater
      omega
    rw [hcards, pageOf, drop_eq_nil_of_le hle, take_nil]

/-- A page that does not fit is not in the list: its offset, or its end, comes out too small. -/
private theorem fits_of_pageInList (h : PageInList c cards) : PageFits c cards.length := by
  obtain ⟨hsize, hsizeLe⟩ := requestedSize_bounds c
  have hpage := requestedPage_pos c
  have hoffset : ((requestedPage c - 1) * requestedSize c : ℕ)
      = wrapInt ((requestedPage c - 1) * requestedSize c : ℕ) := by
    rw [← paginationParams_offset, h.offset_eq, paginationParams_page, paginationParams_perPage]
    push_cast [hpage]
    rfl
  have hbefore : (requestedPage c - 1) * requestedSize c < 2 ^ 63 := by
    have hlt := wrapInt_lt ((requestedPage c - 1) * requestedSize c : ℕ)
    omega
  refine ⟨hbefore, ?_⟩
  by_contra hover
  have hcard : (campaignCardPage c cards).cardOffset
      = (min ((requestedPage c - 1) * requestedSize c) cards.length : ℕ) := by
    rw [cardOffset_eq, ← hoffset]
    omega
  -- The sum exceeds the 64-bit numbers by less than 100 and wraps to a negative number.
  have hend : wrapInt ((campaignCardPage c cards).cardOffset + requestedSize c) < 0 := by
    rw [hcard, wrapInt, Int.bmod_def]
    omega
  have hle := h.cardOffset_le
  rw [cardEnd_eq] at hle
  omega

/-! ## All pages -/

theorem flatMap_pageOf (cards : List α) (size n : ℕ) :
    (range n).flatMap (fun k ↦ pageOf cards (k + 1) size) = cards.take (n * size) := by
  induction n with
  | zero => rw [Nat.zero_mul, take_zero]; rfl
  | succ n ih =>
    rw [range_succ, flatMap_append, ih, flatMap_singleton, pageOf,
      Nat.add_sub_cancel, Nat.succ_mul, take_add]

private theorem requestedPage_of_decimalValue {k : ℕ} (hk : decimalValue c.page = some k)
    (hpos : 0 < k) (hlt : k < 2 ^ 63) : requestedPage c = k := by
  have hmod : k % 2 ^ 64 = k := Nat.mod_eq_of_lt (by omega)
  rw [requestedPage, positiveNumber, hk, Option.bind_some, hmod, if_pos ⟨hpos, hlt⟩,
    Option.getD_some]

end Cards

/-- **The pages of a list of cards.** A page is in the list exactly if it fits. The pages of a list
that is not at the border of the 64-bit range fit, and they make up the list. -/
theorem pages_of_cards {α : Type*} :
    (∀ (c : PageQuery) (cards : List α), PageInList c cards ↔ PageFits c cards.length) ∧
    ∀ (page : ℕ → String) (pageSize perPage : String) (cards : List α),
      (∀ k, decimalValue (page k) = some k) → cards.length + 100 < 2 ^ 63 →
      ∃ (total : ℕ) (pageCards : ℕ → List α),
        (∀ k, (campaignCardPage ⟨page k, pageSize, perPage⟩ cards).totalPages = total) ∧
        (∀ k, 1 ≤ k → k ≤ total →
          PageInList ⟨page k, pageSize, perPage⟩ cards ∧
          (campaignCardPage ⟨page k, pageSize, perPage⟩ cards).pageCards = some (pageCards k)) ∧
        (range total).flatMap (fun k ↦ pageCards (k + 1)) = cards := by
  refine ⟨fun c cards ↦ ⟨fits_of_pageInList, pageInList_of_fits⟩, ?_⟩
  intro page pageSize perPage cards hpage hlen
  obtain ⟨hsize, hsizeLe⟩ := requestedSize_bounds ⟨"", pageSize, perPage⟩
  -- The size does not depend on the page.
  set size := requestedSize ⟨"", pageSize, perPage⟩
  refine ⟨pageCount cards.length size, fun k ↦ pageOf cards k size, fun k ↦ totalPages_eq, ?_, ?_⟩
  · intro k hk hkle
    have hlast : ¬cards.length ≤ (k - 1) * size := by
      rw [← pageCount_le_iff hsize]
      omega
    have hcount : pageCount cards.length size ≤ cards.length := by
      rw [pageCount_le_iff hsize]
      exact Nat.le_mul_of_pos_right _ hsize
    have hrequested : requestedPage ⟨page k, pageSize, perPage⟩ = k :=
      requestedPage_of_decimalValue (hpage k) hk (by omega)
    have hin : PageInList ⟨page k, pageSize, perPage⟩ cards := by
      refine pageInList_of_fits ⟨?_, ?_⟩
      · rw [hrequested]
        change (k - 1) * size < 2 ^ 63
        omega
      · rw [hrequested]
        change min ((k - 1) * size) cards.length + size < 2 ^ 63
        omega
    refine ⟨hin, ?_⟩
    rw [hin.pageCards_eq, paginationParams_page, paginationParams_perPage, hrequested]
    rfl
  · rw [flatMap_pageOf, take_of_length_le]
    exact (pageCount_le_iff hsize _).mp le_rfl

private theorem decimalValue_repr (k : ℕ) : decimalValue k.repr = some k := by
  have hdigits : k.repr.toList.all Char.isDigit := by
    rw [Nat.toList_repr, all_eq_true]
    exact fun c hc ↦ Nat.isDigit_of_mem_toDigits (by decide) (by decide) hc
  rw [decimalValue, if_pos hdigits, Nat.toList_repr, Nat.ofDigitChars_ten_toDigits]

theorem pages_of_cards_three :
    PageFits ⟨"2", "", "2"⟩ 3 ∧ PageInList ⟨"2", "", "2"⟩ ["a", "b", "c"] ∧
      ∃ (total : ℕ) (pageCards : ℕ → List String),
        (∀ k : ℕ, (campaignCardPage ⟨k.repr, "", "2"⟩ ["a", "b", "c"]).totalPages = total) ∧
        (range total).flatMap (fun k ↦ pageCards (k + 1)) = ["a", "b", "c"] := by
  have hfits : PageFits ⟨"2", "", "2"⟩ 3 := ⟨by decide +kernel, by decide +kernel⟩
  obtain ⟨total, pageCards, htotal, -, hall⟩ := pages_of_cards.2 Nat.repr "" "2" ["a", "b", "c"]
    decimalValue_repr (by decide)
  exact ⟨hfits, (pages_of_cards.1 _ ["a", "b", "c"]).mpr hfits, total, pageCards, htotal, hall⟩

/-- The offset of a page far behind the end wraps to a negative number. -/
theorem far_page_panics :
    paginationParams ⟨"9223372036854775807", "100", ""⟩ = ⟨9223372036854775807, 100, -200⟩ ∧
      (campaignCardPage ⟨"9223372036854775807", "100", ""⟩ ["card"]).pageCards = none ∧
      ¬PageInList ⟨"9223372036854775807", "100", ""⟩ ["card"] := by
  have hparams : paginationParams ⟨"9223372036854775807", "100", ""⟩
      = ⟨9223372036854775807, 100, -200⟩ := by decide +kernel
  refine ⟨hparams, by decide +kernel, fun h ↦ ?_⟩
  have hnonneg := h.offset_nonneg
  rw [hparams] at hnonneg
  exact absurd hnonneg (by decide)

end OtaPlatform
