import OtaPlatform.Controlplane.Cards
import OtaPlatform.Transition.Machine

/-!
# Resolving numbers

The gateway resolves the number of an incoming message to a card. The resolver asks the table and
keeps the answers; it is filled at the start and before the cards of a shard are activated. Nothing
is ever removed from it, while the requests of the control plane change the table.

* `Directory.coherent_iff`: the answers agree with the table throughout a run exactly if no request
  of the run takes a number that is cached from its card.
-/

namespace OtaPlatform

open CardTable Option Function

structure MSISDNResolver where
  cache : String → Option UUID

namespace MSISDNResolver

/-- The resolver before anything was stored. -/
def empty : MSISDNResolver := ⟨fun _ ↦ none⟩

def store (r : MSISDNResolver) (msisdn : String) (cardID : UUID) : MSISDNResolver :=
  ⟨update r.cache msisdn (some cardID)⟩

/-- Stores the cards of several numbers. -/
def preloadMSISDNs (r : MSISDNResolver) (mappings : List (String × UUID)) : MSISDNResolver :=
  mappings.foldl (fun r mapping ↦ r.store mapping.1 mapping.2) r

/-- The numbers of cards; an empty one is left out. -/
def mappings (cards : List Card) : List (String × UUID) :=
  (cards.filter fun card ↦ card.msisdn ≠ "").map fun card ↦ (card.msisdn, card.id)

/-- All numbers are loaded. If the query fails, they are left to the lookups. -/
def preloadAll (r : MSISDNResolver) : Except String CardTable → MSISDNResolver
  | .error _ => r
  | .ok t => r.preloadMSISDNs (mappings t.rows)

def newMSISDNResolver (db : Except String CardTable) : MSISDNResolver := empty.preloadAll db

/-- The numbers of the cards of a shard are loaded with their keys. -/
def preloadCardKeys (r : MSISDNResolver) (cardIDs : List UUID) :
    Except String CardTable → MSISDNResolver
  | .error _ => r
  | .ok t => r.preloadMSISDNs (mappings (t.rows.filter fun card ↦ card.id ∈ cardIDs))

def lookupCardByMSISDN (r : MSISDNResolver) (db : Except String CardTable) (msisdn : String) :
    Except String (Option UUID) × MSISDNResolver :=
  match r.cache msisdn with
  | some cardID => (.ok (some cardID), r)
  | none => match db with
    | .error err => (.error ("lookup card by msisdn: " ++ err), r)
    | .ok t => match t.cardByMSISDN msisdn with
      | none => (.ok none, r)
      | some cardID => (.ok (some cardID), r.store msisdn cardID)

/-! ## What is cached -/

def Agrees (r : MSISDNResolver) (t : CardTable) : Prop :=
  ∀ msisdn cardID, r.cache msisdn = some cardID → t.cardByMSISDN msisdn = some cardID

variable {r : MSISDNResolver} {t : CardTable}

theorem agrees_empty (t : CardTable) : empty.Agrees t := by
  intro msisdn cardID h
  cases h

variable (h : r.Agrees t)

include h

theorem Agrees.store {msisdn : String} {cardID : UUID}
    (hcard : t.cardByMSISDN msisdn = some cardID) : (r.store msisdn cardID).Agrees t := by
  intro msisdn' cardID' hcache
  change update r.cache msisdn (some cardID) msisdn' = some cardID' at hcache
  rw [update_apply] at hcache
  split_ifs at hcache with heq
  · rw [heq, hcard, hcache]
  · exact h msisdn' cardID' hcache

theorem Agrees.preloadMSISDNs {mappings : List (String × UUID)}
    (hmappings : ∀ mapping ∈ mappings, t.cardByMSISDN mapping.1 = some mapping.2) :
    (r.preloadMSISDNs mappings).Agrees t := by
  induction mappings generalizing r with
  | nil => exact h
  | cons mapping mappings ih =>
    exact ih (h.store (hmappings mapping List.mem_cons_self)) fun mapping' hmapping' ↦
      hmappings mapping' (List.mem_cons_of_mem mapping hmapping')

omit h in
theorem cardByMSISDN_of_mem_mappings {cards : List Card} (hcards : cards ⊆ t.rows)
    {mapping : String × UUID} (h : mapping ∈ mappings cards) :
    t.cardByMSISDN mapping.1 = some mapping.2 := by
  obtain ⟨card, hcard, rfl⟩ := List.mem_map.mp h
  exact cardByMSISDN_eq_some.mpr
    ⟨card, hcards (List.mem_of_mem_filter hcard), rfl, rfl⟩

theorem Agrees.mono {t' : CardTable} (hrows : t.rows ⊆ t'.rows) : r.Agrees t' :=
  fun msisdn cardID hcache ↦ cardByMSISDN_of_subset hrows (h msisdn cardID hcache)

theorem Agrees.cached {card : Card} (hcard : card ∈ t.rows) {cardID : UUID}
    (hcache : r.cache card.msisdn = some cardID) : cardID = card.id := by
  have hmsisdn := cardByMSISDN_eq_some.mpr ⟨card, hcard, rfl, rfl⟩
  exact some_inj.mp ((h _ _ hcache).symm.trans hmsisdn)

theorem Agrees.replaced_iff {t' : CardTable} {card card' : Card} (hcard : card ∈ t.rows)
    (hid : card'.id = card.id) (hrows : t'.rows = replaced t.rows card') :
    r.Agrees t' ↔ (card'.msisdn ≠ card.msisdn → r.cache card.msisdn = none) := by
  constructor
  · intro h' hne
    rw [eq_none_iff_forall_ne_some]
    intro cardID hcache
    obtain ⟨other, hother, hmsisdn, hotherid⟩ :=
      cardByMSISDN_eq_some.mp (h' _ _ hcache)
    rw [h.cached hcard hcache, ← hid] at hotherid
    rw [hrows, mem_replaced] at hother
    rcases hother with ⟨rfl, -⟩ | ⟨-, hotherid'⟩
    · exact hne hmsisdn
    · exact hotherid' hotherid
  · intro hnone msisdn cardID hcache
    obtain ⟨other, hother, rfl, rfl⟩ := cardByMSISDN_eq_some.mp (h _ _ hcache)
    rw [cardByMSISDN_eq_some, hrows]
    by_cases hotherid : other.id = card.id
    · -- it is the card itself, which must then keep its number
      obtain rfl := eq_of_conflicts hother hcard (Or.inl hotherid)
      have hmsisdn : card'.msisdn = other.msisdn := by
        by_contra hne
        cases (hnone hne).symm.trans hcache
      have hmem := mem_replaced.mpr (Or.inl ⟨rfl, other, hother, hid.symm⟩)
      exact ⟨card', hmem, hmsisdn, hid⟩
    · exact ⟨other, mem_replaced.mpr (Or.inr ⟨hother, hid ▸ hotherid⟩), rfl, rfl⟩

theorem Agrees.delete_iff {card : Card} (hcard : card ∈ t.rows) :
    r.Agrees (t.delete card.id) ↔ r.cache card.msisdn = none := by
  have hmem : ∀ other, other ∈ (t.delete card.id).rows ↔ other ∈ t.rows ∧ other.id ≠ card.id := by
    intro other
    rw [delete, List.mem_filter, decide_eq_true_iff]
  constructor
  · intro h'
    rw [eq_none_iff_forall_ne_some]
    intro cardID hcache
    obtain ⟨other, hother, -, hotherid⟩ := cardByMSISDN_eq_some.mp (h' _ _ hcache)
    rw [h.cached hcard hcache] at hotherid
    exact ((hmem other).mp hother).2 hotherid
  · intro hnone msisdn cardID hcache
    obtain ⟨other, hother, rfl, rfl⟩ := cardByMSISDN_eq_some.mp (h _ _ hcache)
    refine cardByMSISDN_eq_some.mpr ⟨other, (hmem other).mpr ⟨hother, ?_⟩, rfl, rfl⟩
    intro hotherid
    obtain rfl := eq_of_conflicts hother hcard (Or.inl hotherid)
    cases hnone.symm.trans hcache

omit h

theorem lookup_cached {msisdn : String} {cardID : UUID} (h : r.cache msisdn = some cardID)
    (db : Except String CardTable) : r.lookupCardByMSISDN db msisdn = (.ok (some cardID), r) := by
  simp only [lookupCardByMSISDN, h]

theorem lookup_missed {msisdn : String} (h : r.cache msisdn = none) :
    r.lookupCardByMSISDN (.ok t) msisdn = (.ok (t.cardByMSISDN msisdn),
      (t.cardByMSISDN msisdn).elim r (r.store msisdn)) := by
  simp only [lookupCardByMSISDN, h]
  cases t.cardByMSISDN msisdn <;> rfl

theorem lookup_outage (r : MSISDNResolver) (err msisdn : String) :
    (r.lookupCardByMSISDN (.error err) msisdn).2 = r := by
  cases hcache : r.cache msisdn with
  | some cardID => rw [lookup_cached hcache]
  | none => simp only [lookupCardByMSISDN, hcache]

theorem Agrees.lookupCardByMSISDN (h : r.Agrees t) (msisdn : String) :
    (r.lookupCardByMSISDN (.ok t) msisdn).2.Agrees t := by
  cases hcache : r.cache msisdn with
  | some cardID =>
    rw [lookup_cached hcache]
    exact h
  | none =>
    rw [lookup_missed hcache]
    cases hcard : t.cardByMSISDN msisdn with
    | none => exact h
    | some cardID => exact h.store hcard

/-- **The answers agree with the table exactly if what is cached does.** -/
theorem lookup_eq_iff_agrees :
    (∀ msisdn, (r.lookupCardByMSISDN (.ok t) msisdn).1 = .ok (t.cardByMSISDN msisdn)) ↔
      r.Agrees t := by
  constructor
  · intro h msisdn cardID hcache
    have hlookup := h msisdn
    rw [lookup_cached hcache] at hlookup
    exact (Except.ok.inj hlookup).symm
  · intro h msisdn
    cases hcache : r.cache msisdn with
    | some cardID => rw [lookup_cached hcache, h msisdn cardID hcache]
    | none => rw [lookup_missed hcache]

end MSISDNResolver

/-! ## The table and the resolver -/

structure Directory where
  table : CardTable
  resolver : MSISDNResolver

/-- What happens to them. An `outage` is the error of a query that fails. -/
inductive DirectoryAction
  | newMSISDNResolver (outage : Option String)
  | createCard (env : CardEnv) (req : CreateCardRequest)
  | importCards (env : CardEnv) (header : CSVRecord) (records : List CSVRecord)
  | updateCard (env : CardEnv) (id : UUID) (req : UpdateCardRequest)
  | deleteCard (id : UUID)
  | preloadCardKeys (cardIDs : List UUID) (outage : Option String)
  | lookupCardByMSISDN (msisdn : String) (outage : Option String)

namespace Directory

/-- The answers of the database. -/
def db (s : Directory) : Option String → Except String CardTable
  | none => .ok s.table
  | some err => .error err

/-- The table after a request; one that is refused changes nothing. -/
def answered (s : Directory) : Except HTTPError CardTable → Directory
  | .error _ => s
  | .ok table => { s with table := table }

def next (s : Directory) : DirectoryAction → Directory
  | .newMSISDNResolver outage => { s with resolver := .newMSISDNResolver (s.db outage) }
  | .createCard env req => s.answered (createCard env req s.table)
  | .importCards env header records =>
    s.answered ((importCards env header records s.table).map CardImport.table)
  | .updateCard env id req => s.answered (updateCard env id req s.table)
  | .deleteCard id => s.answered (deleteCard id s.table)
  | .preloadCardKeys cardIDs outage =>
    { s with resolver := s.resolver.preloadCardKeys cardIDs (s.db outage) }
  | .lookupCardByMSISDN msisdn outage =>
    { s with resolver := (s.resolver.lookupCardByMSISDN (s.db outage) msisdn).2 }

/-- A table, and a resolver with nothing in it. -/
def start (table : CardTable) : Directory := ⟨table, .empty⟩

def Coherent (s : Directory) : Prop :=
  ∀ msisdn, (s.resolver.lookupCardByMSISDN (.ok s.table) msisdn).1
    = .ok (s.table.cardByMSISDN msisdn)

/-- **The condition.** A request takes no number that is cached from its card: an update with
another number is refused or its old number is not cached, and no card is deleted whose number is
cached. -/
def LeavesCached (s : Directory) : DirectoryAction → Prop
  | .updateCard env id req => ∀ card ∈ s.table.rows, card.id = id →
      (updateCard env id req s.table).isOk = true → ∀ msisdn, req.msisdn = some msisdn →
        msisdn ≠ card.msisdn → s.resolver.cache card.msisdn = none
  | .deleteCard id => ∀ card ∈ s.table.rows, card.id = id → s.resolver.cache card.msisdn = none
  | .newMSISDNResolver _ | .createCard _ _ | .importCards _ _ _ | .preloadCardKeys _ _
  | .lookupCardByMSISDN _ _ => True

end Directory

/-- The table and the resolver as a transition system. Everything may happen at any time. -/
def directory : Machine Directory DirectoryAction where
  Enabled _ _ := True
  next := Directory.next

namespace Directory

theorem coherent_iff_agrees {s : Directory} : s.Coherent ↔ s.resolver.Agrees s.table :=
  MSISDNResolver.lookup_eq_iff_agrees

theorem agrees_answered {s : Directory} (h : s.resolver.Agrees s.table)
    {answer : Except HTTPError CardTable} (hanswer : ∀ t, answer = .ok t → s.table.rows ⊆ t.rows) :
    (s.answered answer).resolver.Agrees (s.answered answer).table := by
  cases answer with
  | error err => exact h
  | ok t => exact h.mono (hanswer t rfl)

theorem agrees_next_iff {s : Directory} (h : s.resolver.Agrees s.table) (a : DirectoryAction) :
    (s.next a).resolver.Agrees (s.next a).table ↔ s.LeavesCached a := by
  cases a with
  | newMSISDNResolver outage =>
    refine iff_of_true ?_ trivial
    cases outage with
    | some err => exact MSISDNResolver.agrees_empty _
    | none =>
      exact (MSISDNResolver.agrees_empty _).preloadMSISDNs fun mapping hmapping ↦
        MSISDNResolver.cardByMSISDN_of_mem_mappings (List.Subset.refl _) hmapping
  | createCard env req =>
    exact iff_of_true (agrees_answered h fun t ht ↦ subset_createCard ht) trivial
  | importCards env header records =>
    refine iff_of_true (agrees_answered h fun t ht ↦ ?_) trivial
    cases hresult : importCards env header records s.table with
    | error err =>
      rw [hresult] at ht
      cases ht
    | ok result =>
      rw [hresult] at ht
      obtain rfl := Except.ok.inj ht
      exact subset_importCards hresult
  | updateCard env id req =>
    rw [next, LeavesCached]
    cases hanswer : updateCard env id req s.table with
    | error err => exact iff_of_true h fun _ _ _ hok ↦ by cases hok
    | ok t =>
      obtain ⟨card, hcard, rfl, card', hid', hmsisdn, hrows⟩ := updateCard_spec hanswer
      rw [answered, h.replaced_iff hcard hid' hrows, hmsisdn]
      constructor
      · rintro hnone other hother hid - msisdn hreq hne
        obtain rfl := eq_of_conflicts hother hcard (Or.inl hid)
        refine hnone ?_
        rwa [hreq, getD_some]
      · intro hguard hne
        cases hreq : req.msisdn with
        | none =>
          rw [hreq, getD_none] at hne
          exact absurd rfl hne
        | some msisdn =>
          rw [hreq, getD_some] at hne
          exact hguard card hcard rfl rfl msisdn hreq hne
  | deleteCard id =>
    rw [next, LeavesCached]
    cases hanswer : deleteCard id s.table with
    | error err =>
      refine iff_of_true h fun card hcard hid ↦ ?_
      rw [deleteCard, find_eq_some.mpr ⟨hcard, hid⟩, if_neg (some_ne_none card)]
        at hanswer
      cases hanswer
    | ok t =>
      obtain ⟨⟨card, hcard, rfl⟩, rfl⟩ := deleteCard_spec hanswer
      rw [answered, h.delete_iff hcard]
      constructor
      · intro hnone other hother hid
        rwa [eq_of_conflicts hother hcard (Or.inl hid)]
      · exact fun hguard ↦ hguard card hcard rfl
  | preloadCardKeys cardIDs outage =>
    refine iff_of_true ?_ trivial
    cases outage with
    | some err => exact h
    | none =>
      exact h.preloadMSISDNs fun mapping hmapping ↦
        MSISDNResolver.cardByMSISDN_of_mem_mappings (List.filter_sublist.subset) hmapping
  | lookupCardByMSISDN msisdn outage =>
    refine iff_of_true ?_ trivial
    cases outage with
    | some err =>
      rw [next, db, MSISDNResolver.lookup_outage]
      exact h
    | none => exact h.lookupCardByMSISDN msisdn

/-- **When numbers are resolved as the table says.** All along a run every number is resolved to the
card that has it, exactly if no request of the run takes a cached number from its card. -/
theorem coherent_iff (table : CardTable) (acts : List DirectoryAction) :
    (∀ n, (directory.after (start table) (acts.take n)).Coherent) ↔
      directory.RunsUnder LeavesCached (start table) acts := by
  have hrun : directory.Runs (start table) acts := by
    generalize start table = s
    induction acts generalizing s with
    | nil => trivial
    | cons a acts ih => exact ⟨⟨trivial, trivial⟩, ih _⟩
  have hiff := Machine.runsUnder_iff_forall_take (M := directory)
    (I := fun s ↦ s.resolver.Agrees s.table) (fun s a h _ ↦ agrees_next_iff h a)
    (MSISDNResolver.agrees_empty table) hrun
  rw [hiff]
  exact forall_congr' fun n ↦ coherent_iff_agrees

namespace MovedNumber

/-- Two cards with the numbers `a` and `b`. -/
def cards : CardTable where
  rows := [⟨.ofDigit 1, "1", "1", "a", .ofDigit 9, [], [], none, "active"⟩,
    ⟨.ofDigit 2, "2", "2", "b", .ofDigit 9, [], [], none, "active"⟩]
  unique := by decide

def env : CardEnv := ⟨fun _ ↦ none, fun _ ↦ true, fun _ ↦ none, fun _ ↦ .ofDigit 3⟩

/-- The number of the first card is given to the second one. -/
def acts : List DirectoryAction :=
  [.newMSISDNResolver none, .updateCard env (.ofDigit 1) { msisdn := some "c" },
    .updateCard env (.ofDigit 2) { msisdn := some "a" }]

end MovedNumber

open MovedNumber in
/-- **A number that was moved is resolved to the card that had it.** -/
theorem moved_number_misresolved :
    (directory.after (start cards) acts).table.cardByMSISDN "a" = some (.ofDigit 2) ∧
      ((directory.after (start cards) acts).resolver.lookupCardByMSISDN
        (.ok (directory.after (start cards) acts).table) "a").1 = .ok (some (.ofDigit 1)) ∧
      ¬ (directory.after (start cards) acts).Coherent := by
  have hcard : (directory.after (start cards) acts).table.cardByMSISDN "a" = some (.ofDigit 2) := by
    decide +kernel
  have hlookup : ((directory.after (start cards) acts).resolver.lookupCardByMSISDN
      (.ok (directory.after (start cards) acts).table) "a").1 = .ok (some (.ofDigit 1)) := by
    have hcache : (directory.after (start cards) acts).resolver.cache "a" = some (.ofDigit 1) := by
      decide +kernel
    rw [MSISDNResolver.lookup_cached hcache]
  refine ⟨hcard, hlookup, fun hcoherent ↦ ?_⟩
  have heq := (hcoherent "a").symm.trans hlookup
  rw [hcard] at heq
  exact absurd (some_inj.mp (Except.ok.inj heq)) (by decide)

end Directory

end OtaPlatform
