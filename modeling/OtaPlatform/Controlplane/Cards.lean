import Mathlib.Data.List.Pairwise
import OtaPlatform.Executor.Worker

/-!
# The card table

The requests that write to the table `cards`: a card is created, imported from a CSV file, updated
or deleted. The table carries its unique constraints, so that a number belongs to at most one card;
a statement that violates one of them leaves it as it is.

What a handler learns elsewhere is a parameter: what `uuid.Parse` makes of a text, which profiles
there are, and the identifiers that are drawn. Responses are given by their HTTP status and their
message. Letters of CSV headers are folded to lower case within ASCII.
-/

namespace OtaPlatform

open List

structure Card where
  id : UUID
  iccid : String
  imsi : String
  msisdn : String
  profileID : UUID
  encKey : Bytes
  authKey : Bytes
  kek : Option Bytes := none
  status : String := "active"
deriving DecidableEq

/-- The rows violate a unique constraint. -/
def Card.Conflicts (card card' : Card) : Prop :=
  card.id = card'.id ∨ card.iccid = card'.iccid ∨ card.imsi = card'.imsi ∨
    card.msisdn = card'.msisdn

instance (card card' : Card) : Decidable (card.Conflicts card') :=
  inferInstanceAs (Decidable (_ ∨ _ ∨ _ ∨ _))

theorem Card.Conflicts.symm {card card' : Card} (h : card.Conflicts card') :
    card'.Conflicts card := by
  rcases h with h | h | h | h
  · exact Or.inl h.symm
  · exact Or.inr (Or.inl h.symm)
  · exact Or.inr (Or.inr (Or.inl h.symm))
  · exact Or.inr (Or.inr (Or.inr h.symm))

def Card.statusAllowed (card : Card) : Bool :=
  ["active", "inactive", "blocked"].contains card.status

structure CardTable where
  rows : List Card
  unique : rows.Pairwise fun card card' ↦ ¬ card.Conflicts card'

namespace CardTable

/-- `SELECT ... WHERE id = ?`. -/
def find (t : CardTable) (id : UUID) : Option Card := t.rows.find? fun card ↦ card.id = id

/-- `SELECT id ... WHERE msisdn = ?`. -/
def cardByMSISDN (t : CardTable) (msisdn : String) : Option UUID :=
  (t.rows.find? fun card ↦ card.msisdn = msisdn).map Card.id

inductive Violation
  | check
  | unique
  | foreignKey
deriving DecidableEq

/-- `INSERT INTO cards`. -/
def insert (t : CardTable) (card : Card) : Except Violation CardTable :=
  if card.statusAllowed = false then .error .check
  else if h : ∀ card' ∈ t.rows, ¬ card.Conflicts card' then
    .ok ⟨card :: t.rows, pairwise_cons.mpr ⟨h, t.unique⟩⟩
  else .error .unique

/-- `INSERT INTO cards ... ON CONFLICT DO NOTHING`. -/
def insertOrSkip (t : CardTable) (card : Card) : CardTable :=
  if h : ∀ card' ∈ t.rows, ¬ card.Conflicts card' then
    ⟨card :: t.rows, pairwise_cons.mpr ⟨h, t.unique⟩⟩
  else t

def replaced (rows : List Card) (card : Card) : List Card :=
  rows.map fun old ↦ if old.id = card.id then card else old

theorem mem_replaced {rows : List Card} {card card' : Card} : card' ∈ replaced rows card ↔
      card' = card ∧ (∃ old ∈ rows, old.id = card.id) ∨ card' ∈ rows ∧ card'.id ≠ card.id := by
  rw [replaced, mem_map]
  constructor
  · rintro ⟨old, hold, rfl⟩
    by_cases hid : old.id = card.id
    · rw [if_pos hid]
      exact Or.inl ⟨rfl, old, hold, hid⟩
    · rw [if_neg hid]
      exact Or.inr ⟨hold, hid⟩
  · rintro (⟨rfl, old, hold, hid⟩ | ⟨hmem, hid⟩)
    · exact ⟨old, hold, if_pos hid⟩
    · exact ⟨card', hmem, if_neg hid⟩

theorem unique_replaced {rows : List Card} {card : Card}
    (hunique : rows.Pairwise fun card card' ↦ ¬ card.Conflicts card')
    (h : ∀ old ∈ rows, old.id ≠ card.id → ¬ card.Conflicts old) :
    (replaced rows card).Pairwise fun card card' ↦ ¬ card.Conflicts card' := by
  rw [replaced, pairwise_map]
  refine hunique.imp_of_mem fun {a b} ha hb hab ↦ ?_
  by_cases hida : a.id = card.id
  · have hidb : b.id ≠ card.id := fun hidb ↦ hab (Or.inl (hida.trans hidb.symm))
    rw [if_pos hida, if_neg hidb]
    exact h b hb hidb
  · rw [if_neg hida]
    by_cases hidb : b.id = card.id
    · rw [if_pos hidb]
      exact fun hconflicts ↦ h a ha hida hconflicts.symm
    · rwa [if_neg hidb]

/-- `UPDATE cards SET ... WHERE id = ?`, given the new row. The profile is looked up when it is
another one. -/
def update (t : CardTable) (profileExists : UUID → Bool) (card : Card) :
    Except Violation CardTable :=
  if card.statusAllowed = false then .error .check
  else if h : ∀ old ∈ t.rows, old.id ≠ card.id → ¬ card.Conflicts old then
    if profileExists card.profileID ∨ (t.find card.id).map Card.profileID = some card.profileID then
      .ok ⟨replaced t.rows card, unique_replaced t.unique h⟩
    else .error .foreignKey
  else .error .unique

/-- `DELETE FROM cards WHERE id = ?`. -/
def delete (t : CardTable) (id : UUID) : CardTable :=
  ⟨t.rows.filter fun card ↦ card.id ≠ id, t.unique.filter _⟩

/-! ## The numbers of the table -/

theorem eq_of_conflicts {t : CardTable} {card card' : Card} (hcard : card ∈ t.rows)
    (hcard' : card' ∈ t.rows) (h : card.Conflicts card') : card = card' := by
  have : Std.Symm fun card card' : Card ↦ ¬ card.Conflicts card' :=
    ⟨fun _ _ hnot hconflicts ↦ hnot hconflicts.symm⟩
  by_contra hne
  exact t.unique.forall hcard hcard' hne h

theorem find?_eq_some {t : CardTable} {p : Card → Bool}
    (hp : ∀ card card', p card = true → p card' = true → card.Conflicts card') {card : Card} :
    t.rows.find? p = some card ↔ card ∈ t.rows ∧ p card = true := by
  constructor
  · intro hfind
    exact ⟨mem_of_find?_eq_some hfind, find?_some hfind⟩
  · rintro ⟨hcard, hpcard⟩
    cases hfind : t.rows.find? p with
    | none => exact absurd hpcard (find?_eq_none.mp hfind card hcard)
    | some card' =>
      rw [eq_of_conflicts hcard (mem_of_find?_eq_some hfind)
        (hp card card' hpcard (find?_some hfind))]

theorem find_eq_some {t : CardTable} {id : UUID} {card : Card} :
    t.find id = some card ↔ card ∈ t.rows ∧ card.id = id := by
  rw [find, find?_eq_some fun _ _ h h' ↦
    Or.inl ((of_decide_eq_true h).trans (of_decide_eq_true h').symm), decide_eq_true_iff]

/-- **A number belongs to one card.** -/
theorem cardByMSISDN_eq_some {t : CardTable} {msisdn : String} {id : UUID} :
    t.cardByMSISDN msisdn = some id ↔ ∃ card ∈ t.rows, card.msisdn = msisdn ∧ card.id = id := by
  rw [cardByMSISDN, Option.map_eq_some_iff]
  refine exists_congr fun card ↦ ?_
  rw [find?_eq_some fun _ _ h h' ↦ Or.inr (Or.inr (Or.inr
    ((of_decide_eq_true h).trans (of_decide_eq_true h').symm))), decide_eq_true_iff, and_assoc]

theorem cardByMSISDN_of_subset {t t' : CardTable} (hrows : t.rows ⊆ t'.rows) {msisdn : String}
    {id : UUID} (h : t.cardByMSISDN msisdn = some id) : t'.cardByMSISDN msisdn = some id := by
  obtain ⟨card, hcard, hmsisdn, hid⟩ := cardByMSISDN_eq_some.mp h
  exact cardByMSISDN_eq_some.mpr ⟨card, hrows hcard, hmsisdn, hid⟩

end CardTable

/-! ## Requests -/

structure HTTPError where
  status : ℕ
  message : String
deriving DecidableEq

/-- What the handlers learn elsewhere. -/
structure CardEnv where
  /-- What `uuid.Parse` makes of a text. -/
  uuidParse : String → Option UUID
  profileExists : UUID → Bool
  profileByName : String → Option UUID
  newID : ℕ → UUID

/-- The body of `POST /api/v1/cards`. -/
structure CreateCardRequest where
  iccid : String := ""
  imsi : String := ""
  msisdn : String := ""
  profileID : String := ""
  encKey : String := ""
  authKey : String := ""
  kek : String := ""
  status : String := ""

/-- The required fields that are empty. -/
def CreateCardRequest.missing (req : CreateCardRequest) : List String :=
  [("ICCID", req.iccid), ("IMSI", req.imsi), ("MSISDN", req.msisdn), ("ProfileID", req.profileID),
    ("EncKey", req.encKey), ("AuthKey", req.authKey)].filterMap fun (name, value) ↦
      if value = "" then some name else none

/-- How the binding of a request reports a field. -/
def requiredError (request field : String) : String :=
  "Key: '" ++ request ++ "." ++ field ++ "' Error:Field validation for '" ++ field
    ++ "' failed on the 'required' tag"

def decodeKey (field value : String) : Except HTTPError Bytes :=
  (hexDecode value).mapError fun _ ↦ ⟨400, "invalid " ++ field ++ " hex"⟩

def CreateCardRequest.card (env : CardEnv) (req : CreateCardRequest) : Except HTTPError Card := do
  if req.missing ≠ [] then
    throw ⟨400, "\n".intercalate (req.missing.map (requiredError "CreateCardRequest"))⟩
  let some profileID := env.uuidParse req.profileID | throw ⟨400, "invalid profile_id"⟩
  if env.profileExists profileID = false then throw ⟨400, "profile not found"⟩
  let encKey ← decodeKey "enc_key" req.encKey
  let authKey ← decodeKey "auth_key" req.authKey
  let kek ← if req.kek = "" then pure none else some <$> decodeKey "kek" req.kek
  return {
    id := env.newID 0
    iccid := req.iccid
    imsi := req.imsi
    msisdn := req.msisdn
    profileID := profileID
    encKey := encKey
    authKey := authKey
    kek := kek
    status := if req.status = "" then "active" else req.status }

/-- `POST /api/v1/cards`. -/
def createCard (env : CardEnv) (req : CreateCardRequest) (t : CardTable) :
    Except HTTPError CardTable := do
  let card ← req.card env
  match t.insert card with
  | .ok t => return t
  | .error .unique => throw ⟨409, "a card with this ICCID, IMSI, or MSISDN already exists"⟩
  | .error _ => throw ⟨500, "failed to create card"⟩

/-- The body of `PUT /api/v1/cards/:id`. -/
structure UpdateCardRequest where
  iccid : Option String := none
  imsi : Option String := none
  msisdn : Option String := none
  profileID : Option String := none
  encKey : Option String := none
  authKey : Option String := none
  kek : Option String := none
  status : Option String := none
deriving DecidableEq

/-- The row of a card with the fields of the request. -/
def UpdateCardRequest.card (env : CardEnv) (req : UpdateCardRequest) (card : Card) :
    Except HTTPError Card := do
  let profileID ← req.profileID.elim (pure card.profileID) fun text ↦
    (env.uuidParse text).elim (throw ⟨400, "invalid profile_id"⟩) pure
  let encKey ← req.encKey.elim (pure card.encKey) (decodeKey "enc_key")
  let authKey ← req.authKey.elim (pure card.authKey) (decodeKey "auth_key")
  let kek ← req.kek.elim (pure card.kek) fun text ↦ some <$> decodeKey "kek" text
  if req = {} then throw ⟨400, "no fields to update"⟩
  return {
    id := card.id
    iccid := req.iccid.getD card.iccid
    imsi := req.imsi.getD card.imsi
    msisdn := req.msisdn.getD card.msisdn
    profileID := profileID
    encKey := encKey
    authKey := authKey
    kek := kek
    status := req.status.getD card.status }

/-- `PUT /api/v1/cards/:id`. -/
def updateCard (env : CardEnv) (id : UUID) (req : UpdateCardRequest) (t : CardTable) :
    Except HTTPError CardTable := do
  let some card := t.find id | throw ⟨404, "card not found"⟩
  let card ← req.card env card
  (t.update env.profileExists card).mapError fun _ ↦ ⟨500, "failed to update card"⟩

/-- `DELETE /api/v1/cards/:id`. -/
def deleteCard (id : UUID) (t : CardTable) : Except HTTPError CardTable :=
  if t.find id = none then throw ⟨404, "card not found"⟩ else return t.delete id

/-! ## Importing cards -/

/-- `BulkInsertCards`: the rows that conflict are skipped. The number of rows inserted is returned
with the table. -/
def bulkInsertCards (t : CardTable) : List Card → CardTable × ℕ
  | [] => (t, 0)
  | card :: cards =>
    let t' := t.insertOrSkip card
    let (t'', inserted) := bulkInsertCards t' cards
    (t'', inserted + (t'.rows.length - t.rows.length))

/-- A line of the file, as the CSV reader gives it: its fields, as many as the header has, or an
error. -/
abbrev CSVRecord := Except String (List String)

/-- The columns that a file must have. -/
def requiredCols : List String := ["iccid", "imsi", "msisdn", "profile_name", "enc_key", "auth_key"]

/-- The columns of a file by name; of two with the same name the last one counts. -/
def colMap (header : List String) (col : String) : Option ℕ :=
  (header.zipIdx.reverse.find? fun (name, _) ↦
    (String.ofList (trimSpace (name.map Char.toLower))) = col).map Prod.snd

/-- The field of a column, without blanks around it. -/
def csvField (header record : List String) (col : String) : String :=
  String.ofList (trimSpace (((colMap header col).bind (record[·]?)).getD ""))

structure CardImport where
  table : CardTable
  created : ℕ := 0
  skipped : ℕ := 0
  errCount : ℕ := 0
  errors : List String := []
  lineNum : ℕ := 1
  batch : List Card := []

namespace CardImport

def flushBatch (s : CardImport) : CardImport :=
  let (table, inserted) := bulkInsertCards s.table s.batch
  { s with
    table := table
    created := s.created + inserted
    skipped := s.skipped + (s.batch.length - inserted)
    batch := [] }

/-- A text about the current line is noted. -/
def note (s : CardImport) (text : String) : CardImport :=
  { s with errors := s.errors ++ ["line " ++ toString s.lineNum ++ ": " ++ text] }

def fail (s : CardImport) (text : String) : CardImport :=
  { s.note text with errCount := s.errCount + 1 }

def batchSize : ℕ := 5000

/-- The fields of a line are checked, and its card is added to the batch. -/
def readFields (env : CardEnv) (header record : List String) (s : CardImport) : CardImport :=
  let field := csvField header record
  if requiredCols.any fun col ↦ field col = "" then
    { s.note "missing required fields" with skipped := s.skipped + 1 }
  else match env.profileByName (field "profile_name") with
    | none => s.fail ("profile not found: " ++ field "profile_name")
    | some profileID => match hexDecode (field "enc_key") with
      | .error _ => s.fail "invalid enc_key hex"
      | .ok encKey => match hexDecode (field "auth_key") with
        | .error _ => s.fail "invalid auth_key hex"
        | .ok authKey =>
          let s := { s with batch := s.batch ++ [{
            id := env.newID s.lineNum
            iccid := field "iccid"
            imsi := field "imsi"
            msisdn := field "msisdn"
            profileID := profileID
            encKey := encKey
            authKey := authKey }] }
          if s.batch.length ≥ batchSize then s.flushBatch else s

def readLine (env : CardEnv) (header : List String) (s : CardImport) : CSVRecord → CardImport
  | .error err => { s with lineNum := s.lineNum + 1 }.fail err
  | .ok record => { s with lineNum := s.lineNum + 1 }.readFields env header record

end CardImport

/-- `POST /api/v1/cards/import`. -/
def importCards (env : CardEnv) (header : CSVRecord) (records : List CSVRecord) (t : CardTable) :
    Except HTTPError CardImport := do
  let .ok header := header | throw ⟨400, "failed to read CSV header"⟩
  if let some col := requiredCols.find? fun col ↦ colMap header col = none then
    throw ⟨400, "missing required CSV column: " ++ col⟩
  return (records.foldl (CardImport.readLine env header) ⟨t, 0, 0, 0, [], 1, []⟩).flushBatch

/-! ## What the requests do to the table -/

section Effects

variable {env : CardEnv} {t t' : CardTable}

theorem CardTable.subset_insert {card : Card} (h : t.insert card = .ok t') : t.rows ⊆ t'.rows := by
  rw [CardTable.insert] at h
  split_ifs at h
  obtain rfl := Except.ok.inj h
  exact subset_cons_self card t.rows

theorem subset_createCard {req : CreateCardRequest} (h : createCard env req t = .ok t') :
    t.rows ⊆ t'.rows := by
  obtain ⟨card, -, hinsert⟩ := bind_eq_ok.mp h
  split at hinsert
  · obtain rfl := Except.ok.inj hinsert
    exact CardTable.subset_insert ‹_›
  · cases hinsert
  · cases hinsert

theorem CardTable.subset_insertOrSkip (t : CardTable) (card : Card) :
    t.rows ⊆ (t.insertOrSkip card).rows := by
  rw [CardTable.insertOrSkip]
  split_ifs
  · exact subset_cons_self card t.rows
  · exact Subset.refl t.rows

theorem subset_bulkInsertCards (t : CardTable) (cards : List Card) :
    t.rows ⊆ (bulkInsertCards t cards).1.rows := by
  induction cards generalizing t with
  | nil => exact Subset.refl t.rows
  | cons card cards ih =>
    exact Subset.trans (t.subset_insertOrSkip card) (ih (t.insertOrSkip card))

theorem CardImport.subset_readFields (env : CardEnv) (header record : List String)
    (s : CardImport) : s.table.rows ⊆ (s.readFields env header record).table.rows := by
  rw [CardImport.readFields]
  split_ifs
  · exact Subset.refl _
  · cases env.profileByName (csvField header record "profile_name") with
    | none => exact Subset.refl _
    | some profileID =>
      cases hexDecode (csvField header record "enc_key") with
      | error err => exact Subset.refl _
      | ok encKey =>
        cases hexDecode (csvField header record "auth_key") with
        | error err => exact Subset.refl _
        | ok authKey =>
          simp only
          split_ifs
          · exact subset_bulkInsertCards _ _
          · exact Subset.refl _

theorem CardImport.subset_readLine (env : CardEnv) (header : List String) (s : CardImport)
    (record : CSVRecord) : s.table.rows ⊆ (s.readLine env header record).table.rows := by
  cases record with
  | error err => exact Subset.refl _
  | ok record =>
    rw [readLine]
    exact subset_readFields env header record { s with lineNum := s.lineNum + 1 }

theorem subset_importCards {header : CSVRecord} {records : List CSVRecord} {result : CardImport}
    (h : importCards env header records t = .ok result) : t.rows ⊆ result.table.rows := by
  have hlines : ∀ header (records : List CSVRecord) (s : CardImport),
      s.table.rows ⊆ (records.foldl (CardImport.readLine env header) s).table.rows := by
    intro header records
    induction records with
    | nil => exact fun s ↦ Subset.refl s.table.rows
    | cons record records ih =>
      exact fun s ↦ Subset.trans (s.subset_readLine env header record) (ih _)
  cases header with
  | error err => cases h
  | ok header =>
    cases hcol : requiredCols.find? fun col ↦ colMap header col = none with
    | some col =>
      simp only [importCards, hcol] at h
      cases h
    | none =>
      simp only [importCards, hcol] at h
      obtain rfl := Except.ok.inj h
      exact Subset.trans (hlines header records ⟨t, 0, 0, 0, [], 1, []⟩)
        (subset_bulkInsertCards _ _)

theorem UpdateCardRequest.card_spec {req : UpdateCardRequest} {card card' : Card}
    (h : req.card env card = .ok card') :
    card'.id = card.id ∧ card'.msisdn = req.msisdn.getD card.msisdn := by
  obtain ⟨profileID, -, h⟩ := bind_eq_ok.mp h
  obtain ⟨encKey, -, h⟩ := bind_eq_ok.mp h
  obtain ⟨authKey, -, h⟩ := bind_eq_ok.mp h
  obtain ⟨kek, -, h⟩ := bind_eq_ok.mp h
  split_ifs at h
  · cases h
  · obtain rfl := Except.ok.inj h
    exact ⟨rfl, rfl⟩

theorem updateCard_spec {id : UUID} {req : UpdateCardRequest}
    (h : updateCard env id req t = .ok t') :
    ∃ card ∈ t.rows, card.id = id ∧ ∃ card', card'.id = id ∧
      card'.msisdn = req.msisdn.getD card.msisdn ∧ t'.rows = CardTable.replaced t.rows card' := by
  rw [updateCard] at h
  cases hfind : t.find id with
  | none =>
    rw [hfind] at h
    cases h
  | some card =>
    rw [hfind] at h
    obtain ⟨card', hcard', hupdate⟩ := bind_eq_ok.mp h
    obtain ⟨hcard, hid⟩ := CardTable.find_eq_some.mp hfind
    obtain ⟨hid', hmsisdn⟩ := UpdateCardRequest.card_spec hcard'
    refine ⟨card, hcard, hid, card', hid'.trans hid, hmsisdn, ?_⟩
    rw [mapError_eq_ok, CardTable.update] at hupdate
    split_ifs at hupdate
    obtain rfl := Except.ok.inj hupdate
    rfl

theorem deleteCard_spec {id : UUID} (h : deleteCard id t = .ok t') :
    (∃ card ∈ t.rows, card.id = id) ∧ t' = t.delete id := by
  rw [deleteCard] at h
  split_ifs at h with hfind
  · obtain ⟨card, hcard⟩ := Option.ne_none_iff_exists'.mp hfind
    obtain ⟨hcard, hid⟩ := CardTable.find_eq_some.mp hcard
    exact ⟨⟨card, hcard, hid⟩, (Except.ok.inj h).symm⟩

end Effects

end OtaPlatform
