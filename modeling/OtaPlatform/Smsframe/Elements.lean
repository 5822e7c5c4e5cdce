import Mathlib.Data.List.GetD
import OtaPlatform.Smsframe.Reassemble

/-!
# The elements of a user data header

A user data header is a length octet and a list of information elements, each an identifier, a
length octet and that many octets of data. On such a header `parseUDH` returns what the elements
say (`parseUDH_encoded`). On any other octets its cursor stays inside the header all the same
(`parseUDH_safe`): lengths come from the message and are not trusted.

## The two inductions

Both follow the cursor. For a proper header the induction is on the element list, and the cursor
stands at the encoding of the elements that are left. For arbitrary octets it is on the fuel, which
is more than the distance of the cursor to the end of the header; each round moves the cursor by two
octets at least.
-/

namespace OtaPlatform

open List

/-! ## Proper headers -/

structure InfoElement where
  iei : UInt8
  data : Bytes
  length_le : data.length ≤ 255

namespace InfoElement

variable (e : InfoElement)

def octets : Bytes := e.iei :: UInt8.ofNat e.data.length :: e.data

/-- The concatenation data of an element: the first three octets of one with identifier zero. -/
def concat : Option ConcatInfo :=
  if e.iei = 0x00 then
    match e.data with
    | refNum :: total :: part :: _ => some ⟨refNum, total, part⟩
    | _ => none
  else none

theorem length_octets : e.octets.length = 2 + e.data.length := by
  rw [octets, length_cons, length_cons]
  omega

theorem toNat_length : (UInt8.ofNat e.data.length).toNat = e.data.length := by
  have hle := e.length_le
  rw [UInt8.toNat_ofNat', Nat.mod_eq_of_lt (by omega)]

end InfoElement

def encodeElements (elements : List InfoElement) : Bytes := elements.flatMap InfoElement.octets

/-- The concatenation data of a header: that of the last element that has any. -/
def lastConcat (elements : List InfoElement) : Option ConcatInfo :=
  (elements.filterMap InfoElement.concat).getLast?

theorem lastConcat_cons (e : InfoElement) (elements : List InfoElement) :
    lastConcat (e :: elements) = (lastConcat elements).or e.concat := by
  rw [lastConcat, lastConcat, filterMap_cons]
  cases e.concat with
  | none => rw [Option.or_none]
  | some c =>
    rw [getLast?_cons]
    cases (elements.filterMap InfoElement.concat).getLast? with
    | none | some _ => rfl

section Rounds

variable {raw : Bytes} {endUDH fuel pos : ℕ} {concat : Option ConcatInfo}

theorem parseIEs_done (h : endUDH ≤ pos) :
    parseIEs raw endUDH (fuel + 1) pos concat = some concat :=
  if_neg (by omega)

theorem parseIEs_element (e : InfoElement) (rest : Bytes) (hraw : raw.drop pos = e.octets ++ rest)
    (hend : pos + e.octets.length ≤ endUDH) : parseIEs raw endUDH (fuel + 1) pos concat
      = parseIEs raw endUDH fuel (pos + e.octets.length) (e.concat.or concat) := by
  have hread : ∀ i, raw[pos + i]? = (e.octets ++ rest)[i]? := by
    intro i
    rw [← hraw, getElem?_drop]
  have hiei : raw[pos]? = some e.iei := hread 0
  have hlen : raw[pos + 1]? = some (UInt8.ofNat e.data.length) := hread 1
  rw [e.length_octets] at hend ⊢
  rw [parseIEs, if_pos (by omega), if_neg (by omega), hiei, hlen]
  simp only [Option.bind_eq_bind, Option.bind_some, e.toNat_length]
  rw [if_neg (by omega), ← Nat.add_assoc]
  by_cases hzero : e.iei = 0x00
  · rw [InfoElement.concat, if_pos hzero]
    -- three octets of data or more, or fewer
    rcases hdata : e.data with _ | ⟨a, _ | ⟨b, _ | ⟨c, tail⟩⟩⟩
    · rw [if_neg fun h ↦ absurd h.2 (by decide)]
      rfl
    · rw [if_neg fun h ↦ absurd h.2 (by simp)]
      rfl
    · rw [if_neg fun h ↦ absurd h.2 (by simp)]
      rfl
    · have ha : raw[pos + 2]? = some a := (hread 2).trans (by rw [InfoElement.octets, hdata]; rfl)
      have hb : raw[pos + 3]? = some b := (hread 3).trans (by rw [InfoElement.octets, hdata]; rfl)
      have hc : raw[pos + 4]? = some c := (hread 4).trans (by rw [InfoElement.octets, hdata]; rfl)
      rw [if_pos ⟨hzero, by simp⟩, ha, hb, hc]
      rfl
  · rw [if_neg fun h ↦ hzero h.1, InfoElement.concat, if_neg hzero]
    rfl

theorem parseIEs_elements (elements : List InfoElement) (rest : Bytes)
    (hraw : raw.drop pos = encodeElements elements ++ rest)
    (hend : pos + (encodeElements elements).length = endUDH) (hfuel : elements.length < fuel) :
    parseIEs raw endUDH fuel pos concat = some ((lastConcat elements).or concat) := by
  induction elements generalizing pos fuel concat with
  | nil =>
    obtain ⟨fuel, rfl⟩ : ∃ f, fuel = f + 1 := ⟨fuel - 1, by omega⟩
    exact parseIEs_done (le_of_eq hend.symm)
  | cons e elements ih =>
    obtain ⟨fuel, rfl⟩ : ∃ f, fuel = f + 1 := ⟨fuel - 1, by omega⟩
    rw [encodeElements, flatMap_cons, ← encodeElements] at hraw hend
    rw [append_assoc] at hraw
    rw [length_append] at hend
    rw [parseIEs_element e _ hraw (by omega), lastConcat_cons, Option.or_assoc]
    refine ih ?_ (by omega) (Nat.lt_of_succ_lt_succ hfuel)
    rw [← drop_drop, hraw, drop_left]

end Rounds

/-- A header of elements whose octets fit the length octet is read as the elements say. -/
theorem parseUDH_encoded (elements : List InfoElement) (payload : Bytes)
    (hfits : (encodeElements elements).length ≤ 255) :
    parseUDH (UInt8.ofNat (encodeElements elements).length :: (encodeElements elements ++ payload))
      = some ((encodeElements elements).length, lastConcat elements, payload) := by
  have hcount : elements.length ≤ (encodeElements elements).length := by
    rw [encodeElements, length_flatMap]
    refine length_le_sum_of_one_le _ ?_ |>.trans' (by rw [length_map])
    intro n hn
    obtain ⟨e, -, rfl⟩ := mem_map.mp hn
    rw [e.length_octets]
    omega
  have hlen : (UInt8.ofNat (encodeElements elements).length).toNat
      = (encodeElements elements).length := by
    rw [UInt8.toNat_ofNat', Nat.mod_eq_of_lt (by omega)]
  rw [parseUDH]
  simp only [hlen, length_cons, length_append]
  rw [if_neg (by omega), parseIEs_elements elements payload rfl (by omega) (by omega)]
  simp only [Option.or_none, Option.bind_eq_bind, Option.bind_some, Option.pure_def,
    drop_succ_cons, drop_left]

/-! ## Arbitrary octets -/

/-- The concatenation data is what stands at the position. -/
structure StandsAt (raw : Bytes) (i : ℕ) (concat : ConcatInfo) : Prop where
  refNum : raw[i]? = some concat.refNum
  total : raw[i + 1]? = some concat.total
  part : raw[i + 2]? = some concat.part

section Cursor

variable {raw raw' : Bytes} {endUDH : ℕ}

/-- **The cursor stays inside.** From a position of the header, with fuel for the octets that are
left, the loop ends; new concatenation data stands in the header from there on. -/
theorem parseIEs_inside (hraw : endUDH ≤ raw.length) (fuel pos : ℕ) (concat : Option ConcatInfo)
    (hfuel : endUDH < pos + fuel) (hpos : pos ≤ endUDH) :
    ∃ result, parseIEs raw endUDH fuel pos concat = some result ∧ (result = concat ∨
        ∃ c i, result = some c ∧ pos ≤ i ∧ i + 2 < endUDH ∧ StandsAt raw i c) := by
  induction fuel generalizing pos concat with
  | zero => omega
  | succ fuel ih =>
    rw [parseIEs]
    split_ifs with hmore hshort
    · exact ⟨concat, rfl, .inl rfl⟩
    · have hread : ∀ i, i < endUDH → raw[i]? = some (raw.getD i 0) := by
        intro i hi
        rw [getD_eq_getElem _ _ (by omega), getElem?_eq_getElem]
      rw [hread pos (by omega), hread (pos + 1) (by omega)]
      simp only [Option.bind_eq_bind, Option.bind_some]
      set ieLen := (raw.getD (pos + 1) 0).toNat
      split_ifs with hover hconcat
      · exact ⟨concat, rfl, .inl rfl⟩
      · -- the three octets are data of the element, and the element ends inside the header
        have h3 := hconcat.2
        rw [hread (pos + 2) (by omega), hread (pos + 3) (by omega), hread (pos + 4) (by omega)]
        obtain ⟨result, hresult, hnew⟩ := ih (pos + 2 + ieLen)
          (some ⟨raw.getD (pos + 2) 0, raw.getD (pos + 3) 0, raw.getD (pos + 4) 0⟩)
          (by omega) (by omega)
        refine ⟨result, hresult, .inr ?_⟩
        rcases hnew with hsame | ⟨c, i, hc, hle, hlt, hat⟩
        · exact ⟨_, pos + 2, hsame, by omega, by omega,
            hread _ (by omega), hread _ (by omega), hread _ (by omega)⟩
        · exact ⟨c, i, hc, by omega, hlt, hat⟩
      · obtain ⟨result, hresult, hnew⟩ := ih (pos + 2 + ieLen) concat (by omega) (by omega)
        refine ⟨result, hresult, hnew.imp_right ?_⟩
        rintro ⟨c, i, hc, hle, hlt, hat⟩
        exact ⟨c, i, hc, by omega, hlt, hat⟩
    · exact ⟨concat, rfl, .inl rfl⟩

theorem parseIEs_congr (hagree : ∀ i, i < endUDH → raw[i]? = raw'[i]?) (fuel pos : ℕ)
    (concat : Option ConcatInfo) :
    parseIEs raw endUDH fuel pos concat = parseIEs raw' endUDH fuel pos concat := by
  induction fuel generalizing pos concat with
  | zero => rfl
  | succ fuel ih =>
    rw [parseIEs, parseIEs]
    split_ifs with hmore hshort
    · rfl
    · rw [hagree pos (by omega), hagree (pos + 1) (by omega)]
      refine Option.bind_congr fun iei _ ↦ Option.bind_congr fun ieLen _ ↦ ?_
      split_ifs with hover hconcat
      · rfl
      · have h3 := hconcat.2
        rw [hagree (pos + 2) (by omega), hagree (pos + 3) (by omega), hagree (pos + 4) (by omega)]
        exact Option.bind_congr fun _ _ ↦ Option.bind_congr fun _ _ ↦ Option.bind_congr
          fun _ _ ↦ ih _ _
      · exact ih _ _
    · rfl

end Cursor

/-- What is returned for any octets: the octets as they are, or what follows the declared header. In
the second case the concatenation data stands inside the header, and only the header matters for
it. -/
inductive HeaderRead (raw : Bytes) : ℕ → Option ConcatInfo → Bytes → Prop
  | unchanged : HeaderRead raw 0 none raw
  | suffix (first : UInt8) (concat : Option ConcatInfo) (hfirst : raw.head? = some first)
      (hlength : first.toNat + 1 ≤ raw.length)
      (hinside : ∀ c, concat = some c → ∃ i, 1 ≤ i ∧ i + 2 < first.toNat + 1 ∧ StandsAt raw i c)
      (honly : ∀ payload, parseUDH (raw.take (first.toNat + 1) ++ payload)
        = some (first.toNat, concat, payload)) :
      HeaderRead raw first.toNat concat (raw.drop (first.toNat + 1))

theorem parseUDH_safe (raw : Bytes) :
    ∃ udhLen concat payload, parseUDH raw = some (udhLen, concat, payload) ∧
      HeaderRead raw udhLen concat payload := by
  cases raw with
  | nil => exact ⟨0, none, [], rfl, .unchanged⟩
  | cons first rest =>
    by_cases hshort : (first :: rest).length < first.toNat + 1
    · exact ⟨0, none, first :: rest, if_pos hshort, .unchanged⟩
    rw [not_lt] at hshort
    obtain ⟨concat, hloop, hnew⟩ :=
      parseIEs_inside hshort (first.toNat + 2) 1 none (by omega) (by omega)
    -- the same holds with anything else after the header
    have hparse : ∀ raw' : Bytes, raw'.head? = some first → first.toNat + 1 ≤ raw'.length →
        (∀ i, i < first.toNat + 1 → (first :: rest)[i]? = raw'[i]?) →
        parseUDH raw' = some (first.toNat, concat, raw'.drop (first.toNat + 1)) := by
      intro raw' hfirst hlength hagree
      cases raw' with
      | nil => cases hfirst
      | cons first' rest' =>
        obtain rfl : first' = first := Option.some.inj hfirst
        rw [parseIEs_congr hagree] at hloop
        rw [parseUDH]
        simp only [if_neg (not_lt.mpr hlength), hloop, Option.bind_eq_bind, Option.bind_some,
          Option.pure_def]
    refine ⟨_, _, _, hparse _ rfl hshort fun _ _ ↦ rfl,
      .suffix first concat rfl hshort ?_ fun payload ↦ ?_⟩
    · intro c hc
      rcases hnew with hnone | ⟨c', i, hc', hle, hlt, hat⟩
      · rw [hnone] at hc
        cases hc
      · obtain rfl : c' = c := Option.some.inj (hc'.symm.trans hc)
        exact ⟨i, hle, hlt, hat⟩
    · have hcut : ((first :: rest).take (first.toNat + 1)).length = first.toNat + 1 :=
        length_take_of_le hshort
      rw [hparse _ rfl (by rw [length_append]; omega) fun i hi ↦ ?_]
      · rw [drop_append_of_le_length hcut.ge, drop_eq_nil_of_le hcut.le, nil_append]
      · rw [getElem?_append_left (by omega), getElem?_take_of_lt hi]

/-- **Header parsing follows the grammar.** On every header of elements that fits its length octet,
the length, the data of the last concatenation element and the payload are returned; and on every
message whatsoever the parser returns without a read outside it, with the octets unchanged or with
what follows the declared header. -/
theorem parseUDH_grammar :
    (∀ (elements : List InfoElement) (payload : Bytes), (encodeElements elements).length ≤ 255 →
      parseUDH (UInt8.ofNat (encodeElements elements).length ::
          (encodeElements elements ++ payload))
        = some ((encodeElements elements).length, lastConcat elements, payload)) ∧
    ∀ raw : Bytes, ∃ udhLen concat payload, parseUDH raw = some (udhLen, concat, payload) ∧
      HeaderRead raw udhLen concat payload :=
  ⟨parseUDH_encoded, parseUDH_safe⟩

/-- Two concatenation elements around another one: the last counts. -/
theorem parseUDH_grammar_last :
    parseUDH [12, 0x00, 3, 1, 2, 1, 0x70, 0, 0x00, 3, 9, 2, 2, 0xAB]
      = some (12, some ⟨9, 2, 2⟩, [0xAB]) :=
  parseUDH_grammar.1 [⟨0x00, [1, 2, 1], by decide⟩, ⟨0x70, [], by decide⟩,
    ⟨0x00, [9, 2, 2], by decide⟩] [0xAB] (by decide)

end OtaPlatform
