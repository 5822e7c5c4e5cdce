import OtaPlatform.Sql.Like

/-!
# Searching in the control plane

Cards are searched by the beginning of their ICCID, IMSI or MSISDN, and campaigns, scripts and
profiles by a part of their name. The text that was entered becomes part of a pattern: `escapeLike`
puts a backslash before the three characters that mean something in a pattern. It does so in one
pass, so the backslashes it adds are not escaped again.

* `like_escapeLike`: the patterns find exactly the texts that begin with what was entered, and
  those that contain it.
-/

namespace OtaPlatform

open List Like

/-! ## The code -/

def escapeLikeChar (c : Char) : List Char :=
  if c = '\\' ∨ c = '%' ∨ c = '_' then ['\\', c] else [c]

def escapeLike (s : String) : String := String.ofList (s.toList.flatMap escapeLikeChar)

def cardPattern (search : String) : String := escapeLike search ++ "%"

/-- The pattern of `ListCampaigns`, and of the lists of scripts and of profiles. -/
def namePattern (search : String) : String := "%" ++ escapeLike search ++ "%"

structure CardNumbers where
  iccid : String
  imsi : String
  msisdn : String

/-- The condition of `ListCards` on a card. Nothing is asked if nothing was entered. -/
def cardFound (same : Char → Char → Bool) (search : String) (card : CardNumbers) : Option Bool :=
  if search = "" then some true
  else do
    let byICCID ← like same '\\' (cardPattern search) card.iccid
    let byIMSI ← like same '\\' (cardPattern search) card.imsi
    let byMSISDN ← like same '\\' (cardPattern search) card.msisdn
    return byICCID || byIMSI || byMSISDN

/-! ## What the patterns mean -/

theorem elements_escapeLikeChar_append (c : Char) (p : List Char) :
    elements '\\' (escapeLikeChar c ++ p) = (elements '\\' p).map (.literal c :: ·) := by
  rw [escapeLikeChar]
  split_ifs with h
  · exact elements_escape_cons c p
  · obtain ⟨hescape, hpercent, hunderscore⟩ := not_or.mp h |>.imp_right not_or.mp
    rw [singleton_append, elements_cons hescape, element, if_neg hpercent, if_neg hunderscore]

theorem elements_escapeLike_append (s p : List Char) : elements '\\' (s.flatMap escapeLikeChar ++ p)
      = (elements '\\' p).map (s.map .literal ++ ·) := by
  induction s with
  | nil => exact Option.map_id'.symm
  | cons c s ih =>
    rw [flatMap_cons, append_assoc, elements_escapeLikeChar_append, ih, Option.map_map]
    rfl

theorem elements_cardPattern (search : String) : elements '\\' (cardPattern search).toList
      = some (search.toList.map .literal ++ [.anySequence]) := by
  rw [cardPattern, escapeLike, String.toList_append, String.toList_ofList,
    elements_escapeLike_append]
  rfl

theorem elements_namePattern (search : String) : elements '\\' (namePattern search).toList
      = some (.anySequence :: (search.toList.map .literal ++ [.anySequence])) := by
  have h := elements_cardPattern search
  rw [namePattern, String.append_assoc, String.toList_append]
  change elements '\\' ('%' :: (cardPattern search).toList) = _
  rw [elements_cons (by decide), h]
  rfl

variable {same : Char → Char → Bool}

/-- The text begins with characters that compare equal. -/
def BeginsWith (same : Char → Char → Bool) (s t : List Char) : Prop :=
  ∃ t', t' <+: t ∧ Forall₂ (fun c x ↦ same c x = true) s t'

theorem matchesText_literals {s t : List Char} :
    matchesText same (s.map .literal ++ [.anySequence]) t = true ↔ BeginsWith same s t := by
  rw [matchesText_literals_append]
  constructor
  · rintro ⟨t₁, t₂, rfl, hs, -⟩
    exact ⟨t₁, prefix_append t₁ t₂, hs⟩
  · rintro ⟨t₁, ⟨t₂, rfl⟩, hs⟩
    exact ⟨t₁, t₂, rfl, hs, matchesText_anySequence t₂⟩

theorem matchesText_eq_literals {s t : List Char} :
    matchesText (· == ·) (s.map .literal ++ [.anySequence]) t = true ↔ s <+: t := by
  have heq : Forall₂ (fun c x : Char ↦ (c == x) = true) = Eq := by
    simp only [beq_iff_eq]
    exact forall₂_eq_eq_eq
  rw [matchesText_literals, BeginsWith, heq]
  exact ⟨fun ⟨t', hprefix, hs⟩ ↦ hs ▸ hprefix, fun h ↦ ⟨s, h, rfl⟩⟩

theorem like_cardPattern (search t : String) : ∃ b, like same '\\' (cardPattern search) t = some b ∧
      (b = true ↔ BeginsWith same search.toList t.toList) := by
  refine ⟨_, ?_, matchesText_literals⟩
  rw [like, elements_cardPattern, Option.map_some]

/-- A card is found exactly if one of its numbers begins with what was entered, however the letters
are compared. -/
theorem cardFound_iff (search : String) (card : CardNumbers) :
    ∃ b, cardFound same search card = some b ∧
      (b = true ↔ BeginsWith same search.toList card.iccid.toList ∨
        BeginsWith same search.toList card.imsi.toList ∨
        BeginsWith same search.toList card.msisdn.toList) := by
  rw [cardFound]
  split_ifs with hempty
  · subst hempty
    exact ⟨true, rfl, iff_of_true rfl (.inl ⟨[], nil_prefix, .nil⟩)⟩
  · obtain ⟨b₁, h₁, hiff₁⟩ := like_cardPattern search card.iccid
    obtain ⟨b₂, h₂, hiff₂⟩ := like_cardPattern search card.imsi
    obtain ⟨b₃, h₃, hiff₃⟩ := like_cardPattern search card.msisdn
    refine ⟨b₁ || b₂ || b₃, ?_, ?_⟩
    · rw [h₁, h₂, h₃]
      rfl
    · rw [Bool.or_eq_true, Bool.or_eq_true, hiff₁, hiff₂, hiff₃, or_assoc]

/-- **The search is exact.** No pattern is an error. A text matches the pattern of a card exactly if
it begins with what was entered, and that of a name exactly if it contains what was entered. -/
theorem like_escapeLike (s t : String) :
    like (· == ·) '\\' (cardPattern s) t = some (decide (s.toList <+: t.toList)) ∧
      like (· == ·) '\\' (namePattern s) t = some (decide (s.toList <:+: t.toList)) := by
  refine ⟨?_, ?_⟩
  · rw [like, elements_cardPattern, Option.map_some, Option.some.injEq, Bool.eq_iff_iff,
      decide_eq_true_iff, matchesText_eq_literals]
  · rw [like, elements_namePattern, Option.map_some, Option.some.injEq, Bool.eq_iff_iff,
      decide_eq_true_iff, matchesText_anySequence_cons, infix_iff_prefix_suffix]
    exact exists_congr fun t' ↦ by rw [matchesText_eq_literals, and_comm]

end OtaPlatform
