import Mathlib.Data.List.Forall2
import Mathlib.Data.List.Infix

/-!
# `LIKE` patterns

A pattern of `LIKE` is a text in which `%` stands for any sequence of characters and `_` for any
character; after the escape character the next one stands for itself. A pattern that ends after an
escape character is an error.

A pattern is read into its elements first (`elements`), and the elements are compared with a text
afterwards (`matchesText`). How a literal character is compared is a parameter: `LIKE` asks for the
same character, `ILIKE` for the same letter in either case.
-/

namespace OtaPlatform

open List

namespace Like

inductive Element
  | literal (c : Char)
  | anyCharacter
  | anySequence
deriving DecidableEq

/-- The element that a character stands for without an escape. -/
def element (c : Char) : Element :=
  if c = '%' then .anySequence else if c = '_' then .anyCharacter else .literal c

/-- The elements of a pattern, unless it ends after an escape character. -/
def elements (escape : Char) : List Char → Option (List Element)
  | [] => some []
  | c :: p =>
    if c = escape then
      match p with
      | [] => none
      | d :: rest => (elements escape rest).map (.literal d :: ·)
    else (elements escape p).map (element c :: ·)

def matchesText (same : Char → Char → Bool) : List Element → List Char → Bool
  | [], t => t.isEmpty
  | .literal _ :: _, [] => false
  | .literal c :: p, x :: t => same c x && matchesText same p t
  | .anyCharacter :: _, [] => false
  | .anyCharacter :: p, _ :: t => matchesText same p t
  | .anySequence :: p, t => t.tails.any (matchesText same p)

/-- `text LIKE pattern ESCAPE escape`. There is no answer if the pattern is an error. -/
def like (same : Char → Char → Bool) (escape : Char) (pattern text : String) : Option Bool :=
  (elements escape pattern.toList).map (matchesText same · text.toList)

variable {escape : Char} {same : Char → Char → Bool}

/-! ## Reading a pattern -/

theorem elements_escape_cons (c : Char) (p : List Char) :
    elements escape (escape :: c :: p) = (elements escape p).map (.literal c :: ·) := by
  rw [elements, if_pos rfl]

theorem elements_cons {c : Char} (h : c ≠ escape) (p : List Char) :
    elements escape (c :: p) = (elements escape p).map (element c :: ·) := by
  rw [elements.eq_def]
  exact if_neg h

/-! ## Comparing a text -/

theorem matchesText_literals_append {s : List Char} {p : List Element} {t : List Char} :
    matchesText same (s.map .literal ++ p) t = true ↔
      ∃ t₁ t₂, t = t₁ ++ t₂ ∧ Forall₂ (fun c x ↦ same c x = true) s t₁ ∧
        matchesText same p t₂ = true := by
  induction s generalizing t with
  | nil =>
    constructor
    · intro h
      exact ⟨[], t, rfl, .nil, h⟩
    · rintro ⟨t₁, t₂, rfl, hnil, h⟩
      cases hnil
      exact h
  | cons c s ih =>
    cases t with
    | nil =>
      refine iff_of_false Bool.false_ne_true ?_
      rintro ⟨t₁, t₂, happend, hcons, -⟩
      obtain ⟨rfl, -⟩ := append_eq_nil_iff.mp happend.symm
      cases hcons
    | cons x t =>
      rw [map_cons, cons_append, matchesText, Bool.and_eq_true, ih]
      constructor
      · rintro ⟨hx, t₁, t₂, rfl, hs, h⟩
        exact ⟨x :: t₁, t₂, rfl, .cons hx hs, h⟩
      · rintro ⟨t₁, t₂, happend, hcons, h⟩
        cases hcons with
        | cons hx hs =>
          obtain ⟨rfl, rfl⟩ := cons.inj happend
          exact ⟨hx, _, t₂, rfl, hs, h⟩

theorem matchesText_anySequence_cons {p : List Element} {t : List Char} :
    matchesText same (.anySequence :: p) t = true ↔
      ∃ t', t' <:+ t ∧ matchesText same p t' = true := by
  rw [matchesText, any_eq_true]
  exact exists_congr fun t' ↦ and_congr_left' (mem_tails t' t)

theorem matchesText_anySequence (t : List Char) : matchesText same [.anySequence] t = true :=
  matchesText_anySequence_cons.mpr ⟨[], nil_suffix, rfl⟩

end Like

end OtaPlatform
