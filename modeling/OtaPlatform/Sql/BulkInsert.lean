import OtaPlatform.Transition.Batches
import Mathlib.Data.List.Forall2

/-!
# Bulk insertion with numbered parameters

One `INSERT` statement for many rows has a tuple of parameters `($1,$2,…)` for each row and the
values of all rows behind each other as its arguments. Nothing but the numbering ties a tuple to its
row. And the number of parameters of a statement is bounded, so the rows are cut into chunks.

The database reads a statement through `Query.bound`: every parameter stands for the argument of its
number. Read so, the statements of `Layout.statements` say what the rows say, each row once and in
order (`Layout.binds_statements`).
-/

namespace OtaPlatform

open List

namespace BulkInsert

/-- The largest number of parameters of a statement. -/
def maxParameters : ℕ := 65535

/-- A statement: the text around the tuples, the numbers of the parameters of each tuple, and the
arguments. -/
structure Query (ν : Type*) where
  before : String
  placeholders : List (List ℕ)
  after : String
  args : List ν

def tupleText (numbers : List ℕ) : String :=
  "(" ++ ",".intercalate (numbers.map fun n ↦ "$" ++ toString n) ++ ")"

/-- How the rows go into a table: the number of columns, the values of a row, and the text. -/
structure Layout (ρ ν : Type*) where
  cols : ℕ
  values : ρ → List ν
  before : String
  after : String
  length_values : ∀ row, (values row).length = cols
  cols_le : cols ≤ maxParameters
  cols_pos : 0 < cols

variable {ρ ν : Type*}

namespace Query

def sql (q : Query ν) : String :=
  q.before ++ ",".intercalate (q.placeholders.map tupleText) ++ q.after

/-- The tuples with the arguments that their parameters stand for: `$1` is the first. -/
def bound (q : Query ν) : List (List (Option ν)) :=
  q.placeholders.map fun numbers ↦ numbers.map fun n ↦ q.args[n - 1]?

end Query

namespace Layout

variable (t : Layout ρ ν)

/-- The numbers in the tuple of a row, by the position of the row. -/
def tuple (i : ℕ) : List ℕ := (range t.cols).map fun j ↦ i * t.cols + (j + 1)

def insert (chunk : List ρ) : Query ν where
  before := t.before
  placeholders := chunk.mapIdx fun i _ ↦ t.tuple i
  after := t.after
  args := chunk.flatMap t.values

/-- As many rows as the parameters allow. -/
def maxRows : ℕ := maxParameters / t.cols

theorem maxRows_pos : 0 < t.maxRows := Nat.div_pos t.cols_le t.cols_pos

def statements (rows : List ρ) : List (Query ν) := (Batches.batches t.maxRows rows).map t.insert

/-- The statements take the rows in order, each once: they have a chunk of the rows each, no more
arguments than allowed, and for every row of the chunk a tuple that stands for its values. -/
def Binds (rows : List ρ) (queries : List (Query ν)) : Prop :=
  ∃ chunks : List (List ρ), chunks.flatten = rows ∧
    Forall₂ (fun chunk q ↦ q.args.length ≤ maxParameters ∧
      q.bound = chunk.map fun row ↦ (t.values row).map some) chunks queries

/-! ## What a statement says -/

theorem length_args_insert (chunk : List ρ) :
    (t.insert chunk).args.length = chunk.length * t.cols := by
  rw [insert, length_flatMap, map_congr_left fun row _ ↦ t.length_values row, map_const',
    sum_replicate_nat]

theorem getElem?_args_insert {chunk : List ρ} {i j : ℕ} {row : ρ} (hrow : chunk[i]? = some row)
    (hj : j < t.cols) : (t.insert chunk).args[i * t.cols + j]? = (t.values row)[j]? := by
  induction chunk generalizing i with
  | nil => cases hrow
  | cons first chunk ih =>
    have hargs : (t.insert (first :: chunk)).args = t.values first ++ (t.insert chunk).args :=
      flatMap_cons
    rcases i with _ | i
    · obtain rfl : first = row := Option.some.inj hrow
      rw [hargs, Nat.zero_mul, Nat.zero_add, getElem?_append_left (by rwa [t.length_values])]
    · have hskip : (i + 1) * t.cols + j = (t.values first).length + (i * t.cols + j) := by
        rw [t.length_values, Nat.succ_mul]
        omega
      rw [hargs, hskip, getElem?_append_right (Nat.le_add_right _ _), Nat.add_sub_cancel_left]
      exact ih hrow

theorem bound_insert (chunk : List ρ) :
    (t.insert chunk).bound = chunk.map fun row ↦ (t.values row).map some := by
  have htuple : ∀ i row, chunk[i]? = some row →
      ((t.tuple i).map fun n ↦ (t.insert chunk).args[n - 1]?) = (t.values row).map some := by
    intro i row hrow
    refine ext_getElem (by simp [tuple, t.length_values]) fun j hj _ ↦ ?_
    have hcol : j < t.cols := by simpa [tuple] using hj
    simpa [tuple, ← Nat.add_assoc, t.length_values, hcol] using t.getElem?_args_insert hrow hcol
  refine ext_getElem? fun i ↦ ?_
  rw [Query.bound, getElem?_map, insert, getElem?_mapIdx, getElem?_map]
  cases hrow : chunk[i]? with
  | none => rfl
  | some row => exact congrArg some (htuple i row hrow)

theorem filterMap_bound_insert (read : List (Option ν) → Option ρ)
    (hread : ∀ row, read ((t.values row).map some) = some row) (chunk : List ρ) :
    (t.insert chunk).bound.filterMap read = chunk := by
  rw [bound_insert, filterMap_map]
  exact (congrArg (filterMap · chunk) (funext hread)).trans filterMap_some

/-- **The statements bind every row once**, in order and within the limit. -/
theorem binds_statements (rows : List ρ) : t.Binds rows (t.statements rows) := by
  refine ⟨Batches.batches t.maxRows rows, Batches.flatten_batches t.maxRows_pos rows, ?_⟩
  rw [statements, forall₂_map_right_iff, forall₂_same]
  refine fun chunk hchunk ↦ ⟨?_, t.bound_insert chunk⟩
  rw [length_args_insert]
  calc chunk.length * t.cols ≤ t.maxRows * t.cols :=
        Nat.mul_le_mul_right _ (Batches.length_le_of_mem_batches hchunk)
    _ ≤ maxParameters := Nat.div_mul_le_self _ _

end Layout

end BulkInsert

end OtaPlatform
