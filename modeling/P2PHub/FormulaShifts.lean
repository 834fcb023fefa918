import P2PHub.FormulaEvaluation

/-!
# Shifting references

The shifts of `plugins/calc/src/formula.ts`: where an inserted or deleted row
or column moves an index, a coordinate and the references of a formula.
-/

namespace P2PHub.Calc

open Binary64

inductive StructuralKind
  | insertRows
  | deleteRows
  | insertCols
  | deleteCols
  deriving DecidableEq

structure Shifts where
  shiftRow : Binary64 → Binary64
  shiftCol : Binary64 → Binary64

def shiftInserted (start count index : Binary64) : Binary64 :=
  if start.le index then index.add count else index

def shiftDeleted (start count index : Binary64) : Binary64 :=
  if index.lt start then index
  else if index.lt (start.add count) then ofInt (-1)
  else index.sub count

def makeShifts (kind : StructuralKind) (start count : Binary64) : Shifts :=
  match kind with
  | .insertRows => ⟨shiftInserted start count, id⟩
  | .deleteRows => ⟨shiftDeleted start count, id⟩
  | .insertCols => ⟨id, shiftInserted start count⟩
  | .deleteCols => ⟨id, shiftDeleted start count⟩

/-- The coordinate of a cell after a shift, or none when the cell is removed.
Nothing is returned when the loop of the label does not end. -/
def shiftCoord (coord : String) (shifts : Shifts) : Option (Option String) :=
  match parseCoord coord with
  | none => some none
  | some parsed =>
    let row := shifts.shiftRow parsed.row
    let col := shifts.shiftCol parsed.col
    if row.lt (ofInt 0) || col.lt (ofInt 0) then some none
    else (coordToLabel col row).map some

def makeRefMutator (shifts : Shifts) (ref : RefNode) : Option RefNode :=
  match parseCoord ref.coord with
  | none => some ref
  | some parsed =>
    let row := if ref.rowAbs then parsed.row else shifts.shiftRow parsed.row
    let col := if ref.colAbs then parsed.col else shifts.shiftCol parsed.col
    if row.lt (ofInt 0) || col.lt (ofInt 0) then some ⟨refError, false, false⟩
    else (coordToLabel col row).map fun coord => { ref with coord }

mutual

def rewriteRefs (mutate : RefNode → Option RefNode) : Expr → Option Expr
  | .cell ref => do
      let updated ← mutate ref
      if updated.coord = refError then return .str refError else return .cell updated
  | .range start stop => do
      let start ← mutate start
      let stop ← mutate stop
      if start.coord = refError ∨ stop.coord = refError then return .str refError
      else return .range start stop
  | .func name args => do
      let args ← rewriteArgs mutate args
      return .func name args
  | .binary op left right => do
      let left ← rewriteRefs mutate left
      let right ← rewriteRefs mutate right
      return .binary op left right
  | .unary op expr => do
      let expr ← rewriteRefs mutate expr
      return .unary op expr
  | .percent expr => do
      let expr ← rewriteRefs mutate expr
      return .percent expr
  | expr => some expr

def rewriteArgs (mutate : RefNode → Option RefNode) : List Expr → Option (List Expr)
  | [] => some []
  | arg :: args => do
      let arg ← rewriteRefs mutate arg
      let args ← rewriteArgs mutate args
      return arg :: args

end

def insertIndex (start : Binary64) (count index : ℕ) : ℕ :=
  if start.le (ofInt index) then index + count else index

def deleteIndex (start : Binary64) (count index : ℕ) : Option ℕ :=
  if (ofInt index).lt start then some index
  else if (ofInt index).lt (start.add (ofInt count)) then none
  else some (index - count)

variable {start : Binary64} {count index first second : ℕ}

theorem le_insertIndex : index ≤ insertIndex start count index := by
  unfold insertIndex
  split
  · exact Nat.le_add_right _ _
  · exact le_rfl

theorem le_ofInt_mono (below : start.le (ofInt first)) (ordered : first ≤ second)
    (exact : second ≤ 2 ^ 53) : start.le (ofInt second) := by
  have firstEq := ofInt_of_safe (safe_ofNat (ordered.trans exact))
  have secondEq := ofInt_of_safe (safe_ofNat exact)
  rw [firstEq] at below
  rw [secondEq]
  have cast : ((first : ℤ) : ℚ) ≤ ((second : ℤ) : ℚ) := by exact_mod_cast ordered
  cases start with
  | nan => simp [le, lt, same] at below
  | infinite negative =>
    cases negative with
    | true => rfl
    | false => simp [le, lt, same] at below
  | finite =>
    simp only [le, lt, same, Bool.or_eq_true, decide_eq_true_eq, finite.injEq] at below ⊢
    exact lt_or_eq_of_le ((le_of_lt_or_eq below).trans cast)

theorem insertIndex_lt (ordered : first < second) (exact : second ≤ 2 ^ 53) :
    insertIndex start count first < insertIndex start count second := by
  unfold insertIndex
  split
  · next below =>
      rw [if_pos (le_ofInt_mono below ordered.le exact)]
      omega
  · split <;> omega

theorem not_negative (exact : index ≤ 2 ^ 53) : (ofInt index).lt (ofInt 0) = false := by
  rw [lt_ofInt (safe_ofNat exact) (by decide)]
  exact decide_eq_false (by omega)

end P2PHub.Calc
