import P2PHub.FormulaInsertion
import P2PHub.SheetRecalc

/-!
# Structural edits of a sheet

`updateCell`, `updateCells` and `structuralEdit` of `plugins/calc/src/index.ts`.
An edit moves every cell to the coordinate that the shift gives it and rewrites
the references of its formula.
-/

namespace P2PHub.Calc

open Binary64 OrderedMap

section

/-- A sheet, with the identity that the next new cell gets. -/
structure Sheet where
  cells : Cells
  rowCount : Binary64
  colCount : Binary64
  nextId : Nat

/-- What an update says about a cell: a formula, else a value, else neither. -/
inductive CellChange
  | formula (formula : Option String)
  | value (value : CellValue)
  | neither

def Cell.change (cell : Cell) : CellChange → Cell
  | .formula formula => { cell with formula }
  | .value value => { cell with value, formula := none }
  | .neither => cell

def ensureCell (sheet : Sheet) (coord : String) : Sheet :=
  match sheet.cells.get coord with
  | some _ => sheet
  | none =>
    { sheet with
      cells := sheet.cells.set coord ⟨sheet.nextId, coord, .null, none⟩
      nextId := sheet.nextId + 1 }

/-- An update of the cell at a key before the recalculation. -/
def changeCell (sheet : Sheet) (key : String) (change : CellChange) : Sheet :=
  let ensured := ensureCell sheet key
  match ensured.cells.get key with
  | some cell => { ensured with cells := ensured.cells.set key (cell.change change) }
  | none => ensured

variable (engine : Engine)

/-- The sheet with its cells recalculated, missing when that does not end. -/
def recalculated (sheet : Sheet) : Option Sheet :=
  (recalcSheet engine sheet.cells).map fun cells => { sheet with cells }

def updateCell (sheet : Sheet) (coord : String) (change : CellChange) : Option Sheet :=
  let key := normalizeCoord engine coord
  match parseCoord key with
  | none => none
  | some _ => recalculated engine (changeCell sheet key change)

/-- One update of several, ignored where its coordinate is invalid. -/
def updateOne (sheet : Sheet) (update : String × CellChange) : Sheet :=
  let key := normalizeCoord engine update.1
  match parseCoord key with
  | none => sheet
  | some _ => changeCell sheet key update.2

def updateCells (sheet : Sheet) (updates : List (String × CellChange)) : Option Sheet :=
  recalculated engine (updates.foldl (updateOne engine) sheet)

def shiftFormula (shifts : Shifts) (raw : String) : Option String :=
  if raw = "" then some raw
  else
    match parseExpression raw with
    | .ok (some expr) =>
      (rewriteRefs (makeRefMutator shifts) expr).map fun expr =>
        String.ofList ('=' :: stringifyExpression expr)
    | _ => some raw

def Cell.shiftFormula (cell : Cell) (shifts : Shifts) : Option Cell :=
  match cell.formula with
  | none => some cell
  | some raw => (Calc.shiftFormula shifts raw).map fun formula => { cell with formula := some formula }

/-- One turn of the loop of `structuralEdit`, with the cells moved so far. -/
def moveCell (shifts : Shifts) (next : Cells) (entry : String × Cell) : Option Cells :=
  match shiftCoord entry.1 shifts with
  | none => none
  | some none => some next
  | some (some coord) =>
    (entry.2.shiftFormula shifts).map fun cell => next.set coord { cell with coord }

def moveCells (shifts : Shifts) (cells : Cells) : Option Cells :=
  cells.entries.foldlM (moveCell shifts) .empty

def structuralEdit (sheet : Sheet) (kind : StructuralKind) (start count : Binary64)
  : Option Sheet :=
  (moveCells (makeShifts kind start count) sheet.cells).bind fun cells =>
    match kind with
    | .insertRows => recalculated engine { sheet with cells, rowCount := sheet.rowCount.add count }
    | .deleteRows => recalculated engine { sheet with cells, rowCount := sheet.rowCount.sub count }
    | .insertCols => recalculated engine { sheet with cells, colCount := sheet.colCount.add count }
    | .deleteCols => recalculated engine { sheet with cells, colCount := sheet.colCount.sub count }

inductive SheetStep
  | updateCell (coord : String) (change : CellChange)
  | updateCells (updates : List (String × CellChange))
  | edit (kind : StructuralKind) (start count : Binary64)

/-- Nothing is stored by a step that fails or does not end. -/
def SheetStep.apply (sheet : Sheet) : SheetStep → Option Sheet
  | updateCell coord change => Calc.updateCell engine sheet coord change
  | updateCells updates => Calc.updateCells engine sheet updates
  | edit kind start count => structuralEdit engine sheet kind start count

/-- The sheets that are reached by steps of some kind. -/
inductive SheetRun (allowed : Sheet → SheetStep → Prop) : Sheet → Prop
  | created (rowCount colCount : Binary64) : SheetRun allowed ⟨.empty, rowCount, colCount, 0⟩
  | step {sheet after : Sheet} (run : SheetRun allowed sheet) (step : SheetStep)
      (permitted : allowed sheet step) (applied : step.apply engine sheet = some after) :
      SheetRun allowed after

end

section

variable {engine : Engine} {cells after : Cells}

def SameIds (cells after : Cells) : Prop :=
  ∀ key, (after.get key).map Cell.id = (cells.get key).map Cell.id

theorem sameIds_store {key : String} {cell stored : Cell} (found : cells.get key = some cell)
    (same : stored.id = cell.id) : SameIds cells (cells.set key stored) := by
  intro other
  rw [get_set]
  split
  · next equal =>
      rw [equal, found]
      exact congrArg some same
  · rfl

theorem recalcCell_sameIds {memory : RecalcMemory} {coord : String} {next : Cells × RecalcMemory}
    (turn : recalcCell engine (cells, memory) coord = some next) : SameIds cells next.1 := by
  unfold recalcCell at turn
  dsimp only at turn
  split at turn
  · cases turn
    exact fun _ => rfl
  · next cell found =>
      split at turn
      · cases turn
        exact fun _ => rfl
      · cases turn
        exact sameIds_store found rfl
      · cases turn
        exact fun _ => rfl
      · obtain ⟨played, -, rfl⟩ := Option.map_eq_some_iff.mp turn
        exact sameIds_store found rfl

theorem recalcCells_sameIds {coords : List String} {state final : Cells × RecalcMemory}
    (turns : coords.foldlM (recalcCell engine) state = some final) : SameIds state.1 final.1 := by
  induction coords generalizing state with
  | nil =>
    cases turns
    exact fun _ => rfl
  | cons coord coords ih =>
    obtain ⟨next, turn, rest⟩ := Option.bind_eq_some_iff.mp turns
    have first : SameIds state.1 next.1 := recalcCell_sameIds turn
    exact fun key => (ih rest key).trans (first key)

theorem recalcSheet_sameIds (recalculation : recalcSheet engine cells = some after) :
    SameIds cells after := by
  obtain ⟨final, turns, rfl⟩ := Option.map_eq_some_iff.mp recalculation
  exact recalcCells_sameIds turns

theorem recalculated_sameIds {sheet result : Sheet} (recalculation : recalculated engine sheet =
    some result) : SameIds sheet.cells result.cells := by
  obtain ⟨cells, recalc, rfl⟩ := Option.map_eq_some_iff.mp recalculation
  exact recalcSheet_sameIds recalc

theorem SameIds.present (same : SameIds cells after) {key : String} {cell : Cell}
    (found : after.get key = some cell) : ∃ before, cells.get key = some before ∧ before.id =
    cell.id := by
  have ids := same key
  rw [found, Option.map_some] at ids
  exact Option.map_eq_some_iff.mp ids.symm

end

variable {shifts : Shifts} {cells moved : Cells} {next after : Cells} {entry : String × Cell}
  {entries : List (String × Cell)}

/-- Every one of some entries is moved to where its coordinate is shifted. -/
structure Placed (shifts : Shifts) (entries : List (String × Cell)) (moved : Cells) : Prop where
  kept : ∀ entry ∈ entries, ∀ coord, shiftCoord entry.1 shifts = some (some coord) →
    ∃ cell, moved.get coord = some cell ∧ cell.id = entry.2.id
  only : ∀ coord cell, moved.get coord = some cell →
    ∃ entry ∈ entries, shiftCoord entry.1 shifts = some (some coord) ∧ entry.2.id = cell.id

/-- No two of some entries are moved to one coordinate. -/
def Apart (shifts : Shifts) (entries : List (String × Cell)) : Prop :=
  ∀ first ∈ entries, ∀ second ∈ entries, ∀ coord,
    shiftCoord first.1 shifts = some (some coord) → shiftCoord second.1 shifts = some (some coord) →
      first = second

theorem Cell.shiftFormula_id {cell shifted : Cell} (shift : cell.shiftFormula shifts =
    some shifted) : shifted.id = cell.id := by
  unfold Cell.shiftFormula at shift
  split at shift
  · cases shift
    rfl
  · obtain ⟨formula, -, rfl⟩ := Option.map_eq_some_iff.mp shift
    rfl

theorem moveCell_cases (turn : moveCell shifts next entry = some after) :
    (shiftCoord entry.1 shifts = some none ∧ after = next) ∨
      ∃ coord cell, shiftCoord entry.1 shifts = some (some coord) ∧ cell.id = entry.2.id ∧
        after = next.set coord cell := by
  unfold moveCell at turn
  split at turn
  · cases turn
  · next removed => exact .inl ⟨removed, (Option.some.inj turn).symm⟩
  · next coord shifted =>
      obtain ⟨cell, shift, rfl⟩ := Option.map_eq_some_iff.mp turn
      have idEq : cell.id = entry.2.id := Cell.shiftFormula_id shift
      exact .inr ⟨coord, { cell with coord }, shifted, idEq, rfl⟩

theorem Placed.turn (placed : Placed shifts entries next) (apart : Apart shifts (entry :: entries))
    (turn : moveCell shifts next entry = some after) : Placed shifts (entry :: entries) after := by
  rcases moveCell_cases turn with ⟨removed, rfl⟩ | ⟨coord, cell, shifted, idEq, rfl⟩
  · constructor
    · refine List.forall_mem_cons.mpr ⟨fun coord shifted => ?_, placed.kept⟩
      cases removed.symm.trans shifted
    · intro coord cell found
      obtain ⟨source, member, fact⟩ := placed.only coord cell found
      exact ⟨source, List.mem_cons_of_mem _ member, fact⟩
  · constructor
    · refine List.forall_mem_cons.mpr ⟨fun target targetEq => ?_,
      fun other member target targetEq => ?_⟩
      · cases shifted.symm.trans targetEq
        exact ⟨cell, get_set_self _ _ _, idEq⟩
      · by_cases same : target = coord
        · subst same
          have equal : entry = other := apart entry List.mem_cons_self other
            (List.mem_cons_of_mem _ member) target shifted targetEq
          exact ⟨cell, get_set_self _ _ _, equal ▸ idEq⟩
        · rw [get_set_of_ne _ _ same]
          exact placed.kept other member target targetEq
    · intro target found foundEq
      rw [get_set] at foundEq
      split at foundEq
      · next same =>
          cases foundEq
          exact ⟨entry, List.mem_cons_self, same ▸ shifted, idEq.symm⟩
      · obtain ⟨source, member, fact⟩ := placed.only target found foundEq
        exact ⟨source, List.mem_cons_of_mem _ member, fact⟩

theorem Placed.turns {done : List (String × Cell)}
    (placed : Placed shifts done next) (apart : Apart shifts (entries.reverse ++ done))
    (turns : entries.foldlM (moveCell shifts) next = some after) :
    Placed shifts (entries.reverse ++ done) after := by
  induction entries generalizing done next with
  | nil =>
    cases turns
    exact placed
  | cons entry entries ih =>
    obtain ⟨middle, turn, rest⟩ := Option.bind_eq_some_iff.mp turns
    rw [List.reverse_cons, List.append_assoc] at apart ⊢
    have inside : ∀ other ∈ entry :: done, other ∈ entries.reverse ++ ([entry] ++ done) :=
      fun other member => List.mem_append_right _ member
    have earlier : Apart shifts (entry :: done) := fun first firstMember second secondMember =>
      apart first (inside first firstMember) second (inside second secondMember)
    exact ih (placed.turn earlier turn) apart rest

theorem moveCells_placed (apart : Apart shifts cells.entries)
    (edit : moveCells shifts cells = some moved) : Placed shifts cells.entries moved := by
  have empty : Placed shifts [] .empty := by
    constructor
    · intro entry member
      cases member
    · intro coord cell found
      cases found
  have same : ∀ entry, entry ∈ cells.entries.reverse ++ [] ↔ entry ∈ cells.entries := by simp
  have reversed : Apart shifts (cells.entries.reverse ++ []) :=
    fun first firstMember second secondMember =>
    apart first ((same first).mp firstMember) second ((same second).mp secondMember)
  have placed := empty.turns reversed edit
  constructor
  · exact fun entry member => placed.kept entry ((same entry).mpr member)
  · intro coord cell found
    obtain ⟨entry, member, fact⟩ := placed.only coord cell found
    exact ⟨entry, (same entry).mp member, fact⟩

end P2PHub.Calc
