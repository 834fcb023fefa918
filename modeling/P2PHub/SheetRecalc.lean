import P2PHub.FormulaEvaluation
import P2PHub.InsertionOrderedMap

/-!
# Recalculating a sheet

`recalcSheet` of `plugins/calc/src/index.ts`: every ordinary formula cell is
evaluated in the order of the keys, and a formula that it refers to is searched
for in depth, with a memory that the whole recalculation shares.
-/

namespace P2PHub.Calc

open Binary64 OrderedMap

section

/-- A cell with the identity of its object.  A formula that is no string is none. -/
structure Cell where
  id : Nat
  coord : String
  value : CellValue
  formula : Option String
  deriving DecidableEq

abbrev Cells :=
  OrderedMap String Cell

def Cell.store (cell : Cell) (value : CellValue) : Cell :=
  { cell with value }

inductive CellFormula
  | absent
  | invalid
  | pending
  | ordinary (expr : Expr)

/-- An AI formula, and a text that is no formula, are left pending. -/
def Cell.kind (cell : Cell) : CellFormula :=
  match cell.formula with
  | none => .absent
  | some raw =>
    if raw = "" then .absent
    else
      match parseExpression raw with
      | .error _ => .invalid
      | .ok none => .pending
      | .ok (some expr) => if isAIFormula expr then .pending else .ordinary expr

variable (engine : Engine)

def normalizeCoord (coord : String) : String :=
  String.ofList (toUpperCase engine (trim coord.toList))

/-- How `resolve` finds the value of a cell. -/
def cellRule (cells : Cells) (key : String) : Rule String CellValue :=
  match cells.get key with
  | none => .given .null
  | some cell =>
    match cell.kind with
    | .absent => .given cell.value
    | .ordinary expr => .computed ((evaluate engine expr).rename (normalizeCoord engine))
    | .invalid => .given .null
    | .pending => .given .null

abbrev RecalcMemory :=
  Rule.Memory String CellValue

/-- As many searches can be under way at once as there are cells. -/
def searchDepth (cells : Cells) : Nat :=
  cells.entries.length + 1

/-- One turn of the loop of `recalcSheet`. -/
def recalcCell (state : Cells × RecalcMemory) (coord : String) : Option (Cells × RecalcMemory) :=
  let (cells, memory) := state
  let key := normalizeCoord engine coord
  match cells.get key with
  | none => some (cells, memory)
  | some cell =>
    match cell.kind with
    | .absent => some (cells, memory)
    | .invalid => some (cells.set key (cell.store syntaxError), memory)
    | .pending => some (cells, memory)
    | .ordinary expr =>
      let program := (evaluate engine expr).rename (normalizeCoord engine)
      (program.play (Rule.resolve (cellRule engine cells) cycleError (searchDepth cells))
        memory).map fun found => (cells.set key (cell.store found.1), found.2)

/-- Nothing is returned when an evaluation does not end. -/
def recalcSheet (cells : Cells) : Option Cells :=
  (cells.keys.foldlM (recalcCell engine) (cells, Rule.Memory.start)).map Prod.fst

def storedValue (cells : Cells) (coord : String) : CellValue :=
  match cells.get (normalizeCoord engine coord) with
  | some cell => cell.value
  | none => .null

end

def finalCell (values : String → CellValue) (key : String) (cell : Cell) : Cell :=
  match cell.kind with
  | .invalid => cell.store syntaxError
  | .ordinary _ => cell.store (values key)
  | _ => cell

@[simp]
theorem kind_store (cell : Cell) (value : CellValue) : (cell.store value).kind = cell.kind :=
  rfl

@[simp] theorem store_store (cell : Cell) (first second : CellValue) :
    (cell.store first).store second = cell.store second :=
  rfl

@[simp] theorem kind_finalCell (values : String → CellValue) (key : String) (cell : Cell) :
    (finalCell values key cell).kind = cell.kind := by
  unfold finalCell
  split <;> rfl

@[simp] theorem store_finalCell (values : String → CellValue) (key : String) (cell : Cell)
    (value : CellValue) : (finalCell values key cell).store value = cell.store value := by
  unfold finalCell
  split <;> rfl

theorem finalCell_of_absent {values : String → CellValue} {key : String} {cell : Cell}
    (absent : cell.kind = .absent) : finalCell values key cell = cell := by
  rw [finalCell, absent]

/-- How far a recalculation has come: the cells of some keys are stored. -/
structure Recalculated (cells : Cells) (values : String → CellValue) (done : List String)
    (state : Cells × RecalcMemory) : Prop where
  keys : state.1.keys = cells.keys
  stored : ∀ key, state.1.get key =
    (cells.get key).map fun cell => if key ∈ done then finalCell values key cell else cell
  sound : state.2.Sound values
  idle : state.2.visiting = []

variable {engine : Engine} {cells : Cells} {values : String → CellValue} {done : List String}
  {state : Cells × RecalcMemory} {coord : String}

theorem Recalculated.start : Recalculated cells values [] (cells, Rule.Memory.start) := by
  refine ⟨rfl, fun key => ?_, Rule.Memory.Sound.start, rfl⟩
  cases cells.get key <;> simp

section

variable (reached : Recalculated cells values done state)
include reached

theorem Recalculated.cellRule_eq : cellRule engine state.1 = cellRule engine cells := by
  funext key
  unfold cellRule
  rw [reached.stored key]
  cases cells.get key with
  | none => rfl
  | some cell =>
    by_cases isDone : key ∈ done
    · simp only [Option.map_some, if_pos isDone, kind_finalCell]
      cases kind : cell.kind with
      | absent => simp only [finalCell_of_absent kind]
      | _ => rfl
    · simp only [Option.map_some, if_neg isDone]

theorem Recalculated.skip (key : String)
    (final : ∀ cell, cells.get key = some cell → finalCell values key cell = cell) :
    Recalculated cells values (key :: done) state := by
  refine ⟨reached.keys, fun other => ?_, reached.sound, reached.idle⟩
  rw [reached.stored other]
  cases found : cells.get other with
  | none => rfl
  | some cell =>
    by_cases same : other = key
    · subst same
      simp [final cell found]
    · simp [same]

theorem Recalculated.store {key : String} {cell : Cell} {value : CellValue} {memory : RecalcMemory}
    (found : cells.get key = some cell)
    (final : finalCell values key cell = cell.store value) (sound : memory.Sound values)
    (idle : memory.visiting = []) :
    Recalculated cells values (key :: done) (state.1.set key (cell.store value), memory) := by
  have present : state.1.get key ≠ none := by simp [reached.stored key, found]
  refine ⟨?_, fun other => ?_, sound, idle⟩
  · rw [keys_set_of_present present, reached.keys]
  · rw [get_set]
    by_cases same : other = key
    · subst same
      simp [found, final]
    · simp [same, reached.stored other]

end

variable (solution : Rule.Solution (cellRule engine cells) cycleError values)

include solution

theorem Recalculated.turn (reached : Recalculated cells values done state) (coord : String) :
    ∃ next, recalcCell engine state coord = some next ∧
      Recalculated cells values (normalizeCoord engine coord :: done) next := by
  generalize keyEq : normalizeCoord engine coord = key
  have stored := reached.stored key
  unfold recalcCell
  simp only [keyEq]
  cases found : cells.get key with
  | none =>
    rw [found] at stored
    rw [stored]
    exact ⟨_, rfl, reached.skip key fun cell other => by cases found.symm.trans other⟩
  | some cell =>
    have kept (final : finalCell values key cell = cell) :
        Recalculated cells values (key :: done) state := by
      refine reached.skip key fun other otherFound => ?_
      cases found.symm.trans otherFound
      exact final
    obtain ⟨current, currentEq, kindEq, storeEq⟩ : ∃ current, state.1.get key = some current ∧
        current.kind = cell.kind ∧ ∀ value, current.store value = cell.store value := by
      rw [stored, found, Option.map_some]
      split
      · exact ⟨_, rfl, kind_finalCell _ _ _, store_finalCell _ _ _⟩
      · exact ⟨_, rfl, rfl, fun _ => rfl⟩
    rw [currentEq]
    simp only [kindEq, storeEq]
    cases kind : cell.kind with
    | absent => exact ⟨_, rfl, kept (finalCell_of_absent kind)⟩
    | pending => exact ⟨_, rfl, kept (by rw [finalCell, kind])⟩
    | invalid =>
      refine ⟨_, rfl, reached.store found ?_ reached.sound reached.idle⟩
      rw [finalCell, kind]
    | ordinary expr =>
      have rule : cellRule engine cells key =
          .computed ((evaluate engine expr).rename (normalizeCoord engine)) := by
        rw [cellRule, found]
        simp only [kind]
      have knows (other : String) (program : Lookup String CellValue CellValue)
          (otherRule : cellRule engine cells other = .computed program) :
          other ∈ cells.keys := by
        rw [OrderedMap.mem_keys]
        cases otherFound : cells.get other with
        | none =>
          rw [cellRule, otherFound] at otherRule
          cases otherRule
        | some value => exact ⟨value, rfl⟩
      have room : cells.keys.length < searchDepth state.1 := by
        have lengthEq : state.1.keys.length = cells.keys.length := by rw [reached.keys]
        rw [OrderedMap.keys, List.length_map] at lengthEq
        rw [searchDepth]
        omega
      obtain ⟨memory, playEq, sound, idle⟩ :=
        Rule.play_found (fun _ _ => Rule.resolve_found solution knows)
          (solution.computed key _ rule)
          (Rule.Memory.Ready.idle reached.sound reached.idle room)
      rw [← reached.cellRule_eq] at playEq
      refine ⟨(state.1.set key (cell.store (values key)), memory), ?_, ?_⟩
      · simp only [playEq, Option.map_some]
      · refine reached.store found ?_ sound (idle.trans reached.idle)
        rw [finalCell, kind]

theorem Recalculated.turns (coords : List String) (reached : Recalculated cells values done state) :
    ∃ final, coords.foldlM (recalcCell engine) state = some final ∧
      Recalculated cells values ((coords.map (normalizeCoord engine)).reverse ++ done) final := by
  induction coords generalizing done state with
  | nil => exact ⟨state, rfl, reached⟩
  | cons coord coords ih =>
    obtain ⟨next, nextEq, nextReached⟩ := reached.turn solution coord
    obtain ⟨final, finalEq, finalReached⟩ := ih nextReached
    refine ⟨final, ?_, ?_⟩
    · rw [List.foldlM_cons, nextEq]
      exact finalEq
    · simpa using finalReached

theorem recalcSheet_solution : ∃ after, recalcSheet engine cells = some after ∧
    cellRule engine after = cellRule engine cells ∧
    ∀ key, after.get key = (cells.get key).map fun cell =>
      if key ∈ cells.keys.map (normalizeCoord engine) then finalCell values key cell else cell := by
  obtain ⟨final, finalEq, reached⟩ := Recalculated.start.turns solution cells.keys
  refine ⟨final.1, ?_, reached.cellRule_eq, fun key => ?_⟩
  · rw [recalcSheet, finalEq]
    rfl
  · rw [reached.stored key]
    simp only [List.append_nil, List.mem_reverse]

end P2PHub.Calc
