import Mathlib.Algebra.Order.BigOperators.Group.List
import P2PHub.FormulaErrors
import P2PHub.SheetRecalc

/-!
# Recalculations that return

The recursion of `recalcSheet` through `resolve` and the evaluator ends on
every sheet, cycles included, unless a formula asks for the cells of a range
whose loop does not end.  An evaluation may also throw anywhere, which `resolve`
and `recalcSheet` catch.
-/

namespace P2PHub.Calc

open Binary64

section

variable (engine : Engine) (evaluation : Expr → Evaluation CellValue)

/-- `cellRule` for some evaluation of formulas. -/
def cellRuleBy (cells : Cells) (key : String) : Rule String CellValue :=
  match cells.get key with
  | none => .given .null
  | some cell =>
    match cell.kind with
    | .absent => .given cell.value
    | .ordinary expr => .computed ((evaluation expr).rename (normalizeCoord engine))
    | .invalid => .given .null
    | .pending => .given .null

/-- `recalcCell` for some evaluation of formulas. -/
def recalcCellBy (state : Cells × RecalcMemory) (coord : String) : Option (Cells × RecalcMemory) :=
  let (cells, memory) := state
  let key := normalizeCoord engine coord
  match cells.get key with
  | none => some (cells, memory)
  | some cell =>
    match cell.kind with
    | .absent => some (cells, memory)
    | .invalid => some (cells.set key (cell.store syntaxError), memory)
    | .pending => some (cells, memory)
    | .ordinary expr =>
      let program := (evaluation expr).rename (normalizeCoord engine)
      (program.play
        (Rule.resolve (cellRuleBy engine evaluation cells) cycleError (searchDepth cells))
        memory).map fun found => (cells.set key (cell.store found.1), found.2)

def recalcSheetBy (cells : Cells) : Option Cells :=
  (cells.keys.foldlM (recalcCellBy engine evaluation) (cells, Rule.Memory.start)).map Prod.fst

theorem recalcSheetBy_evaluate (cells : Cells) :
    recalcSheetBy engine (evaluate engine) cells = recalcSheet engine cells :=
  rfl

/-- An evaluation that does what the evaluator does, until it throws.  What it
throws becomes an error value where it is caught. -/
def MayThrow : Prop :=
  ∀ expr, Lookup.Cut errorError (evaluate engine expr) (evaluation expr)

theorem mayThrow_evaluate : MayThrow engine (evaluate engine) :=
  fun expr => .refl errorError (evaluate engine expr)

/-- The recalculation returns, and so does every search with the keys visited
that were visited before. -/
structure RecalcReturns (cells : Cells) : Prop where
  returns : (recalcSheetBy engine evaluation cells).isSome
  restores : ∀ depth key memory value after,
    Rule.resolve (cellRuleBy engine evaluation cells) cycleError depth key memory =
      some (value, after) → after.visiting = memory.visiting

def formulaCell (raw : String) : Cell where
  id := 0
  coord := ""
  value := .null
  formula := some raw

/-- Whatever the cells hold, evaluating the formula asks for no range whose loop
does not end. -/
def FormulaEnds (raw : String) : Prop :=
  ∀ expr, (formulaCell raw).kind = .ordinary expr → ∀ values : String → CellValue,
    (evaluate engine expr).run (fun coord => values (normalizeCoord engine coord)) ≠ none

def FormulasAmong (formulas : String → Prop) (cells : Cells) : Prop :=
  ∀ key cell raw, cells.get key = some cell → cell.formula = some raw → formulas raw

end

section

variable {engine : Engine} {evaluation : Expr → Evaluation CellValue} {cells : Cells}
  {state : Cells × RecalcMemory} {formulas : String → Prop} {key : String} {cell : Cell}

theorem cellRuleBy_computed {program : Lookup String CellValue CellValue}
    (rule : cellRuleBy engine evaluation cells key = .computed program) :
    ∃ cell expr, cells.get key = some cell ∧ cell.kind = .ordinary expr ∧
      program = (evaluation expr).rename (normalizeCoord engine) := by
  unfold cellRuleBy at rule
  cases found : cells.get key with
  | none => simp [found] at rule
  | some cell =>
    cases kind : cell.kind with
    | ordinary expr =>
      simp only [found, kind, Rule.computed.injEq] at rule
      exact ⟨cell, expr, rfl, kind, rule.symm⟩
    | _ => simp [found, kind] at rule

theorem kind_formulaCell {raw : String} (formula : cell.formula = some raw) :
    (formulaCell raw).kind = cell.kind := by
  rw [Cell.kind, Cell.kind, formula]
  rfl

theorem formula_of_ordinary {expr : Expr} (kind : cell.kind = .ordinary expr) :
    ∃ raw, cell.formula = some raw := by
  cases formula : cell.formula with
  | none =>
    rw [Cell.kind, formula] at kind
    cases kind
  | some raw => exact ⟨raw, rfl⟩

theorem programs_end (throws : MayThrow engine evaluation)
    (among : FormulasAmong formulas cells) (ends : ∀ raw, formulas raw → FormulaEnds engine raw)
    (key : String) (program : Lookup String CellValue CellValue)
    (rule : cellRuleBy engine evaluation cells key = .computed program)
    (values : String → CellValue) : program.run values ≠ none := by
  obtain ⟨cell, expr, found, kind, rfl⟩ := cellRuleBy_computed rule
  obtain ⟨raw, formula⟩ := formula_of_ordinary kind
  have ordinary : (formulaCell raw).kind = .ordinary expr := (kind_formulaCell formula).trans kind
  rw [Lookup.run_rename]
  apply (throws expr).run_ne_none
  exact ends raw (among key cell raw found formula) expr ordinary values

theorem cellRuleBy_set (found : cells.get key = some cell) (formula : cell.kind ≠ .absent)
    (value : CellValue) : cellRuleBy engine evaluation (cells.set key (cell.store value)) =
      cellRuleBy engine evaluation cells := by
  funext other
  unfold cellRuleBy
  rw [OrderedMap.get_set]
  by_cases same : other = key
  · subst same
    rw [if_pos rfl, found]
    cases kind : cell.kind with
    | absent => exact absurd kind formula
    | _ => simp only [kind_store, kind]
  · rw [if_neg same]

/-- A recalculation under way: the rules are those of the sheet, and nothing is
visited between two turns. -/
structure Underway (engine : Engine) (evaluation : Expr → Evaluation CellValue) (cells : Cells)
    (state : Cells × RecalcMemory) : Prop where
  rules : cellRuleBy engine evaluation state.1 = cellRuleBy engine evaluation cells
  keys : state.1.keys = cells.keys
  idle : state.2.visiting = []

theorem Underway.store {memory : RecalcMemory} (underway : Underway engine evaluation cells state)
    (found : state.1.get key = some cell) (formula : cell.kind ≠ .absent) (value : CellValue)
    (idle : memory.visiting = []) :
    Underway engine evaluation cells (state.1.set key (cell.store value), memory) where
  rules := (cellRuleBy_set found formula value).trans underway.rules
  keys := by
    have present : state.1.get key ≠ none := by simp [found]
    exact (OrderedMap.keys_set_of_present present).trans underway.keys
  idle := idle

theorem Underway.turn (underway : Underway engine evaluation cells state)
    (ends : ∀ key program, cellRuleBy engine evaluation cells key = .computed program →
      ∀ values, program.run values ≠ none) (coord : String) :
    ∃ next, recalcCellBy engine evaluation state coord = some next ∧
      Underway engine evaluation cells next := by
  unfold recalcCellBy
  generalize normalizeCoord engine coord = key
  dsimp only
  cases found : state.1.get key with
  | none => exact ⟨state, rfl, underway⟩
  | some cell =>
    dsimp only
    cases kind : cell.kind with
    | absent | pending => exact ⟨state, rfl, underway⟩
    | invalid => exact ⟨_, rfl, underway.store found (by simp [kind]) _ underway.idle⟩
    | ordinary expr =>
      have rule : cellRuleBy engine evaluation cells key =
          .computed ((evaluation expr).rename (normalizeCoord engine)) := by
        rw [← underway.rules, cellRuleBy, found]
        simp only [kind]
      have knows (other : String) (program : Lookup String CellValue CellValue)
          (otherRule : cellRuleBy engine evaluation cells other = .computed program) :
          other ∈ cells.keys := by
        obtain ⟨otherCell, -, otherFound, -, -⟩ := cellRuleBy_computed otherRule
        exact OrderedMap.mem_keys.mpr ⟨otherCell, otherFound⟩
      have room : state.2.Room cells.keys (searchDepth state.1) := by
        refine ⟨?_, ?_, ?_⟩
        · rw [underway.idle]
          exact List.nodup_nil
        · rw [underway.idle]
          exact List.nil_subset _
        · rw [underway.idle, ← underway.keys, OrderedMap.keys, List.length_map, searchDepth]
          exact Nat.lt_succ_self _
      have clean : state.2.Clean := by
        rw [Rule.Memory.Clean, underway.idle]
        exact List.forall_mem_nil _
      have returns : ∀ (other : String) (memory : RecalcMemory),
          memory.Room (OrderedMap.keys cells) (searchDepth state.1) → memory.Clean →
            Rule.Returns cycleError memory other (Rule.resolve
              (cellRuleBy engine evaluation cells) cycleError (searchDepth state.1) other
              memory) :=
        fun _ _ room clean => Rule.resolve_returns ends knows room clean
      obtain ⟨value, memory, playEq, extended⟩ :=
        Rule.play_returns returns (fun values _ => ends key _ rule values) room clean
      rw [← underway.rules] at playEq
      refine ⟨(state.1.set key (cell.store value), memory), ?_,
        underway.store found (by simp [kind]) value (extended.visiting.trans underway.idle)⟩
      simp only [playEq, Option.map_some]

theorem Underway.turns (coords : List String) (underway : Underway engine evaluation cells state)
    (ends : ∀ key program, cellRuleBy engine evaluation cells key = .computed program →
      ∀ values, program.run values ≠ none) :
    ∃ final, coords.foldlM (recalcCellBy engine evaluation) state = some final ∧
      Underway engine evaluation cells final := by
  induction coords generalizing state with
  | nil => exact ⟨state, rfl, underway⟩
  | cons coord coords ih =>
    obtain ⟨next, nextEq, nextUnderway⟩ := underway.turn ends coord
    obtain ⟨final, finalEq, finalUnderway⟩ := ih nextUnderway
    refine ⟨final, ?_, finalUnderway⟩
    rw [List.foldlM_cons, nextEq]
    exact finalEq

theorem recalcReturns_of_ends (throws : MayThrow engine evaluation)
    (among : FormulasAmong formulas cells) (ends : ∀ raw, formulas raw → FormulaEnds engine raw) :
    RecalcReturns engine evaluation cells where
  returns := by
    have start : Underway engine evaluation cells (cells, Rule.Memory.start) := ⟨rfl, rfl, rfl⟩
    obtain ⟨final, finalEq, -⟩ := start.turns cells.keys (programs_end throws among ends)
    rw [recalcSheetBy, finalEq]
    rfl
  restores _ _ _ _ _ found := Rule.resolve_visiting found

end

section

variable {engine : Engine}

def plainCell (value : CellValue) : Cell where
  id := 0
  coord := ""
  value := value
  formula := none

/-- The sheet that holds a table of values under some keys. -/
def tableSheet (values : String → CellValue) (keys : List String) : Cells :=
  keys.foldr (fun key cells => cells.set key (plainCell (values key))) .empty

theorem get_tableSheet (values : String → CellValue) (keys : List String) (key : String) :
    (tableSheet values keys).get key =
      if key ∈ keys then some (plainCell (values key)) else none := by
  induction keys with
  | nil => exact OrderedMap.get_empty key
  | cons first keys ih =>
    have step : tableSheet values (first :: keys) =
        (tableSheet values keys).set first (plainCell (values first)) := rfl
    rw [step, OrderedMap.get_set, ih]
    by_cases same : key = first
    · subst same
      simp
    · simp [same]

/-- A key in capital letters which is not among some keys. -/
def freshKey (keys : List String) : String :=
  String.ofList (List.replicate ((keys.map String.length).sum + 1) 'A')

theorem freshKey_not_mem (keys : List String) : freshKey keys ∉ keys := by
  intro member
  have bound : (freshKey keys).length ≤ (keys.map String.length).sum :=
    List.single_le_sum (fun _ _ => Nat.zero_le _) _ (List.mem_map_of_mem member)
  rw [freshKey, String.length_ofList, List.length_replicate] at bound
  omega

theorem normalizeCoord_freshKey (keys : List String) :
    normalizeCoord engine (freshKey keys) = freshKey keys := by
  rw [freshKey, normalizeCoord, String.toList_ofList, trim_of_visible]
  · congr 1
    generalize (keys.map String.length).sum + 1 = length
    rw [toUpperCase]
    induction length with
    | zero => rfl
    | succ length ih =>
      rw [List.replicate_succ, List.flatMap_cons, ih]
      rfl
  · intro char member
    rw [List.eq_of_mem_replicate member]
    decide

theorem foldlM_eq_none {State Item : Type} {step : State → Item → Option State} {state : State}
    {items : List Item} {bad : Item}
    (each : ∀ item ∈ items, step state item = none ∨ step state item = some state)
    (member : bad ∈ items) (fails : step state bad = none) : items.foldlM step state = none := by
  induction items with
  | nil => cases member
  | cons first items ih =>
    obtain ⟨head, rest⟩ := List.forall_mem_cons.mp each
    rw [List.foldlM_cons]
    rcases head with failed | same
    · rw [failed]
      rfl
    · rcases List.mem_cons.mp member with rfl | later
      · rw [fails] at same
        cases same
      · rw [same]
        exact ih rest later

/-- A formula that sticks on a table of values hangs the sheet which holds the
table and the formula. -/
theorem exists_hanging_sheet {raw : String} {expr : Expr} {values : String → CellValue}
    (kind : (formulaCell raw).kind = .ordinary expr)
    (sticks : (evaluate engine expr).run (fun coord => values (normalizeCoord engine coord)) =
    none) : ∃ cells, FormulasAmong (· = raw) cells ∧ recalcSheet engine cells = none := by
  let program := (evaluate engine expr).rename (normalizeCoord engine)
  let keys := program.reads values
  let cells := (tableSheet values keys).set (freshKey keys) (formulaCell raw)
  have stored (key : String) : cells.get key = if key = freshKey keys then some (formulaCell raw)
      else if key ∈ keys then some (plainCell (values key)) else none := by
    rw [OrderedMap.get_set, get_tableSheet]
  have programSticks : program.run values = none := by
    rw [Lookup.run_rename]
    exact sticks
  have given : ∀ key ∈ keys, cellRule engine cells key = .given (values key) := by
    intro key member
    have apart : key ≠ freshKey keys := fun same => freshKey_not_mem keys (same ▸ member)
    rw [cellRule, stored key, if_neg apart, if_pos member]
    rfl
  have hangs (coord : String) (own : normalizeCoord engine coord = freshKey keys) :
      recalcCell engine (cells, Rule.Memory.start) coord = none := by
    have stuck : program.play (Rule.resolve (cellRule engine cells) cycleError (searchDepth cells))
        Rule.Memory.start = none :=
      Rule.play_stuck given Rule.Memory.Sound.start rfl programSticks
    unfold recalcCell
    dsimp only
    rw [stored, if_pos own]
    dsimp only
    rw [kind]
    dsimp only
    rw [stuck]
    rfl
  have turn (coord : String) : recalcCell engine (cells, Rule.Memory.start) coord = none ∨
        recalcCell engine (cells, Rule.Memory.start) coord = some (cells, Rule.Memory.start) := by
    by_cases own : normalizeCoord engine coord = freshKey keys
    · exact Or.inl (hangs coord own)
    · right
      unfold recalcCell
      dsimp only
      rw [stored, if_neg own]
      by_cases tabled : normalizeCoord engine coord ∈ keys
      · rw [if_pos tabled]
        rfl
      · rw [if_neg tabled]
  refine ⟨cells, ?_, ?_⟩
  · intro key cell text found formula
    rw [stored] at found
    split at found
    · cases found
      exact (Option.some.inj formula).symm
    · split at found
      · cases found
        cases formula
      · cases found
  · have present : freshKey keys ∈ cells.keys := by
      apply OrderedMap.mem_keys.mpr
      exact ⟨formulaCell raw, by rw [stored, if_pos rfl]⟩
    have fails := hangs (freshKey keys) (normalizeCoord_freshKey keys)
    rw [recalcSheet, foldlM_eq_none (fun coord _ => turn coord) present fails]
    rfl

end

/-- The sheets with formulas among some texts are all recalculated, whatever
their evaluations throw, if and only if no formula among the texts can ask for a
range whose loop does not end. -/
theorem recalcSheet_returns_iff (engine : Engine) (formulas : String → Prop) :
    (∀ evaluation cells, MayThrow engine evaluation → FormulasAmong formulas cells →
        RecalcReturns engine evaluation cells) ↔ ∀ raw, formulas raw → FormulaEnds engine raw := by
  constructor
  · intro returns raw isFormula expr kind values sticks
    obtain ⟨cells, among, hangs⟩ := exists_hanging_sheet kind sticks
    have returned := returns (evaluate engine) cells (mayThrow_evaluate engine)
      (fun key cell text found formula => among key cell text found formula ▸ isFormula)
    have isSome := returned.returns
    rw [recalcSheetBy_evaluate, hangs] at isSome
    cases isSome
  · intro ends evaluation cells throws among
    exact recalcReturns_of_ends throws among ends

theorem countUp_stalls {number last : Binary64} (below : number.le last)
    (still : number.add (ofInt 1) = number) (fuel : Nat) : countUp fuel number last = none := by
  induction fuel with
  | zero => rfl
  | succ fuel ih =>
    rw [countUp, below, if_pos rfl, still, ih]
    rfl

theorem cellsBetween_stalls {col row : Binary64} (sameCol : minOf col col = col ∧ maxOf col col =
    col) (sameRow : minOf row row = row ∧ maxOf row row = row)
    (allowed : (((col.sub col).add (ofInt 1)).le (ofInt 0) ||
      ((row.sub row).add (ofInt 1)).le (ofInt 0) || (ofInt maxRangeCells).lt
        (((col.sub col).add (ofInt 1)).mul ((row.sub row).add (ofInt 1)))) = false)
    (below : row.le row) (still : row.add (ofInt 1) = row) :
    cellsBetween ⟨col, row⟩ ⟨col, row⟩ = none := by
  rw [cellsBetween]
  rw [sameCol.1, sameCol.2, sameRow.1, sameRow.2, allowed, countUp_stalls below still]
  rfl

def farCell : RefNode where
  coord := "A9007199254740994"
  colAbs := false
  rowAbs := false

theorem rangeCoords_farCell : rangeCoords farCell farCell = none := by
  have parsed : parseRange (farCell.coord.toList ++ ':' :: farCell.coord.toList) =
      some ⟨farCell.coord, farCell.coord⟩ := by
    decide +kernel
  have coord : parseCoord farCell.coord = some ⟨ofInt 0, ofInt (2 ^ 53)⟩ := by
    decide +kernel
  have stalls : cellsBetween ⟨ofInt 0, ofInt (2 ^ 53)⟩ ⟨ofInt 0, ofInt (2 ^ 53)⟩ = none := by
    apply cellsBetween_stalls <;> decide +kernel
  rw [rangeCoords, parsed]
  dsimp only
  rw [rangeCells, coord]
  exact stalls

/-- A sheet of one cell, whose formula sums a range of one cell. -/
def farSheet : Cells :=
  OrderedMap.empty.set "B1"
    { formulaCell "=SUM(A9007199254740994:A9007199254740994)" with coord := "B1" }

theorem recalcSheet_hangs : ¬∀ engine evaluation cells, MayThrow engine evaluation →
      RecalcReturns engine evaluation cells := by
  intro returns
  have returned := (returns asciiEngine (evaluate asciiEngine) farSheet
    (mayThrow_evaluate asciiEngine)).returns
  have sticks : evaluate asciiEngine (.func "SUM" [.range farCell farCell]) = .stuck := by
    rw [evaluate, evalFunction]
    rw [flattenArgs, flattenArg, resolveRange, rangeCoords_farCell]
    rfl
  have kind : ({ formulaCell "=SUM(A9007199254740994:A9007199254740994)" with
      coord := "B1" } : Cell).kind = .ordinary (.func "SUM" [.range farCell farCell]) := rfl
  have keys : farSheet.keys = ["B1"] := by
    decide +kernel
  have found : farSheet.get (normalizeCoord asciiEngine "B1") =
      some { formulaCell "=SUM(A9007199254740994:A9007199254740994)" with coord := "B1" } := by
    decide +kernel
  have hangs : recalcCellBy asciiEngine (evaluate asciiEngine) (farSheet, Rule.Memory.start) "B1" =
      none := by
    unfold recalcCellBy
    dsimp only
    rw [found]
    dsimp only
    rw [kind]
    dsimp only
    rw [sticks]
    rfl
  rw [recalcSheetBy, keys, List.foldlM_cons, hangs] at returned
  cases returned

end P2PHub.Calc
