import P2PHub.SheetRecalc

/-!
# What a recalculation means

The fixpoint that a recalculation reaches, its cycles and the order of the
cells, and what a calculated value depends on.
-/

namespace P2PHub.Calc

open OrderedMap Rule

section

variable (engine : Engine) (cells : Cells)

/-- The ordinary formula at a key refers to the cell at another. -/
def SheetRefers (key other : String) : Prop :=
  ∃ cell expr, cells.get key = some cell ∧ cell.kind = .ordinary expr ∧
    ∃ coord, expr.Mentions coord ∧ other = normalizeCoord engine coord

/-- Formula cells are under normal keys, and their ranges can be enumerated. -/
structure WellKeyed : Prop where
  normal : ∀ key cell expr, cells.get key = some cell → cell.kind = .ordinary expr →
    normalizeCoord engine key = key
  enumerable : ∀ key cell expr, cells.get key = some cell → cell.kind = .ordinary expr →
    expr.Enumerable

/-- A cell that the search takes for empty although a value is stored in it. -/
def Misread (key : String) : Prop :=
  ∃ cell, cells.get key = some cell ∧
    (cell.kind = .invalid ∨ cell.kind = .pending ∧ cell.value ≠ .null)

/-- No formula reads a cell that the search takes for empty and the sheet does not. -/
def ReadsStored : Prop :=
  ∀ values, Solution (cellRule engine cells) cycleError values →
    ∀ key cell expr, cells.get key = some cell → cell.kind = .ordinary expr →
      ∀ coord ∈ (evaluate engine expr).reads (fun coord => values (normalizeCoord engine coord)),
        ¬Misread cells (normalizeCoord engine coord)

/-- Every ordinary formula has the value that is stored in its cell. -/
def AtFixpoint : Prop :=
  ∀ key cell expr, cells.get key = some cell → cell.kind = .ordinary expr →
    (evaluate engine expr).run (storedValue engine cells) = some cell.value

end

section

variable {engine : Engine} {cells : Cells} {values : String → CellValue} {key : String}
    {cell : Cell}
  {expr : Expr} {first : Cell}

theorem cellRule_ordinary (found : cells.get key = some cell) (kind : cell.kind = .ordinary expr) :
    cellRule engine cells key =
      .computed ((evaluate engine expr).rename (normalizeCoord engine)) := by
  rw [cellRule, found]
  simp only [kind]

theorem cellRule_computed {program : Lookup String CellValue CellValue}
    (rule : cellRule engine cells key = .computed program) :
    ∃ cell expr, cells.get key = some cell ∧ cell.kind = .ordinary expr ∧
      program = (evaluate engine expr).rename (normalizeCoord engine) := by
  unfold cellRule at rule
  cases found : cells.get key with
  | none => simp [found] at rule
  | some cell =>
    cases kind : cell.kind with
    | ordinary expr =>
      simp only [found, kind, computed.injEq] at rule
      exact ⟨cell, expr, rfl, kind, rule.symm⟩
    | _ => simp [found, kind] at rule

theorem cellRule_given (found : cells.get key = some cell) (absent : cell.kind = .absent) :
    cellRule engine cells key = .given cell.value := by
  rw [cellRule, found]
  simp only [absent]

theorem cellRule_pending (found : cells.get key = some cell) (pending : cell.kind = .pending) :
    cellRule engine cells key = .given .null := by
  rw [cellRule, found]
  simp only [pending]

theorem cellRule_missing (missing : cells.get key = none) :
    cellRule engine cells key = .given .null := by
  rw [cellRule, missing]

theorem cellRule_referring (keyed : WellKeyed engine cells) :
    Referring (cellRule engine cells) (SheetRefers engine cells) cells.keys := by
  constructor
  · intro key program rule
    obtain ⟨cell, expr, found, kind, rfl⟩ := cellRule_computed rule
    apply Lookup.Within.rename
    apply (within_mentions (keyed.enumerable key cell expr found kind)).mono
    intro coord mentioned
    exact ⟨cell, expr, found, kind, coord, mentioned, rfl⟩
  · intro key program rule
    obtain ⟨cell, expr, found, -, -⟩ := cellRule_computed rule
    exact mem_keys.mpr ⟨cell, found⟩

/-- What is stored after a recalculation that stores a solution. -/
def Solved (engine : Engine) (cells : Cells) (values : String → CellValue) (after : Cells) : Prop :=
  cellRule engine after = cellRule engine cells ∧
    ∀ key, after.get key = (cells.get key).map (if key ∈ cells.keys.map (normalizeCoord engine) then
      finalCell values key else id)

theorem recalcSheet_solved (solution : Solution (cellRule engine cells) cycleError values) :
    ∃ after, recalcSheet engine cells = some after ∧ Solved engine cells values after := by
  obtain ⟨after, afterEq, ruleEq, stored⟩ := recalcSheet_solution solution
  refine ⟨after, afterEq, ruleEq, fun key => ?_⟩
  rw [stored key]
  cases cells.get key with
  | none => rfl
  | some =>
    split <;> rfl

theorem Solved.ordinary {after : Cells} (solved : Solved engine cells values after)
    (keyed : WellKeyed engine cells) (found : after.get key = some cell)
    (kind : cell.kind = .ordinary expr) :
    (∃ before, cells.get key = some before ∧ before.kind = .ordinary expr) ∧
      cell.value = values key := by
  rw [solved.2 key] at found
  obtain ⟨before, beforeFound, rfl⟩ := Option.map_eq_some_iff.mp found
  have beforeKind : before.kind = .ordinary expr := by
    rw [← kind]
    split
    · exact (kind_finalCell values key before).symm
    · rfl
  have normal : key ∈ cells.keys.map (normalizeCoord engine) := by
    have keyMember : key ∈ cells.keys := mem_keys.mpr ⟨before, beforeFound⟩
    exact List.mem_map.mpr ⟨key, keyMember, keyed.normal key before expr beforeFound beforeKind⟩
  refine ⟨⟨before, beforeFound, beforeKind⟩, ?_⟩
  rw [if_pos normal, finalCell, beforeKind]
  rfl

theorem Solved.storedValue {after : Cells} (solved : Solved engine cells values after)
    (solution : Solution (cellRule engine cells) cycleError values)
    (keyed : WellKeyed engine cells) {coord : String}
    (sound : ¬Misread cells (normalizeCoord engine coord)) :
    storedValue engine after coord = values (normalizeCoord engine coord) := by
  generalize keyEq : normalizeCoord engine coord = key at sound
  rw [Calc.storedValue, keyEq]
  cases afterFound : after.get key with
  | none =>
    have missing : cells.get key = none := by
      rw [solved.2 key] at afterFound
      exact Option.map_eq_none_iff.mp afterFound
    exact (solution.given key _ (cellRule_missing missing)).symm
  | some cell =>
    cases kind : cell.kind with
    | ordinary => exact (solved.ordinary keyed afterFound kind).2
    | absent =>
      have rule : cellRule engine _ key = _ := cellRule_given afterFound kind
      rw [solved.1] at rule
      exact (solution.given key _ rule).symm
    | invalid =>
      rw [solved.2 key] at afterFound
      obtain ⟨before, beforeFound, rfl⟩ := Option.map_eq_some_iff.mp afterFound
      refine absurd ⟨before, beforeFound, .inl ?_⟩ sound
      rw [← kind]
      split
      · exact (kind_finalCell values key before).symm
      · rfl
    | pending =>
      have rule : cellRule engine _ key = _ := cellRule_pending afterFound kind
      rw [solved.1] at rule
      rw [solution.given key _ rule]
      rw [solved.2 key] at afterFound
      obtain ⟨before, beforeFound, beforeEq⟩ := Option.map_eq_some_iff.mp afterFound
      have kindEq : before.kind = .pending := by
        rw [← kind, ← beforeEq]
        split
        · exact (kind_finalCell values key before).symm
        · rfl
      have same : cell = before := by
        rw [← beforeEq]
        split
        · rw [finalCell, kindEq]
        · rfl
      by_contra stored
      exact sound ⟨before, beforeFound, .inr ⟨kindEq, same ▸ stored⟩⟩

def twoCells (first second : Cell) : Cells :=
  (empty.set first.coord first).set second.coord second

theorem get_twoCells {second : Cell} (found : (twoCells first second).get key = some cell) :
    (key = second.coord ∧ cell = second) ∨ (key = first.coord ∧ cell = first) := by
  rw [twoCells, get_set, get_set] at found
  split at found
  · next same => exact .inl ⟨same, (Option.some.inj found).symm⟩
  · split at found
    · next same => exact .inr ⟨same, (Option.some.inj found).symm⟩
    · cases found

theorem acyclic_of_sources {source : String}
    (edges : ∀ key other, SheetRefers engine cells key other → key = source ∧ other ≠ source) :
    ∀ key, ¬Relation.TransGen (SheetRefers engine cells) key key := by
  intro key around
  obtain ⟨_, first, -⟩ := Relation.TransGen.head'_iff.mp around
  obtain ⟨_, -, last⟩ := Relation.TransGen.tail'_iff.mp around
  obtain ⟨-, apart⟩ := edges _ _ last
  exact apart (edges _ _ first).1

theorem run_cell (ref : RefNode) (values : String → CellValue) :
    (evaluate engine (.cell ref)).run values = some (values ref.coord) := by
  rw [evaluate]
  rfl

theorem mentions_cell {ref : RefNode} {coord : String}
    (mentioned : (Expr.cell ref).Mentions coord) : coord = ref.coord := by
  obtain ⟨reference, member, coords, coordsEq, inCoords⟩ := mentioned
  obtain rfl := List.mem_singleton.mp member
  cases coordsEq
  exact List.mem_singleton.mp inCoords

/-- The cell `A2` with the formula `=A1`. -/
def copyingCell : Cell :=
  ⟨1, "A2", .null, some "=A1"⟩

theorem copyingCell_kind : copyingCell.kind = .ordinary (.cell ⟨"A1", false, false⟩) :=
  rfl

theorem copying_edges (coordEq : first.coord = "A1")
    (plain : ∀ expr, first.kind ≠ .ordinary expr) (key other : String)
    (refers : SheetRefers asciiEngine (twoCells first copyingCell) key other) :
    key = "A2" ∧ other ≠ "A2" := by
  obtain ⟨cell, expr, found, kind, coord, mentioned, rfl⟩ := refers
  rcases get_twoCells found with ⟨rfl, rfl⟩ | ⟨rfl, rfl⟩
  · cases copyingCell_kind.symm.trans kind
    obtain rfl := mentions_cell mentioned
    exact ⟨rfl, by decide⟩
  · exact absurd kind (plain expr)

theorem copying_keyed (plain : ∀ expr, first.kind ≠ .ordinary expr) :
    WellKeyed asciiEngine (twoCells first copyingCell) := by
  constructor
  · intro key cell expr found kind
    rcases get_twoCells found with ⟨rfl, rfl⟩ | ⟨rfl, rfl⟩
    · decide
    · exact absurd kind (plain expr)
  · intro key cell expr found kind reference member
    rcases get_twoCells found with ⟨rfl, rfl⟩ | ⟨rfl, rfl⟩
    · cases copyingCell_kind.symm.trans kind
      obtain rfl := List.mem_singleton.mp member
      rfl
    · exact absurd kind (plain expr)

def valueCell : Cell :=
  ⟨0, "A1", .bool true, none⟩

/-- An AI formula in `A1` with the text that was stored for it. -/
def answeredCell : Cell :=
  ⟨0, "A1", .text "x", some "=AI(\"x\",B1)"⟩

theorem answeredCell_kind : answeredCell.kind = .pending :=
  rfl

end

variable (engine : Engine) (cells : Cells)

/-- The cells in any other order of their keys end with the same values. -/
def OrderIndependent : Prop :=
  ∀ others : Cells, (∀ key, others.get key = cells.get key) →
    ∃ after othersAfter, recalcSheet engine cells = some after ∧
      recalcSheet engine others = some othersAfter ∧ ∀ key, othersAfter.get key = after.get key

/-- The value that a formula which reads the cell sees. -/
def resolvedValue (key : String) : CellValue :=
  match cellRule engine cells key with
  | .given value => value
  | .computed _ =>
    match cells.get key with
    | some cell => cell.value
    | none => .null

/-- Each ordinary formula cell whose value depends on itself holds the error of cycles. -/
def CyclesMarked : Prop :=
  ∀ key cell expr, cells.get key = some cell → cell.kind = .ordinary expr →
    Relation.TransGen (Reads (cellRule engine cells) (resolvedValue engine cells)) key key →
      cell.value = cycleError

/-- The equations of the formulas have a solution that marks every cell which
depends on itself. -/
def CyclesAgree : Prop :=
  ∃ values, Solution (cellRule engine cells) cycleError values

variable {engine cells}

theorem cellRule_congr {others : Cells} (same : ∀ key, others.get key = cells.get key) :
    cellRule engine others = cellRule engine cells := by
  funext key
  rw [cellRule, same key, cellRule]

theorem mem_keys_congr {others : Cells} (same : ∀ key, others.get key = cells.get key)
    (key : String) : key ∈ others.keys ↔ key ∈ cells.keys := by
  simp only [mem_keys, same]

theorem Solved.resolvedValue_eq {values : String → CellValue} {after : Cells}
    (solved : Solved engine cells values after) (keyed : WellKeyed engine cells)
    (solution : Solution (cellRule engine cells) cycleError values) :
    resolvedValue engine after = values := by
  funext key
  unfold resolvedValue
  cases rule : cellRule engine after key with
  | given value =>
    rw [solved.1] at rule
    exact (solution.given key value rule).symm
  | computed =>
    obtain ⟨cell, expr, found, kind, -⟩ := cellRule_computed rule
    simp only [found]
    exact (solved.ordinary keyed found kind).2

/-- The cell `A1` with the formula `=A2`. -/
def returningCell : Cell :=
  ⟨0, "A1", .null, some "=A2"⟩

theorem returningCell_kind : returningCell.kind = .ordinary (.cell ⟨"A2", false, false⟩) :=
  rfl

/-- The cell `A1` with a formula that appends to the value of `A2`. -/
def appendingCell : Cell :=
  ⟨0, "A1", .null, some "=A2&\"x\""⟩

theorem appendingCell_kind :
    appendingCell.kind = .ordinary (.binary .concat (.cell ⟨"A2", false, false⟩) (.str "x")) :=
  rfl

def appended (value : CellValue) : CellValue :=
  textValue (toText value ++ ['x'])

/-- What the two formulas of a cycle look up. -/
structure AppendingCycle (cells : Cells) : Prop where
  first : ∃ value, cells.get "A1" = some (appendingCell.store value)
  second : ∃ value, cells.get "A2" = some (copyingCell.store value)
  length : cells.keys.length = 2

namespace AppendingCycle

variable (cycle : AppendingCycle cells) {memory after : RecalcMemory}

def firstProgram : Lookup String CellValue CellValue :=
  .read "A2" fun value => .done (appended value)

def secondProgram : Lookup String CellValue CellValue :=
  .read "A1" .done

theorem firstProgram_eq :
    (evaluate asciiEngine (.binary .concat (.cell ⟨"A2", false, false⟩) (.str "x"))).rename
      (normalizeCoord asciiEngine) = firstProgram := by
  rw [evaluate, evaluate, evaluate]
  rfl

theorem secondProgram_eq :
    (evaluate asciiEngine (.cell ⟨"A1", false, false⟩)).rename (normalizeCoord asciiEngine) =
      secondProgram := by
  have normal : normalizeCoord asciiEngine "A1" = "A1" := by decide
  rw [evaluate, Lookup.look, Lookup.rename, normal]
  rfl

include cycle

theorem firstRule : cellRule asciiEngine cells "A1" = .computed firstProgram := by
  obtain ⟨value, found⟩ := cycle.first
  rw [cellRule_ordinary found appendingCell_kind, firstProgram_eq]

theorem secondRule : cellRule asciiEngine cells "A2" = .computed secondProgram := by
  obtain ⟨value, found⟩ := cycle.second
  rw [cellRule_ordinary found copyingCell_kind, secondProgram_eq]

theorem depth : searchDepth cells = 3 := by
  have length := cycle.length
  rw [keys, List.length_map] at length
  rw [searchDepth, length]

theorem firstTurn {value : CellValue}
    (played : firstProgram.play (resolve (cellRule asciiEngine cells) cycleError 3) memory =
      some (value, after)) : recalcCell asciiEngine (cells, memory) "A1" =
      some (cells.set "A1" (appendingCell.store value), after) := by
  obtain ⟨old, found⟩ := cycle.first
  have normal : normalizeCoord asciiEngine "A1" = "A1" := by decide
  unfold recalcCell
  simp only [normal, found, kind_store, appendingCell_kind, firstProgram_eq, cycle.depth, played,
    Option.map_some, store_store]

theorem secondTurn {value : CellValue}
    (played : secondProgram.play (resolve (cellRule asciiEngine cells) cycleError 3) memory =
      some (value, after)) : recalcCell asciiEngine (cells, memory) "A2" =
      some (cells.set "A2" (copyingCell.store value), after) := by
  obtain ⟨old, found⟩ := cycle.second
  have normal : normalizeCoord asciiEngine "A2" = "A2" := by decide
  unfold recalcCell
  simp only [normal, found, kind_store, copyingCell_kind, secondProgram_eq, cycle.depth, played,
    Option.map_some, store_store]

theorem set_first (value : CellValue) :
    AppendingCycle (cells.set "A1" (appendingCell.store value)) := by
  obtain ⟨old, found⟩ := cycle.first
  refine ⟨⟨value, get_set_self _ _ _⟩, ?_, ?_⟩
  · rw [get_set_of_ne _ _ (by decide)]
    exact cycle.second
  · rw [keys_set_of_present (by rw [found]; exact nofun)]
    exact cycle.length

theorem set_second (value : CellValue) :
    AppendingCycle (cells.set "A2" (copyingCell.store value)) := by
  obtain ⟨old, found⟩ := cycle.second
  refine ⟨?_, ⟨value, get_set_self _ _ _⟩, ?_⟩
  · rw [get_set_of_ne _ _ (by decide)]
    exact cycle.first
  · rw [keys_set_of_present (by rw [found]; exact nofun)]
    exact cycle.length

theorem forwards (order : cells.keys = ["A1", "A2"]) : ∃ after,
    recalcSheet asciiEngine cells = some after ∧
      after.get "A1" = some (appendingCell.store (appended (appended cycleError))) := by
  have firstPlay : firstProgram.play (resolve (cellRule asciiEngine cells) cycleError 3)
      .start = some (appended (appended cycleError),
        ⟨[("A2", appended cycleError), ("A1", appended cycleError)], []⟩) := by
    simp [firstProgram, Lookup.play, resolve, cycle.firstRule, cycle.secondRule,
      secondProgram, Memory.start, Memory.visit, Memory.leave, Memory.remember]
  have next := cycle.set_first (appended (appended cycleError))
  have secondPlay : secondProgram.play (resolve (cellRule asciiEngine
      (cells.set "A1" (appendingCell.store (appended (appended cycleError))))) cycleError 3)
      ⟨[("A2", appended cycleError), ("A1", appended cycleError)], []⟩ = some (appended cycleError,
          ⟨[("A2", appended cycleError), ("A1", appended cycleError)], []⟩) := by
    simp [secondProgram, Lookup.play, resolve, List.lookup_cons]
  rw [recalcSheet, order]
  simp only [List.foldlM_cons, cycle.firstTurn firstPlay, Option.bind_eq_bind, Option.bind_some,
    next.secondTurn secondPlay, List.foldlM_nil, pure, Option.map_some]
  refine ⟨_, rfl, ?_⟩
  rw [get_set_of_ne _ _ (by decide), get_set_self]

theorem backwards (order : cells.keys = ["A2", "A1"]) : ∃ after,
    recalcSheet asciiEngine cells = some after ∧
      after.get "A1" = some (appendingCell.store (appended cycleError)) := by
  have secondPlay : secondProgram.play (resolve (cellRule asciiEngine cells) cycleError 3)
      .start = some (appended cycleError,
        ⟨[("A1", appended cycleError), ("A2", cycleError)], []⟩) := by
    simp [firstProgram, Lookup.play, resolve, cycle.firstRule, cycle.secondRule,
      secondProgram, Memory.start, Memory.visit, Memory.leave, Memory.remember]
  have next := cycle.set_second (appended cycleError)
  have firstPlay : firstProgram.play (resolve (cellRule asciiEngine
      (cells.set "A2" (copyingCell.store (appended cycleError)))) cycleError 3)
      ⟨[("A1", appended cycleError), ("A2", cycleError)], []⟩ =
        some (appended cycleError, ⟨[("A1", appended cycleError), ("A2", cycleError)], []⟩) := by
    simp [firstProgram, Lookup.play, resolve, List.lookup_cons]
  rw [recalcSheet, order]
  simp only [List.foldlM_cons, cycle.secondTurn secondPlay, Option.bind_eq_bind, Option.bind_some,
    next.firstTurn firstPlay, List.foldlM_nil, pure, Option.map_some]
  exact ⟨_, rfl, get_set_self _ _ _⟩

end AppendingCycle

end P2PHub.Calc
