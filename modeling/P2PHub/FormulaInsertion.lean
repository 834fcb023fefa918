import P2PHub.FormulaShifts

/-!
# Inserting rows and columns

An insertion moves the cells of a sheet apart.  A formula whose references are
moved along has the value that it had before: ranges grow by empty cells, and
no function sees an empty cell of a range.
-/

namespace P2PHub.Calc

open Binary64

section

/-- A map that keeps the order of the indices up to a limit. -/
def Increasing (limit : ℕ) (move : ℕ → ℕ) : Prop :=
  ∀ first second, first < second → second ≤ limit → move first < move second

variable {limit first second : ℕ} {move : ℕ → ℕ}

theorem Increasing.le (increasing : Increasing limit move) (ordered : first ≤ second)
    (inside : second ≤ limit) : move first ≤ move second := by
  rcases ordered.lt_or_eq with less | rfl
  · exact (increasing first second less inside).le
  · exact le_rfl

theorem Increasing.min_max (increasing : Increasing limit move) (firstInside : first ≤ limit)
    (secondInside : second ≤ limit) : min (move first) (move second) = move (min first second) ∧
      max (move first) (move second) = move (max first second) := by
  rcases Nat.le_total first second with ordered | ordered
  · have moved := increasing.le ordered secondInside
    simp only [Nat.min_eq_left ordered, Nat.min_eq_left moved, Nat.max_eq_right ordered,
      Nat.max_eq_right moved, and_self]
  · have moved := increasing.le ordered firstInside
    simp only [Nat.min_eq_right ordered, Nat.min_eq_right moved, Nat.max_eq_left ordered,
      Nat.max_eq_left moved, and_self]

theorem pairwise_between (first second : ℕ) : (between first second).Pairwise (· < ·) :=
  List.pairwise_lt_range'

section

variable (increasing : Increasing limit move) (firstInside : first ≤ limit)
    (secondInside : second ≤ limit)
include increasing firstInside secondInside

theorem filter_between : (between (move first)
    (move second)).filter (fun index => index ∈ (between first second).map move) =
      (between first second).map move := by
  obtain ⟨minEq, maxEq⟩ := increasing.min_max firstInside secondInside
  have sorted : ((between first second).map move).Pairwise (· < ·) := by
    rw [List.pairwise_map]
    apply (pairwise_between first second).imp_of_mem
    intro one other _ otherMember less
    have bound := mem_between.mp otherMember
    exact increasing one other less (by omega)
  apply ((pairwise_between _ _).filter _).eq_of_mem_iff sorted
  intro index
  simp only [List.mem_filter, decide_eq_true_eq, and_iff_right_iff_imp]
  intro member
  obtain ⟨source, sourceMember, rfl⟩ := List.mem_map.mp member
  have bound := mem_between.mp sourceMember
  rw [mem_between, minEq, maxEq]
  exact ⟨increasing.le bound.1 (by omega), increasing.le bound.2 (by omega)⟩

theorem mem_of_moved_between {index : ℕ} (inside : index ≤ limit)
    (member : move index ∈ between (move first) (move second)) : index ∈ between first second := by
  obtain ⟨minEq, maxEq⟩ := increasing.min_max firstInside secondInside
  rw [mem_between, minEq, maxEq] at member
  rw [mem_between]
  constructor
  · by_contra below
    have moved := increasing index (min first second) (by omega) (by omega)
    omega
  · by_contra above
    have moved := increasing (max first second) index (by omega) inside
    omega

end

def present (values : List CellValue) : List CellValue :=
  values.filter fun value => value ≠ .null

theorem present_append (first second : List CellValue) :
    present (first ++ second) = present first ++ present second :=
  List.filter_append ..

theorem present_flatMap_filter {list : List ℕ} {part : ℕ → List CellValue} {shown : ℕ → Bool}
    (hidden : ∀ index ∈ list, shown index = false → present (part index) = []) :
    present (list.flatMap part) = present ((list.filter shown).flatMap part) := by
  induction list with
  | nil => rfl
  | cons index list ih =>
    obtain ⟨head, rest⟩ := List.forall_mem_cons.mp hidden
    rw [List.flatMap_cons, present_append, ih rest]
    cases showsIndex : shown index with
    | true => rw [List.filter_cons_of_pos showsIndex, List.flatMap_cons, present_append]
    | false =>
      rw [List.filter_cons_of_neg (by rw [showsIndex]; exact Bool.false_ne_true),
        head showsIndex, List.nil_append]

/-- The values of the cells in some rows and columns, row by row. -/
def gridValues (values : String → CellValue) (rows cols : List ℕ) : List CellValue :=
  rows.flatMap fun row => cols.map fun col => values (label col row)

variable {values shifted : String → CellValue} {rowMove colMove : ℕ → ℕ}
  {startRow stopRow startCol stopCol : ℕ}

theorem present_row {row moved : ℕ} (increasing : Increasing limit colMove)
    (startInside : startCol ≤ limit) (stopInside : stopCol ≤ limit)
    (same : ∀ col ∈ between startCol stopCol,
      shifted (label (colMove col) moved) = values (label col row))
    (empty : ∀ col ∈ between (colMove startCol) (colMove stopCol),
      col ∉ (between startCol stopCol).map colMove → shifted (label col moved) = .null) :
    present ((between (colMove startCol)
      (colMove stopCol)).map fun col => shifted (label col moved)) =
      present ((between startCol stopCol).map fun col => values (label col row)) := by
  have hidden : ∀ col ∈ between (colMove startCol) (colMove stopCol),
      decide (col ∈ (between startCol stopCol).map colMove) = false →
        present [shifted (label col moved)] = [] := by
    intro col member notMoved
    rw [empty col member (of_decide_eq_false notMoved)]
    rfl
  rw [← List.flatMap_pure_eq_map, ← List.flatMap_pure_eq_map]
  refine (present_flatMap_filter hidden).trans ?_
  rw [filter_between increasing startInside stopInside, List.flatMap_map]
  exact congrArg present (List.flatMap_congr fun col member => congrArg ([·]) (same col member))

theorem present_grid (rowsIncrease : Increasing limit rowMove)
    (colsIncrease : Increasing limit colMove)
    (rowsInside : startRow ≤ limit ∧ stopRow ≤ limit) (colsInside : startCol ≤ limit ∧
    stopCol ≤ limit) (same : ∀ col ∈ between startCol stopCol, ∀ row ∈ between startRow stopRow,
      shifted (label (colMove col) (rowMove row)) = values (label col row))
    (empty : ∀ col ∈ between (colMove startCol) (colMove stopCol),
      ∀ row ∈ between (rowMove startRow) (rowMove stopRow),
        col ∉ (between startCol stopCol).map colMove ∨ row ∉ (between startRow stopRow).map rowMove →
          shifted (label col row) = .null) :
    present (gridValues shifted (between (rowMove startRow) (rowMove stopRow))
        (between (colMove startCol) (colMove stopCol))) =
      present (gridValues values (between startRow stopRow) (between startCol stopCol)) := by
  have hidden : ∀ row ∈ between (rowMove startRow) (rowMove stopRow),
      decide (row ∈ (between startRow stopRow).map rowMove) = false →
        present ((between (colMove startCol) (colMove stopCol)).map
          fun col => shifted (label col row)) = [] := by
    intro row member notMoved
    apply List.filter_eq_nil_iff.mpr
    intro value valueMember
    obtain ⟨col, colMember, rfl⟩ := List.mem_map.mp valueMember
    rw [empty col colMember row member (.inr (of_decide_eq_false notMoved))]
    decide
  have moved : ∀ row ∈ (between startRow stopRow).map rowMove,
      row ∈ between (rowMove startRow) (rowMove stopRow) := by
    rw [← filter_between rowsIncrease rowsInside.1 rowsInside.2]
    exact fun row => List.mem_of_mem_filter
  rw [gridValues, present_flatMap_filter hidden,
    filter_between rowsIncrease rowsInside.1 rowsInside.2,
    List.flatMap_map, gridValues, present, present, List.filter_flatMap, List.filter_flatMap]
  apply List.flatMap_congr
  intro row member
  apply present_row colsIncrease colsInside.1 colsInside.2
  · exact fun col colMember => same col colMember row member
  · intro col colMember notMoved
    exact empty col colMember _ (moved _ (List.mem_map_of_mem member)) (.inl notMoved)

end

def rowMove (kind : StructuralKind) (start : Binary64) (count : ℕ) : ℕ → ℕ :=
  match kind with
  | .insertRows => insertIndex start count
  | _ => id

def colMove (kind : StructuralKind) (start : Binary64) (count : ℕ) : ℕ → ℕ :=
  match kind with
  | .insertCols => insertIndex start count
  | _ => id

def StructuralKind.Inserts (kind : StructuralKind) : Prop :=
  kind = .insertRows ∨ kind = .insertCols

variable (kind : StructuralKind) (start : Binary64) (count : ℕ)

/-- The shifts of an insertion of so many rows or columns. -/
def insertShifts : Shifts :=
  makeShifts kind start (ofInt count)

/-- A coordinate whose numbers are exact, also when an insertion has moved it. -/
structure FitsAt (col row : ℕ) (coord : String) : Prop where
  coordEq : coord = label col row
  col : colMove kind start count col + 1 ≤ 2 ^ 53
  row : rowMove kind start count row + 1 ≤ 2 ^ 53

def Fits (coord : String) : Prop :=
  ∃ col row, FitsAt kind start count col row coord

/-- A sheet after an insertion: cells hold what was in the cells that were moved
there, and the others are empty. -/
structure InsertedSheet (values shifted : String → CellValue) : Prop where
  moved : ∀ coord other, Fits kind start count coord →
    shiftCoord coord (insertShifts kind start count) = some (some other) →
      shifted other = values coord
  empty : ∀ col row, col + 1 ≤ 2 ^ 53 → row + 1 ≤ 2 ^ 53 → (∀ coord, Fits kind start count coord →
      shiftCoord coord (insertShifts kind start count) ≠ some (some (label col row))) →
      shifted (label col row) = .null

def RefNode.Relative (ref : RefNode) : Prop :=
  ref.colAbs = false ∧ ref.rowAbs = false

/-- A reference without absolute markers that stays exact, and a range that
keeps to the limit of its size. -/
def Reference.Insertable : Reference → Prop
  | (ref, none) => ref.Relative ∧ Fits kind start count ref.coord
  | (first, some last) => first.Relative ∧ last.Relative ∧
      ∃ firstCol firstRow lastCol lastRow, FitsAt kind start count firstCol firstRow first.coord ∧
        FitsAt kind start count lastCol lastRow last.coord ∧
        (between (colMove kind start count firstCol) (colMove kind start count lastCol)).length *
          (between (rowMove kind start count firstRow) (rowMove kind start count lastRow)).length ≤
            maxRangeCells

def Expr.Insertable (expr : Expr) : Prop :=
  ∀ reference ∈ expr.references, Reference.Insertable kind start count reference

variable {kind start count} {col row : ℕ} {coord : String} {values shifted : String → CellValue}

theorem increasing_rowMove : Increasing (2 ^ 53) (rowMove kind start count) := by
  intro first second less inside
  cases kind with
  | insertRows => exact insertIndex_lt less inside
  | _ => exact less

theorem increasing_colMove : Increasing (2 ^ 53) (colMove kind start count) := by
  intro first second less inside
  cases kind with
  | insertCols => exact insertIndex_lt less inside
  | _ => exact less

theorem le_rowMove : row ≤ rowMove kind start count row := by
  cases kind with
  | insertRows => exact le_insertIndex
  | _ => exact le_rfl

theorem le_colMove : col ≤ colMove kind start count col := by
  cases kind with
  | insertCols => exact le_insertIndex
  | _ => exact le_rfl

theorem shiftInserted_move {index : ℕ} (exact : insertIndex start count index ≤ 2 ^ 53) :
    shiftInserted start (ofInt count) (ofInt index) = ofInt (insertIndex start count index : ℕ) :=
      by
  unfold insertIndex at exact ⊢
  unfold shiftInserted
  split at exact
  · next moves =>
      rw [if_pos moves, if_pos moves, add_ofInt (safe_ofNat (by omega)) (safe_ofNat (by omega))]
      rfl
  · next stays => rw [if_neg stays, if_neg stays]

theorem insertShifts_row (inserts : kind.Inserts) (exact : rowMove kind start count row ≤ 2 ^ 53) :
    (insertShifts kind start count).shiftRow (ofInt row) = ofInt (rowMove kind start count row : ℕ)
    := by
  rcases inserts with rfl | rfl
  · exact shiftInserted_move exact
  · rfl

theorem insertShifts_col (inserts : kind.Inserts) (exact : colMove kind start count col ≤ 2 ^ 53) :
    (insertShifts kind start count).shiftCol (ofInt col) = ofInt (colMove kind start count col : ℕ)
    := by
  rcases inserts with rfl | rfl
  · rfl
  · exact shiftInserted_move exact

theorem FitsAt.shiftCoord (fits : FitsAt kind start count col row coord) (inserts : kind.Inserts) :
    shiftCoord coord (insertShifts kind start count) =
      some (some (label (colMove kind start count col) (rowMove kind start count row))) := by
  have colBelow := fits.col
  have rowBelow := fits.row
  have colLe : col ≤ colMove kind start count col := le_colMove
  have rowLe : row ≤ rowMove kind start count row := le_rowMove
  rw [Calc.shiftCoord, fits.coordEq, parseCoord_label (by omega) (by omega)]
  dsimp only
  rw [insertShifts_row inserts (by omega), insertShifts_col inserts (by omega),
    not_negative (by omega), not_negative (by omega), coordToLabel_exact colBelow rowBelow]
  rfl

theorem FitsAt.mutate {ref : RefNode} (fits : FitsAt kind start count col row ref.coord)
    (inserts : kind.Inserts) (relative : ref.Relative) :
    makeRefMutator (insertShifts kind start count) ref =
      some { ref with coord := label (colMove kind start count col) (rowMove kind start count row) } := by
  have colBelow := fits.col
  have rowBelow := fits.row
  have colLe : col ≤ colMove kind start count col := le_colMove
  have rowLe : row ≤ rowMove kind start count row := le_rowMove
  rw [makeRefMutator, fits.coordEq, parseCoord_label (by omega) (by omega), relative.1, relative.2]
  simp only [Bool.false_eq_true, if_false]
  rw [insertShifts_row inserts (by omega), insertShifts_col inserts (by omega),
    not_negative (by omega), not_negative (by omega), coordToLabel_exact colBelow rowBelow]
  rfl

theorem label_ne_refError (col row : ℕ) : label col row ≠ refError := by
  intro same
  have texts := congrArg String.toList same
  rw [label, String.toList_ofList] at texts
  obtain ⟨first, rest, lettersEq⟩ := List.exists_cons_of_ne_nil (coordText_label col row).someLetter
  rw [lettersEq] at texts
  have head : first = '#' := (List.cons.inj texts).1
  have alpha := isAlpha_columnLetters first (by rw [lettersEq]; exact List.mem_cons_self)
  rw [head] at alpha
  cases alpha

section

variable (sheet : InsertedSheet kind start count values shifted) (inserts : kind.Inserts)
include sheet inserts

theorem InsertedSheet.same (fits : FitsAt kind start count col row coord) :
    shifted (label (colMove kind start count col) (rowMove kind start count row)) = values coord :=
  sheet.moved coord _ ⟨col, row, fits⟩ (fits.shiftCoord inserts)

theorem InsertedSheet.emptyAt (colExact : col + 1 ≤ 2 ^ 53) (rowExact : row + 1 ≤ 2 ^ 53)
    (apart : ∀ otherCol otherRow,
    FitsAt kind start count otherCol otherRow (label otherCol otherRow) →
      colMove kind start count otherCol = col → rowMove kind start count otherRow ≠ row) :
    shifted (label col row) = .null := by
  apply sheet.empty col row colExact rowExact
  rintro coord ⟨otherCol, otherRow, fits⟩ movedHere
  rw [fits.shiftCoord inserts] at movedHere
  obtain ⟨colEq, rowEq⟩ := label_injective (Option.some.inj (Option.some.inj movedHere))
  obtain rfl := fits.coordEq
  exact apart otherCol otherRow fits colEq rowEq

end

variable {first last : RefNode} {firstCol firstRow lastCol lastRow : ℕ}

theorem rangeCoords_labels (firstEq : first.coord = label firstCol firstRow)
    (lastEq : last.coord = label lastCol lastRow)
    (firstExact : firstCol + 1 ≤ 2 ^ 53 ∧ firstRow + 1 ≤ 2 ^ 53)
    (lastExact : lastCol + 1 ≤ 2 ^ 53 ∧ lastRow + 1 ≤ 2 ^ 53)
    (few : (between firstCol lastCol).length * (between firstRow lastRow).length ≤ maxRangeCells) :
    rangeCoords first last = some ((between firstRow lastRow).flatMap fun row =>
      (between firstCol lastCol).map fun col => label col row) := by
  rw [rangeCoords, firstEq, lastEq, parseRange_labels]
  exact rangeCells_labels firstExact.1 firstExact.2 lastExact.1 lastExact.2 few

theorem length_between_move {limit start stop : ℕ} {move : ℕ → ℕ}
    (increasing : Increasing limit move) (startInside : start ≤ limit) (stopInside : stop ≤ limit) :
    (between start stop).length ≤ (between (move start) (move stop)).length := by
  rw [← List.length_map move, ← filter_between increasing startInside stopInside]
  exact List.length_filter_le _ _

/-- The values of a range before and after an insertion. -/
structure RangeMoved (values shifted : String → CellValue) (coords moved : List String) : Prop where
  present : present (moved.map shifted) = present (coords.map values)
  first : (moved.map shifted).headD .null = (coords.map values).headD .null

theorem map_gridLabels (values : String → CellValue) (rows cols : List ℕ) :
    (rows.flatMap fun row => cols.map fun col => label col row).map values =
      gridValues values rows cols := by
  simp only [gridValues, List.map_flatMap, List.map_map, Function.comp_def]

theorem headD_gridValues (values : String → CellValue) (firstRow lastRow firstCol lastCol : ℕ) :
    (gridValues values (between firstRow lastRow) (between firstCol lastCol)).headD .null =
      values (label (min firstCol lastCol) (min firstRow lastRow)) := by
  have nonempty (one other : ℕ) : ∃ rest, between one other = min one other :: rest := by
    have more : max one other + 1 - min one other = max one other - min one other + 1 := by omega
    rw [between, more, List.range'_succ]
    exact ⟨_, rfl⟩
  obtain ⟨rows, rowsEq⟩ := nonempty firstRow lastRow
  obtain ⟨cols, colsEq⟩ := nonempty firstCol lastCol
  rw [gridValues, rowsEq, colsEq]
  rfl

theorem InsertedSheet.range (sheet : InsertedSheet kind start count values shifted)
    (inserts : kind.Inserts) (firstFits : FitsAt kind start count firstCol firstRow first.coord)
    (lastFits : FitsAt kind start count lastCol lastRow last.coord)
    (few : (between (colMove kind start count firstCol) (colMove kind start count lastCol)).length *
      (between (rowMove kind start count firstRow) (rowMove kind start count lastRow)).length ≤
        maxRangeCells) : ∃ coords moved, rangeCoords first last = some coords ∧ rangeCoords
        { first with coord := label (colMove kind start count firstCol) (rowMove kind start count firstRow) }
        { last with coord := label (colMove kind start count lastCol) (rowMove kind start count lastRow) } =
          some moved ∧ RangeMoved values shifted coords moved := by
  have firstColBelow := firstFits.col
  have firstRowBelow := firstFits.row
  have lastColBelow := lastFits.col
  have lastRowBelow := lastFits.row
  have firstColLe : firstCol ≤ colMove kind start count firstCol := le_colMove
  have firstRowLe : firstRow ≤ rowMove kind start count firstRow := le_rowMove
  have lastColLe : lastCol ≤ colMove kind start count lastCol := le_colMove
  have lastRowLe : lastRow ≤ rowMove kind start count lastRow := le_rowMove
  have rows : Increasing (2 ^ 53) (rowMove kind start count) := increasing_rowMove
  have cols : Increasing (2 ^ 53) (colMove kind start count) := increasing_colMove
  have fewBefore : (between firstCol lastCol).length * (between firstRow lastRow).length ≤
      maxRangeCells :=
    (Nat.mul_le_mul (length_between_move cols (by omega) (by omega))
      (length_between_move rows (by omega) (by omega))).trans few
  obtain ⟨minCol, maxCol⟩ := cols.min_max (show firstCol ≤ _ by omega) (show lastCol ≤ _ by omega)
  obtain ⟨minRow, maxRow⟩ := rows.min_max (show firstRow ≤ _ by omega) (show lastRow ≤ _ by omega)
  have fits {col row : ℕ} (colMember : col ∈ between firstCol lastCol)
      (rowMember : row ∈ between firstRow lastRow) :
      FitsAt kind start count col row (label col row) := by
    have colBounds := mem_between.mp colMember
    have rowBounds := mem_between.mp rowMember
    have colBelow := cols.le colBounds.2 (by omega)
    have rowBelow := rows.le rowBounds.2 (by omega)
    exact ⟨rfl, by omega, by omega⟩
  refine ⟨_, _, rangeCoords_labels firstFits.coordEq lastFits.coordEq ⟨by omega, by omega⟩
    ⟨by omega, by omega⟩ fewBefore, rangeCoords_labels rfl rfl ⟨firstColBelow, firstRowBelow⟩
    ⟨lastColBelow, lastRowBelow⟩ few, ?_, ?_⟩
  · rw [map_gridLabels, map_gridLabels]
    apply present_grid rows cols ⟨by omega, by omega⟩ ⟨by omega, by omega⟩
    · intro col colMember row rowMember
      exact sheet.same inserts (fits colMember rowMember)
    · intro col colMember row rowMember apart
      have colBounds := mem_between.mp colMember
      have rowBounds := mem_between.mp rowMember
      apply sheet.emptyAt inserts (by omega) (by omega)
      rintro otherCol otherRow otherFits rfl rfl
      have otherColLe : otherCol ≤ colMove kind start count otherCol := le_colMove
      have otherRowLe : otherRow ≤ rowMove kind start count otherRow := le_rowMove
      rcases apart with colApart | rowApart
      · apply colApart
        exact List.mem_map_of_mem
          (mem_of_moved_between cols (by omega) (by omega) (by omega) colMember)
      · apply rowApart
        exact List.mem_map_of_mem
          (mem_of_moved_between rows (by omega) (by omega) (by omega) rowMember)
  · rw [map_gridLabels, map_gridLabels, headD_gridValues, headD_gridValues, minCol, minRow]
    apply sheet.same inserts
    apply fits
    · exact mem_between.mpr ⟨le_rfl, by omega⟩
    · exact mem_between.mpr ⟨le_rfl, by omega⟩

end P2PHub.Calc
