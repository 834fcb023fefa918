import P2PHub.StructuralEdits

/-!
# What structural edits do to the cells

On exact coordinates a shift is a map of indices: an insertion keeps them all
apart, a deletion removes an interval and closes the gap.  In a run whose
updates and edits stay exact, an edit keeps every cell that it does not delete.
-/

namespace P2PHub.Calc

open Binary64 OrderedMap

section

/-- Where an edit moves the rows, none for a deleted one. -/
def rowAxis (kind : StructuralKind) (start : Binary64) (count index : ℕ) : Option ℕ :=
  match kind with
  | .insertRows => some (insertIndex start count index)
  | .deleteRows => deleteIndex start count index
  | _ => some index

def colAxis (kind : StructuralKind) (start : Binary64) (count index : ℕ) : Option ℕ :=
  match kind with
  | .insertCols => some (insertIndex start count index)
  | .deleteCols => deleteIndex start count index
  | _ => some index

/-- The index lies in the interval that a deletion names. -/
def InInterval (start count index : Binary64) : Prop :=
  ∃ first amount value, start.toRat? = some first ∧ count.toRat? = some amount ∧
    index.toRat? = some value ∧ first ≤ value ∧ value < first + amount

/-- The interval begins at zero or later, and no index lies between its end and
the end as it is rounded. -/
def IntervalFits (start : Binary64) (count : ℕ) : Prop :=
  ∃ first, start.toRat? = some first ∧ 0 ≤ first ∧ ∀ index : ℕ, index ≤ 2 ^ 53 →
    (ofInt index).lt (start.add (ofInt count)) = decide ((index : ℚ) < first + count)

structure AxisFits (shift : Binary64 → Binary64) (axis : ℕ → Option ℕ) (index : ℕ) : Prop where
  moved : ∀ target, axis index = some target →
    shift (ofInt index) = ofInt target ∧ target + 1 ≤ 2 ^ 53
  gone : axis index = none → shift (ofInt index) = ofInt (-1)

variable {start : Binary64} {count index first second target : ℕ}

theorem axisFits_id (exact : index + 1 ≤ 2 ^ 53) : AxisFits id some index := by
  constructor
  · intro target same
    cases same
    exact ⟨rfl, exact⟩
  · exact nofun

theorem axisFits_insert (exact : insertIndex start count index + 1 ≤ 2 ^ 53) :
    AxisFits (shiftInserted start (ofInt count)) (fun index => some (insertIndex start count index))
      index := by
  constructor
  · intro target same
    cases same
    exact ⟨shiftInserted_move (by omega), exact⟩
  · exact nofun

theorem lt_start {value : ℚ} (startEq : start.toRat? = some value) (exact : index ≤ 2 ^ 53) :
    (ofInt index).lt start = decide ((index : ℚ) < value) := by
  rw [ofInt_of_safe (safe_ofNat exact)]
  cases start with
  | finite other representable =>
    cases startEq
    simp [lt]
  | _ => cases startEq

section

variable (fits : IntervalFits start count)
include fits

theorem deleteIndex_cases (exact : index ≤ 2 ^ 53) :
    ∃ value, start.toRat? = some value ∧ 0 ≤ value ∧
      (((index : ℚ) < value ∧ deleteIndex start count index = some index) ∨
        (value ≤ index ∧ (index : ℚ) < value + count ∧ deleteIndex start count index = none) ∨
          (value + count ≤ index ∧ deleteIndex start count index = some (index - count))) := by
  obtain ⟨value, startEq, nonneg, rounded⟩ := fits
  refine ⟨value, startEq, nonneg, ?_⟩
  unfold deleteIndex
  rw [lt_start startEq exact, rounded index exact]
  by_cases below : (index : ℚ) < value
  · exact .inl ⟨below, if_pos (decide_eq_true below)⟩
  · rw [decide_eq_false below, if_neg Bool.false_ne_true]
    by_cases inside : (index : ℚ) < value + count
    · exact .inr (.inl ⟨not_lt.mp below, inside, if_pos (decide_eq_true inside)⟩)
    · refine .inr (.inr ⟨not_lt.mp inside, ?_⟩)
      rw [decide_eq_false inside, if_neg Bool.false_ne_true]

theorem axisFits_delete (exact : index + 1 ≤ 2 ^ 53) :
    AxisFits (shiftDeleted start (ofInt count)) (deleteIndex start count) index := by
  obtain ⟨value, startEq, nonneg, rounded⟩ := id fits
  have shifted : shiftDeleted start (ofInt count) (ofInt index) =
      if (index : ℚ) < value then ofInt index
      else if (index : ℚ) < value + count then ofInt (-1)
      else (ofInt index).sub (ofInt count) := by
    rw [shiftDeleted, lt_start startEq (by omega), rounded index (by omega)]
    simp only [decide_eq_true_eq]
  obtain ⟨other, otherEq, -, facts⟩ := deleteIndex_cases fits (show index ≤ 2 ^ 53 by omega)
  cases startEq.symm.trans otherEq
  rcases facts with ⟨below, equal⟩ | ⟨above, inside, equal⟩ | ⟨passed, equal⟩
  · rw [if_pos below] at shifted
    constructor
    · intro target same
      cases equal.symm.trans same
      exact ⟨shifted, exact⟩
    · intro gone
      cases equal.symm.trans gone
  · rw [if_neg (not_lt.mpr above), if_pos inside] at shifted
    constructor
    · intro target same
      cases equal.symm.trans same
    · exact fun _ => shifted
  · have few : count ≤ index := by
      have cast : (count : ℚ) ≤ index := by linarith
      exact_mod_cast cast
    have notBelow : ¬(index : ℚ) < value := by
      linarith
    rw [if_neg notBelow, if_neg (not_lt.mpr passed),
      sub_ofInt (safe_ofNat (by omega)) (safe_ofNat (by omega)), ← Int.ofNat_sub few] at shifted
    constructor
    · intro target same
      cases equal.symm.trans same
      exact ⟨shifted, by omega⟩
    · intro gone
      cases equal.symm.trans gone

theorem deleteIndex_injective (firstExact : first ≤ 2 ^ 53)
    (secondExact : second ≤ 2 ^ 53) (firstEq : deleteIndex start count first = some target)
    (secondEq : deleteIndex start count second = some target) : first = second := by
  obtain ⟨value, startEq, nonneg, firstCase⟩ := deleteIndex_cases fits firstExact
  obtain ⟨other, otherEq, -, secondCase⟩ := deleteIndex_cases fits secondExact
  cases startEq.symm.trans otherEq
  have beyond {index : ℕ} (passed : value + count ≤ index) : count ≤ index := by
    have cast : (count : ℚ) ≤ index := by linarith
    exact_mod_cast cast
  have apart {low high : ℕ} (below : (low : ℚ) < value) (passed : value + count ≤ high) :
      low ≠ high - count := by
    intro same
    have cast : (high : ℚ) = low + count := by
      have sum : high = low + count := by
        have few := beyond passed
        omega
      exact_mod_cast sum
    linarith
  rcases firstCase with ⟨firstBelow, firstIs⟩ | ⟨-, -, firstIs⟩ | ⟨firstPassed, firstIs⟩
  · cases firstIs.symm.trans firstEq
    rcases secondCase with ⟨-, secondIs⟩ | ⟨-, -, secondIs⟩ | ⟨secondPassed, secondIs⟩
    · exact (Option.some.inj (secondIs.symm.trans secondEq)).symm
    · cases secondIs.symm.trans secondEq
    · exact absurd (Option.some.inj (secondIs.symm.trans secondEq)).symm (apart firstBelow secondPassed)
  · cases firstIs.symm.trans firstEq
  · cases firstIs.symm.trans firstEq
    rcases secondCase with ⟨secondBelow, secondIs⟩ | ⟨-, -, secondIs⟩ | ⟨secondPassed, secondIs⟩
    · exact absurd (Option.some.inj (secondIs.symm.trans secondEq)) (apart secondBelow firstPassed)
    · cases secondIs.symm.trans secondEq
    · have equal := Option.some.inj (secondIs.symm.trans secondEq)
      have firstFew := beyond firstPassed
      have secondFew := beyond secondPassed
      omega

end

theorem insertIndex_injective (firstExact : first ≤ 2 ^ 53) (secondExact : second ≤ 2 ^ 53)
    (same : insertIndex start count first = insertIndex start count second) : first = second := by
  rcases Nat.lt_trichotomy first second with less | equal | more
  · have moved : insertIndex start count first < insertIndex start count second :=
      insertIndex_lt less secondExact
    omega
  · exact equal
  · have moved : insertIndex start count second < insertIndex start count first :=
      insertIndex_lt more firstExact
    omega

theorem toRat?_ofInt (exact : index ≤ 2 ^ 53) : (ofInt index).toRat? = some (index : ℚ) := by
  rw [ofInt_of_safe (safe_ofNat exact)]
  simp [toRat?]

theorem ofInt_of_toRat? {number : Binary64} (countEq : number.toRat? = some (count : ℚ)) :
    number = ofInt count := by
  cases number with
  | finite value representable =>
    cases countEq
    rw [ofInt, Int.cast_natCast, ofRat_of_representable representable]
  | _ => cases countEq

theorem deleteIndex_eq_none_iff {number : Binary64} (countEq : number.toRat? = some (count : ℚ))
    (fits : IntervalFits start count) (exact : index ≤ 2 ^ 53) :
    deleteIndex start count index = none ↔ InInterval start number (ofInt index) := by
  obtain ⟨value, startEq, -, facts⟩ := deleteIndex_cases fits exact
  have interval : InInterval start number (ofInt index) ↔
      value ≤ index ∧ (index : ℚ) < value + count := by
    constructor
    · rintro ⟨low, amount, other, lowEq, amountEq, otherEq, bounds⟩
      cases startEq.symm.trans lowEq
      cases countEq.symm.trans amountEq
      cases (toRat?_ofInt exact).symm.trans otherEq
      exact bounds
    · exact fun bounds => ⟨value, count, index, startEq, countEq, toRat?_ofInt exact, bounds⟩
  rw [interval]
  rcases facts with ⟨below, equal⟩ | ⟨above, inside, equal⟩ | ⟨passed, equal⟩
  · simp [equal, not_le.mpr below]
  · simp [equal, above, inside]
  · simp [equal, not_lt.mpr passed]

end

section

def ExactCoord (coord : String) : Prop :=
  ∃ col row, coord = label col row ∧ col + 1 ≤ 2 ^ 53 ∧ row + 1 ≤ 2 ^ 53

def Tidy (cells : Cells) : Prop :=
  ∀ key cell, cells.get key = some cell → ExactCoord key

/-- An edit by a natural number that keeps the cells exact: an insertion does not
move them too far, and a deletion names an interval. -/
def EditFits (kind : StructuralKind) (start count : Binary64) (cells : Cells) : Prop :=
  ∃ number : ℕ, count.toRat? = some (number : ℚ) ∧ match kind with
    | .insertRows => ∀ col row cell, cells.get (label col row) = some cell →
        insertIndex start number row + 1 ≤ 2 ^ 53
    | .insertCols => ∀ col row cell, cells.get (label col row) = some cell →
        insertIndex start number col + 1 ≤ 2 ^ 53
    | _ => IntervalFits start number

/-- The cell at the coordinate is one of those that a deletion names. -/
def Deleted (kind : StructuralKind) (start count : Binary64) (coord : String) : Prop :=
  ∃ parsed, parseCoord coord = some parsed ∧
    ((kind = .deleteRows ∧ InInterval start count parsed.row) ∨
      (kind = .deleteCols ∧ InInterval start count parsed.col))

variable {kind : StructuralKind} {start count : Binary64} {number col row : ℕ} {cells : Cells}

/-- Where an edit moves a cell, none for a deleted one. -/
def movedLabel (kind : StructuralKind) (start : Binary64) (number col row : ℕ) : Option String :=
  (colAxis kind start number col).bind fun col =>
    (rowAxis kind start number row).map fun row => label col row

/-- An edit moves the indices of a cell exactly. -/
structure AxesFit (kind : StructuralKind) (start : Binary64) (number col row : ℕ) : Prop where
  col : AxisFits (makeShifts kind start (ofInt number)).shiftCol (colAxis kind start number) col
  row : AxisFits (makeShifts kind start (ofInt number)).shiftRow (rowAxis kind start number) row

theorem negative_one : (ofInt (-1)).lt (ofInt 0) := by
  rw [lt_ofInt (by decide) (by decide)]
  rfl

theorem AxesFit.shiftCoord (fits : AxesFit kind start number col row) (colExact : col + 1 ≤ 2 ^ 53)
    (rowExact : row + 1 ≤ 2 ^ 53) :
    shiftCoord (label col row) (makeShifts kind start (ofInt number)) =
      some (movedLabel kind start number col row) := by
  rw [Calc.shiftCoord, parseCoord_label colExact rowExact, movedLabel]
  dsimp only
  cases rowEq : rowAxis kind start number row with
  | none =>
    rw [fits.row.gone rowEq, negative_one, Bool.true_or, if_pos rfl]
    cases colAxis kind start number col <;> rfl
  | some movedRow =>
    obtain ⟨rowMoved, rowFits⟩ := fits.row.moved movedRow rowEq
    rw [rowMoved, not_negative (by omega), Bool.false_or]
    cases colEq : colAxis kind start number col with
    | none =>
      rw [fits.col.gone colEq, negative_one, if_pos rfl]
      rfl
    | some movedCol =>
      obtain ⟨colMoved, colFits⟩ := fits.col.moved movedCol colEq
      rw [colMoved, not_negative (by omega), if_neg Bool.false_ne_true,
        coordToLabel_exact colFits rowFits]
      rfl

theorem EditFits.axes (fits : EditFits kind start count cells) (tidy : Tidy cells) :
    ∃ number : ℕ, count.toRat? = some (number : ℚ) ∧
      ((kind = .deleteRows ∨ kind = .deleteCols) → IntervalFits start number) ∧
        ∀ col row cell, cells.get (label col row) = some cell →
          AxesFit kind start number col row := by
  obtain ⟨number, countEq, kindFits⟩ := fits
  refine ⟨number, countEq, ?_, fun col row cell found => ?_⟩
  · rintro (rfl | rfl)
    · exact kindFits
    · exact kindFits
  · obtain ⟨otherCol, otherRow, same, colExact, rowExact⟩ := tidy _ cell found
    obtain ⟨rfl, rfl⟩ := label_injective same
    cases kind with
    | insertRows => exact ⟨axisFits_id colExact, axisFits_insert (kindFits col row cell found)⟩
    | insertCols => exact ⟨axisFits_insert (kindFits col row cell found), axisFits_id rowExact⟩
    | deleteRows => exact ⟨axisFits_id colExact, axisFits_delete kindFits rowExact⟩
    | deleteCols => exact ⟨axisFits_delete kindFits colExact, axisFits_id rowExact⟩

section

variable (deletes : kind = .deleteRows ∨ kind = .deleteCols → IntervalFits start number)
include deletes

theorem rowAxis_injective {first second target : ℕ}
    (firstExact : first ≤ 2 ^ 53) (secondExact : second ≤ 2 ^ 53)
    (firstEq : rowAxis kind start number first = some target)
    (secondEq : rowAxis kind start number second = some target) : first = second := by
  have same := firstEq.trans secondEq.symm
  cases kind with
  | insertRows => exact insertIndex_injective firstExact secondExact (Option.some.inj same)
  | deleteRows => exact deleteIndex_injective (deletes (.inl rfl)) firstExact secondExact firstEq secondEq
  | _ => exact Option.some.inj same

theorem colAxis_injective {first second target : ℕ}
    (firstExact : first ≤ 2 ^ 53) (secondExact : second ≤ 2 ^ 53)
    (firstEq : colAxis kind start number first = some target)
    (secondEq : colAxis kind start number second = some target) : first = second := by
  have same := firstEq.trans secondEq.symm
  cases kind with
  | insertCols => exact insertIndex_injective firstExact secondExact (Option.some.inj same)
  | deleteCols => exact deleteIndex_injective (deletes (.inr rfl)) firstExact secondExact firstEq secondEq
  | _ => exact Option.some.inj same

end

theorem movedLabel_eq_none_iff (countEq : count.toRat? = some (number : ℚ))
    (deletes : kind = .deleteRows ∨ kind = .deleteCols → IntervalFits start number)
    (colExact : col + 1 ≤ 2 ^ 53) (rowExact : row + 1 ≤ 2 ^ 53) :
    movedLabel kind start number col row = none ↔ Deleted kind start count (label col row) := by
  have parsed := parseCoord_label colExact rowExact
  have deleted : Deleted kind start count (label col row) ↔
      (kind = .deleteRows ∧ InInterval start count (ofInt row)) ∨
        (kind = .deleteCols ∧ InInterval start count (ofInt col)) := by
    constructor
    · rintro ⟨other, otherEq, fact⟩
      cases parsed.symm.trans otherEq
      exact fact
    · exact fun fact => ⟨_, parsed, fact⟩
  rw [deleted, movedLabel]
  cases kind with
  | deleteRows =>
    have gone := deleteIndex_eq_none_iff countEq (deletes (.inl rfl)) (show row ≤ 2 ^ 53 by omega)
    simpa [rowAxis, colAxis] using gone
  | deleteCols =>
    have gone := deleteIndex_eq_none_iff countEq (deletes (.inr rfl)) (show col ≤ 2 ^ 53 by omega)
    cases target : deleteIndex start number col <;> simp [rowAxis, colAxis, target] at gone ⊢ <;>
      exact gone
  | _ => simp [rowAxis, colAxis]

end

section

/-- What an edit owes to the cells: each is moved to a coordinate of its own,
but for those that it deletes. -/
structure KeepsCells (kind : StructuralKind) (start count : Binary64) (before after : Cells)
  : Prop where
  kept : ∀ key cell, before.get key = some cell → ¬Deleted kind start count key →
    ∃ coord moved, shiftCoord key (makeShifts kind start count) = some (some coord) ∧
      after.get coord = some moved ∧ moved.id = cell.id
  removed : ∀ key cell, before.get key = some cell → Deleted kind start count key →
    shiftCoord key (makeShifts kind start count) = some none
  distinct : ∀ first second coord, first ∈ before.keys → second ∈ before.keys →
    shiftCoord first (makeShifts kind start count) = some (some coord) →
      shiftCoord second (makeShifts kind start count) = some (some coord) → first = second
  only : ∀ coord moved, after.get coord = some moved → ∃ key cell, before.get key = some cell ∧
    shiftCoord key (makeShifts kind start count) = some (some coord) ∧ cell.id = moved.id

variable {engine : Engine} {kind : StructuralKind} {start count : Binary64} {cells moved : Cells}

section

variable (fits : EditFits kind start count cells) (tidy : Tidy cells)
include fits tidy

theorem EditFits.shifted {key : String} {cell : Cell} (found : cells.get key = some cell) :
    ∃ target, shiftCoord key (makeShifts kind start count) = some target ∧
      (target = none ↔ Deleted kind start count key) ∧
        ∀ coord, target = some coord → ExactCoord coord := by
  obtain ⟨number, countEq, deletes, axes⟩ := fits.axes tidy
  obtain rfl := ofInt_of_toRat? countEq
  obtain ⟨col, row, rfl, colExact, rowExact⟩ := tidy key cell found
  have fit := axes col row cell found
  refine ⟨_, fit.shiftCoord colExact rowExact,
    movedLabel_eq_none_iff countEq deletes colExact rowExact, fun coord movedTo => ?_⟩
  obtain ⟨movedCol, colEq, rest⟩ := Option.bind_eq_some_iff.mp movedTo
  obtain ⟨movedRow, rowEq, rfl⟩ := Option.map_eq_some_iff.mp rest
  exact ⟨movedCol, movedRow, rfl, (fit.col.moved movedCol colEq).2,
    (fit.row.moved movedRow rowEq).2⟩

theorem EditFits.apart {first second coord : String} {firstCell secondCell : Cell}
    (firstFound : cells.get first = some firstCell) (secondFound : cells.get second =
    some secondCell)
    (firstShift : shiftCoord first (makeShifts kind start count) = some (some coord))
    (secondShift : shiftCoord second (makeShifts kind start count) = some (some coord)) :
    first = second := by
  obtain ⟨number, countEq, deletes, axes⟩ := fits.axes tidy
  obtain rfl := ofInt_of_toRat? countEq
  obtain ⟨col, row, rfl, colExact, rowExact⟩ := tidy first firstCell firstFound
  obtain ⟨otherCol, otherRow, rfl, otherColExact, otherRowExact⟩ :=
    tidy second secondCell secondFound
  rw [(axes col row firstCell firstFound).shiftCoord colExact rowExact] at firstShift
  rw [(axes otherCol otherRow secondCell secondFound).shiftCoord otherColExact otherRowExact]
    at secondShift
  obtain ⟨movedCol, colEq, rest⟩ := Option.bind_eq_some_iff.mp (Option.some.inj firstShift)
  obtain ⟨movedRow, rowEq, rfl⟩ := Option.map_eq_some_iff.mp rest
  obtain ⟨otherMovedCol, otherColEq, otherRest⟩ :=
    Option.bind_eq_some_iff.mp (Option.some.inj secondShift)
  obtain ⟨otherMovedRow, otherRowEq, same⟩ := Option.map_eq_some_iff.mp otherRest
  obtain ⟨rfl, rfl⟩ := label_injective same
  have colSame := colAxis_injective deletes (by omega) (by omega) colEq otherColEq
  have rowSame := rowAxis_injective deletes (by omega) (by omega) rowEq otherRowEq
  rw [colSame, rowSame]

theorem moveCells_keeps (edit : moveCells (makeShifts kind start count) cells = some moved) :
    KeepsCells kind start count cells moved ∧ Tidy moved := by
  have placed : Placed (makeShifts kind start count) cells.entries moved := by
    refine moveCells_placed ?_ edit
    rintro ⟨first, firstCell⟩ firstMember ⟨second,
      secondCell⟩ secondMember coord firstShift secondShift
    have firstFound := mem_entries.mp firstMember
    have secondFound := mem_entries.mp secondMember
    obtain rfl := fits.apart tidy firstFound secondFound firstShift secondShift
    cases firstFound.symm.trans secondFound
    rfl
  have only (coord : String) (cell : Cell) (found : moved.get coord = some cell) :
      ∃ key source, cells.get key = some source ∧
        shiftCoord key (makeShifts kind start count) = some (some coord) ∧ source.id = cell.id := by
    obtain ⟨⟨key, source⟩, member, shift, idEq⟩ := placed.only coord cell found
    exact ⟨key, source, mem_entries.mp member, shift, idEq⟩
  refine ⟨⟨?_, ?_, ?_, only⟩, ?_⟩
  · intro key cell found notDeleted
    obtain ⟨target, shift, gone, -⟩ := fits.shifted tidy found
    cases target with
    | none => exact absurd (gone.mp rfl) notDeleted
    | some coord =>
      obtain ⟨stored, storedEq, idEq⟩ :=
        placed.kept (key, cell) (mem_entries.mpr found) coord shift
      exact ⟨coord, stored, shift, storedEq, idEq⟩
  · intro key cell found deleted
    obtain ⟨target, shift, gone, -⟩ := fits.shifted tidy found
    rw [shift, gone.mpr deleted]
  · intro first second coord firstMember secondMember firstShift secondShift
    obtain ⟨firstCell, firstFound⟩ := mem_keys.mp firstMember
    obtain ⟨secondCell, secondFound⟩ := mem_keys.mp secondMember
    exact fits.apart tidy firstFound secondFound firstShift secondShift
  · intro coord cell found
    obtain ⟨key, source, sourceFound, shift, -⟩ := only coord cell found
    obtain ⟨target, targetEq, -, exact⟩ := fits.shifted tidy sourceFound
    exact exact coord (Option.some.inj (targetEq.symm.trans shift))

end

theorem SameIds.keeps {before after : Cells} (keeps : KeepsCells kind start count before moved)
    (same : SameIds moved after) : KeepsCells kind start count before after := by
  refine ⟨?_, keeps.removed, keeps.distinct, ?_⟩
  · intro key cell found notDeleted
    obtain ⟨coord, stored, shift, storedEq, idEq⟩ := keeps.kept key cell found notDeleted
    have ids := same coord
    rw [storedEq, Option.map_some] at ids
    obtain ⟨final, finalEq, finalId⟩ := Option.map_eq_some_iff.mp ids
    exact ⟨coord, final, shift, finalEq, finalId.trans idEq⟩
  · intro coord cell found
    obtain ⟨stored, storedEq, storedId⟩ := same.present found
    obtain ⟨key, source, sourceFound, shift, idEq⟩ := keeps.only coord stored storedEq
    exact ⟨key, source, sourceFound, shift, idEq.trans storedId⟩

theorem Tidy.sameIds {after : Cells} (tidy : Tidy cells) (same : SameIds cells after)
    : Tidy after := by
  intro key cell found
  obtain ⟨before, beforeFound, -⟩ := same.present found
  exact tidy key before beforeFound

theorem structuralEdit_tidy {sheet after : Sheet} (tidy : Tidy sheet.cells)
    (fits : EditFits kind start count sheet.cells)
    (edited : structuralEdit engine sheet kind start count = some after) :
    KeepsCells kind start count sheet.cells after.cells ∧ Tidy after.cells := by
  obtain ⟨moved, edit, recalc⟩ := Option.bind_eq_some_iff.mp edited
  obtain ⟨keeps, movedTidy⟩ := moveCells_keeps fits tidy edit
  have same : SameIds moved after.cells := by
    cases kind with
    | insertRows | deleteRows | insertCols | deleteCols => exact recalculated_sameIds recalc
  exact ⟨same.keeps keeps, movedTidy.sameIds same⟩

end

variable {engine : Engine} {sheet after : Sheet} {kind : StructuralKind} {start count : Binary64}

/-- The coordinate of an update is invalid or, once it is normalized, exact. -/
def UpdateFits (engine : Engine) (coord : String) : Prop :=
  parseCoord (normalizeCoord engine coord) = none ∨ ExactCoord (normalizeCoord engine coord)

def ExactStep (engine : Engine) (sheet : Sheet) : SheetStep → Prop
  | .updateCell coord _ => UpdateFits engine coord
  | .updateCells updates => ∀ update ∈ updates, UpdateFits engine update.1
  | .edit kind start count => EditFits kind start count sheet.cells

theorem Tidy.set {cells : Cells} {key : String} {cell : Cell} (tidy : Tidy cells)
    (exact : ExactCoord key) : Tidy (cells.set key cell) := by
  intro other found foundEq
  rw [get_set] at foundEq
  split at foundEq
  · next same => exact same ▸ exact
  · exact tidy other found foundEq

section

variable (tidy : Tidy sheet.cells)
include tidy

theorem changeCell_tidy {key : String} {change : CellChange}
    (exact : ExactCoord key) : Tidy (changeCell sheet key change).cells := by
  have ensured : Tidy (ensureCell sheet key).cells := by
    unfold ensureCell
    split
    · exact tidy
    · exact tidy.set exact
  unfold changeCell
  dsimp only
  split
  · exact ensured.set exact
  · exact ensured

theorem updateOne_tidy {update : String × CellChange}
    (fits : UpdateFits engine update.1) : Tidy (updateOne engine sheet update).cells := by
  unfold updateOne
  dsimp only
  split
  · exact tidy
  · next parsed parsedEq =>
      rcases fits with invalid | exact
      · cases invalid.symm.trans parsedEq
      · exact changeCell_tidy tidy exact

theorem updates_tidy {updates : List (String × CellChange)}
    (fits : ∀ update ∈ updates, UpdateFits engine update.1) :
    Tidy (updates.foldl (updateOne engine) sheet).cells := by
  induction updates generalizing sheet with
  | nil => exact tidy
  | cons update updates ih =>
    obtain ⟨first, rest⟩ := List.forall_mem_cons.mp fits
    have next : Tidy (updateOne engine sheet update).cells := updateOne_tidy tidy first
    rw [List.foldl_cons]
    exact ih next rest

theorem apply_tidy {step : SheetStep} (exact : ExactStep engine sheet step)
    (applied : step.apply engine sheet = some after) : Tidy after.cells := by
  cases step with
  | updateCell coord change =>
    have updated : updateCell engine sheet coord change = some after := applied
    unfold updateCell at updated
    dsimp only at updated
    split at updated
    · cases updated
    · next parsed parsedEq =>
        rcases exact with invalid | exactCoord
        · cases invalid.symm.trans parsedEq
        · exact (changeCell_tidy tidy exactCoord).sameIds (recalculated_sameIds updated)
  | updateCells updates => exact (updates_tidy tidy exact).sameIds (recalculated_sameIds applied)
  | edit kind start count => exact (structuralEdit_tidy tidy exact applied).2

end

theorem SheetRun.tidy (run : SheetRun engine (ExactStep engine) sheet) : Tidy sheet.cells := by
  induction run with
  | created rowCount colCount =>
    intro key cell found
    cases found
  | step _ _ permitted applied ih => exact apply_tidy ih permitted applied

/-- In a run on exact coordinates an exact edit keeps every cell that it does
not delete, at a coordinate of its own. -/
theorem structuralEdit_keeps_cells (run : SheetRun engine (ExactStep engine) sheet)
    (fits : EditFits kind start count sheet.cells)
    (edited : structuralEdit engine sheet kind start count = some after) :
    KeepsCells kind start count sheet.cells after.cells :=
  (structuralEdit_tidy run.tidy fits edited).1

def emptySheet : Sheet :=
  ⟨.empty, ofInt 1000, ofInt 100, 0⟩

theorem updated_emptySheet (coord : String)
    (updates : ((updateCell asciiEngine emptySheet coord (.value (.bool true))).map
      fun sheet => sheet.cells.entries) = some [(coord, ⟨0, coord, .bool true, none⟩)]) :
    ∃ sheet, updateCell asciiEngine emptySheet coord (.value (.bool true)) = some sheet ∧
      ∀ key cell, sheet.cells.get key = some cell ↔
        key = coord ∧ cell = ⟨0, coord, .bool true, none⟩ := by
  obtain ⟨sheet, sheetEq, entriesEq⟩ := Option.map_eq_some_iff.mp updates
  refine ⟨sheet, sheetEq, fun key cell => ?_⟩
  rw [← mem_entries, entriesEq, List.mem_singleton, Prod.mk.injEq]

theorem structuralEdit_keeps_cells_row : ∃ sheet after, (∃ cell, sheet.cells.get "A1" = some cell) ∧
      structuralEdit asciiEngine sheet .insertRows (ofInt 0) (ofInt 1) = some after ∧
        KeepsCells .insertRows (ofInt 0) (ofInt 1) sheet.cells after.cells := by
  obtain ⟨sheet, updated, stored⟩ := updated_emptySheet "A1" (by decide +kernel)
  have edits : ((updateCell asciiEngine emptySheet "A1" (.value (.bool true))).bind fun sheet =>
      structuralEdit asciiEngine sheet .insertRows (ofInt 0) (ofInt 1)).isSome := by
    decide +kernel
  rw [updated, Option.bind_some] at edits
  obtain ⟨after, edited⟩ := Option.isSome_iff_exists.mp edits
  have labelEq : label 0 0 = "A1" := by decide +kernel
  have run : SheetRun asciiEngine (ExactStep asciiEngine) sheet := by
    let update : SheetStep := .updateCell "A1" (.value (.bool true))
    refine .step (.created (ofInt 1000) (ofInt 100)) update ?_ updated
    exact Or.inr ⟨0, 0, by rw [labelEq]; decide, by decide, by decide⟩
  refine ⟨sheet, after, ⟨_, (stored _ _).mpr ⟨rfl, rfl⟩⟩, edited, ?_⟩
  apply structuralEdit_keeps_cells run _ edited
  refine ⟨1, by decide +kernel, fun col row cell found => ?_⟩
  obtain ⟨same, -⟩ := (stored _ _).mp found
  obtain ⟨-, rfl⟩ := label_injective (same.trans labelEq.symm)
  decide +kernel

/-- A cell at the coordinate `A0` is lost by an insertion far below it. -/
theorem cell_lost_in_row_zero : ∃ sheet after, SheetRun asciiEngine (fun _ _ => True) sheet ∧
    structuralEdit asciiEngine sheet .insertRows (ofInt 5) (ofInt 1) = some after ∧
      ¬KeepsCells .insertRows (ofInt 5) (ofInt 1) sheet.cells after.cells := by
  obtain ⟨sheet, updated, stored⟩ := updated_emptySheet "A0" (by decide +kernel)
  have edits : ((updateCell asciiEngine emptySheet "A0" (.value (.bool true))).bind fun sheet =>
      structuralEdit asciiEngine sheet .insertRows (ofInt 5) (ofInt 1)).isSome := by
    decide +kernel
  rw [updated, Option.bind_some] at edits
  obtain ⟨after, edited⟩ := Option.isSome_iff_exists.mp edits
  have run : SheetRun asciiEngine (fun _ _ => True) sheet :=
    .step (.created (ofInt 1000) (ofInt 100)) (.updateCell "A0" (.value (.bool true))) trivial updated
  refine ⟨sheet, after, run, edited, fun keeps => ?_⟩
  have notDeleted : ¬Deleted .insertRows (ofInt 5) (ofInt 1) "A0" := by
    rintro ⟨parsed, -, ⟨deletes, -⟩ | ⟨deletes, -⟩⟩ <;> cases deletes
  obtain ⟨coord, moved, shift, -, -⟩ := keeps.kept _ _ ((stored _ _).mpr ⟨rfl, rfl⟩) notDeleted
  have lost : shiftCoord "A0" (makeShifts .insertRows (ofInt 5) (ofInt 1)) = some none := by
    decide +kernel
  cases lost.symm.trans shift

end P2PHub.Calc
