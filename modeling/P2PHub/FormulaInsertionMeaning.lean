import P2PHub.FormulaInsertion

/-!
# What a formula means after an insertion

Two evaluations agree when both end with the same value, or with lists in which
the same values are present.  A formula and the one that an insertion rewrites
it to agree, by induction over the formula.
-/

namespace P2PHub.Calc

open Binary64 Lookup

section

variable {values shifted : String → CellValue} {First Second : Type}
  {before after : Evaluation First} {nextAfter : First → Evaluation Second}

def Agree (values shifted : String → CellValue) (related : First → First → Prop)
    (before after : Evaluation First) : Prop :=
  ∃ result moved, before.run values = some result ∧ after.run shifted = some moved ∧
    related result moved

def SamePresent (first second : List CellValue) : Prop :=
  present second = present first

variable {related : First → First → Prop} {relatedSecond : Second → Second → Prop}

theorem agree_done {before after : First} (same : related before after) :
    Agree values shifted related (pure before) (pure after) :=
  ⟨before, after, rfl, rfl, same⟩

theorem agree_value (value : First) : Agree values shifted Eq (pure value) (pure value) :=
  agree_done rfl

theorem Agree.bind {next : First → Evaluation Second}
    (first : Agree values shifted related before after)
    (rest : ∀ result moved, related result moved →
      Agree values shifted relatedSecond (next result) (nextAfter moved)) :
    Agree values shifted relatedSecond (before >>= next) (after >>= nextAfter) := by
  obtain ⟨result, moved, ran, movedRan, same⟩ := first
  obtain ⟨final, finalMoved, finalRan, finalMovedRan, finalSame⟩ := rest result moved same
  refine ⟨final, finalMoved, ?_, ?_, finalSame⟩
  · rw [run_bind, ran]
    exact finalRan
  · rw [run_bind, movedRan]
    exact finalMovedRan

theorem Agree.next {next : First → Evaluation Second} (first : Agree values shifted Eq before after)
    (rest : ∀ result, Agree values shifted relatedSecond (next result) (nextAfter result)) :
    Agree values shifted relatedSecond (before >>= next) (after >>= nextAfter) := by
  apply first.bind
  rintro result _ rfl
  exact rest result

theorem agree_ite {test : Prop} [Decidable test] {other otherAfter : Evaluation First}
    (holds : Agree values shifted related before after)
    (fails : Agree values shifted related other otherAfter) :
    Agree values shifted related (if test then before else other)
      (if test then after else otherAfter) := by
  split
  · exact holds
  · exact fails

theorem run_resolveAll (coords : List String) (values : String → CellValue) :
    (resolveAll coords).run values = some (coords.map values) := by
  induction coords with
  | nil => rfl
  | cons coord coords ih =>
    rw [resolveAll, run_bind, look, run, run]
    rw [Option.bind_some, run_bind, ih]
    rfl

theorem run_resolveRange {first last : RefNode} {coords : List String}
    (coordsEq : rangeCoords first last = some coords) :
    (resolveRange first last).run values = some (coords.map values) := by
  rw [resolveRange, coordsEq]
  exact run_resolveAll coords values

end

section

variable (values : List CellValue)
include values

theorem filterMap_present : (present values).filterMap numberOf? = values.filterMap numberOf? := by
  induction values with
  | nil => rfl
  | cons value values ih =>
    cases value with
    | null => exact ih
    | _ =>
      simp only [present, ne_eq, reduceCtorEq, not_false_eq_true, decide_true,
        List.filter_cons_of_pos, List.filterMap_cons, numberOf?] at ih ⊢
      rw [ih]

theorem filter_present : (present values).filter (fun value => !isEmpty value) =
      values.filter fun value => !isEmpty value := by
  rw [present, List.filter_filter]
  apply List.filter_congr
  intro value _
  cases value <;> simp [isEmpty]

theorem firstError_present : firstError (present values) = firstError values := by
  induction values with
  | nil => rfl
  | cons value values ih =>
    cases value with
    | null => exact ih
    | _ =>
      simp only [firstError, present, ne_eq, reduceCtorEq, not_false_eq_true, decide_true,
        List.filter_cons_of_pos, List.find?_cons] at ih ⊢
      rw [ih]

theorem flatMap_present : (present values).flatMap toText = values.flatMap toText := by
  induction values with
  | nil => rfl
  | cons value values ih =>
    cases value with
    | null => exact ih
    | _ => exact congrArg (toText _ ++ ·) ih

end

theorem evalAggregate_present (name : String) (values : List CellValue) :
    evalAggregate name (present values) = evalAggregate name values := by
  unfold evalAggregate
  rw [filterMap_present, filter_present, firstError_present]

section

variable {engine : Engine} {values shifted : String → CellValue}

/-- An argument and what it is rewritten to agree, also where a range stands
for its cells. -/
structure ArgAgree (engine : Engine) (values shifted : String → CellValue) (arg moved : Expr) :
    Prop where
  value : Agree values shifted Eq (evaluate engine arg) (evaluate engine moved)
  flat : Agree values shifted SamePresent (flattenArg engine arg) (flattenArg engine moved)

def Expr.isRange : Expr → Bool
  | .range _ _ => true
  | _ => false

theorem flattenArg_single {arg : Expr} (other : arg.isRange = false) :
    flattenArg engine arg = evaluate engine arg >>= fun value => pure [value] := by
  rw [flattenArg]
  rintro first last rfl
  cases other

theorem ArgAgree.single {arg moved : Expr} (argOther : arg.isRange = false)
    (movedOther : moved.isRange = false)
    (value : Agree values shifted Eq (evaluate engine arg) (evaluate engine moved)) :
    ArgAgree engine values shifted arg moved := by
  refine ⟨value, ?_⟩
  rw [flattenArg_single argOther, flattenArg_single movedOther]
  exact value.next fun result => agree_done rfl

variable {args moveds : List Expr}

variable (agree : List.Forall₂ (ArgAgree engine values shifted) args moveds)
include agree

theorem agree_flattenArgs :
    Agree values shifted SamePresent (flattenArgs engine args) (flattenArgs engine moveds) := by
  induction agree with
  | nil =>
    rw [flattenArgs]
    exact agree_done rfl
  | cons first _ ih =>
    rw [flattenArgs, flattenArgs]
    apply first.flat.bind
    intro result moved same
    apply ih.bind
    intro others movedOthers sameOthers
    apply agree_done
    rw [SamePresent, present_append, present_append, same, sameOthers]

theorem agree_evalOne (result : CellValue → CellValue) :
    Agree values shifted Eq (evalOne engine args result) (evalOne engine moveds result) := by
  unfold evalOne
  rcases agree with _ | ⟨first, _ | _⟩
  · exact agree_value _
  · exact first.value.next fun value => agree_value _
  · exact agree_value _

theorem agree_evalIf : Agree values shifted Eq (evalIf engine args) (evalIf engine moveds) := by
  unfold evalIf
  rcases agree with _ | ⟨cond, _ | ⟨yes, _ | ⟨no, _ | _⟩⟩⟩
  · exact agree_value _
  · exact agree_value _
  · exact cond.value.next fun value => agree_ite yes.value (agree_value _)
  · exact cond.value.next fun value => agree_ite yes.value no.value
  · exact agree_value _

theorem agree_evalRound :
    Agree values shifted Eq (evalRound engine args) (evalRound engine moveds) := by
  unfold evalRound
  rcases agree with _ | ⟨first, _ | ⟨digits, _ | _⟩⟩
  · exact agree_value _
  · exact first.value.next fun value => agree_value _
  · apply first.value.next
    intro value
    exact agree_ite (agree_value _) (digits.value.next fun places => agree_value _)
  · exact agree_value _

theorem agree_evalModulo :
    Agree values shifted Eq (evalModulo engine args) (evalModulo engine moveds) := by
  unfold evalModulo
  rcases agree with _ | ⟨left, _ | ⟨right, _ | _⟩⟩
  · exact agree_value _
  · exact agree_value _
  · exact left.value.next fun leftValue => right.value.next fun rightValue => agree_value _
  · exact agree_value _

theorem agree_flat {result : List CellValue → CellValue}
    (blind : ∀ values, result (present values) = result values) :
    Agree values shifted Eq (flattenArgs engine args >>= fun values => pure (result values))
      (flattenArgs engine moveds >>= fun values => pure (result values)) := by
  apply (agree_flattenArgs agree).bind
  intro list moved same
  apply agree_done
  rw [← blind list, ← same, blind moved]

theorem agree_evalFunction (name : String) :
    Agree values shifted Eq (evalFunction engine name args) (evalFunction engine name moveds) := by
  have concat : Agree values shifted Eq
      (flattenArgs engine args >>= fun values => pure (textValue (values.flatMap toText)))
      (flattenArgs engine moveds >>= fun values => pure (textValue (values.flatMap toText))) :=
    agree_flat agree fun values => congrArg textValue (flatMap_present values)
  have aggregate := agree_flat agree (evalAggregate_present name)
  unfold evalFunction
  exact agree_ite (agree_value _) <| agree_ite (agree_evalIf agree) <|
    agree_ite (agree_evalRound agree) <| agree_ite (agree_evalOne agree _) <|
    agree_ite (agree_evalOne agree _) <| agree_ite (agree_evalOne agree _) <|
    agree_ite (agree_evalModulo agree) <| agree_ite concat <| agree_ite (agree_evalOne agree _) <|
    agree_ite (agree_evalOne agree _) <| agree_ite (agree_evalOne agree _) <|
    agree_ite (agree_evalOne agree _) <| agree_ite aggregate (agree_value _)

end

variable {engine : Engine} {kind : StructuralKind} {start : Binary64} {count : ℕ}
  {values shifted : String → CellValue} {coords : List String}

def insertRefs (kind : StructuralKind) (start : Binary64) (count : ℕ) (expr : Expr) : Option Expr :=
  rewriteRefs (makeRefMutator (insertShifts kind start count)) expr

theorem rewriteArgs_agree {args : List Expr}
    (each : ∀ arg ∈ args, ∃ moved, insertRefs kind start count arg = some moved ∧
      ArgAgree engine values shifted arg moved) :
    ∃ moveds, rewriteArgs (makeRefMutator (insertShifts kind start count)) args = some moveds ∧
      List.Forall₂ (ArgAgree engine values shifted) args moveds := by
  induction args with
  | nil => exact ⟨[], rfl, .nil⟩
  | cons arg args ih =>
    obtain ⟨first, rest⟩ := List.forall_mem_cons.mp each
    obtain ⟨moved, movedEq, agree⟩ := first
    obtain ⟨moveds, movedsEq, agrees⟩ := ih rest
    refine ⟨moved :: moveds, ?_, .cons agree agrees⟩
    rw [insertRefs] at movedEq
    rw [rewriteArgs, movedEq, movedsEq]
    rfl

theorem agree_range {first last : RefNode} {movedCoords : List String}
    {movedFirst movedLast : RefNode} (coordsEq : rangeCoords first last = some coords)
    (movedEq : rangeCoords movedFirst movedLast = some movedCoords)
    (same : RangeMoved values shifted coords movedCoords) :
    ArgAgree engine values shifted (.range first last) (.range movedFirst movedLast) := by
  constructor
  · rw [evaluate, evaluate]
    have sameHead : Agree values shifted (fun list moved => list.headD .null = moved.headD .null)
        (resolveRange first last) (resolveRange movedFirst movedLast) :=
      ⟨_, _, run_resolveRange coordsEq, run_resolveRange movedEq, same.first.symm⟩
    exact sameHead.bind fun list moved equal => agree_done equal
  · rw [flattenArg, flattenArg]
    exact ⟨_, _, run_resolveRange coordsEq, run_resolveRange movedEq, same.present⟩

theorem insertRefs_agree (engine : Engine) (inserts : kind.Inserts)
    (sheet : InsertedSheet kind start count values shifted)
    (expr : Expr) (insertable : expr.Insertable kind start count) :
    ∃ moved, insertRefs kind start count expr = some moved ∧
      ArgAgree engine values shifted expr moved := by
  induction expr using Expr.induction with
  | cell ref =>
    obtain ⟨relative, col, row, fits⟩ := insertable _ (List.mem_singleton_self _)
    let moved := label (colMove kind start count col) (rowMove kind start count row)
    refine ⟨.cell { ref with coord := moved }, ?_, ?_⟩
    · rw [insertRefs, rewriteRefs, fits.mutate inserts relative]
      exact if_neg (label_ne_refError _ _)
    · apply ArgAgree.single rfl rfl
      rw [evaluate, evaluate]
      exact ⟨_, _, rfl, rfl, (sheet.same inserts fits).symm⟩
  | range =>
    obtain ⟨firstRelative, lastRelative, firstCol, firstRow, lastCol, lastRow, firstFits, lastFits,
      few⟩ := insertable _ (List.mem_singleton_self _)
    obtain ⟨coords, movedCoords, coordsEq, movedEq, same⟩ :=
      sheet.range inserts firstFits lastFits few
    refine ⟨_, ?_, agree_range coordsEq movedEq same⟩
    rw [insertRefs, rewriteRefs, firstFits.mutate inserts firstRelative,
      lastFits.mutate inserts lastRelative]
    exact if_neg (not_or.mpr ⟨label_ne_refError _ _, label_ne_refError _ _⟩)
  | func name args ih =>
    have each (arg : Expr) (member : arg ∈ args) := ih arg member fun reference inArg =>
      insertable reference (mem_referencesOfArgs member inArg)
    obtain ⟨moveds, movedsEq, agrees⟩ := rewriteArgs_agree each
    refine ⟨.func name moveds, ?_, ?_⟩
    · rw [insertRefs, rewriteRefs, movedsEq]
      rfl
    · apply ArgAgree.single rfl rfl
      rw [evaluate, evaluate]
      exact agree_evalFunction agrees name
  | binary op left right leftIH rightIH =>
    obtain ⟨leftInsertable, rightInsertable⟩ := List.forall_mem_append.mp insertable
    obtain ⟨movedLeft, leftEq, leftAgree⟩ := leftIH leftInsertable
    obtain ⟨movedRight, rightEq, rightAgree⟩ := rightIH rightInsertable
    rw [insertRefs] at leftEq rightEq
    refine ⟨.binary op movedLeft movedRight, ?_, ?_⟩
    · rw [insertRefs, rewriteRefs, leftEq, rightEq]
      rfl
    · apply ArgAgree.single rfl rfl
      rw [evaluate, evaluate]
      exact leftAgree.value.next fun leftValue => rightAgree.value.next fun rightValue =>
        agree_ite (agree_value _) (agree_value _)
  | unary op expr ih =>
    obtain ⟨moved, movedEq, agree⟩ := ih insertable
    rw [insertRefs] at movedEq
    refine ⟨.unary op moved, ?_, ?_⟩
    · rw [insertRefs, rewriteRefs, movedEq]
      rfl
    · apply ArgAgree.single rfl rfl
      rw [evaluate, evaluate]
      exact agree.value.next fun value => agree_value _
  | percent expr ih =>
    obtain ⟨moved, movedEq, agree⟩ := ih insertable
    rw [insertRefs] at movedEq
    refine ⟨.percent moved, ?_, ?_⟩
    · rw [insertRefs, rewriteRefs, movedEq]
      rfl
    · apply ArgAgree.single rfl rfl
      rw [evaluate, evaluate]
      exact agree.value.next fun value => agree_value _
  | _ =>
    refine ⟨_, rfl, ?_⟩
    apply ArgAgree.single rfl rfl
    rw [evaluate]
    exact agree_value _

/-- The formula `SUM(first:last)`. -/
def sumOf (first last : String) : Expr :=
  .func "SUM" [.range ⟨first, false, false⟩ ⟨last, false, false⟩]

theorem run_sumOf {first last : String}
    (coordsEq : rangeCoords ⟨first, false, false⟩ ⟨last, false, false⟩ = some coords)
    (values : String → CellValue) : (evaluate engine (sumOf first last)).run values =
      some (evalAggregate "SUM" (coords.map values)) := by
  rw [sumOf, evaluate]
  unfold evalFunction
  simp only [String.reduceEq, or_self, if_false, isAggregate, List.mem_cons, true_or, decide_true,
    if_true]
  rw [flattenArgs, flattenArgs, flattenArg, run_bind, run_bind,
    run_resolveRange coordsEq, Option.bind_some, run_bind]
  change some (evalAggregate "SUM" (coords.map values ++ [])) = _
  rw [List.append_nil]

theorem rewriteRefs_sumOf {mutate : RefNode → Option RefNode}
    {first last movedFirst movedLast : String}
    (firstEq : mutate ⟨first, false, false⟩ = some ⟨movedFirst, false, false⟩)
    (lastEq : mutate ⟨last, false, false⟩ = some ⟨movedLast, false, false⟩)
    (firstCell : movedFirst ≠ refError) (lastCell : movedLast ≠ refError) :
    rewriteRefs mutate (sumOf first last) = some (sumOf movedFirst movedLast) := by
  have range : rewriteRefs mutate (.range ⟨first, false, false⟩ ⟨last, false, false⟩) =
      some (.range ⟨movedFirst, false, false⟩ ⟨movedLast, false, false⟩) := by
    rw [rewriteRefs, firstEq, lastEq]
    exact if_neg (not_or.mpr ⟨firstCell, lastCell⟩)
  rw [sumOf, rewriteRefs, rewriteArgs, range]
  rfl

end P2PHub.Calc
