import P2PHub.FormulaEvaluation

/-!
# Error tokens in formulas

What an expression of `plugins/calc/src/formula.ts` makes of the error tokens
among the values of its operands.  Operators and aggregates hand on the first
value of the shape `#…!`, which `#NAME?` and `#AI_ERR` do not have; a sign or a
percent makes `#VALUE!` of all of them.
-/

namespace P2PHub.Calc

open Binary64 Lookup

def aiError : CellValue := .text "#AI_ERR"

def errorError : CellValue := .text "#ERROR!"

/-- The error tokens that the engine itself can produce. -/
def engineTokens : List CellValue :=
  [.text refError, div0Error, valueError, nameError, cycleError, numError, errorError, syntaxError,
    aiError]

def isEngineToken (value : CellValue) : Bool :=
  decide (value ∈ engineTokens)

def firstToken (values : List CellValue) : Option CellValue :=
  values.find? isEngineToken

/-- The expressions that hand on errors: signs, percents, arithmetic,
comparisons, and four aggregates. -/
inductive Propagating : Expr → Prop
  | unary (op : Operator) (expr : Expr) : Propagating (.unary op expr)
  | percent (expr : Expr) : Propagating (.percent expr)
  | binary {op : Operator} (left right : Expr) (notConcat : op ≠ .concat) :
      Propagating (.binary op left right)
  | func {name : String} (args : List Expr) (aggregate : name ∈ ["SUM", "AVERAGE", "MIN", "MAX"]) :
      Propagating (.func name args)

/-- The values of the operands of an expression, in the order of evaluation. -/
def operandValues (engine : Engine) : Expr → Evaluation (List CellValue)
  | .unary _ expr => do
      let value ← evaluate engine expr
      return [value]
  | .percent expr => do
      let value ← evaluate engine expr
      return [value]
  | .binary _ left right => do
      let leftValue ← evaluate engine left
      let rightValue ← evaluate engine right
      return [leftValue, rightValue]
  | .func _ args => flattenArgs engine args
  | _ => return []

/-- The first engine token among the values of the operands is one that the
expression knows: `#VALUE!` under a sign or a percent, elsewhere one that no
value of the shape of an error comes before, itself of that shape. -/
def Recognised (expr : Expr) (values : List CellValue) : Prop :=
  ∀ token, firstToken values = some token → match expr with
    | .unary _ _ | .percent _ => token = valueError
    | _ => firstError values = some token

section

variable {value token left right : CellValue} {values : List CellValue} {op : Operator}
  {engine : Engine} {name : String}

theorem toNumber_token (isToken : isEngineToken token) : toNumber token = .nan := by
  have all : ∀ token ∈ engineTokens, toNumber token = .nan := by
    decide +kernel
  exact all token (of_decide_eq_true isToken)

theorem token_cases (isToken : isEngineToken token) :
    isErrorValue token ∨ token = nameError ∨ token = aiError := by
  have all : ∀ token ∈ engineTokens, isErrorValue token ∨ token = nameError ∨
      token = aiError := by
    decide +kernel
  exact all token (of_decide_eq_true isToken)

/-- A value that is neither of the two tokens without the shape of an error. -/
def Shaped (value : CellValue) : Prop :=
  value ≠ nameError ∧ value ≠ aiError

theorem shaped_number (number : Binary64) : Shaped (.number number) :=
  ⟨by simp [nameError], by simp [aiError]⟩

theorem shaped_bool (value : Bool) : Shaped (.bool value) :=
  ⟨by simp [nameError], by simp [aiError]⟩

theorem shaped_valueError : Shaped valueError :=
  ⟨by decide, by decide⟩

theorem shaped_div0Error : Shaped div0Error :=
  ⟨by decide, by decide⟩

theorem shaped_numOp : Shaped (numOp engine op left right) := by
  unfold numOp
  dsimp only
  split
  · exact shaped_valueError
  · split
    · exact shaped_number _
    · exact shaped_number _
    · exact shaped_number _
    · split
      · exact shaped_div0Error
      · exact shaped_number _
    · exact shaped_number _
    · exact shaped_valueError

theorem shaped_compareOp : Shaped (compareOp op left right) := by
  unfold compareOp
  dsimp only
  split
  · exact shaped_bool _
  · exact shaped_bool _
  · exact shaped_bool _
  · exact shaped_bool _
  · exact shaped_bool _
  · exact shaped_bool _
  · exact shaped_valueError

theorem binaryOp_firstError (engine : Engine) (op : Operator) (left right : CellValue) :
    (∀ token, firstError [left, right] = some token → binaryOp engine op left right = token) ∧
    (firstError [left, right] = none → Shaped (binaryOp engine op left right)) := by
  unfold firstError binaryOp
  cases leftError : isErrorValue left with
  | true => simp [leftError]
  | false =>
    cases rightError : isErrorValue right with
    | true => simp [leftError, rightError]
    | false =>
      refine ⟨by simp [leftError, rightError], fun _ => ?_⟩
      rw [if_neg Bool.false_ne_true, if_neg Bool.false_ne_true]
      split
      · exact shaped_compareOp
      · exact shaped_numOp

theorem evalAggregate_firstError (aggregate : name ∈ ["SUM", "AVERAGE", "MIN", "MAX"])
    (values : List CellValue) : (∀ token, firstError values = some token →
    evalAggregate name values = token) ∧
      (firstError values = none → Shaped (evalAggregate name values)) := by
  have notCount : name ≠ "COUNT" := by
    rintro rfl
    exact absurd aggregate (by decide)
  have notCounta : name ≠ "COUNTA" := by
    rintro rfl
    exact absurd aggregate (by decide)
  unfold evalAggregate
  rw [if_neg notCount, if_neg notCounta]
  cases firstError values with
  | some => simp
  | none =>
    refine ⟨by simp, fun _ => ?_⟩
    dsimp only
    split
    · exact shaped_number _
    · split
      · split
        · exact shaped_div0Error
        · exact shaped_number _
      · split
        · exact shaped_number _
        · split <;> exact shaped_number _

/-- Where the first shaped value is handed on, the first token is the result
exactly when it is the first shaped value. -/
theorem handsOn_iff {result : CellValue}
    (handedOn : ∀ token, firstError values = some token → result = token)
    (shaped : firstError values = none → Shaped result) :
    (∀ token, firstToken values = some token → result = token) ↔
      ∀ token, firstToken values = some token → firstError values = some token := by
  refine forall₂_congr fun token isFirst => ?_
  constructor
  · rintro rfl
    cases first : firstError values with
    | some error => rw [handedOn error first]
    | none =>
      obtain ⟨notName, notAi⟩ := shaped first
      have isToken : isEngineToken result := List.find?_some isFirst
      rcases token_cases isToken with isError | isName | isAi
      · have member := List.mem_of_find?_eq_some isFirst
        exact absurd isError (List.find?_eq_none.mp first result member)
      · exact absurd isName notName
      · exact absurd isAi notAi
  · exact handedOn token

theorem onNumber_iff (convert : Binary64 → CellValue) :
    (∀ token, firstToken [value] = some token → onNumber value convert = token) ↔
      ∀ token, firstToken [value] = some token → token = valueError := by
  refine forall₂_congr fun token isFirst => ?_
  have isToken : isEngineToken token := List.find?_some isFirst
  obtain rfl := List.mem_singleton.mp (List.mem_of_find?_eq_some isFirst)
  rw [onNumber, if_pos (toNumber_token isToken)]
  exact eq_comm

end

variable {engine : Engine} {expr : Expr} {values : List CellValue}

theorem run_one {program : Evaluation CellValue} {resolve : String → CellValue}
    (operands : (program >>= fun value => return [value]).run resolve = some values) :
    ∃ value, values = [value] ∧ ∀ convert : CellValue → CellValue,
      (program >>= fun value => return convert value).run resolve = some (convert value) := by
  rw [run_bind] at operands
  obtain ⟨value, evaluated, same⟩ := Option.bind_eq_some_iff.mp operands
  refine ⟨value, (Option.some.inj same).symm, fun convert => ?_⟩
  rw [run_bind, evaluated]
  rfl

theorem evalFunction_aggregate {name : String} (args : List Expr)
    (aggregate : name ∈ ["SUM", "AVERAGE", "MIN", "MAX"]) : evalFunction engine name args =
      (flattenArgs engine args >>= fun values => return evalAggregate name values) := by
  simp only [List.mem_cons, List.not_mem_nil, or_false] at aggregate
  rcases aggregate with rfl | rfl | rfl | rfl <;> simp [evalFunction, isAggregate]

end P2PHub.Calc
