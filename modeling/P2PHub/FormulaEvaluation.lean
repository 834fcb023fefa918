import P2PHub.FormulaCoordinates
import P2PHub.KeyedLookups

/-!
# Evaluating formulas

The evaluator of `plugins/calc/src/formula.ts`.  A formula looks up the cells
that it refers to; a range whose enumeration does not end leaves it stuck.
What the language specification leaves to the engine is a parameter.
-/

namespace P2PHub.Calc

open Binary64

inductive CellValue
  | null
  | bool (value : Bool)
  | number (value : Binary64)
  | text (value : String)
  deriving DecidableEq

/-- What the engine decides: the case mappings of characters outside ASCII, the
one to lower case with what stands around the character, and the approximations
of `Math.pow` and `Math.sqrt`. -/
structure Engine where
  upper : Char → List Char
  lower : List Char → Char → List Char → List Char
  pow : Binary64 → Binary64 → Binary64
  sqrt : Binary64 → Binary64

def asciiEngine : Engine :=
  ⟨fun char => [char], fun _ char _ => [char], fun base _ => base, id⟩

def div0Error : CellValue := .text "#DIV/0!"

def valueError : CellValue := .text "#VALUE!"

def nameError : CellValue := .text "#NAME?"

def cycleError : CellValue := .text "#CYCLE!"

def numError : CellValue := .text "#NUM!"

def syntaxError : CellValue := .text "#SYNTAX!"

def refError : String := "#REF!"

def isErrorValue : CellValue → Bool
  | .text value => value.toList.head? = some '#' && value.toList.getLast? = some '!'
  | _ => false

def isEmpty : CellValue → Bool
  | .null => true
  | .text value => value.toList = []
  | _ => false

def toText : CellValue → List Char
  | .null => []
  | .bool value => if value then "true".toList else "false".toList
  | .number value => value.text
  | .text value => value.toList

def toUpperCase (engine : Engine) (text : List Char) : List Char :=
  text.flatMap fun char => if char.toNat < 128 then [char.toUpper] else engine.upper char

/-- `toLowerCase` of the rest of a text after some characters. -/
def toLowerCaseAfter (engine : Engine) (before : List Char) : List Char → List Char
  | [] => []
  | char :: rest =>
    (if char.toNat < 128 then [char.toLower] else engine.lower before char rest) ++
      toLowerCaseAfter engine (before ++ [char]) rest

def toLowerCase (engine : Engine) (text : List Char) : List Char :=
  toLowerCaseAfter engine [] text

def toBoolean (engine : Engine) : CellValue → Bool
  | .null => false
  | .bool value => value
  | .number value => !value.same (ofInt 0)
  | .text value =>
    value.toList ≠ [] && toLowerCase engine value.toList ≠ "false".toList

/-- A decimal numeral of `Number`, with digits before or after its point. -/
def decimalNumber (text : List Char) : Binary64 :=
  let whole := text.takeWhile Char.isDigit
  let rest := text.dropWhile Char.isDigit
  let (fraction, rest) := match rest with
    | '.' :: after => (after.takeWhile Char.isDigit, after.dropWhile Char.isDigit)
    | _ => ([], rest)
  if whole = [] ∧ fraction = [] then .nan
  else
    match Numeral.scanExponent rest with
    | (exponent, []) => Numeral.number ⟨whole, fraction, exponent⟩
    | _ => .nan

def unsignedNumber (text : List Char) : Binary64 :=
  if text = "Infinity".toList then .infinite false else decimalNumber text

def digitValue (char : Char) : Nat :=
  if char.isDigit then char.toNat - 48
  else if char.isAlpha then char.toUpper.toNat - 55
  else 36

def radixNumber (base : Nat) (digits : List Char) : Binary64 :=
  if digits ≠ [] ∧ digits.all fun digit => digitValue digit < base then
    ofInt (digits.foldl (fun total digit => total * base + digitValue digit) 0 : ℕ)
  else .nan

/-- `Number` of a trimmed text that is not empty. -/
def textNumber : List Char → Binary64
  | '0' :: 'x' :: digits => radixNumber 16 digits
  | '0' :: 'X' :: digits => radixNumber 16 digits
  | '0' :: 'o' :: digits => radixNumber 8 digits
  | '0' :: 'O' :: digits => radixNumber 8 digits
  | '0' :: 'b' :: digits => radixNumber 2 digits
  | '0' :: 'B' :: digits => radixNumber 2 digits
  | '-' :: rest => (unsignedNumber rest).neg
  | '+' :: rest => unsignedNumber rest
  | text => unsignedNumber text

def toNumber : CellValue → Binary64
  | .null => ofInt 0
  | .bool value => if value then ofInt 1 else ofInt 0
  | .number value => value
  | .text value =>
    match trim value.toList with
    | [] => ofInt 0
    | text => textNumber text

/-- `Math.round`: halves go up. -/
def round : Binary64 → Binary64
  | .finite value _ => ofInt ⌊value + 1 / 2⌋
  | number => number

def abs (number : Binary64) : Binary64 :=
  if number.isNegative then number.neg else number

def roundTo (engine : Engine) (value digits : Binary64) : Binary64 :=
  let factor := engine.pow (ofInt 10) digits
  (round (value.mul factor)).div factor

/-- A function of one number, or the error of a value that is none. -/
def onNumber (value : CellValue) (result : Binary64 → CellValue) : CellValue :=
  if toNumber value = .nan then valueError else result (toNumber value)

def squareRoot (engine : Engine) (number : Binary64) : CellValue :=
  if number.lt (ofInt 0) then numError else .number (engine.sqrt number)

def modulo (left right : CellValue) : CellValue :=
  let first := toNumber left
  let second := toNumber right
  if first = .nan ∨ second = .nan then valueError
  else if second.isZero then div0Error
  else .number (first.sub (second.mul (first.div second).floor))

def collapseSpaces : List Char → List Char
  | [] => []
  | char :: rest =>
    if isWhiteSpace char then
      match collapseSpaces rest with
      | ' ' :: others => ' ' :: others
      | others => ' ' :: others
    else char :: collapseSpaces rest

def numOp (engine : Engine) (op : Operator) (left right : CellValue) : CellValue :=
  let first := toNumber left
  let second := toNumber right
  if first = .nan ∨ second = .nan then valueError
  else
    match op with
    | .add => .number (first.add second)
    | .sub => .number (first.sub second)
    | .mul => .number (first.mul second)
    | .div => if second.isZero then div0Error else .number (first.div second)
    | .pow => .number (engine.pow first second)
    | _ => valueError

def textLess (first second : List Char) : Bool :=
  decide (Utf16.units first < Utf16.units second)

def compareOp (op : Operator) (left right : CellValue) : CellValue :=
  let first := toNumber left
  let second := toNumber right
  let numbers := first ≠ .nan ∧ second ≠ .nan
  let firstText := toText left
  let secondText := toText right
  let equal := if numbers then first.same second else firstText = secondText
  let less := if numbers then first.lt second else textLess firstText secondText
  let more := if numbers then second.lt first else textLess secondText firstText
  match op with
  | .eq => .bool equal
  | .ne => .bool !equal
  | .lt => .bool less
  | .gt => .bool more
  | .le => .bool (less || equal)
  | .ge => .bool (more || equal)
  | _ => valueError

def Operator.isComparison : Operator → Bool
  | eq | ne | lt | gt | le | ge => true
  | _ => false

/-- A binary operation but for `&`. -/
def binaryOp (engine : Engine) (op : Operator) (left right : CellValue) : CellValue :=
  if isErrorValue left then left
  else if isErrorValue right then right
  else if op.isComparison then compareOp op left right
  else numOp engine op left right

def firstError (values : List CellValue) : Option CellValue :=
  values.find? isErrorValue

def numberOf? : CellValue → Option Binary64
  | .number value => some value
  | _ => none

def sum (numbers : List Binary64) : Binary64 :=
  numbers.foldl add (ofInt 0)

def evalAggregate (name : String) (values : List CellValue) : CellValue :=
  let numbers := values.filterMap numberOf?
  if name = "COUNT" then .number (ofInt (numbers.length : ℕ))
  else if name = "COUNTA" then .number (ofInt ((values.filter fun value => !isEmpty value).length : ℕ))
  else
    match firstError values with
    | some error => error
    | none =>
      if name = "SUM" then .number (sum numbers)
      else
        match numbers with
        | [] => if name = "AVERAGE" then div0Error else .number (ofInt 0)
        | first :: rest =>
          if name = "AVERAGE" then .number ((sum numbers).div (ofInt (numbers.length : ℕ)))
          else if name = "MIN" then .number (rest.foldl minOf first)
          else .number (rest.foldl maxOf first)

section

abbrev Evaluation :=
  Lookup String CellValue

/-- The coordinates of a range.  They are missing when their enumeration does
not end. -/
def rangeCoords (start stop : RefNode) : Option (List String) :=
  match parseRange (start.coord.toList ++ ':' :: stop.coord.toList) with
  | some range => rangeCells range
  | none => some []

def resolveAll : List String → Evaluation (List CellValue)
  | [] => return []
  | coord :: coords => do
      let value ← Lookup.look coord
      let values ← resolveAll coords
      return value :: values

def resolveRange (start stop : RefNode) : Evaluation (List CellValue) := do
  let coords ← Lookup.ofOption (rangeCoords start stop)
  resolveAll coords

def textValue (text : List Char) : CellValue :=
  .text (String.ofList text)

def isAggregate (name : String) : Bool :=
  name ∈ ["SUM", "AVERAGE", "MIN", "MAX", "COUNT", "COUNTA"]

variable (engine : Engine)

mutual

def evaluate : Expr → Evaluation CellValue
  | .num value => return .number value
  | .str value => return .text value
  | .bool value => return .bool value
  | .cell ref => Lookup.look ref.coord
  | .range start stop => do
      let values ← resolveRange start stop
      return values.headD .null
  | .unary op expr => do
      let value ← evaluate expr
      return onNumber value fun number => .number (if op = .sub then number.neg else number)
  | .percent expr => do
      let value ← evaluate expr
      return onNumber value fun number => .number (number.div (ofInt 100))
  | .binary op left right => do
      let leftValue ← evaluate left
      let rightValue ← evaluate right
      if op = .concat then return textValue (toText leftValue ++ toText rightValue)
      else return binaryOp engine op leftValue rightValue
  | .func name args => evalFunction name args

def evalOne (args : List Expr) (result : CellValue → CellValue) : Evaluation CellValue :=
  match args with
  | [arg] => do
      let value ← evaluate arg
      return result value
  | _ => return valueError

def evalIf : List Expr → Evaluation CellValue
  | [cond, yes] => do
      let value ← evaluate cond
      if toBoolean engine value then evaluate yes else return .null
  | [cond, yes, no] => do
      let value ← evaluate cond
      if toBoolean engine value then evaluate yes else evaluate no
  | _ => return valueError

def evalRound : List Expr → Evaluation CellValue
  | [arg] => do
      let value ← evaluate arg
      return onNumber value fun number => .number (roundTo engine number (ofInt 0))
  | [arg, digits] => do
      let value ← evaluate arg
      if toNumber value = .nan then return valueError
      else do
        let places ← evaluate digits
        return .number (roundTo engine (toNumber value) (toNumber places).trunc)
  | _ => return valueError

def evalModulo : List Expr → Evaluation CellValue
  | [left, right] => do
      let leftValue ← evaluate left
      let rightValue ← evaluate right
      return modulo leftValue rightValue
  | _ => return valueError

def evalFunction (name : String) (args : List Expr) : Evaluation CellValue :=
  if name = "AI" then return .null
  else if name = "IF" then evalIf args
  else if name = "ROUND" then evalRound args
  else if name = "ABS" then evalOne args fun value => onNumber value fun number => .number (abs number)
  else if name = "SQRT" then evalOne args fun value => onNumber value (squareRoot engine)
  else if name = "INT" then evalOne args fun value => onNumber value fun number => .number number.trunc
  else if name = "MOD" then evalModulo args
  else if name = "CONCAT" ∨ name = "CONCATENATE" then do
    let values ← flattenArgs args
    return textValue (values.flatMap toText)
  else if name = "UPPER" then evalOne args fun value => textValue (toUpperCase engine (toText value))
  else if name = "LOWER" then evalOne args fun value => textValue (toLowerCase engine (toText value))
  else if name = "TRIM" then evalOne args fun value => textValue (trim (collapseSpaces (toText value)))
  else if name = "LEN" then evalOne args fun value => .number (ofInt (Utf16.length (toText value) : ℕ))
  else if isAggregate name then do
    let values ← flattenArgs args
    return evalAggregate name values
  else return nameError

/-- The values of arguments, those of a range one by one. -/
def flattenArgs : List Expr → Evaluation (List CellValue)
  | [] => return []
  | arg :: args => do
      let values ← flattenArg arg
      let others ← flattenArgs args
      return values ++ others

def flattenArg : Expr → Evaluation (List CellValue)
  | .range start stop => resolveRange start stop
  | arg => do
      let value ← evaluate arg
      return [value]

end

end

/-- A reference: a cell, or a range from one cell to another. -/
abbrev Reference :=
  RefNode × Option RefNode

mutual

/-- The references of an expression, from left to right. -/
def Expr.references : Expr → List Reference
  | .cell ref => [(ref, none)]
  | .range start stop => [(start, some stop)]
  | .func _ args => referencesOfArgs args
  | .binary _ left right => left.references ++ right.references
  | .unary _ expr => expr.references
  | .percent expr => expr.references
  | _ => []

def referencesOfArgs : List Expr → List Reference
  | [] => []
  | arg :: args => arg.references ++ referencesOfArgs args

end

variable {args : List Expr}

theorem mem_referencesOfArgs {arg : Expr} {reference : Reference}
    (argMember : arg ∈ args) (member : reference ∈ arg.references) :
    reference ∈ referencesOfArgs args := by
  induction args with
  | nil => cases argMember
  | cons first args ih =>
    rw [referencesOfArgs, List.mem_append]
    rcases List.mem_cons.mp argMember with rfl | later
    · exact .inl member
    · exact .inr (ih later)

/-- The cells of a reference, missing when their enumeration does not end. -/
def Reference.coords : Reference → Option (List String)
  | (ref, none) => some [ref.coord]
  | (start, some stop) => rangeCoords start stop

/-- The cell is one of those that the expression refers to. -/
def Expr.Mentions (expr : Expr) (coord : String) : Prop :=
  ∃ reference ∈ expr.references, ∃ coords, Reference.coords reference = some coords ∧ coord ∈ coords

def Expr.Enumerable (expr : Expr) : Prop :=
  ∀ reference ∈ expr.references, (Reference.coords reference).isSome

variable {engine : Engine} {keys : String → Prop}

theorem within_done {Result : Type} (result : Result) :
    (pure result : Evaluation Result).Within keys :=
  trivial

theorem within_ite {Result : Type} {test : Prop} [Decidable test]
    {first second : Evaluation Result} (firstWithin : first.Within keys)
    (secondWithin : second.Within keys) : (if test then first else second).Within keys := by
  split
  · exact firstWithin
  · exact secondWithin

theorem within_look {coord : String} (holds : keys coord) :
    (Lookup.look coord : Evaluation CellValue).Within keys :=
  ⟨holds, fun _ => trivial⟩

theorem within_resolveAll {coords : List String} (all : ∀ coord ∈ coords, keys coord) :
    (resolveAll coords).Within keys := by
  induction coords with
  | nil => exact within_done _
  | cons coord coords ih =>
    obtain ⟨head, rest⟩ := List.forall_mem_cons.mp all
    exact .bind (within_look head) fun value => .bind (ih rest) fun values => within_done _

/-- The cells of a reference are enumerated, and satisfy a predicate. -/
def Reference.Within (keys : String → Prop) (reference : Reference) : Prop :=
  ∃ coords, reference.coords = some coords ∧ ∀ coord ∈ coords, keys coord

theorem within_resolveRange {start stop : RefNode} (within : Reference.Within keys (start,
    some stop)) : (resolveRange start stop).Within keys := by
  obtain ⟨coords, coordsEq, all⟩ := within
  have enumerated : rangeCoords start stop = some coords := coordsEq
  rw [resolveRange, enumerated]
  exact within_resolveAll all

section

variable (each : ∀ arg ∈ args, (evaluate engine arg).Within keys)
    (references : ∀ reference ∈ referencesOfArgs args, Reference.Within keys reference)
include each references

theorem within_flattenArgs : (flattenArgs engine args).Within keys := by
  induction args with
  | nil =>
    rw [flattenArgs]
    exact within_done _
  | cons arg args ih =>
    obtain ⟨argReferences, otherReferences⟩ := List.forall_mem_append.mp references
    obtain ⟨argWithin, others⟩ := List.forall_mem_cons.mp each
    have flat : (flattenArg engine arg).Within keys := by
      cases arg with
      | range =>
        rw [flattenArg]
        exact within_resolveRange (argReferences _ (List.mem_singleton_self _))
      | _ =>
        rw [flattenArg]
        · exact .bind argWithin fun value => within_done _
        · exact nofun
    rw [flattenArgs]
    exact .bind flat fun values => .bind (ih others otherReferences) fun rest => within_done _

theorem within_evalFunction {name : String} : (evalFunction engine name args).Within keys := by
  have one (result : CellValue → CellValue) : (evalOne engine args result).Within keys := by
    unfold evalOne
    split
    · exact .bind (each _ (by simp)) fun value => within_done _
    · exact within_done _
  have cond : (evalIf engine args).Within keys := by
    unfold evalIf
    split
    · refine .bind (each _ (by simp)) fun value => ?_
      split
      · exact each _ (by simp)
      · exact within_done _
    · refine .bind (each _ (by simp)) fun value => ?_
      split <;> exact each _ (by simp)
    · exact within_done _
  have rounded : (evalRound engine args).Within keys := by
    unfold evalRound
    split
    · exact .bind (each _ (by simp)) fun value => within_done _
    · refine .bind (each _ (by simp)) fun value => ?_
      split
      · exact within_done _
      · exact .bind (each _ (by simp)) fun places => within_done _
    · exact within_done _
  have remainder : (evalModulo engine args).Within keys := by
    unfold evalModulo
    split
    · exact .bind (each _ (by simp)) fun left => .bind (each _ (by simp)) fun right => within_done _
    · exact within_done _
  have flat (result : List CellValue → CellValue) :
      (flattenArgs engine args >>= fun values => pure (result values)).Within keys :=
    .bind (within_flattenArgs each references) fun values => within_done _
  unfold evalFunction
  exact within_ite (within_done _) <| within_ite cond <| within_ite rounded <|
    within_ite (one _) <| within_ite (one _) <| within_ite (one _) <| within_ite remainder <|
    within_ite (flat fun values => textValue (values.flatMap toText)) <| within_ite (one _) <|
    within_ite (one _) <| within_ite (one _) <| within_ite (one _) <|
    within_ite (flat (evalAggregate name)) (within_done _)

end

theorem within_evaluate {expr : Expr}
    (references : ∀ reference ∈ expr.references, Reference.Within keys reference) :
    (evaluate engine expr).Within keys := by
  induction expr using Expr.induction with
  | cell =>
    obtain ⟨coords, coordsEq, all⟩ := references _ (List.mem_singleton_self _)
    cases coordsEq
    rw [evaluate]
    exact within_look (all _ (List.mem_singleton_self _))
  | range =>
    rw [evaluate]
    exact .bind (within_resolveRange (references _ (List.mem_singleton_self _)))
      fun values => within_done _
  | func name args ih =>
    rw [evaluate]
    exact within_evalFunction (fun arg member => ih arg member fun reference inArg =>
        references reference (mem_referencesOfArgs member inArg)) references
  | binary op left right leftIH rightIH =>
    obtain ⟨leftReferences, rightReferences⟩ := List.forall_mem_append.mp references
    rw [evaluate]
    refine .bind (leftIH leftReferences) fun leftValue =>
      .bind (rightIH rightReferences) fun rightValue => ?_
    exact within_ite (within_done _) (within_done _)
  | unary op expr ih | percent expr ih =>
    rw [evaluate]
    exact .bind (ih references) fun value => within_done _
  | _ =>
    rw [evaluate]
    exact within_done _

theorem within_mentions {expr : Expr} (enumerable : expr.Enumerable) :
    (evaluate engine expr).Within expr.Mentions := by
  refine within_evaluate fun reference member => ?_
  obtain ⟨coords, coordsEq⟩ := Option.isSome_iff_exists.mp (enumerable reference member)
  exact ⟨coords, coordsEq, fun coord inCoords => ⟨reference, member, coords, coordsEq, inCoords⟩⟩

end P2PHub.Calc
