import P2PHub.DecimalText
import P2PHub.JavaScriptValues

/-!
# Formulas of a sheet

The expressions of `plugins/calc/src/formula.ts` with their lexer, their
recursive-descent parser and their serializer.
-/

namespace P2PHub.Calc

inductive Operator
  | ne
  | le
  | ge
  | add
  | sub
  | mul
  | div
  | pow
  | concat
  | eq
  | lt
  | gt
  deriving DecidableEq, Repr

def Operator.text : Operator → List Char
  | ne => ['<', '>']
  | le => ['<', '=']
  | ge => ['>', '=']
  | add => ['+']
  | sub => ['-']
  | mul => ['*']
  | div => ['/']
  | pow => ['^']
  | concat => ['&']
  | eq => ['=']
  | lt => ['<']
  | gt => ['>']

structure RefNode where
  coord : String
  colAbs : Bool
  rowAbs : Bool
  deriving DecidableEq, Repr

inductive Expr
  | num (value : Binary64)
  | str (value : String)
  | bool (value : Bool)
  | cell (ref : RefNode)
  | range (start stop : RefNode)
  | func (name : String) (args : List Expr)
  | binary (op : Operator) (left right : Expr)
  | unary (op : Operator) (expr : Expr)
  | percent (expr : Expr)

theorem Expr.induction {holds : Expr → Prop} (num : ∀ value, holds (.num value))
    (str : ∀ value, holds (.str value)) (bool : ∀ value, holds (.bool value))
    (cell : ∀ ref, holds (.cell ref)) (range : ∀ start stop, holds (.range start stop))
    (func : ∀ name args, (∀ arg ∈ args, holds arg) → holds (.func name args))
    (binary : ∀ op left right, holds left → holds right → holds (.binary op left right))
    (unary : ∀ op expr, holds expr → holds (.unary op expr))
    (percent : ∀ expr, holds expr → holds (.percent expr)) : ∀ expr, holds expr
  | .num value => num value
  | .str value => str value
  | .bool value => bool value
  | .cell ref => cell ref
  | .range start stop => range start stop
  | .func name args => func name args fun arg _ =>
    Expr.induction num str bool cell range func binary unary percent arg
  | .binary op left right => binary op left right
      (Expr.induction num str bool cell range func binary unary percent left)
      (Expr.induction num str bool cell range func binary unary percent right)
  | .unary op expr => unary op expr
      (Expr.induction num str bool cell range func binary unary percent expr)
  | .percent expr => percent expr
      (Expr.induction num str bool cell range func binary unary percent expr)

/-- One side of a reference as it was typed. -/
structure RefPart where
  colAbs : Bool
  letters : List Char
  rowAbs : Bool
  digits : List Char
  deriving DecidableEq, Repr

def dollarText (absolute : Bool) : List Char :=
  if absolute then ['$'] else []

def RefPart.text (part : RefPart) : List Char :=
  dollarText part.colAbs ++ part.letters ++ dollarText part.rowAbs ++ part.digits

/-- `parseRefPart`. -/
def RefPart.node (part : RefPart) : RefNode where
  coord := String.ofList (part.letters.map Char.toUpper ++ part.digits)
  colAbs := part.colAbs
  rowAbs := part.rowAbs

/-- A token.  The end of the input is the end of the list of tokens. -/
inductive Token
  | num (text : List Char)
  | str (value : List Char)
  | bool (value : Bool)
  | func (name : List Char)
  | ident (word : List Char)
  | ref (start : RefPart) (stop : Option RefPart)
  | op (operator : Operator)
  | percent
  | lparen
  | rparen
  | comma
  deriving DecidableEq, Repr

def boolText (value : Bool) : List Char :=
  if value then "TRUE".toList else "FALSE".toList

def refText (start : RefPart) (stop : Option RefPart) : List Char :=
  start.text ++ (stop.map fun stop => ':' :: stop.text).getD []

def Token.value : Token → List Char
  | num text => text
  | str value => value
  | bool value => boolText value
  | func name => name
  | ident word => word
  | ref start stop => refText start stop
  | op operator => operator.text
  | percent => ['%']
  | lparen => ['(']
  | rparen => [')']
  | comma => [',']

def Token.type : Token → String
  | num _ => "num"
  | str _ => "str"
  | bool _ => "bool"
  | func _ => "func"
  | ident _ => "ident"
  | ref _ _ => "ref"
  | op _ => "op"
  | percent => "percent"
  | lparen => "lparen"
  | rparen => "rparen"
  | comma => "comma"

def maxFormulaDepth : Nat := 100

def maxFormulaTokens : Nat := 1000

/-- The characters of `\s`, which are also the ones that `trim` takes off. -/
def isWhiteSpace (char : Char) : Bool :=
  char.toNat ∈ [9, 10, 11, 12, 13, 32, 0xa0, 0x1680, 0x2028, 0x2029, 0x202f, 0x205f, 0x3000,
    0xfeff] || decide (0x2000 ≤ char.toNat ∧ char.toNat ≤ 0x200a)

def skipWhiteSpace (text : List Char) : List Char :=
  text.dropWhile isWhiteSpace

def trim (text : List Char) : List Char :=
  (skipWhiteSpace (skipWhiteSpace text).reverse).reverse

/-- A string literal after its opening quote.  There are no escapes. -/
def lexString (quote : Char) (text : List Char) : Except String (Token × List Char) :=
  match text.dropWhile (· ≠ quote) with
  | [] => .error "Unterminated string"
  | _ :: rest => .ok (.str (text.takeWhile (· ≠ quote)), rest)

def scanDollar : List Char → Bool × List Char
  | '$' :: rest => (true, rest)
  | text => (false, text)

/-- `\$?[A-Za-z]+\$?\d+` at the start of a text. -/
def scanRefPart (text : List Char) : Option (RefPart × List Char) :=
  let (colAbs, text) := scanDollar text
  let letters := text.takeWhile Char.isAlpha
  let (rowAbs, text) := scanDollar (text.dropWhile Char.isAlpha)
  let digits := text.takeWhile Char.isDigit
  if letters = [] ∨ digits = [] then none
  else some (⟨colAbs, letters, rowAbs, digits⟩, text.dropWhile Char.isDigit)

def scanRangeEnd (text : List Char) : Option (RefPart × List Char) :=
  match skipWhiteSpace text with
  | ':' :: rest => scanRefPart (skipWhiteSpace rest)
  | _ => none

def scanRef (text : List Char) : Option (Token × List Char) :=
  match scanRefPart text with
  | none => none
  | some (start, rest) =>
    match scanRangeEnd rest with
    | some (stop, rest) => some (.ref start (some stop), rest)
    | none => some (.ref start none, rest)

def isWordStart (char : Char) : Bool :=
  char.isAlpha || char = '_'

def isWordChar (char : Char) : Bool :=
  char.isAlpha || char.isDigit || char = '_' || char = '.'

/-- The name of a call up to its parenthesis, or an unknown name. -/
def lexName (word upper rest : List Char) : Token × List Char :=
  match skipWhiteSpace rest with
  | '(' :: after => (.func upper, '(' :: after)
  | _ => (.ident word, rest)

def lexWord (text : List Char) : Token × List Char :=
  let word := text.takeWhile isWordChar
  let rest := text.dropWhile isWordChar
  let upper := word.map Char.toUpper
  if upper = "TRUE".toList then (.bool true, rest)
  else if upper = "FALSE".toList then (.bool false, rest)
  else lexName word upper rest

def lexSymbol : List Char → Except String (Token × List Char)
  | '<' :: '>' :: rest => .ok (.op .ne, rest)
  | '<' :: '=' :: rest => .ok (.op .le, rest)
  | '>' :: '=' :: rest => .ok (.op .ge, rest)
  | '+' :: rest => .ok (.op .add, rest)
  | '-' :: rest => .ok (.op .sub, rest)
  | '*' :: rest => .ok (.op .mul, rest)
  | '/' :: rest => .ok (.op .div, rest)
  | '^' :: rest => .ok (.op .pow, rest)
  | '&' :: rest => .ok (.op .concat, rest)
  | '=' :: rest => .ok (.op .eq, rest)
  | '<' :: rest => .ok (.op .lt, rest)
  | '>' :: rest => .ok (.op .gt, rest)
  | '%' :: rest => .ok (.percent, rest)
  | '(' :: rest => .ok (.lparen, rest)
  | ')' :: rest => .ok (.rparen, rest)
  | ',' :: rest => .ok (.comma, rest)
  | char :: _ => .error ("Unexpected character \"" ++ String.singleton char ++ "\"")
  | [] => .error "Unexpected end"

/-- A token at the start of a text that begins with no space. -/
def lexToken (text : List Char) : Except String (Token × List Char) :=
  match text with
  | [] => .error "Unexpected end"
  | char :: rest =>
    if char = '"' ∨ char = '\x27' then lexString char rest
    else
      match Numeral.scan text with
      | some (_, after) => .ok (.num (text.take (text.length - after.length)), after)
      | none =>
        match scanRef text with
        | some read => .ok read
        | none => if isWordStart char then .ok (lexWord text) else lexSymbol text

/-- The loop of `tokenize` with the tokens pushed so far.  Each turn shortens
the text, so its length is fuel enough. -/
def tokenizeFrom : Nat → Nat → List Char → Except String (List Token)
  | 0, _, _ => .ok []
  | _ + 1, _, [] => .ok []
  | fuel + 1, pushed, char :: rest =>
    if maxFormulaTokens ≤ pushed then
      .error ("Formula exceeds " ++ toString maxFormulaTokens ++ " tokens")
    else if isWhiteSpace char then tokenizeFrom fuel pushed rest
    else
      match lexToken (char :: rest) with
      | .error message => .error message
      | .ok (token, after) =>
        (tokenizeFrom fuel (pushed + 1) after).map fun tokens => token :: tokens

def tokenize (text : List Char) : Except String (List Token) :=
  tokenizeFrom text.length 0 text

abbrev TokenParser :=
  List Token → Except String (Expr × List Token)

def shown : List Token → String
  | [] => "eof"
  | token :: _ => if token.value = [] then token.type else String.ofList token.value

def unexpectedToken (tokens : List Token) : String :=
  "Unexpected token \"" ++ shown tokens ++ "\""

def expect (expected : Token) (tokens : List Token) : Except String (List Token) :=
  match tokens with
  | token :: rest =>
    if token = expected then .ok rest
    else .error ("Expected \"" ++ expected.type ++ "\" but found \"" ++ shown tokens ++ "\"")
  | [] => .error ("Expected \"" ++ expected.type ++ "\" but found \"" ++ shown [] ++ "\"")

/-- The parsers that run one level deeper. -/
structure Nested where
  comparison : TokenParser
  power : TokenParser
  unary : TokenParser

def tooDeep : TokenParser :=
  fun _ => .error ("Expression is too deeply nested (max " ++ toString maxFormulaDepth ++ ")")

/-- `Number` of the text of a numeral. -/
def numeralNumber (text : List Char) : Binary64 :=
  match Numeral.scan text with
  | some (numeral, _) => numeral.number
  | none => .nan

def refNode (start : RefPart) (stop : Option RefPart) : Expr :=
  match stop with
  | some stop => .range start.node stop.node
  | none => .cell start.node

/-- The arguments after the first, each behind a comma. -/
def parseMoreArgs (argument : TokenParser) :
    Nat → List Token → Except String (List Expr × List Token)
  | fuel + 1, .comma :: rest => do
      let (arg, rest) ← argument rest
      let (args, rest) ← parseMoreArgs argument fuel rest
      return (arg :: args, rest)
  | _, tokens => .ok ([], tokens)

def parseArgs (argument : TokenParser) (tokens : List Token) :
    Except String (List Expr × List Token) := do
  let (arg, rest) ← argument tokens
  let (args, rest) ← parseMoreArgs argument rest.length rest
  return (arg :: args, rest)

/-- The arguments of a call after its opening parenthesis, and the closing one. -/
def parseCall (nested : Nested) (name : List Char) : TokenParser
  | .rparen :: rest => .ok (.func (String.ofList name) [], rest)
  | tokens => do
      let (args, rest) ← parseArgs nested.comparison tokens
      let rest ← expect .rparen rest
      return (.func (String.ofList name) args, rest)

def parsePrimary (nested : Nested) : TokenParser
  | .num text :: rest => .ok (.num (numeralNumber text), rest)
  | .str value :: rest => .ok (.str (String.ofList value), rest)
  | .bool value :: rest => .ok (.bool value, rest)
  | .ref start stop :: rest => .ok (refNode start stop, rest)
  | .func name :: rest => do
      let rest ← expect .lparen rest
      parseCall nested name rest
  | .ident word :: _ => .error ("Unknown name \"" ++ String.ofList word ++ "\"")
  | .lparen :: rest => do
      let (expr, rest) ← nested.comparison rest
      let rest ← expect .rparen rest
      return (expr, rest)
  | tokens => .error (unexpectedToken tokens)

def percents : Expr → List Token → Expr × List Token
  | expr, .percent :: rest => percents (.percent expr) rest
  | expr, tokens => (expr, tokens)

def parsePostfix (nested : Nested) : TokenParser := fun tokens => do
  let (expr, rest) ← parsePrimary nested tokens
  return percents expr rest

def parseUnary (nested : Nested) : TokenParser
  | .op .sub :: rest => do
      let (expr, rest) ← nested.unary rest
      return (.unary .sub expr, rest)
  | .op .add :: rest => do
      let (expr, rest) ← nested.unary rest
      return (.unary .add expr, rest)
  | tokens => parsePostfix nested tokens

def parsePower (nested : Nested) : TokenParser := fun tokens => do
  let (base, rest) ← parseUnary nested tokens
  match rest with
  | .op .pow :: rest =>
    let (right, rest) ← nested.power rest
    return (.binary .pow base right, rest)
  | rest => return (base, rest)

def leftChain (operators : List Operator) (operand : TokenParser) : Nat → Expr → TokenParser
  | fuel + 1, left, .op op :: rest =>
    if op ∈ operators then do
      let (right, rest) ← operand rest
      leftChain operators operand fuel (.binary op left right) rest
    else .ok (left, .op op :: rest)
  | _, left, tokens => .ok (left, tokens)

/-- A level of left-associative operators.  Each turn of the loop consumes a
token, so their number is fuel enough. -/
def parseLevel (operators : List Operator) (operand : TokenParser) : TokenParser := fun tokens => do
  let (left, rest) ← operand tokens
  leftChain operators operand rest.length left rest

def parseMultiplicative (nested : Nested) : TokenParser :=
  parseLevel [.mul, .div] (parsePower nested)

def parseAdditive (nested : Nested) : TokenParser :=
  parseLevel [.add, .sub] (parseMultiplicative nested)

def parseConcat (nested : Nested) : TokenParser :=
  parseLevel [.concat] (parseAdditive nested)

def parseComparison (nested : Nested) : TokenParser :=
  parseLevel [.eq, .ne, .lt, .gt, .le, .ge] (parseConcat nested)

/-- The parsers that may still nest this many levels deeper. -/
def nest : Nat → Nested
  | 0 => ⟨tooDeep, tooDeep, tooDeep⟩
  | levels + 1 =>
    ⟨parseComparison (nest levels), parsePower (nest levels), parseUnary (nest levels)⟩

def parseTokens (tokens : List Token) : Except String Expr := do
  let (expr, rest) ← parseComparison (nest maxFormulaDepth) tokens
  if rest = [] then return expr else throw (unexpectedToken rest)

/-- Nothing when the text is no formula, and the message of a syntax error. -/
def parseExpression (raw : String) : Except String (Option Expr) :=
  match trim raw.toList with
  | '=' :: rest =>
    match trim rest with
    | [] => .ok none
    | body => ((tokenize body).bind parseTokens).map some
  | _ => .ok none

def isAIFormula : Expr → Bool
  | .func name _ => name = "AI"
  | _ => false

def refToString (ref : RefNode) : List Char :=
  let letters := ref.coord.toList.takeWhile Char.isAlpha
  let digits := ref.coord.toList.dropWhile Char.isAlpha
  if letters ≠ [] ∧ digits ≠ [] ∧ digits.all Char.isDigit then
    dollarText ref.colAbs ++ letters ++ dollarText ref.rowAbs ++ digits
  else ref.coord.toList

mutual

def stringifyExpression : Expr → List Char
  | .num value => value.text
  | .str value => (JsValue.quote value).toList
  | .bool value => boolText value
  | .cell ref => refToString ref
  | .range start stop => refToString start ++ ':' :: refToString stop
  | .func name args => name.toList ++ '(' :: (stringifyArgs args ++ [')'])
  | .binary op left right =>
    '(' :: (stringifyExpression left ++ op.text ++ stringifyExpression right ++ [')'])
  | .unary op expr => '(' :: (op.text ++ stringifyExpression expr ++ [')'])
  | .percent expr => stringifyExpression expr ++ ['%']

def stringifyArgs : List Expr → List Char
  | [] => []
  | [arg] => stringifyExpression arg
  | arg :: args => stringifyExpression arg ++ ',' :: stringifyArgs args

end

end P2PHub.Calc
