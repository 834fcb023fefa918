import P2PHub.FormulaParsing

/-!
# The parser and its position

The class `Parser` of `plugins/calc/src/formula.ts` with its fields: the
position among the tokens and the depth of nesting.  It reads the tokens one by
one, the end of the input last, and keeps its fields when it throws.  What it
returns is what the parser on lists of tokens returns.
-/

namespace P2PHub.Calc

inductive Lexeme
  | token (token : Token)
  | eof

def Lexeme.shown : Lexeme → String
  | .token read => if read.value = [] then read.type else String.ofList read.value
  | .eof => "eof"

/-- What a parser throws: a syntax error, the type error of a read past the end
of the tokens, or nothing because a loop does not end. -/
inductive ParseFailure
  | malformed (message : String)
  | pastEof
  | endless

/-- The fields of a parser.  `deepest` is the greatest depth at which a nested
step has run. -/
structure Parser where
  pos : Nat := 0
  depth : Nat := 0
  deepest : Nat := 0

def ParserStep (Result : Type) : Type :=
  Parser → Except ParseFailure Result × Parser

namespace Parser

instance : Monad ParserStep where
  pure result := fun parser => (.ok result, parser)
  bind step next := fun parser =>
    match step parser with
    | (.ok result, after) => next result after
    | (.error failure, after) => (.error failure, after)

def fail {Result : Type} (failure : ParseFailure) : ParserStep Result :=
  fun parser => (.error failure, parser)

def syntaxError {Result : Type} (message : String) : ParserStep Result :=
  fail (.malformed message)

section

variable (tokens : List Token)

/-- What stands at a position; behind the tokens stands the end of the input. -/
def lexemeAt (position : Nat) : Option Lexeme :=
  (tokens.map Lexeme.token ++ [.eof])[position]?

def peek : ParserStep Lexeme := fun parser =>
  match lexemeAt tokens parser.pos with
  | some lexeme => (.ok lexeme, parser)
  | none => (.error .pastEof, parser)

def next : ParserStep Lexeme := fun parser =>
  match lexemeAt tokens parser.pos with
  | some lexeme => (.ok lexeme, { parser with pos := parser.pos + 1 })
  | none => (.error .pastEof, { parser with pos := parser.pos + 1 })

/-- Run a step one level deeper, unless that is too deep. -/
def nest (step : ParserStep Expr) : ParserStep Expr := fun parser =>
  let depth := parser.depth + 1
  if maxFormulaDepth < depth then
    (.error (.malformed ("Expression is too deeply nested (max " ++ toString maxFormulaDepth ++
      ")")), parser)
  else
    let ran := step { parser with depth := depth, deepest := max parser.deepest depth }
    (ran.1, { ran.2 with depth := ran.2.depth - 1 })

/-- The token is consumed also when it is not the expected one. -/
def expect (expected : Token) : ParserStep Unit := do
  let found ← next tokens
  match found with
  | .token token =>
    if token = expected then return ()
    else syntaxError ("Expected \"" ++ expected.type ++ "\" but found \"" ++ found.shown ++ "\"")
  | .eof =>
    syntaxError ("Expected \"" ++ expected.type ++ "\" but found \"" ++ found.shown ++ "\"")

/-- The steps that `nest` runs one level deeper. -/
structure Inner where
  comparison : ParserStep Expr
  power : ParserStep Expr
  unary : ParserStep Expr

def parseMoreArgs (argument : ParserStep Expr) : Nat → ParserStep (List Expr)
  | 0 => fail .endless
  | turns + 1 => do
      match ← peek tokens with
      | .token .comma =>
        let _ ← next tokens
        let arg ← argument
        let args ← parseMoreArgs argument turns
        return arg :: args
      | _ => return []

def turns : Nat :=
  tokens.length + 1

def parseCall (inner : Inner) (name : List Char) : ParserStep Expr := do
  expect tokens .lparen
  match ← peek tokens with
  | .token .rparen =>
    expect tokens .rparen
    return .func (String.ofList name) []
  | _ =>
    let arg ← inner.comparison
    let args ← parseMoreArgs tokens inner.comparison (turns tokens)
    expect tokens .rparen
    return .func (String.ofList name) (arg :: args)

def parsePrimary (inner : Inner) : ParserStep Expr := do
  let lexeme ← peek tokens
  match lexeme with
  | .token (.num text) =>
    let _ ← next tokens
    return .num (numeralNumber text)
  | .token (.str value) =>
    let _ ← next tokens
    return .str (String.ofList value)
  | .token (.bool value) =>
    let _ ← next tokens
    return .bool value
  | .token (.ref start stop) =>
    let _ ← next tokens
    return refNode start stop
  | .token (.func name) =>
    let _ ← next tokens
    parseCall tokens inner name
  | .token (.ident word) =>
    let _ ← next tokens
    syntaxError ("Unknown name \"" ++ String.ofList word ++ "\"")
  | .token .lparen =>
    let _ ← next tokens
    let expr ← inner.comparison
    expect tokens .rparen
    return expr
  | _ => syntaxError ("Unexpected token \"" ++ lexeme.shown ++ "\"")

/-- The loop of `parsePostfix`. -/
def percents : Nat → Expr → ParserStep Expr
  | 0, _ => fail .endless
  | turns + 1, expr => do
      match ← peek tokens with
      | .token .percent =>
        let _ ← next tokens
        percents turns (.percent expr)
      | _ => return expr

def parsePostfix (inner : Inner) : ParserStep Expr := do
  let expr ← parsePrimary tokens inner
  percents tokens (turns tokens) expr

def parseUnary (inner : Inner) : ParserStep Expr := do
  match ← peek tokens with
  | .token (.op .sub) =>
    let _ ← next tokens
    let expr ← inner.unary
    return .unary .sub expr
  | .token (.op .add) =>
    let _ ← next tokens
    let expr ← inner.unary
    return .unary .add expr
  | _ => parsePostfix tokens inner

def parsePower (inner : Inner) : ParserStep Expr := do
  let base ← parseUnary tokens inner
  match ← peek tokens with
  | .token (.op .pow) =>
    let _ ← next tokens
    let right ← inner.power
    return .binary .pow base right
  | _ => return base

def leftChain (operators : List Operator) (operand : ParserStep Expr) : Nat → Expr → ParserStep Expr
  | 0, _ => fail .endless
  | turns + 1, left => do
      match ← peek tokens with
      | .token (.op op) =>
        if op ∈ operators then
          let _ ← next tokens
          let right ← operand
          leftChain operators operand turns (.binary op left right)
        else return left
      | _ => return left

def parseLevel (operators : List Operator) (operand : ParserStep Expr) : ParserStep Expr := do
  let left ← operand
  leftChain tokens operators operand (turns tokens) left

def parseMultiplicative (inner : Inner) : ParserStep Expr :=
  parseLevel tokens [.mul, .div] (parsePower tokens inner)

def parseAdditive (inner : Inner) : ParserStep Expr :=
  parseLevel tokens [.add, .sub] (parseMultiplicative tokens inner)

def parseConcat (inner : Inner) : ParserStep Expr :=
  parseLevel tokens [.concat] (parseAdditive tokens inner)

def parseComparison (inner : Inner) : ParserStep Expr :=
  parseLevel tokens [.eq, .ne, .lt, .gt, .le, .ge] (parseConcat tokens inner)

/-- The nested steps, where the given number of levels can still be entered. -/
def innerOf : Nat → Inner
  | 0 => ⟨nest (fail .endless), nest (fail .endless), nest (fail .endless)⟩
  | levels + 1 =>
    ⟨nest (parseComparison tokens (innerOf levels)), nest (parsePower tokens (innerOf levels)),
      nest (parseUnary tokens (innerOf levels))⟩

def parse : ParserStep Expr := do
  let expr ← parseComparison tokens (innerOf tokens maxFormulaDepth)
  let lexeme ← peek tokens
  match lexeme with
  | .eof => return expr
  | .token _ => syntaxError ("Unexpected token \"" ++ lexeme.shown ++ "\"")

end

/-- `parseExpression`, with the parser that it leaves behind. -/
def parseExpression (raw : String) : Except ParseFailure (Option Expr) × Parser :=
  match trim raw.toList with
  | '=' :: rest =>
    match trim rest with
    | [] => (.ok none, {})
    | body =>
      match tokenize body with
      | .error message => (.error (.malformed message), {})
      | .ok tokens =>
        let ran := parse tokens {}
        (ran.1.map some, ran.2)
  | _ => (.ok none, {})

end Parser

end P2PHub.Calc
