import P2PHub.FormulaParserSimulation

/-!
# Total and bounded parsing

An expression has no more nodes than tokens were read for it, and the lexer
returns no more tokens than its limit.  With the simulation of the parser,
parsing is total on every text.
-/

namespace P2PHub.Calc

section

mutual

/-- The number of expressions in an expression, itself included. -/
def Expr.nodes : Expr → Nat
  | .func _ args => nodesOfArgs args + 1
  | .binary _ left right => left.nodes + right.nodes + 1
  | .unary _ expr => expr.nodes + 1
  | .percent expr => expr.nodes + 1
  | _ => 1

def nodesOfArgs : List Expr → Nat
  | [] => 0
  | arg :: args => arg.nodes + nodesOfArgs args

end

variable {tokens rest : List Token} {left expr : Expr} {operand : TokenParser} {nested : Nested}
  {fuel pushed : Nat} {operators : List Operator}

/-- A parser reads at least as many tokens as its expression has nodes. -/
def SizedParser (parser : TokenParser) : Prop :=
  ∀ tokens expr rest, parser tokens = .ok (expr, rest) → expr.nodes + rest.length ≤ tokens.length

structure SizedNested (nested : Nested) : Prop where
  comparison : SizedParser nested.comparison
  power : SizedParser nested.power
  unary : SizedParser nested.unary

theorem leftChain_sized (sized : SizedParser operand)
    (parsed : leftChain operators operand fuel left tokens = .ok (expr, rest)) :
    expr.nodes + rest.length ≤ left.nodes + tokens.length := by
  induction fuel generalizing left tokens with
  | zero =>
    cases parsed
    exact le_rfl
  | succ fuel ih =>
    rcases stops_or operators tokens with stops | ⟨op, member, more, rfl⟩
    · rw [leftChain_stop stops] at parsed
      cases parsed
      exact le_rfl
    · rw [leftChain_next member] at parsed
      obtain ⟨⟨right, middle⟩, rightEq, parsed⟩ := ok_of_bind parsed
      have operandSize := sized _ _ _ rightEq
      have chainSize := ih parsed
      rw [Expr.nodes] at chainSize
      rw [List.length_cons]
      dsimp only at chainSize
      omega

theorem parseLevel_sized (sized : SizedParser operand) :
    SizedParser (parseLevel operators operand) := by
  intro tokens expr rest parsed
  obtain ⟨⟨left, middle⟩, leftEq, parsed⟩ := ok_of_bind parsed
  have leftSize := sized _ _ _ leftEq
  have chainSize := leftChain_sized sized parsed
  omega

theorem percents_sized (expr : Expr) (tokens : List Token) :
    (percents expr tokens).1.nodes + (percents expr tokens).2.length ≤
      expr.nodes + tokens.length := by
  induction tokens generalizing expr with
  | nil => exact le_rfl
  | cons token tokens ih =>
    by_cases sign : token = .percent
    · subst sign
      have more := ih (.percent expr)
      rw [Expr.nodes] at more
      rw [percents, List.length_cons]
      omega
    · rw [percents_other sign]

theorem parseMoreArgs_sized (sized : SizedParser operand) {args : List Expr}
    (parsed : parseMoreArgs operand fuel tokens = .ok (args, rest)) :
    nodesOfArgs args + rest.length ≤ tokens.length := by
  induction fuel generalizing tokens args with
  | zero =>
    cases parsed
    exact (Nat.zero_add _).le
  | succ fuel ih =>
    by_cases comma : tokens.head? = some .comma
    · obtain ⟨more, rfl⟩ := List.head?_eq_some_iff.mp comma
      obtain ⟨⟨arg, middle⟩, argEq, parsed⟩ := ok_of_bind parsed
      obtain ⟨⟨others, last⟩, othersEq, parsed⟩ := ok_of_bind parsed
      cases parsed
      have argSize := sized _ _ _ argEq
      have othersSize := ih othersEq
      rw [nodesOfArgs, List.length_cons]
      omega
    · rw [parseMoreArgs_stop comma] at parsed
      cases parsed
      exact (Nat.zero_add _).le

section

variable (sized : SizedParser nested.comparison)
include sized

theorem parseCall_sized {name : List Char}
    (parsed : parseCall nested name tokens = .ok (expr, rest)) :
    expr.nodes + rest.length ≤ tokens.length := by
  by_cases empty : tokens.head? = some .rparen
  · obtain ⟨more, rfl⟩ := List.head?_eq_some_iff.mp empty
    cases parsed
    rw [Expr.nodes, nodesOfArgs, List.length_cons]
    omega
  · rw [Parser.parseCall_some empty] at parsed
    obtain ⟨⟨arg, middle⟩, argEq, parsed⟩ := ok_of_bind parsed
    obtain ⟨⟨others, last⟩, othersEq, parsed⟩ := ok_of_bind parsed
    obtain ⟨final, finalEq, parsed⟩ := ok_of_bind parsed
    cases parsed
    have argSize := sized _ _ _ argEq
    have othersSize := parseMoreArgs_sized sized othersEq
    have closing := congrArg List.length (expect_ok finalEq)
    rw [List.length_cons] at closing
    rw [Expr.nodes, nodesOfArgs]
    dsimp only at othersSize closing ⊢
    omega

theorem parsePrimary_sized : SizedParser (parsePrimary nested) := by
  intro tokens expr rest parsed
  have single : ∀ {token : Token} {more : List Token} {read : Expr}, read.nodes = 1 →
      (.ok (read, more) : Except String (Expr × List Token)) = .ok (expr, rest) →
        expr.nodes + rest.length ≤ (token :: more).length := by
    intro token more read one same
    cases same
    rw [one, List.length_cons]
    omega
  cases tokens with
  | nil => cases parsed
  | cons token =>
    cases token with
    | num | str | bool => exact single rfl parsed
    | ref start stop => exact single (by cases stop <;> rfl) parsed
    | func =>
      obtain ⟨opened, openedEq, parsed⟩ := ok_of_bind parsed
      have opening := congrArg List.length (expect_ok openedEq)
      have callSize := parseCall_sized sized parsed
      rw [List.length_cons] at opening ⊢
      omega
    | lparen =>
      obtain ⟨⟨inner, middle⟩, innerEq, parsed⟩ := ok_of_bind parsed
      obtain ⟨last, lastEq, parsed⟩ := ok_of_bind parsed
      cases parsed
      have innerSize := sized _ _ _ innerEq
      have closing := congrArg List.length (expect_ok lastEq)
      rw [List.length_cons] at closing ⊢
      omega
    | _ => cases parsed

theorem parsePostfix_sized : SizedParser (parsePostfix nested) := by
  intro tokens expr rest parsed
  obtain ⟨⟨inner, middle⟩, innerEq, parsed⟩ := ok_of_bind parsed
  have innerSize := parsePrimary_sized sized _ _ _ innerEq
  have signs := percents_sized inner middle
  rw [Except.ok.inj parsed] at signs
  dsimp only at signs
  omega

end

theorem parseUnary_sized (sized : SizedNested nested) : SizedParser (parseUnary nested) := by
  intro tokens expr rest parsed
  unfold parseUnary at parsed
  split at parsed
  · obtain ⟨⟨inner, middle⟩, innerEq, parsed⟩ := ok_of_bind parsed
    cases parsed
    have innerSize := sized.unary _ _ _ innerEq
    rw [Expr.nodes, List.length_cons]
    omega
  · obtain ⟨⟨inner, middle⟩, innerEq, parsed⟩ := ok_of_bind parsed
    cases parsed
    have innerSize := sized.unary _ _ _ innerEq
    rw [Expr.nodes, List.length_cons]
    omega
  · exact parsePostfix_sized sized.comparison _ _ _ parsed

theorem parsePower_sized (sized : SizedNested nested) : SizedParser (parsePower nested) := by
  intro tokens expr rest parsed
  obtain ⟨⟨base, middle⟩, baseEq, parsed⟩ := ok_of_bind parsed
  have baseSize := parseUnary_sized sized _ _ _ baseEq
  dsimp only at parsed
  split at parsed
  · obtain ⟨⟨right, last⟩, rightEq, parsed⟩ := ok_of_bind parsed
    cases parsed
    have rightSize := sized.power _ _ _ rightEq
    rw [List.length_cons] at baseSize
    rw [Expr.nodes]
    dsimp only
    omega
  · cases parsed
    exact baseSize

theorem parseComparison_sized (sized : SizedNested nested) : SizedParser (parseComparison nested) :=
  parseLevel_sized (parseLevel_sized (parseLevel_sized (parseLevel_sized (parsePower_sized sized))))

theorem nest_sized (levels : Nat) : SizedNested (nest levels) := by
  induction levels with
  | zero => exact ⟨nofun, nofun, nofun⟩
  | succ levels ih =>
    exact ⟨parseComparison_sized ih, parsePower_sized ih, parseUnary_sized ih⟩

theorem parseTokens_sized (parsed : parseTokens tokens = .ok expr) :
    expr.nodes ≤ tokens.length := by
  obtain ⟨⟨inner, rest⟩, innerEq, parsed⟩ := ok_of_bind parsed
  have size := parseComparison_sized (nest_sized _) _ _ _ innerEq
  dsimp only at parsed
  split at parsed
  · cases parsed
    omega
  · cases parsed

theorem tokenizeFrom_length {text : List Char} (few : pushed ≤ maxFormulaTokens)
    (lexed : tokenizeFrom fuel pushed text = .ok tokens) :
    pushed + tokens.length ≤ maxFormulaTokens := by
  induction fuel generalizing pushed text tokens with
  | zero =>
    cases lexed
    exact few
  | succ fuel ih =>
    cases text with
    | nil =>
      cases lexed
      exact few
    | cons char text =>
      rw [tokenizeFrom] at lexed
      split at lexed
      · cases lexed
      · next room =>
          split at lexed
          · exact ih few lexed
          · cases read : lexToken (char :: text) with
            | error =>
              rw [read] at lexed
              cases lexed
            | ok found =>
              obtain ⟨token, after⟩ := found
              rw [read] at lexed
              dsimp only at lexed
              cases moreEq : tokenizeFrom fuel (pushed + 1) after with
              | error =>
                rw [moreEq] at lexed
                cases lexed
              | ok =>
                rw [moreEq] at lexed
                cases lexed
                have length := ih (by omega) moreEq
                rw [List.length_cons]
                omega

theorem tokenizeFrom_more {text : List Char} (enough : text.length ≤ fuel) :
    tokenizeFrom fuel 0 text = tokenize text := by
  obtain ⟨more, rfl⟩ := Nat.exists_eq_add_of_le enough
  clear enough
  induction more with
  | zero => rfl
  | succ more ih => rw [← ih, ← Nat.add_assoc, tokenizeFrom_enough (Nat.le_add_right _ _)]

end

/-- What `parseExpression` makes of a text: no formula, no tokens, or not too
many tokens for the parser. -/
theorem parseExpression_cases (raw : String) :
    (Parser.parseExpression raw = (.ok none, {}) ∧ parseExpression raw = .ok none) ∨
      (∃ message, Parser.parseExpression raw = (.error (.malformed message), {}) ∧
        parseExpression raw = .error message) ∨ ∃ tokens, tokens.length ≤ maxFormulaTokens ∧
        Parser.parseExpression raw =
          ((Parser.parse tokens {}).1.map some, (Parser.parse tokens {}).2) ∧
        parseExpression raw = (parseTokens tokens).map some := by
  unfold Parser.parseExpression parseExpression
  generalize trim raw.toList = trimmed
  split
  · next rest =>
      simp only
      generalize trim rest = body
      cases body with
      | nil => exact .inl ⟨rfl, rfl⟩
      | cons first text =>
        simp only
        cases read : tokenize (first :: text) with
        | error message => exact .inr (.inl ⟨message, rfl, rfl⟩)
        | ok tokens =>
          have few : 0 + tokens.length ≤ maxFormulaTokens :=
            tokenizeFrom_length (Nat.zero_le _) read
          rw [Nat.zero_add] at few
          exact .inr (.inr ⟨tokens, few, rfl, rfl⟩)
  · next other =>
      refine .inl ⟨rfl, ?_⟩
      try split
      all_goals first
        | rfl
        | exact absurd rfl (other _)

/-- Parsing is total: it returns nothing, or an expression with no more nodes
than a formula has tokens, or it throws a syntax error.  It neither reads
behind the end of the input nor loops, the lexer shortens the text with every
token, and no step runs deeper than the limit. -/
theorem parseExpression_total (raw : String) :
    (Parser.parseExpression raw).1 = (parseExpression raw).mapError .malformed ∧
      ((Parser.parseExpression raw).1 = .ok none ∨
        (∃ expr, (Parser.parseExpression raw).1 = .ok (some expr) ∧ expr.nodes ≤ maxFormulaTokens) ∨
        ∃ message, (Parser.parseExpression raw).1 = .error (.malformed message)) ∧
      (Parser.parseExpression raw).2.deepest ≤ maxFormulaDepth ∧
      (∀ text token after, lexToken text = .ok (token, after) → after.length < text.length) ∧
      ∀ text turns, text.length ≤ turns → tokenizeFrom turns 0 text = tokenize text := by
  have lexing : (∀ text token after, lexToken text = .ok (token, after) →
      after.length < text.length) ∧
      ∀ text turns, text.length ≤ turns → tokenizeFrom turns 0 text = tokenize text :=
    ⟨fun _ _ _ lexed => (lexToken_lexed lexed).2, fun _ _ => tokenizeFrom_more⟩
  rcases parseExpression_cases raw with
    ⟨ran, read⟩ | ⟨message, ran, read⟩ | ⟨tokens, few, ran, read⟩
  · rw [ran, read]
    exact ⟨rfl, .inl rfl, Nat.zero_le _, lexing⟩
  · rw [ran, read]
    exact ⟨rfl, .inr (.inr ⟨message, rfl⟩), Nat.zero_le _, lexing⟩
  · rw [ran, read]
    obtain ⟨returned, _, deepest⟩ := Parser.parse_parses tokens
    rw [returned]
    cases parsed : parseTokens tokens with
    | error message => exact ⟨rfl, .inr (.inr ⟨message, rfl⟩), deepest, lexing⟩
    | ok expr =>
      have size := (parseTokens_sized parsed).trans few
      exact ⟨rfl, .inr (.inl ⟨expr, rfl, size⟩), deepest, lexing⟩

end P2PHub.Calc
