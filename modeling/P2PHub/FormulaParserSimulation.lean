import P2PHub.FormulaParserState

/-!
# Simulation by the parser on lists

The parser with its position does what the parser on lists of tokens does.  It
never reads behind the end of the input, its loops end, and no step runs deeper
than the limit of nesting.
-/

namespace P2PHub.Calc

open Parser

namespace Parser

section

variable {tokens rest : List Token} {levels : Nat} {parser : Parser} {token : Token}

/-- A parser with some tokens left and some levels of nesting to enter. -/
structure Ready (tokens : List Token) (levels : Nat) (parser : Parser) (rest : List Token) :
    Prop where
  bound : parser.pos ≤ tokens.length
  left : tokens.drop parser.pos = rest
  levels : parser.depth + levels = maxFormulaDepth
  deepest : parser.deepest ≤ maxFormulaDepth

/-- A step returns what a reader of the tokens returns, keeps the depth, and
never goes behind the end of the input or too deep. -/
structure Yields {Result : Type} (tokens : List Token) (levels : Nat) (depth : Nat)
    (ran : Except ParseFailure Result × Parser) (outcome : Except String (Result × List Token)) :
    Prop where
  done : ∀ result rest, outcome = .ok (result, rest) →
    ran.1 = .ok result ∧ Ready tokens levels ran.2 rest
  failed : ∀ message, outcome = .error message → ran.1 = .error (.malformed message)
  bound : ran.2.pos ≤ tokens.length + 1
  depth : ran.2.depth = depth
  deepest : ran.2.deepest ≤ maxFormulaDepth

def Follows {Result : Type} (tokens : List Token) (levels : Nat) (step : ParserStep Result)
    (reader : List Token → Except String (Result × List Token)) : Prop :=
  ∀ parser rest, Ready tokens levels parser rest →
    Yields tokens levels parser.depth (step parser) (reader rest)

theorem Ready.length_eq (ready : Ready tokens levels parser rest) :
    parser.pos + rest.length = tokens.length := by
  have length := congrArg List.length ready.left
  rw [List.length_drop] at length
  have bound := ready.bound
  omega

theorem Ready.lexemeAt_eof (ready : Ready tokens levels parser []) :
    lexemeAt tokens parser.pos = some .eof := by
  have length := ready.length_eq
  rw [List.length_nil, Nat.add_zero] at length
  rw [lexemeAt, length, List.getElem?_append_right (by simp)]
  simp

theorem Ready.lexemeAt_token (ready : Ready tokens levels parser (token :: rest)) :
    lexemeAt tokens parser.pos = some (.token token) := by
  have length := ready.length_eq
  rw [List.length_cons] at length
  have found : tokens[parser.pos]? = some token := by
    have head := congrArg List.head? ready.left
    rwa [List.head?_drop] at head
  rw [lexemeAt, List.getElem?_append_left (by rw [List.length_map]; omega), List.getElem?_map,
    found]
  rfl

def headLexeme : List Token → Lexeme
  | [] => .eof
  | token :: _ => .token token

theorem Ready.peek (ready : Ready tokens levels parser rest) :
    peek tokens parser = (.ok (headLexeme rest), parser) := by
  unfold Parser.peek
  cases rest with
  | nil =>
    rw [ready.lexemeAt_eof]
    rfl
  | cons =>
    rw [ready.lexemeAt_token]
    rfl

def advanced (parser : Parser) : Parser :=
  { parser with pos := parser.pos + 1 }

theorem Ready.next (ready : Ready tokens levels parser (token :: rest)) :
    next tokens parser = (.ok (.token token), parser.advanced) := by
  unfold Parser.next
  rw [ready.lexemeAt_token]
  rfl

theorem Ready.advanced (ready : Ready tokens levels parser (token :: rest)) :
    Ready tokens levels parser.advanced rest where
  bound := by
    have length := ready.length_eq
    rw [List.length_cons] at length
    show parser.pos + 1 ≤ tokens.length
    omega
  left := by
    show tokens.drop (parser.pos + 1) = rest
    rw [← List.drop_drop, ready.left]
    rfl
  levels := ready.levels
  deepest := ready.deepest

theorem Ready.yields {Result : Type} (ready : Ready tokens levels parser rest) (result : Result) :
    Yields tokens levels parser.depth ((pure result : ParserStep Result) parser)
      (.ok (result, rest)) where
  done _ _ same := by
    cases same
    exact ⟨rfl, ready⟩
  failed _ same := by cases same
  bound := Nat.le_succ_of_le ready.bound
  depth := rfl
  deepest := ready.deepest

theorem Ready.rejects {Result : Type} (ready : Ready tokens levels parser rest) (message : String) :
    Yields tokens levels parser.depth ((syntaxError message : ParserStep Result) parser)
      (.error message) where
  done _ _ same := by cases same
  failed _ same := by
    cases same
    rfl
  bound := Nat.le_succ_of_le ready.bound
  depth := rfl
  deepest := ready.deepest

theorem bind_eq {First Result : Type} (step : ParserStep First) (next : First → ParserStep Result)
    (parser : Parser) :
    (step >>= next) parser = match step parser with
      | (.ok result, after) => next result after
      | (.error failure, after) => (.error failure, after) :=
  rfl

theorem bind_ok {First Result : Type} {step : ParserStep First} {result : First} {after : Parser}
    (ran : step parser = (.ok result, after)) (next : First → ParserStep Result) :
    (step >>= next) parser = next result after := by
  rw [bind_eq, ran]

theorem Yields.bind {First Result : Type} {step : ParserStep First} {next : First →
    ParserStep Result}
    {outcome : Except String (First × List Token)}
    {reader : First × List Token → Except String (Result × List Token)} {depth : Nat}
    (first : Yields tokens levels depth (step parser) outcome)
    (second : ∀ result rest after, outcome = .ok (result, rest) → after.depth = depth →
      Ready tokens levels after rest →
        Yields tokens levels depth (next result after) (reader (result, rest))) :
    Yields tokens levels depth ((step >>= next) parser) (outcome >>= reader) := by
  rw [bind_eq]
  cases outcome with
  | ok read =>
    obtain ⟨result, rest⟩ := read
    obtain ⟨done, ready⟩ := first.done result rest rfl
    have same := first.depth
    generalize step parser = ran at done ready same
    obtain ⟨returned, after⟩ := ran
    subst done
    exact second result rest after rfl same ready
  | error message =>
    have failed := first.failed message rfl
    have bound := first.bound
    have depth := first.depth
    have deepest := first.deepest
    generalize step parser = ran at failed bound depth deepest
    obtain ⟨returned, after⟩ := ran
    subst failed
    refine ⟨?_, ?_, bound, depth, deepest⟩
    · intro result rest same
      cases same
    · intro other same
      cases same
      rfl

theorem Ready.peek_bind {Result : Type} (ready : Ready tokens levels parser rest)
    (step : Lexeme → ParserStep Result) :
    (Parser.peek tokens >>= step) parser = step (headLexeme rest) parser :=
  bind_ok ready.peek step

theorem Ready.next_bind {Result : Type} (ready : Ready tokens levels parser (token :: rest))
    (step : Lexeme → ParserStep Result) :
    (Parser.next tokens >>= step) parser = step (.token token) parser.advanced :=
  bind_ok ready.next step

theorem Ready.expect_bind {Result : Type} (ready : Ready tokens levels parser rest)
    (expected : Token) {step : Unit → ParserStep Result}
    {reader : List Token → Except String (Result × List Token)}
    (second : ∀ rest after, after.depth = parser.depth → Ready tokens levels after rest →
      Yields tokens levels parser.depth (step () after) (reader rest)) :
    Yields tokens levels parser.depth ((Parser.expect tokens expected >>= step) parser)
      (Calc.expect expected rest >>= reader) := by
  have rejected : ∀ (lexeme : Lexeme) (message : String),
      Parser.next tokens parser = (.ok lexeme, parser.advanced) →
        Parser.expect tokens expected parser = (.error (.malformed message), parser.advanced) →
          Yields tokens levels parser.depth ((Parser.expect tokens expected >>= step) parser)
            (.error message) := by
    intro lexeme message _ rejects
    rw [bind_eq, rejects]
    refine ⟨?_, ?_, Nat.succ_le_succ ready.bound, rfl, ready.deepest⟩
    · intro result rest same
      cases same
    · intro other same
      cases same
      rfl
  cases rest with
  | nil =>
    have read : Parser.next tokens parser = (.ok .eof, parser.advanced) := by
      unfold Parser.next
      rw [ready.lexemeAt_eof]
      rfl
    apply rejected .eof _ read
    rw [Parser.expect, bind_ok read]
    rfl
  | cons token rest =>
    by_cases same : token = expected
    · have accepted : Parser.expect tokens expected parser = (.ok (), parser.advanced) := by
        rw [Parser.expect, ready.next_bind]
        simp only [same, if_true]
        rfl
      rw [bind_ok accepted, Calc.expect, if_pos same]
      exact second rest _ rfl ready.advanced
    · rw [Calc.expect, if_neg same]
      apply rejected (.token token) _ ready.next
      rw [Parser.expect, ready.next_bind]
      simp only [same, if_false]
      rfl

end

variable {tokens rest : List Token} {levels : Nat} {parser : Parser} {inner : Inner}
  {nested : Nested} {token : Token} {operand argument : ParserStep Expr}
    {operands arguments : TokenParser}

/-- The nested steps do what the nested parsers do. -/
structure FollowsNested (tokens : List Token) (levels : Nat) (inner : Inner) (nested : Nested) :
    Prop where
  comparison : Follows tokens levels inner.comparison nested.comparison
  power : Follows tokens levels inner.power nested.power
  unary : Follows tokens levels inner.unary nested.unary
  sound : nested.Sound

theorem percents_yields {turns : Nat} {expr : Expr} (ready : Ready tokens levels parser rest)
    (enough : rest.length < turns) :
    Yields tokens levels parser.depth (percents tokens turns expr parser)
      (.ok (Calc.percents expr rest)) := by
  induction turns generalizing parser rest expr with
  | zero => cases enough
  | succ turns ih =>
    rw [percents, ready.peek_bind]
    cases rest with
    | nil => exact ready.yields expr
    | cons token =>
      rw [List.length_cons] at enough
      by_cases sign : token = .percent
      · subst sign
        simp only [headLexeme]
        rw [ready.next_bind]
        exact ih ready.advanced (by omega)
      · rw [percents_other sign]
        have plain := ready.yields expr
        cases token with
        | percent => exact absurd rfl sign
        | _ => exact plain

theorem leftChain_yields {operators : List Operator}
    (follows : Follows tokens levels operand operands)
    (sound : SoundParser operands) {turns fuel : Nat} {left : Expr}
    (ready : Ready tokens levels parser rest) (enough : rest.length < turns)
    (fuelled : rest.length ≤ fuel) :
    Yields tokens levels parser.depth (leftChain tokens operators operand turns left parser)
      (Calc.leftChain operators operands fuel left rest) := by
  induction turns generalizing parser rest left fuel with
  | zero => cases enough
  | succ turns ih =>
    rw [leftChain, ready.peek_bind]
    rcases stops_or operators rest with stops | ⟨op, member, more, rfl⟩
    · rw [leftChain_stop stops]
      have plain := ready.yields left
      cases rest with
      | nil => exact plain
      | cons token =>
        cases token with
        | op op =>
          simp only [headLexeme]
          rw [if_neg fun member => stops op member rfl]
          exact plain
        | _ => exact plain
    · rw [List.length_cons] at enough fuelled
      obtain ⟨fuel, rfl⟩ := Nat.exists_eq_add_of_le' (Nat.le_of_add_left_le fuelled)
      rw [leftChain_next member]
      simp only [headLexeme]
      rw [if_pos member, ready.next_bind]
      have first := follows parser.advanced more ready.advanced
      refine Yields.bind first fun right rest after read same afterReady => ?_
      have shorter : rest.length < more.length := sound.length_lt read
      dsimp only
      rw [← same]
      exact ih afterReady (by omega) (by omega)

theorem turns_enough (ready : Ready tokens levels parser rest) : rest.length < turns tokens := by
  have length := ready.length_eq
  rw [turns]
  omega

theorem parseLevel_follows {operators : List Operator}
    (follows : Follows tokens levels operand operands) (sound : SoundParser operands) :
    Follows tokens levels (parseLevel tokens operators operand)
      (Calc.parseLevel operators operands) := by
  intro parser rest ready
  refine Yields.bind (follows parser rest ready) fun left rest after _ same afterReady => ?_
  rw [← same]
  exact leftChain_yields follows sound afterReady (turns_enough afterReady) le_rfl

theorem parseMoreArgs_yields (follows : Follows tokens levels argument arguments)
    (sound : SoundParser arguments) {turns fuel : Nat} (ready : Ready tokens levels parser rest)
    (enough : rest.length < turns) (fuelled : rest.length ≤ fuel) :
    Yields tokens levels parser.depth (parseMoreArgs tokens argument turns parser)
      (Calc.parseMoreArgs arguments fuel rest) := by
  induction turns generalizing parser rest fuel with
  | zero => cases enough
  | succ turns ih =>
    rw [parseMoreArgs, ready.peek_bind]
    have plain := ready.yields ([] : List Expr)
    cases rest with
    | nil =>
      rw [parseMoreArgs_stop (by simp)]
      exact plain
    | cons token rest =>
      by_cases comma : token = .comma
      · subst comma
        rw [List.length_cons] at enough fuelled
        obtain ⟨fuel, rfl⟩ := Nat.exists_eq_add_of_le' (Nat.le_of_add_left_le fuelled)
        simp only [headLexeme]
        rw [ready.next_bind, Calc.parseMoreArgs]
        refine Yields.bind (follows _ _ ready.advanced)
          fun arg rest after read same afterReady => ?_
        have shorter := sound.length_lt read
        have others : Yields tokens levels after.depth
            (Parser.parseMoreArgs tokens argument turns after)
            (Calc.parseMoreArgs arguments fuel rest) :=
          ih afterReady (by omega) (by omega)
        rw [same] at others
        refine Yields.bind others fun args rest last _ lastSame lastReady => ?_
        rw [← lastSame]
        exact lastReady.yields (arg :: args)
      · rw [parseMoreArgs_stop (by simpa using comma)]
        cases token with
        | comma => exact absurd rfl comma
        | _ => exact plain

theorem Ready.single (ready : Ready tokens levels parser (token :: rest)) (expr : Expr) :
    Yields tokens levels parser.depth
      ((Parser.next tokens >>= fun _ => (pure expr : ParserStep Expr)) parser)
      (.ok (expr, rest)) := by
  rw [ready.next_bind]
  exact ready.advanced.yields expr

theorem Ready.closes (ready : Ready tokens levels parser rest) (expr : Expr) :
    Yields tokens levels parser.depth
      ((expect tokens .rparen >>= fun _ => (pure expr : ParserStep Expr)) parser)
      (Calc.expect .rparen rest >>= fun rest => .ok (expr, rest)) := by
  apply ready.expect_bind .rparen
  intro rest after same afterReady
  rw [← same]
  exact afterReady.yields expr

theorem parseCall_some {name : List Char} (some : rest.head? ≠ some .rparen) :
    Calc.parseCall nested name rest = nested.comparison rest >>= fun first =>
        Calc.parseMoreArgs nested.comparison first.2.length first.2 >>= fun others =>
          Calc.expect .rparen others.2 >>= fun rest =>
            .ok (.func (String.ofList name) (first.1 :: others.1), rest) := by
  unfold Calc.parseCall
  split
  · exact absurd rfl some
  · rw [parseArgs]
    cases nested.comparison rest with
    | error => rfl
    | ok first =>
      dsimp only [bind, Except.bind]
      cases Calc.parseMoreArgs nested.comparison first.2.length first.2 with
      | error | ok => rfl

section

variable (follows : FollowsNested tokens levels inner nested)
include follows

theorem parseCall_follows (name : List Char) : Follows tokens levels (parseCall tokens inner name)
      (fun tokens => Calc.expect .lparen tokens >>= Calc.parseCall nested name) := by
  intro parser rest ready
  apply ready.expect_bind .lparen
  intro rest opened same openedReady
  rw [← same, openedReady.peek_bind]
  by_cases empty : rest.head? = some .rparen
  · obtain ⟨more, rfl⟩ := List.head?_eq_some_iff.mp empty
    exact openedReady.closes (.func (String.ofList name) [])
  · rw [parseCall_some empty]
    have call : Yields tokens levels opened.depth ((inner.comparison >>= fun arg =>
          Parser.parseMoreArgs tokens inner.comparison (turns tokens) >>= fun args =>
            Parser.expect tokens .rparen >>= fun _ =>
              (pure (.func (String.ofList name) (arg :: args)) : ParserStep Expr)) opened)
        (nested.comparison rest >>= fun first =>
          Calc.parseMoreArgs nested.comparison first.2.length first.2 >>= fun others =>
            Calc.expect .rparen others.2 >>= fun rest =>
              .ok (.func (String.ofList name) (first.1 :: others.1), rest)) := by
      refine Yields.bind (follows.comparison _ _ openedReady)
        fun arg middle after _ afterSame afterReady => ?_
      rw [← afterSame]
      refine Yields.bind (parseMoreArgs_yields follows.comparison follows.sound.comparison
        afterReady (turns_enough afterReady) le_rfl) fun args last final _ finalSame finalReady => ?_
      rw [← finalSame]
      exact finalReady.closes (.func (String.ofList name) (arg :: args))
    cases rest with
    | nil => exact call
    | cons token =>
      cases token with
      | rparen => exact absurd rfl empty
      | _ => exact call

theorem parsePrimary_follows :
    Follows tokens levels (parsePrimary tokens inner) (Calc.parsePrimary nested) := by
  intro parser rest ready
  rw [parsePrimary, ready.peek_bind]
  cases rest with
  | nil => exact ready.rejects _
  | cons token =>
    cases token with
    | num | str | bool | ref => exact ready.single _
    | func name =>
      simp only [headLexeme]
      rw [ready.next_bind]
      exact parseCall_follows follows name _ _ ready.advanced
    | ident =>
      simp only [headLexeme]
      rw [ready.next_bind]
      exact ready.advanced.rejects _
    | lparen =>
      simp only [headLexeme]
      rw [ready.next_bind]
      refine Yields.bind (follows.comparison _ _ ready.advanced)
        fun expr middle after _ same afterReady => ?_
      rw [← same]
      exact afterReady.closes expr
    | _ => exact ready.rejects _

theorem parsePostfix_follows :
    Follows tokens levels (parsePostfix tokens inner) (Calc.parsePostfix nested) := by
  intro parser rest ready
  refine Yields.bind (parsePrimary_follows follows parser rest ready)
    fun expr middle after _ same afterReady => ?_
  rw [← same]
  exact percents_yields afterReady (turns_enough afterReady)

theorem Ready.signed (ready : Ready tokens levels parser (token :: rest)) (op : Operator) :
    Yields tokens levels parser.depth ((Parser.next tokens >>= fun _ => inner.unary >>= fun expr =>
        (pure (.unary op expr) : ParserStep Expr)) parser)
      (nested.unary rest >>= fun read => .ok (.unary op read.1, read.2)) := by
  rw [ready.next_bind]
  refine Yields.bind (follows.unary _ _ ready.advanced) fun expr middle after _ same afterReady => ?_
  rw [← same]
  exact afterReady.yields (Expr.unary op expr)

theorem parseUnary_follows :
    Follows tokens levels (parseUnary tokens inner) (Calc.parseUnary nested) := by
  intro parser rest ready
  have unsigned := parsePostfix_follows follows parser rest ready
  rw [parseUnary, ready.peek_bind]
  cases rest with
  | nil => exact unsigned
  | cons token =>
    cases token with
    | op op =>
      cases op with
      | sub => exact ready.signed follows .sub
      | add => exact ready.signed follows .add
      | _ => exact unsigned
    | _ => exact unsigned

theorem parsePower_follows :
    Follows tokens levels (parsePower tokens inner) (Calc.parsePower nested) := by
  intro parser rest ready
  refine Yields.bind (parseUnary_follows follows parser rest ready)
    fun base middle after _ same afterReady => ?_
  rw [← same, afterReady.peek_bind]
  have plain := afterReady.yields base
  cases middle with
  | nil => exact plain
  | cons token =>
    cases token with
    | op op =>
      cases op with
      | pow =>
        simp only [headLexeme]
        rw [afterReady.next_bind]
        refine Yields.bind (follows.power _ _ afterReady.advanced)
          fun right last final _ finalSame finalReady => ?_
        rw [show after.depth = final.depth from finalSame.symm]
        exact finalReady.yields (Expr.binary .pow base right)
      | _ => exact plain
    | _ => exact plain

theorem parseComparison_follows :
    Follows tokens levels (parseComparison tokens inner) (Calc.parseComparison nested) := by
  have power := parsePower_sound follows.sound
  have multiplicative : Follows tokens levels (parseMultiplicative tokens inner)
      (Calc.parseMultiplicative nested) :=
    parseLevel_follows (parsePower_follows follows) power
  have additive : Follows tokens levels (parseAdditive tokens inner) (Calc.parseAdditive nested) :=
    parseLevel_follows multiplicative (parseLevel_sound power)
  have concat : Follows tokens levels (parseConcat tokens inner) (Calc.parseConcat nested) :=
    parseLevel_follows additive (parseLevel_sound (parseLevel_sound power))
  exact parseLevel_follows concat (parseLevel_sound (parseLevel_sound (parseLevel_sound power)))

end

theorem nest_follows {step : ParserStep Expr} {reader : TokenParser}
    (follows : Follows tokens levels step reader) :
    Follows tokens (levels + 1) (nest step) reader := by
  intro parser rest ready
  have room := ready.levels
  have shallow : ¬maxFormulaDepth < parser.depth + 1 := by omega
  let entered : Parser :=
    { parser with depth := parser.depth + 1, deepest := max parser.deepest (parser.depth + 1) }
  have enteredReady : Ready tokens levels entered rest := by
    refine ⟨ready.bound, ready.left, ?_, Nat.max_le.mpr ⟨ready.deepest, by omega⟩⟩
    show parser.depth + 1 + levels = maxFormulaDepth
    omega
  have inside := follows entered rest enteredReady
  have left : ∀ ran : Except ParseFailure Expr × Parser,
      Yields tokens levels (parser.depth + 1) ran (reader rest) →
        Yields tokens (levels + 1) parser.depth (ran.1, { ran.2 with depth := ran.2.depth - 1 })
          (reader rest) := by
    intro ran yields
    have depth : ran.2.depth - 1 = parser.depth := by
      rw [yields.depth]
      rfl
    refine ⟨?_, yields.failed, yields.bound, depth, yields.deepest⟩
    intro result rest same
    obtain ⟨returned, after⟩ := yields.done result rest same
    refine ⟨returned, after.bound, after.left, ?_, after.deepest⟩
    show ran.2.depth - 1 + (levels + 1) = maxFormulaDepth
    omega
  rw [nest]
  rw [if_neg shallow]
  exact left _ inside

theorem nest_tooDeep (step : ParserStep Expr) : Follows tokens 0 (nest step) tooDeep := by
  intro parser rest ready
  have room := ready.levels
  have deep : maxFormulaDepth < parser.depth + 1 := by omega
  rw [nest]
  rw [if_pos deep]
  exact ready.rejects _

theorem innerOf_follows (tokens : List Token) (levels : Nat) :
    FollowsNested tokens levels (innerOf tokens levels) (Calc.nest levels) := by
  induction levels with
  | zero => exact ⟨nest_tooDeep _, nest_tooDeep _, nest_tooDeep _, nest_sound 0⟩
  | succ levels ih =>
    exact ⟨nest_follows (parseComparison_follows ih), nest_follows (parsePower_follows ih),
      nest_follows (parseUnary_follows ih), nest_sound (levels + 1)⟩

theorem ready_start (tokens : List Token) : Ready tokens maxFormulaDepth {} tokens :=
  ⟨Nat.zero_le _, rfl, Nat.zero_add _, Nat.zero_le _⟩

/-- What the whole parser returns, and where it stops. -/
structure Parses (tokens : List Token) (ran : Except ParseFailure Expr × Parser) : Prop where
  returned : ran.1 = (parseTokens tokens).mapError .malformed
  bound : ran.2.pos ≤ tokens.length + 1
  deepest : ran.2.deepest ≤ maxFormulaDepth

theorem parse_parses (tokens : List Token) : Parses tokens (parse tokens {}) := by
  have read := parseComparison_follows (innerOf_follows tokens maxFormulaDepth) {} tokens
    (ready_start tokens)
  have whole : Yields tokens maxFormulaDepth 0 (parse tokens {})
      (Calc.parseComparison (Calc.nest maxFormulaDepth) tokens >>= fun read =>
        if read.2 = [] then .ok (read.1, []) else .error (unexpectedToken read.2)) := by
    refine Yields.bind read fun expr rest after _ same afterReady => ?_
    rw [← same, afterReady.peek_bind]
    cases rest with
    | nil => exact afterReady.yields expr
    | cons => exact afterReady.rejects _
  refine ⟨?_, whole.bound, whole.deepest⟩
  rw [parseTokens]
  cases outcome : Calc.parseComparison (Calc.nest maxFormulaDepth) tokens with
  | error message =>
    rw [outcome] at whole
    exact whole.failed message rfl
  | ok read =>
    obtain ⟨expr, rest⟩ := read
    rw [outcome] at whole
    by_cases all : rest = []
    · subst all
      exact (whole.done expr [] rfl).1
    · have failed := whole.failed (unexpectedToken rest) (if_neg all)
      rw [failed]
      dsimp only [bind, Except.bind]
      rw [if_neg all]
      rfl

end Parser

end P2PHub.Calc
