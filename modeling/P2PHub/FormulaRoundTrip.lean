import P2PHub.FormulaPrinting

/-!
# Reading printed formulas

The parser follows the parentheses that the serializer writes, one level deeper
for each of them.
-/

namespace P2PHub.Calc

open Binary64

section

mutual

/-- The levels that the parser needs for an expression that is printed in full. -/
def nesting : Expr → Nat
  | .func _ args => argsNesting args
  | .binary op left right =>
    max (nesting left) (if op = .pow then nesting right + 1 else nesting right) + 1
  | .unary _ expr => nesting expr + 2
  | .percent expr => nesting expr
  | _ => 0

def argsNesting : List Expr → Nat
  | [] => 0
  | arg :: args => max (nesting arg + 1) (argsNesting args)

end

def depthMessage : String :=
  "Expression is too deeply nested (max " ++ toString maxFormulaDepth ++ ")"

def answer {Result : Type} (fits : Prop) [Decidable fits] (read : Result) : Except String Result :=
  if fits then .ok read else .error depthMessage

variable {fits : Prop}

theorem answer_congr {Result : Type} {other : Prop} [Decidable fits] [Decidable other]
    {read : Result} (same : fits ↔ other) : answer fits read = answer other read :=
  if_congr same rfl rfl

theorem answer_true {Result : Type} [Decidable fits] {read : Result} (holds : fits) :
    answer fits read = .ok read :=
  if_pos holds

theorem answer_bind {First Result : Type} {fitsNext : Prop} [Decidable fits]
    [Decidable fitsNext] {read : First} {next : First → Except String Result} {result : Result}
    (nextEq : next read = answer fitsNext result) :
    answer fits read >>= next = answer (fits ∧ fitsNext) result := by
  by_cases holds : fits
  · rw [answer_true holds]
    exact nextEq.trans (answer_congr (and_iff_right holds).symm)
  · have neither : ¬(fits ∧ fitsNext) := fun both => holds both.1
    rw [answer, if_neg holds, answer, if_neg neither]
    rfl

theorem answer_bind_ok {First Result : Type} [Decidable fits] {read : First}
    {next : First → Except String Result} {result : Result} (nextEq : next read = .ok result) :
    answer fits read >>= next = answer fits result := by
  have nextAnswer : next read = answer True result := nextEq.trans (answer_true trivial).symm
  exact (answer_bind nextAnswer).trans (answer_congr (and_iff_left trivial))

theorem answer_map {First Result : Type} [Decidable fits] {read : First}
    {change : First → Result} : (answer fits read).map change = answer fits (change read) := by
  unfold answer
  split <;> rfl

end

section

variable {nested : Nested} {tokens more rest : List Token} {expr left right : Expr}
  {fits fitsRight : Prop} [Decidable fits] [Decidable fitsRight] {op : Operator}

/-- What stands behind an expression between parentheses or commas. -/
def Closes (rest : List Token) : Prop :=
  ∀ next ∈ rest.head?, next = .rparen ∨ next = .comma

theorem Closes.rparen (rest : List Token) : Closes (.rparen :: rest) := by
  rintro next ⟨⟩
  exact .inl rfl

theorem Closes.nil : Closes [] :=
  nofun

theorem Closes.stops (closes : Closes rest) (operators : List Operator) : Stops operators rest := by
  rintro op _ head
  rcases closes _ head with paren | comma
  · cases paren
  · cases comma

theorem stops_of_not_mem {operators : List Operator} (other : op ∉ operators) :
    Stops operators (.op op :: rest) := by
  rintro sign member head
  cases head
  exact other member

theorem parsePower_answer (stops : Stops [.pow] rest)
    (unary : parseUnary nested tokens = answer fits (expr, rest)) :
    parsePower nested tokens = answer fits (expr, rest) := by
  rw [parsePower, unary]
  refine answer_bind_ok ?_
  dsimp only
  split
  · next more => exact absurd rfl (stops .pow (List.mem_singleton_self _))
  · rfl

theorem parsePower_pair (unary : parseUnary nested tokens = answer fits (left, .op .pow :: more))
    (power : nested.power more = answer fitsRight (right, rest)) :
    parsePower nested tokens = answer (fits ∧ fitsRight) (.binary .pow left right, rest) := by
  rw [parsePower, unary]
  refine answer_bind ?_
  dsimp only
  rw [power]
  exact answer_bind_ok rfl

variable {operators : List Operator} {operand : TokenParser}

theorem parseLevel_answer (stops : Stops operators rest)
    (first : operand tokens = answer fits (expr, rest)) :
    parseLevel operators operand tokens = answer fits (expr, rest) := by
  rw [parseLevel, first]
  exact answer_bind_ok (leftChain_stop stops)

theorem parseLevel_pair (member : op ∈ operators) (stops : Stops operators rest)
    (first : operand tokens = answer fits (left, .op op :: more))
    (second : operand more = answer fitsRight (right, rest)) : parseLevel operators operand tokens =
      answer (fits ∧ fitsRight) (.binary op left right, rest) := by
  rw [parseLevel, first]
  refine answer_bind ?_
  dsimp only
  rw [List.length_cons, leftChain_next member, second]
  exact answer_bind_ok (leftChain_stop stops)

theorem parseComparison_answer (closes : Closes rest)
    (power : parsePower nested tokens = answer fits (expr, rest)) :
    parseComparison nested tokens = answer fits (expr, rest) :=
  parseLevel_answer (closes.stops _) (parseLevel_answer (closes.stops _)
    (parseLevel_answer (closes.stops _) (parseLevel_answer (closes.stops _) power)))

theorem parseComparison_pair (notPow : op ≠ .pow) (closes : Closes rest)
    (first : parsePower nested tokens = answer fits (left, .op op :: more))
    (second : parsePower nested more = answer fitsRight (right, rest)) :
    parseComparison nested tokens = answer (fits ∧ fitsRight) (.binary op left right, rest) := by
  have multiplicativeSecond : parseMultiplicative nested more = answer fitsRight (right, rest) :=
    parseLevel_answer (closes.stops _) second
  by_cases multiplicative : op ∈ [.mul, .div]
  · have pair := parseLevel_pair multiplicative (closes.stops _) first second
    exact parseLevel_answer (closes.stops _)
      (parseLevel_answer (closes.stops _) (parseLevel_answer (closes.stops _) pair))
  have multiplicativeFirst : parseMultiplicative nested tokens = answer fits (left, .op op :: more)
    :=
    parseLevel_answer (stops_of_not_mem multiplicative) first
  have additiveSecond : parseAdditive nested more = answer fitsRight (right, rest) :=
    parseLevel_answer (closes.stops _) multiplicativeSecond
  by_cases additive : op ∈ [.add, .sub]
  · have pair := parseLevel_pair additive (closes.stops _) multiplicativeFirst multiplicativeSecond
    exact parseLevel_answer (closes.stops _) (parseLevel_answer (closes.stops _) pair)
  have additiveFirst : parseAdditive nested tokens = answer fits (left, .op op :: more) :=
    parseLevel_answer (stops_of_not_mem additive) multiplicativeFirst
  by_cases concat : op ∈ [.concat]
  · have pair := parseLevel_pair concat (closes.stops _) additiveFirst additiveSecond
    exact parseLevel_answer (closes.stops _) pair
  have comparison : op ∈ [.eq, .ne, .lt, .gt, .le, .ge] := by
    revert notPow multiplicative additive concat
    cases op <;> decide
  exact parseLevel_pair comparison (closes.stops _)
    (parseLevel_answer (stops_of_not_mem concat) additiveFirst)
    (parseLevel_answer (closes.stops _) additiveSecond)

theorem parsePostfix_paren (inner : nested.comparison tokens = answer fits (expr, .rparen :: rest))
    : parsePostfix nested (.lparen :: tokens) = answer fits (percents expr rest) := by
  have primary : parsePrimary nested (.lparen :: tokens) = answer fits (expr, rest) := by
    rw [parsePrimary, inner]
    exact answer_bind_ok rfl
  rw [parsePostfix, primary]
  exact answer_bind_ok rfl

end

section

variable {expr left right : Expr} {args : List Expr} {rest : List Token} {depth : Nat}

/-- The parser reads an expression from its printed tokens, unless it runs out
of levels. -/
def Exact (expr : Expr) : Prop :=
  ∀ depth rest, parsePostfix (nest depth) (tokensOf expr ++ rest) =
    answer (nesting expr ≤ depth) (percents expr rest)

def Token.opens : Token → Bool
  | num _ => true
  | str _ => true
  | bool _ => true
  | func _ => true
  | ref _ _ => true
  | lparen => true
  | _ => false

theorem opens_tokensOf (expr : Expr) : ∃ head tail, tokensOf expr = head :: tail ∧ head.opens := by
  induction expr using Expr.induction with
  | percent expr ih =>
    obtain ⟨head, tail, tokensEq, opens⟩ := ih
    exact ⟨head, tail ++ [.percent], by rw [tokensOf, tokensEq]; rfl, opens⟩
  | _ => exact ⟨_, _, by rw [tokensOf], rfl⟩

theorem parseUnary_tokensOf (nested : Nested) (expr : Expr) (rest : List Token) :
    parseUnary nested (tokensOf expr ++ rest) = parsePostfix nested (tokensOf expr ++ rest) := by
  obtain ⟨head, tail, tokensEq, opens⟩ := opens_tokensOf expr
  rw [tokensEq, List.cons_append]
  unfold parseUnary
  split
  · next heq =>
      obtain rfl := (List.cons.inj heq).1
      cases opens
  · next heq =>
      obtain rfl := (List.cons.inj heq).1
      cases opens
  · rfl

theorem percents_stop (noPercent : rest.head? ≠ some .percent) :
    percents expr rest = (expr, rest) := by
  cases rest with
  | nil => rfl
  | cons => exact percents_other fun same => noPercent (congrArg some same)

theorem percents_op (op : Operator) : percents expr (.op op :: rest) = (expr, .op op :: rest) :=
  percents_other nofun

theorem Closes.percents (closes : Closes rest) : percents expr rest = (expr, rest) := by
  refine percents_stop fun head => ?_
  rcases closes _ head with paren | comma
  · cases paren
  · cases comma

section

variable (exact : Exact expr) (plain : percents expr rest = (expr, rest))
include exact plain

theorem Exact.unary :
    parseUnary (nest depth) (tokensOf expr ++ rest) = answer (nesting expr ≤ depth) (expr, rest) :=
      by
  rw [parseUnary_tokensOf, exact depth rest, plain]

theorem Exact.power (stops : Stops [.pow] rest) :
    parsePower (nest depth) (tokensOf expr ++ rest) = answer (nesting expr ≤ depth) (expr, rest) :=
  parsePower_answer stops (exact.unary plain)

end

theorem nested_answer (parser : Nested → TokenParser) {select : Nested → TokenParser}
    {tokens : List Token} {needs : Nat} (empty : select (nest 0) tokens = .error depthMessage)
    (selects : ∀ depth, select (nest (depth + 1)) = parser (nest depth))
    (parses : ∀ depth, parser (nest depth) tokens = answer (needs ≤ depth) (expr, rest)) :
    select (nest depth) tokens = answer (needs + 1 ≤ depth) (expr, rest) := by
  cases depth with
  | zero => exact empty
  | succ =>
    rw [selects, parses]
    exact answer_congr Nat.succ_le_succ_iff.symm

theorem Exact.comparison (exact : Exact expr) (closes : Closes rest) :
    (nest depth).comparison (tokensOf expr ++ rest) =
      answer (nesting expr + 1 ≤ depth) (expr, rest) :=
  nested_answer parseComparison rfl (fun _ => rfl) fun _ =>
    parseComparison_answer closes (exact.power closes.percents (closes.stops _))

theorem Exact.leaf {token : Token} (single : tokensOf expr = [token]) (flat : nesting expr = 0)
    (reads : ∀ nested rest, parsePrimary nested (token :: rest) = .ok (expr, rest)) : Exact expr :=
    by
  intro depth rest
  rw [single, flat, answer_true (Nat.zero_le _), List.singleton_append, parsePostfix, reads]
  rfl

theorem Exact.percent (exact : Exact expr) : Exact (.percent expr) := by
  intro depth rest
  rw [tokensOf, List.append_assoc]
  exact exact depth (.percent :: rest)

theorem Exact.binary {op : Operator} (leftExact : Exact left) (rightExact : Exact right) :
    Exact (.binary op left right) := by
  intro depth rest
  have inner : (nest depth).comparison
      (tokensOf left ++ .op op :: (tokensOf right ++ .rparen :: rest)) =
        answer (nesting (.binary op left right) ≤ depth)
          (.binary op left right, .rparen :: rest) := by
    refine nested_answer parseComparison rfl (fun _ => rfl) fun levels => ?_
    have closes := Closes.rparen rest
    by_cases pow : op = .pow
    · subst pow
      have power : (nest levels).power (tokensOf right ++ .rparen :: rest) =
          answer (nesting right + 1 ≤ levels) (right, .rparen :: rest) :=
        nested_answer parsePower rfl (fun _ => rfl) fun _ =>
          rightExact.power closes.percents (closes.stops _)
      have pair := parsePower_pair (leftExact.unary (percents_op .pow)) power
      rw [parseComparison_answer closes pair, if_pos rfl]
      exact answer_congr max_le_iff.symm
    · have notPow : op ∉ [.pow] := fun member => pow (List.mem_singleton.mp member)
      have first : parsePower (nest levels)
          (tokensOf left ++ .op op :: (tokensOf right ++ .rparen :: rest)) =
            answer (nesting left ≤ levels) (left, .op op :: (tokensOf right ++ .rparen :: rest)) :=
        leftExact.power (percents_op op) (stops_of_not_mem notPow)
      have second : parsePower (nest levels) (tokensOf right ++ .rparen :: rest) =
          answer (nesting right ≤ levels) (right, .rparen :: rest) :=
        rightExact.power closes.percents (closes.stops _)
      rw [parseComparison_pair pow closes first second, if_neg pow]
      exact answer_congr max_le_iff.symm
  have tokensEq : tokensOf (.binary op left right) ++ rest =
      .lparen :: (tokensOf left ++ .op op :: (tokensOf right ++ .rparen :: rest)) := by
    rw [tokensOf]
    simp
  rw [tokensEq]
  exact parsePostfix_paren inner

theorem Exact.signed {op : Operator} (sign : op = .sub ∨ op = .add) (exact : Exact expr) :
    Exact (.unary op expr) := by
  intro depth rest
  have inner : (nest depth).comparison (.op op :: (tokensOf expr ++ .rparen :: rest)) =
      answer (nesting (.unary op expr) ≤ depth) (.unary op expr, .rparen :: rest) := by
    refine nested_answer parseComparison rfl (fun _ => rfl) fun levels => ?_
    have closes := Closes.rparen rest
    have unary : (nest levels).unary (tokensOf expr ++ .rparen :: rest) =
        answer (nesting expr + 1 ≤ levels) (expr, .rparen :: rest) :=
      nested_answer parseUnary rfl (fun _ => rfl) fun _ => exact.unary closes.percents
    refine parseComparison_answer closes (parsePower_answer (closes.stops _) ?_)
    rcases sign with rfl | rfl <;> rw [parseUnary, unary] <;> exact answer_bind_ok rfl
  have tokensEq : tokensOf (.unary op expr) ++ rest =
      .lparen :: .op op :: (tokensOf expr ++ .rparen :: rest) := by
    rw [tokensOf]
    simp
  rw [tokensEq]
  exact parsePostfix_paren inner

theorem closes_moreTokens (args : List Expr) (rest : List Token) :
    Closes (moreTokens args ++ .rparen :: rest) := by
  cases args with
  | nil => exact Closes.rparen rest
  | cons =>
    rintro next ⟨⟩
    exact .inr rfl

theorem parseMoreArgs_answer {fuel : Nat} (each : ∀ arg ∈ args, Exact arg)
    (enough : args.length ≤ fuel) :
    parseMoreArgs (nest depth).comparison fuel (moreTokens args ++ .rparen :: rest) =
      answer (argsNesting args ≤ depth) (args, .rparen :: rest) := by
  induction args generalizing fuel with
  | nil => exact (parseMoreArgs_stop (by simp [moreTokens])).trans (answer_true (Nat.zero_le _)).symm
  | cons arg args ih =>
    obtain ⟨argExact, others⟩ := List.forall_mem_cons.mp each
    obtain ⟨fuel, rfl⟩ := Nat.exists_eq_add_of_le' (Nat.lt_of_lt_of_le (Nat.succ_pos _) enough)
    have next := ih others (Nat.succ_le_succ_iff.mp enough)
    rw [moreTokens, List.cons_append, List.append_assoc, parseMoreArgs_next,
      argExact.comparison (closes_moreTokens args rest)]
    refine (answer_bind ?_).trans (answer_congr max_le_iff.symm)
    rw [next]
    exact answer_map

theorem length_moreTokens (args : List Expr) : args.length ≤ (moreTokens args).length := by
  induction args with
  | nil => exact Nat.zero_le _
  | cons =>
    rw [moreTokens, List.length_cons, List.length_cons, List.length_append]
    omega

theorem parseCall_answer {name : List Char} (each : ∀ arg ∈ args, Exact arg) :
    parseCall (nest depth) name (argsTokens args ++ .rparen :: rest) =
      answer (argsNesting args ≤ depth) (.func (String.ofList name) args, rest) := by
  cases args with
  | nil => exact (answer_true (Nat.zero_le _)).symm
  | cons arg args =>
    obtain ⟨argExact, others⟩ := List.forall_mem_cons.mp each
    have parsed : parseArgs (nest depth).comparison (argsTokens (arg :: args) ++ .rparen :: rest) =
        answer (argsNesting (arg :: args) ≤ depth) (arg :: args, .rparen :: rest) := by
      rw [argsTokens, List.append_assoc, parseArgs,
        argExact.comparison (closes_moreTokens args rest)]
      refine (answer_bind ?_).trans (answer_congr max_le_iff.symm)
      dsimp only
      have enough : args.length ≤ (moreTokens args ++ .rparen :: rest).length := by
        have shorter := length_moreTokens args
        rw [List.length_append]
        omega
      rw [parseMoreArgs_answer others enough]
      exact answer_bind_ok rfl
    obtain ⟨head, tail, tokensEq, opens⟩ := opens_tokensOf arg
    unfold parseCall
    split
    · next heq =>
        rw [argsTokens, tokensEq] at heq
        obtain rfl := (List.cons.inj heq).1
        cases opens
    · rw [parsed]
      exact answer_bind_ok rfl

theorem Exact.func {name : String} (each : ∀ arg ∈ args, Exact arg) : Exact (.func name args) := by
  intro depth rest
  have tokensEq : tokensOf (.func name args) ++ rest =
      .func name.toList :: .lparen :: (argsTokens args ++ .rparen :: rest) := by
    rw [tokensOf]
    simp
  have primary : parsePrimary (nest depth) (tokensOf (.func name args) ++ rest) =
      answer (argsNesting args ≤ depth) (.func name args, rest) := by
    have call : parseCall (nest depth) name.toList (argsTokens args ++ .rparen :: rest) =
        answer (argsNesting args ≤ depth) (.func (String.ofList name.toList) args, rest) :=
      parseCall_answer each
    rw [String.ofList_toList] at call
    rw [tokensEq]
    exact call
  rw [parsePostfix, primary]
  exact answer_bind_ok rfl

theorem numeralNumber_text {value : ℚ} (representable : Representable value) (nonneg : 0 ≤ value) :
    numeralNumber (finite value representable).text = .finite value representable := by
  have ends : EndsNumeral [] := nofun
  obtain ⟨numeral, scanned, numberEq, _⟩ :=
    scan_magnitudeText representable nonneg ends
  rw [List.append_nil, ← text_of_nonneg representable nonneg] at scanned
  rw [numeralNumber, scanned]
  exact numberEq

theorem not_writable_infinity : ¬(Token.num "Infinity".toList).Writable := by
  rintro ⟨value, representable, nonneg, textEq⟩
  have ends : EndsNumeral [] := nofun
  obtain ⟨numeral, scanned, _⟩ := scan_magnitudeText representable nonneg ends
  rw [List.append_nil, ← text_of_nonneg representable nonneg, ← textEq] at scanned
  cases scanned

theorem exact_of_writable (wellFormed : expr.WellFormed)
    (writable : ∀ token ∈ tokensOf expr, token.Writable) : Exact expr := by
  induction wellFormed with
  | num numeral =>
    have spelled := writable _ (List.mem_singleton_self _)
    refine .leaf rfl rfl fun nested rest => ?_
    rcases number_cases numeral with infinite | ⟨value, representable, nonneg, numberEq⟩
    · rw [infinite] at spelled
      exact absurd spelled not_writable_infinity
    · rw [numberEq, parsePrimary, numeralNumber_text representable nonneg]
  | str =>
    refine .leaf rfl rfl fun nested rest => ?_
    rw [parsePrimary, String.ofList_toList]
  | bool => exact .leaf rfl rfl fun _ _ => rfl
  | cell typed =>
    refine .leaf rfl rfl fun nested rest => ?_
    rw [parsePrimary, refNode, typed.node_part]
  | range startTyped stopTyped =>
    refine .leaf rfl rfl fun nested rest => ?_
    rw [parsePrimary, refNode, startTyped.node_part, stopTyped.node_part]
  | @func name args named each ih =>
    refine .func fun arg member => ih arg member fun token tokenMember => writable token ?_
    have inArgs := mem_argsTokens_of_mem member tokenMember
    simp only [tokensOf, List.mem_cons, List.mem_append, inArgs, true_or, or_true]
  | @binary op left right leftIs rightIs leftExact rightExact =>
    refine .binary (leftExact fun token member => writable token ?_)
      (rightExact fun token member => writable token ?_)
    · simp only [tokensOf, List.mem_cons, List.mem_append, member, true_or, or_true]
    · simp only [tokensOf, List.mem_cons, List.mem_append, member, true_or, or_true]
  | @unary op expr sign exprIs ih =>
    refine .signed sign (ih fun token member => writable token ?_)
    simp only [tokensOf, List.mem_cons, List.mem_append, member, true_or, or_true]
  | percent exprIs ih =>
    refine .percent (ih fun token member => writable token ?_)
    rw [tokensOf, List.mem_append]
    exact .inl member

end

variable {expr : Expr} {tokens : List Token} {raw : String}

theorem parseExpression_wellFormed (accepted : parseExpression raw = .ok (some expr)) :
    expr.WellFormed := by
  unfold parseExpression at accepted
  split at accepted
  · next rest _ =>
      split at accepted
      · cases accepted
      · next body _ =>
          cases read : tokenize (trim rest) with
          | error =>
            rw [read] at accepted
            cases accepted
          | ok tokens =>
            cases parsed : parseTokens tokens with
            | error =>
              rw [read, Except.bind, parsed] at accepted
              cases accepted
            | ok =>
              rw [read, Except.bind, parsed] at accepted
              cases accepted
              obtain ⟨used, tokensEq, _, _, shape⟩ := parseTokens_sound parsed
              rw [List.append_nil] at tokensEq
              subst tokensEq
              exact shape (tokenizeFrom_lexed read)
  · cases accepted

theorem parseExpression_printed (wellFormed : expr.WellFormed) :
    parseExpression (String.ofList ('=' :: stringifyExpression expr)) =
      ((tokenize (writeTokens (tokensOf expr))).bind parseTokens).map some := by
  have finishes := finishes_tokensOf wellFormed
  have marked : Finishes ('=' :: writeTokens (tokensOf expr)) := finishes.append ['=']
  obtain ⟨head, tail, textEq, _, _, visible⟩ := begins_tokensOf wellFormed
  rw [stringifyExpression_tokens wellFormed, parseExpression, String.toList_ofList]
  rw [trim_visible (by decide) marked]
  rw [textEq] at finishes ⊢
  simp only [trim_visible visible finishes]

theorem parseTokens_exact (exact : Exact expr) :
    parseTokens (tokensOf expr) = answer (nesting expr ≤ maxFormulaDepth) expr := by
  have parsed : parseComparison (nest maxFormulaDepth) (tokensOf expr) =
      answer (nesting expr ≤ maxFormulaDepth) (expr, []) := by
    have power : parsePower (nest maxFormulaDepth) (tokensOf expr ++ []) =
        answer (nesting expr ≤ maxFormulaDepth) (expr, []) :=
      exact.power Closes.nil.percents (Closes.nil.stops _)
    rw [List.append_nil] at power
    exact parseComparison_answer Closes.nil power
  rw [parseTokens, parsed]
  exact answer_bind_ok rfl

theorem tokenizeFrom_head {head : Char} {tail : List Char} {fuel pushed : Nat}
    (visible : isWhiteSpace head = false)
    (read : tokenizeFrom (fuel + 1) pushed (head :: tail) = .ok tokens) :
    ∃ token after more, lexToken (head :: tail) = .ok (token, after) ∧ tokens = token :: more := by
  rw [tokenizeFrom, visible, if_neg Bool.false_ne_true] at read
  split at read
  · cases read
  · cases lexed : lexToken (head :: tail) with
    | error =>
      rw [lexed] at read
      cases read
    | ok found =>
      obtain ⟨token, after⟩ := found
      rw [lexed] at read
      dsimp only at read
      cases others : tokenizeFrom fuel (pushed + 1) after with
      | error =>
        rw [others] at read
        cases read
      | ok more =>
        rw [others] at read
        exact ⟨token, after, more, rfl, (Except.ok.inj read).symm⟩

theorem exists_first_unwritable (some : ∃ token ∈ tokens, ¬token.Writable) :
    ∃ before bad after, tokens = before ++ bad :: after ∧
      (∀ token ∈ before, token.Writable) ∧ ¬bad.Writable := by
  induction tokens with
  | nil =>
    obtain ⟨token, member, _⟩ := some
    cases member
  | cons token tokens ih =>
    by_cases writable : token.Writable
    · obtain ⟨bad, member, badUnwritable⟩ := some
      have later : bad ∈ tokens := by
        rcases List.mem_cons.mp member with rfl | later
        · exact absurd writable badUnwritable
        · exact later
      obtain ⟨before, first, after, tokensEq, all, unwritable⟩ := ih ⟨bad, later, badUnwritable⟩
      refine ⟨token :: before, first, after, by rw [tokensEq]; rfl, ?_, unwritable⟩
      exact List.forall_mem_cons.mpr ⟨writable, all⟩
    · exact ⟨[], token, tokens, rfl, nofun, writable⟩

theorem lexToken_of_spoiled {bad token : Token} {rest after : List Char} (spoiled : bad.Spoiled)
    (follows : bad.Follows rest) (lexed : lexToken (bad.written ++ rest) = .ok (token, after)) :
    token.isIdent ∨ ∃ value other, bad = .str value ∧ token = .str other ∧ other ≠ value := by
  cases bad with
  | num =>
    obtain rfl := spoiled
    have ends : ∀ next ∈ rest.head?, isWordChar next = false ∧ next ≠ '$' :=
      Delimited.all follows (List.all_iff_forall_prop.mp (by decide))
    have stops : ∀ next ∈ rest.head?, isWhiteSpace next = false ∧ next ≠ '(' :=
      Delimited.all follows (List.all_iff_forall_prop.mp (by decide))
    have read := (lexToken_infinity ends stops).symm.trans lexed
    rw [← (Prod.mk.inj (Except.ok.inj read)).1]
    exact .inl rfl
  | str value =>
    obtain ⟨other, tokenEq, differs⟩ := lexToken_spoiled spoiled lexed
    exact .inr ⟨value, other, rfl, tokenEq, differs⟩
  | _ => cases spoiled

theorem head_spoiled {bad : Token} (spoiled : bad.Spoiled) :
    ∃ head tail, bad.written = head :: tail ∧ isWhiteSpace head = false := by
  cases bad with
  | num =>
    obtain rfl := spoiled
    exact ⟨'I', "nfinity".toList, by decide, by decide⟩
  | str value => exact ⟨'"', _, written_str value, by decide⟩
  | _ => cases spoiled

theorem unwritable_lost (wellFormed : expr.WellFormed)
    (some : ∃ token ∈ tokensOf expr, ¬token.Writable)
    (read : tokenize (writeTokens (tokensOf expr)) = .ok tokens) :
    parseTokens tokens ≠ .ok expr := by
  intro parsed
  obtain ⟨before, bad, later, tokensEq, writable, unwritable⟩ := exists_first_unwritable some
  have spoiled : bad.Spoiled := by
    have member : bad ∈ tokensOf expr := by simp [tokensEq]
    exact (writable_or_spoiled wellFormed bad member).resolve_left unwritable
  have spaced : Spaced [] (tokensOf expr) := spaced_tokensOf wellFormed .nil
  have literals := literals_tokensOf expr
  rw [tokensEq] at spaced literals
  obtain ⟨beforeSpaced, follows, _⟩ := Spaced.append.mp spaced
  have readable := beforeSpaced.readable writable
  rw [tokensEq, writeTokens_append] at read
  have textEq : writeTokens (bad :: later) ++ [] = writeTokens (bad :: later) := List.append_nil _
  rw [textEq] at readable
  -- the tokens before the literal are read as they are
  obtain ⟨head, tail, written, visible⟩ := head_spoiled spoiled
  obtain ⟨spare, spareEq⟩ := Nat.exists_eq_add_of_le (length_writeTokens readable)
  have fuelEq : (writeTokens before ++ writeTokens (bad :: later)).length =
      before.length + (spare + tail.length + (writeTokens later).length + 1) := by
    rw [List.length_append, spareEq, writeTokens_cons, written, List.length_append,
      List.length_cons]
    omega
  rw [tokenize, fuelEq] at read
  have few : before.length ≤ maxFormulaTokens := by
    by_contra many
    obtain ⟨message, failed⟩ := tokenizeFrom_overflow
      (spare + tail.length + (writeTokens later).length + 1) 0 readable (by omega) (by omega)
    rw [failed] at read
    cases read
  rw [tokenizeFrom_written _ 0 readable (by omega)] at read
  cases others : tokenizeFrom (spare + tail.length + (writeTokens later).length + 1)
      (0 + before.length) (writeTokens (bad :: later)) with
  | error =>
    rw [others] at read
    cases read
  | ok =>
    rw [others] at read
    cases read
    rw [writeTokens_cons, written, List.cons_append] at others
    obtain ⟨token, after, more, lexed, rfl⟩ := tokenizeFrom_head visible others
    rw [← List.cons_append, ← written] at lexed
    obtain ⟨used, usedEq, _, usedIs, _⟩ := parseTokens_sound parsed
    rw [List.append_nil] at usedEq
    subst usedEq
    rw [List.append_nil] at follows
    rcases lexToken_of_spoiled spoiled follows lexed with ident | ⟨value, other, rfl, rfl, differs⟩
    · have known := usedIs.known token (by simp)
      rw [known] at ident
      cases ident
    · have sameLiterals := usedIs.literals.trans literals.symm
      rw [List.filterMap_append, List.filterMap_append] at sameLiterals
      exact differs (List.cons.inj (List.append_cancel_left sameLiterals)).1

theorem writable_iff_not_spoiled (wellFormed : expr.WellFormed) :
    (∀ token ∈ tokensOf expr, token.Writable) ↔ ∀ token ∈ tokensOf expr, ¬token.Spoiled := by
  refine forall₂_congr fun token member => ⟨fun writable spoiled => ?_, fun clean => ?_⟩
  · cases token with
    | num =>
      obtain rfl := spoiled
      exact not_writable_infinity writable
    | str =>
      obtain ⟨char, charMember, notPlain⟩ := spoiled
      exact notPlain (writable char charMember)
    | _ => cases spoiled
  · exact (writable_or_spoiled wellFormed token member).resolve_right clean

/-- A formula is read back from its serialized text exactly when the text has
no literal that `JSON.stringify` escapes or that is an infinite number, and
keeps the limits of the lexer and of the parser. -/
theorem formula_roundTrip_iff (accepted : parseExpression raw = .ok (some expr)) :
    parseExpression (String.ofList ('=' :: stringifyExpression expr)) = .ok (some expr) ↔
      (∀ token ∈ tokensOf expr, ¬token.Spoiled) ∧
        (tokensOf expr).length ≤ maxFormulaTokens ∧ nesting expr ≤ maxFormulaDepth := by
  have wellFormed := parseExpression_wellFormed accepted
  rw [parseExpression_printed wellFormed, ← writable_iff_not_spoiled wellFormed]
  by_cases writable : ∀ token ∈ tokensOf expr, token.Writable
  · have readable : Readable [] (tokensOf expr) :=
      (spaced_tokensOf wellFormed .nil).readable writable
    by_cases few : (tokensOf expr).length ≤ maxFormulaTokens
    · rw [tokenize_written readable few, Except.bind,
        parseTokens_exact (exact_of_writable wellFormed writable), answer_map]
      by_cases shallow : nesting expr ≤ maxFormulaDepth
      · rw [answer_true shallow]
        exact iff_of_true rfl ⟨writable, few, shallow⟩
      · rw [answer, if_neg shallow]
        exact iff_of_false nofun fun all => shallow all.2.2
    · obtain ⟨message, failed⟩ := tokenize_overflow readable (not_le.mp few)
      rw [failed]
      exact iff_of_false nofun fun all => few all.2.1
  · refine iff_of_false (fun readBack => ?_) fun all => writable all.1
    push Not at writable
    cases read : tokenize (writeTokens (tokensOf expr)) with
    | error =>
      rw [read] at readBack
      cases readBack
    | ok tokens =>
      rw [read, Except.bind] at readBack
      cases parsed : parseTokens tokens with
      | error =>
        rw [parsed] at readBack
        cases readBack
      | ok =>
        rw [parsed] at readBack
        cases readBack
        exact unwritable_lost wellFormed writable read parsed

/-- `SUM($A1:A3)&"-"`. -/
def labelledSum : Expr :=
  .binary .concat (.func "SUM" [.range ⟨"A1", true, false⟩ ⟨"A3", false, false⟩]) (.str "-")

theorem formula_roundTrip_labelledSum :
    parseExpression (String.ofList ('=' :: stringifyExpression labelledSum)) =
      .ok (some labelledSum) := by
  have accepted : parseExpression "= sum($a1:A3) & '-'" = .ok (some labelledSum) := rfl
  exact (formula_roundTrip_iff accepted).mpr
    ⟨by decide +kernel, by decide +kernel, by decide +kernel⟩

def succeeds : Except String (Option Expr) → Bool
  | .ok _ => true
  | .error _ => false

/-- A double quote inside single quotes is accepted, and escaped by the serializer. -/
theorem quoted_string_lost : ¬∀ raw expr, parseExpression raw = .ok (some expr) →
    parseExpression (String.ofList ('=' :: stringifyExpression expr)) = .ok (some expr) := by
  intro roundTrip
  have accepted : parseExpression "='a\"b'" = .ok (some (.str "a\"b")) := rfl
  have fails : succeeds (parseExpression
      (String.ofList ('=' :: stringifyExpression (.str "a\"b")))) = false := by
    decide +kernel
  rw [roundTrip _ _ accepted] at fails
  cases fails

end P2PHub.Calc
