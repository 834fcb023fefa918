import P2PHub.FormulaLexing

/-!
# Parsing formulas

What the parser consumes for an expression, and what it makes of the tokens of
a fully parenthesized one.
-/

namespace P2PHub.Calc

/-- The shape of the expressions that the parser builds. -/
inductive Expr.WellFormed : Expr → Prop
  | num (numeral : Numeral) : WellFormed (.num numeral.number)
  | str (value : String) : WellFormed (.str value)
  | bool (value : Bool) : WellFormed (.bool value)
  | cell {part : RefPart} (typed : part.Typed) : WellFormed (.cell part.node)
  | range {start stop : RefPart} (startTyped : start.Typed) (stopTyped : stop.Typed) :
      WellFormed (.range start.node stop.node)
  | func {name : List Char} {args : List Expr} (named : FuncName name)
      (each : ∀ arg ∈ args, WellFormed arg) : WellFormed (.func (String.ofList name) args)
  | binary (op : Operator) {left right : Expr} (leftIs : WellFormed left)
      (rightIs : WellFormed right) : WellFormed (.binary op left right)
  | unary {op : Operator} {expr : Expr} (sign : op = .sub ∨ op = .add) (exprIs : WellFormed expr) :
      WellFormed (.unary op expr)
  | percent {expr : Expr} (exprIs : WellFormed expr) : WellFormed (.percent expr)

mutual

/-- The string literals of an expression, from left to right. -/
def Expr.literals : Expr → List (List Char)
  | .str value => [value.toList]
  | .func _ args => literalsOfArgs args
  | .binary _ left right => left.literals ++ right.literals
  | .unary _ expr => expr.literals
  | .percent expr => expr.literals
  | _ => []

def literalsOfArgs : List Expr → List (List Char)
  | [] => []
  | arg :: args => arg.literals ++ literalsOfArgs args

end

def Token.literal : Token → Option (List Char)
  | str value => some value
  | _ => none

def Token.isIdent : Token → Bool
  | ident _ => true
  | _ => false

section

variable {tokens rest used : List Token} {expr left : Expr} {token : Token} {middle : List Token}
  {operators : List Operator} {operand : TokenParser} {args : List Expr}

/-- Tokens that a parser may have consumed: none of them is an unknown name. -/
structure Used (used : List Token) (literals : List (List Char)) : Prop where
  literals : used.filterMap Token.literal = literals
  known : ∀ token ∈ used, token.isIdent = false

theorem Used.append {first second : List Token} {firstLiterals secondLiterals : List (List Char)}
    (firstUsed : Used first firstLiterals) (secondUsed : Used second secondLiterals) :
    Used (first ++ second) (firstLiterals ++ secondLiterals) where
  literals := by rw [List.filterMap_append, firstUsed.literals, secondUsed.literals]
  known := List.forall_mem_append.mpr ⟨firstUsed.known, secondUsed.known⟩

theorem Used.symbol (noLiteral : token.literal = none)
    (known : token.isIdent = false) : Used [token] [] where
  literals := by rw [List.filterMap_cons_none noLiteral, List.filterMap_nil]
  known := List.forall_mem_singleton.mpr known

def AllLexed (tokens : List Token) : Prop :=
  ∀ token ∈ tokens, token.Lexed

/-- What a parser did: it used up some tokens for an expression. -/
def Parsed (tokens : List Token) (expr : Expr) (rest : List Token) : Prop :=
  ∃ used, tokens = used ++ rest ∧ used ≠ [] ∧ Used used expr.literals ∧
    (AllLexed used → expr.WellFormed)

def SoundParser (parser : TokenParser) : Prop :=
  ∀ tokens expr rest, parser tokens = .ok (expr, rest) → Parsed tokens expr rest

def Extended (left : Expr) (tokens : List Token) (expr : Expr) (rest : List Token) : Prop :=
  ∃ used literals, tokens = used ++ rest ∧ Used used literals ∧
    expr.literals = left.literals ++ literals ∧
    (left.WellFormed → AllLexed used → expr.WellFormed)

theorem Extended.refl : Extended expr rest expr rest :=
  ⟨[], [], rfl, ⟨rfl, nofun⟩, (List.append_nil _).symm, fun wellFormed _ => wellFormed⟩

theorem Parsed.extend (parsed : Parsed tokens left middle)
    (extended : Extended left middle expr rest) : Parsed tokens expr rest := by
  obtain ⟨first, rfl, some, firstUsed, firstShape⟩ := parsed
  obtain ⟨second, literals, rfl, secondUsed, literalsEq, secondShape⟩ := extended
  refine ⟨first ++ second, (List.append_assoc _ _ _).symm, by simp [some], ?_, fun lexed => ?_⟩
  · rw [literalsEq]
    exact firstUsed.append secondUsed
  · obtain ⟨firstLexed, secondLexed⟩ := List.forall_mem_append.mp lexed
    exact secondShape (firstShape firstLexed) secondLexed

theorem Extended.trans {next : Expr} (first : Extended left tokens next middle)
    (second : Extended next middle expr rest) : Extended left tokens expr rest := by
  obtain ⟨firstTokens, firstLiterals, rfl, firstUsed, firstEq, firstShape⟩ := first
  obtain ⟨secondTokens, secondLiterals, rfl, secondUsed, secondEq, secondShape⟩ := second
  refine ⟨firstTokens ++ secondTokens, firstLiterals ++ secondLiterals,
    (List.append_assoc _ _ _).symm, firstUsed.append secondUsed, ?_, fun leftIs lexed => ?_⟩
  · rw [secondEq, firstEq, List.append_assoc]
  · obtain ⟨firstLexed, secondLexed⟩ := List.forall_mem_append.mp lexed
    exact secondShape (firstShape leftIs firstLexed) secondLexed

theorem Extended.binary {op : Operator} {right : Expr} (parsed : Parsed tokens right rest) :
    Extended left (.op op :: tokens) (.binary op left right) rest := by
  obtain ⟨used, rfl, _, usedIs, shape⟩ := parsed
  refine ⟨.op op :: used, right.literals, rfl, (Used.symbol rfl rfl).append usedIs, rfl,
    fun leftIs lexed => ?_⟩
  exact .binary op leftIs (shape (List.forall_mem_cons.mp lexed).2)

theorem ok_of_bind {Error First Result : Type} {step : Except Error First}
    {next : First → Except Error Result} {result : Result} (done : step >>= next = .ok result) :
    ∃ first, step = .ok first ∧ next first = .ok result := by
  cases step with
  | error => cases done
  | ok first => exact ⟨first, rfl, done⟩

theorem leftChain_sound (sound : SoundParser operand) {fuel : Nat}
    (parsed : leftChain operators operand fuel left tokens = .ok (expr, rest)) :
    Extended left tokens expr rest := by
  induction fuel generalizing left tokens with
  | zero =>
    cases parsed
    exact .refl
  | succ fuel ih =>
    unfold leftChain at parsed
    split at parsed
    · next _ op more fuelEq =>
        cases fuelEq
        split at parsed
        · obtain ⟨⟨right, middle⟩, rightEq, parsed⟩ := ok_of_bind parsed
          exact (Extended.binary (sound _ _ _ rightEq)).trans (ih parsed)
        · cases parsed
          exact .refl
    · cases parsed
      exact .refl

theorem parseLevel_sound
    (sound : SoundParser operand) : SoundParser (parseLevel operators operand) := by
  intro tokens expr rest parsed
  obtain ⟨⟨left, middle⟩, leftEq, parsed⟩ := ok_of_bind parsed
  exact (sound _ _ _ leftEq).extend (leftChain_sound sound parsed)

structure Nested.Sound (nested : Nested) : Prop where
  comparison : SoundParser nested.comparison
  power : SoundParser nested.power
  unary : SoundParser nested.unary

variable {nested : Nested}

theorem expect_ok {expected : Token} (expects : expect expected tokens = .ok rest) :
    tokens = expected :: rest := by
  unfold expect at expects
  split at expects
  · next token more =>
      split at expects
      · next same => rw [same, Except.ok.inj expects]
      · cases expects
  · cases expects

theorem percents_other (other : token ≠ .percent) :
    percents expr (token :: tokens) = (expr, token :: tokens) := by
  unfold percents
  split
  · next heq => exact absurd (List.cons.inj heq).1 other
  · rfl

theorem percents_extended (expr : Expr) (tokens : List Token) :
    Extended expr tokens (percents expr tokens).1 (percents expr tokens).2 := by
  induction tokens generalizing expr with
  | nil => exact .refl
  | cons token tokens ih =>
    by_cases sign : token = .percent
    · subst sign
      have first : Extended expr (.percent :: tokens) (.percent expr) tokens :=
        ⟨[.percent], [], rfl, .symbol rfl rfl, (List.append_nil _).symm,
          fun exprIs _ => .percent exprIs⟩
      exact first.trans (ih _)
    · rw [percents_other sign]
      exact .refl

def ParsedArgs (tokens : List Token) (args : List Expr) (rest : List Token) : Prop :=
  ∃ used, tokens = used ++ rest ∧ Used used (literalsOfArgs args) ∧
    (AllLexed used → ∀ arg ∈ args, arg.WellFormed)

theorem ParsedArgs.cons {arg : Expr}
    (first : Parsed tokens arg middle) (others : ParsedArgs middle args rest) :
    ParsedArgs tokens (arg :: args) rest := by
  obtain ⟨firstTokens, rfl, _, firstUsed, firstShape⟩ := first
  obtain ⟨otherTokens, rfl, othersUsed, othersShape⟩ := others
  refine ⟨firstTokens ++ otherTokens, (List.append_assoc _ _ _).symm, firstUsed.append othersUsed,
    fun lexed => ?_⟩
  obtain ⟨firstLexed, othersLexed⟩ := List.forall_mem_append.mp lexed
  exact List.forall_mem_cons.mpr ⟨firstShape firstLexed, othersShape othersLexed⟩

theorem ParsedArgs.behind (noLiteral : token.literal = none)
    (known : token.isIdent = false) (parsed : ParsedArgs tokens args rest) :
    ParsedArgs (token :: tokens) args rest := by
  obtain ⟨used, rfl, usedIs, shape⟩ := parsed
  exact ⟨token :: used, rfl, (Used.symbol noLiteral known).append usedIs,
    fun lexed => shape (List.forall_mem_cons.mp lexed).2⟩

theorem parseMoreArgs_sound {argument : TokenParser} (sound : SoundParser argument) {fuel : Nat}
    (parsed : parseMoreArgs argument fuel tokens = .ok (args, rest)) :
    ParsedArgs tokens args rest := by
  induction fuel generalizing tokens args with
  | zero =>
    cases parsed
    exact ⟨[], rfl, ⟨rfl, nofun⟩, nofun⟩
  | succ fuel ih =>
    unfold parseMoreArgs at parsed
    split at parsed
    · next _ more fuelEq =>
        cases fuelEq
        obtain ⟨⟨arg, middle⟩, argEq, parsed⟩ := ok_of_bind parsed
        obtain ⟨⟨others, last⟩, othersEq, parsed⟩ := ok_of_bind parsed
        cases parsed
        exact .behind rfl rfl (.cons (sound _ _ _ argEq) (ih othersEq))
    · cases parsed
      exact ⟨[], rfl, ⟨rfl, nofun⟩, nofun⟩

theorem Parsed.single (literals : [token].filterMap Token.literal = expr.literals)
    (known : token.isIdent = false) (shape : token.Lexed → expr.WellFormed) :
    Parsed (token :: rest) expr rest :=
  ⟨[token], rfl, List.cons_ne_nil _ _, ⟨literals, List.forall_mem_singleton.mpr known⟩,
    fun lexed => shape (lexed token (List.mem_singleton_self token))⟩

theorem Parsed.signed {op : Operator} (sign : op = .sub ∨ op = .add)
    (parsed : Parsed tokens expr rest) : Parsed (.op op :: tokens) (.unary op expr) rest := by
  obtain ⟨used, rfl, _, usedIs, shape⟩ := parsed
  refine ⟨.op op :: used, rfl, List.cons_ne_nil _ _, (Used.symbol rfl rfl).append usedIs,
    fun lexed => ?_⟩
  exact .unary sign (shape (List.forall_mem_cons.mp lexed).2)

variable (sound : SoundParser nested.comparison)

include sound

theorem parseCall_sound {name : List Char} (parsed : parseCall nested name tokens = .ok (expr,
    rest)) : ∃ used args, tokens = used ++ rest ∧ Used used (literalsOfArgs args) ∧
      expr = .func (String.ofList name) args ∧ (AllLexed used → ∀ arg ∈ args, arg.WellFormed) := by
  unfold parseCall at parsed
  split at parsed
  · next more =>
      cases parsed
      exact ⟨[.rparen], [], rfl, .symbol rfl rfl, rfl, nofun⟩
  · obtain ⟨⟨args, middle⟩, argsEq, parsed⟩ := ok_of_bind parsed
    obtain ⟨last, lastEq, parsed⟩ := ok_of_bind parsed
    cases parsed
    obtain ⟨⟨arg, next⟩, argEq, argsEq⟩ := ok_of_bind argsEq
    obtain ⟨⟨others, final⟩, othersEq, argsEq⟩ := ok_of_bind argsEq
    cases argsEq
    obtain rfl := expect_ok lastEq
    obtain ⟨used, rfl, usedIs, shape⟩ :=
      ParsedArgs.cons (sound _ _ _ argEq) (parseMoreArgs_sound sound othersEq)
    refine ⟨used ++ [.rparen], arg :: others, by simp, ?_, rfl, fun lexed => ?_⟩
    · have last : Used [Token.rparen] [] := Used.symbol rfl rfl
      have closed := usedIs.append last
      rwa [List.append_nil] at closed
    · exact shape (List.forall_mem_append.mp lexed).1

theorem parsePrimary_sound : SoundParser (parsePrimary nested) := by
  intro tokens expr rest parsed
  unfold parsePrimary at parsed
  split at parsed
  · next text more =>
      cases parsed
      refine .single rfl rfl ?_
      rintro ⟨numeral, numeralEq⟩
      rw [numeralEq]
      exact .num numeral
  · next value more =>
      cases parsed
      refine .single ?_ rfl fun _ => .str _
      rw [Expr.literals, String.toList_ofList]
      rfl
  · cases parsed
    exact .single rfl rfl fun _ => .bool _
  · next start stop more =>
      cases parsed
      cases stop with
      | none => exact .single rfl rfl fun lexed => .cell lexed.1
      | some stop => exact .single rfl rfl fun lexed => .range lexed.1 (lexed.2 stop rfl)
  · next name more =>
      obtain ⟨opened, openedEq, parsed⟩ := ok_of_bind parsed
      obtain rfl := expect_ok openedEq
      obtain ⟨used, args, rfl, usedIs, rfl, shape⟩ := parseCall_sound sound parsed
      refine ⟨.func name :: .lparen :: used, rfl, List.cons_ne_nil _ _, ?_, fun lexed => ?_⟩
      · exact (Used.symbol rfl rfl).append ((Used.symbol rfl rfl).append usedIs)
      · obtain ⟨named, lexed⟩ := List.forall_mem_cons.mp lexed
        exact .func named (shape (List.forall_mem_cons.mp lexed).2)
  · cases parsed
  · next more =>
      obtain ⟨⟨inner, middle⟩, innerEq, parsed⟩ := ok_of_bind parsed
      obtain ⟨last, lastEq, parsed⟩ := ok_of_bind parsed
      cases parsed
      obtain rfl := expect_ok lastEq
      obtain ⟨used, rfl, _, usedIs, shape⟩ := sound _ _ _ innerEq
      refine ⟨.lparen :: used ++ [.rparen], by simp, List.cons_ne_nil _ _, ?_, fun lexed => ?_⟩
      · have first : Used [Token.lparen] [] := Used.symbol rfl rfl
        have last : Used [Token.rparen] [] := Used.symbol rfl rfl
        have closed := (first.append usedIs).append last
        rwa [List.append_nil] at closed
      · exact shape (List.forall_mem_cons.mp (List.forall_mem_append.mp lexed).1).2
  · cases parsed

theorem parsePostfix_sound : SoundParser (parsePostfix nested) := by
  intro tokens expr rest parsed
  obtain ⟨⟨inner, middle⟩, innerEq, parsed⟩ := ok_of_bind parsed
  have extended := percents_extended inner middle
  rw [Except.ok.inj parsed] at extended
  exact (parsePrimary_sound sound _ _ _ innerEq).extend extended

omit sound

theorem parseUnary_sound (sound : nested.Sound) : SoundParser (parseUnary nested) := by
  intro tokens expr rest parsed
  unfold parseUnary at parsed
  split at parsed
  · obtain ⟨⟨inner, middle⟩, innerEq, parsed⟩ := ok_of_bind parsed
    cases parsed
    exact .signed (.inl rfl) (sound.unary _ _ _ innerEq)
  · obtain ⟨⟨inner, middle⟩, innerEq, parsed⟩ := ok_of_bind parsed
    cases parsed
    exact .signed (.inr rfl) (sound.unary _ _ _ innerEq)
  · exact parsePostfix_sound sound.comparison _ _ _ parsed

theorem parsePower_sound (sound : nested.Sound) : SoundParser (parsePower nested) := by
  intro tokens expr rest parsed
  obtain ⟨⟨base, middle⟩, baseEq, parsed⟩ := ok_of_bind parsed
  have baseParsed := parseUnary_sound sound _ _ _ baseEq
  dsimp only at parsed
  split at parsed
  · next more =>
      obtain ⟨⟨right, last⟩, rightEq, parsed⟩ := ok_of_bind parsed
      cases parsed
      exact baseParsed.extend (.binary (sound.power _ _ _ rightEq))
  · cases parsed
    exact baseParsed

theorem parseComparison_sound (sound : nested.Sound) : SoundParser (parseComparison nested) :=
  parseLevel_sound (parseLevel_sound (parseLevel_sound (parseLevel_sound (parsePower_sound sound))))

theorem nest_sound (levels : Nat) : (nest levels).Sound := by
  induction levels with
  | zero => exact ⟨nofun, nofun, nofun⟩
  | succ levels ih =>
    exact ⟨parseComparison_sound ih, parsePower_sound ih, parseUnary_sound ih⟩

theorem parseTokens_sound (parsed : parseTokens tokens = .ok expr) : Parsed tokens expr [] := by
  obtain ⟨⟨inner, rest⟩, innerEq, parsed⟩ := ok_of_bind parsed
  dsimp only at parsed
  split at parsed
  · next all =>
      cases parsed
      subst all
      exact parseComparison_sound (nest_sound _) _ _ _ innerEq
  · cases parsed

end

variable {operators : List Operator} {operand : TokenParser} {tokens rest : List Token}
  {left expr : Expr} {fuel : Nat}

theorem leftChain_next {op : Operator} (member : op ∈ operators) :
    leftChain operators operand (fuel + 1) left (.op op :: tokens) = operand tokens >>= fun read =>
        leftChain operators operand fuel (.binary op left read.1) read.2 := by
  rw [leftChain, if_pos member]

def Stops (operators : List Operator) (tokens : List Token) : Prop :=
  ∀ op ∈ operators, tokens.head? ≠ some (.op op)

theorem leftChain_stop (stops : Stops operators tokens) :
    leftChain operators operand fuel left tokens = .ok (left, tokens) := by
  unfold leftChain
  split
  · exact if_neg fun member => stops _ member rfl
  · rfl

theorem stops_or (operators : List Operator) (tokens : List Token) :
    Stops operators tokens ∨ ∃ op ∈ operators, ∃ more, tokens = .op op :: more := by
  by_cases stops : Stops operators tokens
  · exact .inl stops
  · simp only [Stops, not_forall, not_not] at stops
    obtain ⟨op, member, head⟩ := stops
    obtain ⟨more, tokensEq⟩ := List.head?_eq_some_iff.mp head
    exact .inr ⟨op, member, more, tokensEq⟩

theorem parseMoreArgs_next : parseMoreArgs operand (fuel + 1) (.comma :: tokens) =
      operand tokens >>= fun read =>
        (parseMoreArgs operand fuel read.2).map fun others => (read.1 :: others.1, others.2) := by
  rw [parseMoreArgs]
  cases operand tokens with
  | error => rfl
  | ok read =>
    obtain ⟨arg, more⟩ := read
    cases others : parseMoreArgs operand fuel more with
    | error => simp only [bind, Except.bind, others, Except.map]
    | ok => simp only [bind, Except.bind, others, Except.map, pure, Except.pure]

theorem parseMoreArgs_stop (noComma : tokens.head? ≠ some .comma) :
    parseMoreArgs operand fuel tokens = .ok ([], tokens) := by
  unfold parseMoreArgs
  split
  · exact absurd rfl noComma
  · rfl

variable (sound : SoundParser operand)

include sound

theorem SoundParser.length_lt (parsed : operand tokens = .ok (expr, rest)) :
    rest.length < tokens.length := by
  obtain ⟨used, rfl, some, _⟩ := sound _ _ _ parsed
  have positive := List.length_pos_iff.mpr some
  rw [List.length_append]
  omega

end P2PHub.Calc
