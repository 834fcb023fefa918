import P2PHub.FormulaParsing

/-!
# Printing formulas

The serializer writes the tokens of a fully parenthesized expression, each one
separated from the next.
-/

namespace P2PHub.Calc

open Binary64

section

def RefNode.part (ref : RefNode) : RefPart where
  colAbs := ref.colAbs
  letters := ref.coord.toList.takeWhile Char.isAlpha
  rowAbs := ref.rowAbs
  digits := ref.coord.toList.dropWhile Char.isAlpha

mutual

/-- The tokens of an expression as the serializer writes it. -/
def tokensOf : Expr → List Token
  | .num value => [.num value.text]
  | .str value => [.str value.toList]
  | .bool value => [.bool value]
  | .cell ref => [.ref ref.part none]
  | .range start stop => [.ref start.part (some stop.part)]
  | .func name args => .func name.toList :: .lparen :: (argsTokens args ++ [.rparen])
  | .binary op left right =>
    .lparen :: (tokensOf left ++ .op op :: (tokensOf right ++ [.rparen]))
  | .unary op expr => .lparen :: .op op :: (tokensOf expr ++ [.rparen])
  | .percent expr => tokensOf expr ++ [.percent]

def argsTokens : List Expr → List Token
  | [] => []
  | arg :: args => tokensOf arg ++ moreTokens args

/-- The arguments after the first, each behind a comma. -/
def moreTokens : List Expr → List Token
  | [] => []
  | arg :: args => .comma :: (tokensOf arg ++ moreTokens args)

end

variable {part : RefPart} {expr : Expr} {args : List Expr}

variable {token : Token}

theorem mem_moreTokens : token ∈ moreTokens args →
    token = .comma ∨ ∃ arg ∈ args, token ∈ tokensOf arg := by
  induction args with
  | nil => exact nofun
  | cons arg args ih =>
    intro member
    rw [moreTokens, List.mem_cons, List.mem_append] at member
    rcases member with comma | inArg | inOthers
    · exact .inl comma
    · exact .inr ⟨arg, List.mem_cons_self, inArg⟩
    · refine (ih inOthers).imp_right fun found => ?_
      obtain ⟨other, otherMember, inOther⟩ := found
      exact ⟨other, List.mem_cons_of_mem _ otherMember, inOther⟩

theorem mem_argsTokens (member : token ∈ argsTokens args) :
    token = .comma ∨ ∃ arg ∈ args, token ∈ tokensOf arg := by
  cases args with
  | nil => cases member
  | cons => exact mem_moreTokens (List.mem_cons_of_mem _ member)

theorem mem_argsTokens_of_mem {arg : Expr} (argMember : arg ∈ args)
    (member : token ∈ tokensOf arg) : token ∈ argsTokens args := by
  have later {others : List Expr} (among : arg ∈ others) : token ∈ moreTokens others := by
    induction others with
    | nil => cases among
    | cons other others ih =>
      rw [moreTokens, List.mem_cons, List.mem_append]
      rcases List.mem_cons.mp among with rfl | among
      · exact .inr (.inl member)
      · exact .inr (.inr (ih among))
  cases args with
  | nil => cases argMember
  | cons =>
    rw [argsTokens, List.mem_append]
    rcases List.mem_cons.mp argMember with rfl | among
    · exact .inl member
    · exact .inr (later among)

section

variable (typed : part.Typed)
include typed

theorem RefPart.Typed.part_node :
    part.node.part = { part with letters := part.letters.map Char.toUpper } := by
  obtain ⟨colAbs, letters, rowAbs, digits⟩ := part
  have upperLetters : ∀ char ∈ letters.map Char.toUpper, char.isAlpha := by
    intro char member
    obtain ⟨typedChar, typedMember, rfl⟩ := List.mem_map.mp member
    rw [caseless_isAlpha]
    exact typed.letters _ typedMember
  have stops : ∀ next ∈ digits.head?, next.isAlpha = false :=
    fun next member => isAlpha_of_isDigit (typed.digits next (List.mem_of_mem_head? member))
  obtain ⟨taken, dropped⟩ := takeWhile_run upperLetters stops
  simp only [RefNode.part, RefPart.node, String.toList_ofList, taken, dropped]

theorem RefPart.Typed.upper : part.node.part.Typed := by
  rw [typed.part_node]
  refine ⟨?_, ?_, typed.someDigit, typed.digits⟩
  · simpa using typed.someLetter
  · intro char member
    obtain ⟨typedChar, typedMember, rfl⟩ := List.mem_map.mp member
    rw [caseless_isAlpha]
    exact typed.letters _ typedMember

theorem RefPart.Typed.node_part : part.node.part.node = part.node := by
  rw [typed.part_node]
  simp only [RefPart.node, map_toUpper_toUpper]

theorem refToString_node : refToString part.node = part.node.part.text := by
  have upper := typed.upper
  unfold refToString
  rw [if_pos ⟨upper.someLetter, upper.someDigit, List.all_eq_true.mpr upper.digits⟩]
  rfl

end

theorem stringifyArgs_cons (arg : Expr) (args : List Expr) (each : ∀ other ∈ args,
      stringifyExpression other = writeTokens (tokensOf other)) :
    stringifyArgs (arg :: args) = stringifyExpression arg ++ writeTokens (moreTokens args) := by
  induction args generalizing arg with
  | nil =>
    exact (List.append_nil _).symm
  | cons next args ih =>
    obtain ⟨nextEq, others⟩ := List.forall_mem_cons.mp each
    rw [stringifyArgs, ih next others, moreTokens, writeTokens_cons, writeTokens_append, nextEq]
    · rfl
    · exact nofun

theorem stringifyExpression_tokens (wellFormed : expr.WellFormed) :
    stringifyExpression expr = writeTokens (tokensOf expr) := by
  have single (token : Token) : writeTokens [token] = token.written :=
    List.flatMap_singleton _ _
  induction wellFormed with
  | num | bool => rw [stringifyExpression, tokensOf, single]; rfl
  | str =>
    rw [stringifyExpression, tokensOf, single, Token.written, String.ofList_toList]
  | cell typed =>
    rw [stringifyExpression, tokensOf, single, refToString_node typed]
    exact (List.append_nil _).symm
  | range startTyped stopTyped =>
    rw [stringifyExpression, tokensOf, single, refToString_node startTyped,
      refToString_node stopTyped]
    rfl
  | @func name args named each ih =>
    have written : stringifyArgs args = writeTokens (argsTokens args) := by
      cases args with
      | nil => rfl
      | cons arg args =>
        obtain ⟨argEq, others⟩ := List.forall_mem_cons.mp ih
        rw [stringifyArgs_cons arg args others, argsTokens, writeTokens_append, argEq]
    rw [stringifyExpression, tokensOf, writeTokens_cons, writeTokens_cons, writeTokens_append,
      single, written]
    rfl
  | @binary op left right leftIs rightIs leftEq rightEq =>
    rw [stringifyExpression, tokensOf, writeTokens_cons, writeTokens_append, writeTokens_cons,
      writeTokens_append, single, leftEq, rightEq, List.append_assoc, List.append_assoc]
    rfl
  | @unary op expr sign exprIs ih =>
    rw [stringifyExpression, tokensOf, writeTokens_cons, writeTokens_cons, writeTokens_append,
      single, ih]
    rw [List.append_assoc]
    rfl
  | percent exprIs ih =>
    rw [stringifyExpression, tokensOf, writeTokens_append, single, ih]
    rfl

/-- A literal that the lexer does not read back from what is written for it. -/
def Token.Spoiled : Token → Prop
  | num text => text = "Infinity".toList
  | str value => ∃ char ∈ value, ¬Plain char
  | _ => False

instance : DecidablePred Token.Spoiled
  | .num text => inferInstanceAs (Decidable (text = "Infinity".toList))
  | .str value => List.decidableBEx (fun char => ¬Plain char) value
  | .bool _ | .func _ | .ident _ | .ref _ _ | .op _ | .percent | .lparen | .rparen | .comma =>
    isFalse id

end

variable {text rest : List Char} {expr : Expr} {args : List Expr} {tokens : List Token}
  {tail : List Char}

/-- The text ends here, or goes on with a symbol that may follow an expression. -/
def Delimited (rest : List Char) : Prop :=
  ∀ next ∈ rest.head?, next ∈ [')', ',', '%', '+', '-', '*', '/', '^', '&', '=', '<', '>']

theorem Delimited.nil : Delimited [] := by
  simp [Delimited]

theorem Delimited.all {holds : Char → Prop} (delimited : Delimited rest)
    (symbols : ∀ next ∈ [')', ',', '%', '+', '-', '*', '/', '^', '&', '=', '<', '>'], holds next) :
    ∀ next ∈ rest.head?, holds next :=
  fun next member => symbols next (delimited next member)

def Token.Follows (rest : List Char) : Token → Prop
  | func _ => ∃ tail, rest = '(' :: tail
  | op _ => ∀ next ∈ rest.head?, next ≠ '>' ∧ next ≠ '='
  | num _ => Delimited rest
  | bool _ => Delimited rest
  | ref _ _ => Delimited rest
  | _ => True

theorem Token.Follows.ends {token : Token} (follows : token.Follows rest) : token.Ends rest := by
  cases token with
  | num | bool | ref => exact Delimited.all follows (List.all_iff_forall_prop.mp (by decide))
  | func | op => exact follows
  | _ => trivial

/-- Each token is followed by what the serializer writes behind it. -/
def Spaced (text : List Char) : List Token → Prop
  | [] => True
  | token :: tokens => token.Follows (writeTokens tokens ++ text) ∧ Spaced text tokens

theorem Spaced.append {first second : List Token} : Spaced text (first ++ second) ↔
      Spaced (writeTokens second ++ text) first ∧ Spaced text second := by
  induction first with
  | nil => exact (and_iff_right trivial).symm
  | cons token first ih =>
    rw [List.cons_append, Spaced, Spaced, ih, writeTokens_append, List.append_assoc, and_assoc]

theorem Spaced.readable (spaced : Spaced text tokens) (writable : ∀ token ∈ tokens, token.Writable)
    : Readable text tokens := by
  induction tokens with
  | nil => trivial
  | cons token tokens ih =>
    obtain ⟨tokenWritable, others⟩ := List.forall_mem_cons.mp writable
    exact ⟨tokenWritable, spaced.1.ends, ih spaced.2 others⟩

/-- The first character of an expression is no part of an operator. -/
def Begins (text : List Char) : Prop :=
  ∃ head tail, text = head :: tail ∧ head ≠ '>' ∧ head ≠ '=' ∧ isWhiteSpace head = false

theorem Begins.append (begins : Begins text) (rest : List Char) : Begins (text ++ rest) := by
  obtain ⟨head, tail, rfl, opens⟩ := begins
  exact ⟨head, tail ++ rest, rfl, opens⟩

theorem begins_of_range {head : Char} (above : 65 ≤ head.toNat)
    (below : head.toNat ≤ 126) : Begins (head :: tail) := by
  refine ⟨head, tail, rfl, ?_, ?_, isWhiteSpace_of_visible (by omega) below⟩
  · rintro rfl
    exact absurd above (by decide)
  · rintro rfl
    exact absurd above (by decide)

theorem begins_of_isDigit {head : Char} (isDigit : head.isDigit) : Begins (head :: tail) := by
  refine ⟨head, tail, rfl, ?_, ?_, isWhiteSpace_of_isDigit isDigit⟩
  · rintro rfl
    cases isDigit
  · rintro rfl
    cases isDigit

theorem begins_of_isWordStart {head : Char} (starts : isWordStart head) :
    Begins (head :: tail) := by
  rcases isWordStart_cases starts with letter | rfl
  · rw [isAlpha_iff] at letter
    exact begins_of_range (by omega) (by omega)
  · exact begins_of_range (by decide) (by decide)

def Finishes (text : List Char) : Prop :=
  ∃ last ∈ text.getLast?, isWhiteSpace last = false

theorem Finishes.append (first : List Char) (finishes : Finishes text) : Finishes (first ++ text) :=
    by
  obtain ⟨last, member, visible⟩ := finishes
  refine ⟨last, ?_, visible⟩
  rw [Option.mem_def.mp (List.mem_getLast?_append_of_mem_getLast? member)]
  rfl

theorem finishes_of_all (some : text ≠ []) (visible : ∀ char ∈ text, isWhiteSpace char = false) :
    Finishes text :=
  ⟨text.getLast some, List.getLast?_eq_some_getLast some, visible _ (List.getLast_mem some)⟩

theorem trim_visible {head : Char} (visible : isWhiteSpace head = false)
    (finishes : Finishes (head :: tail)) : trim (head :: tail) = head :: tail := by
  obtain ⟨last, member, lastVisible⟩ := finishes
  obtain ⟨front, textEq⟩ := List.getLast?_eq_some_iff.mp (Option.mem_def.mp member)
  rw [trim, skipWhiteSpace_visible visible, textEq, List.reverse_append, List.reverse_singleton,
    List.singleton_append, skipWhiteSpace_visible lastVisible, List.reverse_cons,
    List.reverse_reverse]

theorem number_cases (numeral : Numeral) : numeral.number = .infinite false ∨
      ∃ value representable, 0 ≤ value ∧ numeral.number = .finite value representable := by
  have nonneg : 0 ≤ numeral.value := by
    unfold Numeral.value
    positivity
  have nearestNonneg : 0 ≤ nearest numeral.value := by
    have scaled : (0 : ℤ) ≤ roundHalfEven (numeral.value / 2 ^ unitExponent numeral.value) :=
      le_roundHalfEven (by positivity)
    unfold nearest
    positivity
  by_cases bounded : |nearest numeral.value| < 2 ^ 1024
  · refine .inr ⟨_, representable_nearest bounded, nearestNonneg, ?_⟩
    rw [Numeral.number, ofRat, dif_pos bounded]
  · refine .inl ?_
    rw [Numeral.number, ofRat, dif_neg bounded, decide_eq_false nonneg.not_gt]

def BareText (text : List Char) : Prop :=
  Begins text ∧ Finishes text

theorem bareText_number (numeral : Numeral) : BareText numeral.number.text := by
  rcases number_cases numeral with infinite | ⟨value, representable, nonneg, numberEq⟩
  · rw [infinite]
    exact ⟨begins_of_range (by decide) (by decide), finishes_of_all (by decide)
      (List.all_iff_forall_prop.mp (by decide))⟩
  · rw [numberEq]
    have visible : ∀ char ∈ (finite value representable).text, isWhiteSpace char = false :=
      by
      intro char member
      have number := isNumberChar_text representable char member
      simp only [isNumberChar, Bool.or_eq_true, decide_eq_true_eq] at number
      rcases number with digit | symbol
      · exact isWhiteSpace_of_isDigit digit
      · have all : ∀ other ∈ ['.', 'e', '+', '-'], isWhiteSpace other = false :=
          List.all_iff_forall_prop.mp (by decide)
        exact all char symbol
    have ends : EndsNumeral [] := by
      intro next found
      cases found
    obtain ⟨read, scanned, _⟩ := scan_magnitudeText representable nonneg ends
    rw [List.append_nil, ← text_of_nonneg representable nonneg] at scanned
    obtain ⟨digit, tail, textEq, isDigit⟩ := Numeral.head_of_scan scanned
    rw [textEq] at visible ⊢
    exact ⟨begins_of_isDigit isDigit, finishes_of_all (List.cons_ne_nil _ _) visible⟩

theorem bareText_ref {start : RefPart} {stop : Option RefPart} (startTyped : start.Typed)
    (stopTyped : ∀ part ∈ stop, RefPart.Typed part) : BareText (refText start stop) := by
  have digitsFinish {part : RefPart} (typed : part.Typed) : Finishes part.text :=
    (finishes_of_all typed.someDigit
      fun char member => isWhiteSpace_of_isDigit (typed.digits char member)).append _
  obtain ⟨head, tail, textEq, opens⟩ := head_refText startTyped stop
  refine ⟨?_, ?_⟩
  · rw [textEq]
    rcases opens with rfl | letter
    · exact ⟨'$', tail, rfl, by decide⟩
    · exact begins_of_isWordStart (by simp [isWordStart, letter])
  · cases stop with
    | none =>
      rw [refText, Option.map_none, Option.getD_none, List.append_nil]
      exact digitsFinish startTyped
    | some stop => exact (Finishes.append [':'] (digitsFinish (stopTyped stop rfl))).append _

theorem bareText_bool (value : Bool) : BareText (boolText value) := by
  cases value with
  | true | false => exact ⟨begins_of_range (by decide) (by decide), finishes_of_all (by decide)
      (List.all_iff_forall_prop.mp (by decide))⟩

theorem writeTokens_single (token : Token) : writeTokens [token] = token.written :=
  List.flatMap_singleton _ _

theorem begins_tokensOf (wellFormed : expr.WellFormed) : Begins (writeTokens (tokensOf expr)) := by
  induction wellFormed with
  | num numeral =>
    rw [tokensOf, writeTokens_single]
    exact (bareText_number numeral).1
  | str =>
    rw [tokensOf, writeTokens_single, written_str]
    exact ⟨'"', _, rfl, by decide⟩
  | bool value =>
    rw [tokensOf, writeTokens_single]
    exact (bareText_bool value).1
  | cell typed =>
    rw [tokensOf, writeTokens_single]
    exact (bareText_ref typed.upper (by simp)).1
  | range startTyped stopTyped =>
    rw [tokensOf, writeTokens_single]
    refine (bareText_ref startTyped.upper ?_).1
    rintro part ⟨⟩
    exact stopTyped.upper
  | @func name args named each ih =>
    obtain ⟨first, tail, rfl, starts⟩ := named.head
    rw [tokensOf, writeTokens_cons, String.toList_ofList]
    exact (begins_of_isWordStart starts).append _
  | binary | unary => exact ⟨'(', _, rfl, by decide⟩
  | percent exprIs ih =>
    rw [tokensOf, writeTokens_append]
    exact ih.append _

theorem finishes_tokensOf (wellFormed : expr.WellFormed) :
    Finishes (writeTokens (tokensOf expr)) := by
  have paren : Finishes (writeTokens [.rparen]) := ⟨')', rfl, by decide⟩
  cases wellFormed with
  | num numeral =>
    rw [tokensOf, writeTokens_single]
    exact (bareText_number numeral).2
  | str =>
    rw [tokensOf, writeTokens_single, written_str]
    exact Finishes.append ('"' :: _) ⟨'"', rfl, by decide⟩
  | bool value =>
    rw [tokensOf, writeTokens_single]
    exact (bareText_bool value).2
  | cell typed =>
    rw [tokensOf, writeTokens_single]
    exact (bareText_ref typed.upper (by simp)).2
  | range startTyped stopTyped =>
    rw [tokensOf, writeTokens_single]
    refine (bareText_ref startTyped.upper ?_).2
    rintro part ⟨⟩
    exact stopTyped.upper
  | func | unary =>
    rw [tokensOf, ← List.cons_append, ← List.cons_append, writeTokens_append]
    exact paren.append _
  | binary =>
    rw [tokensOf, ← List.cons_append, ← List.cons_append, ← List.append_assoc, writeTokens_append]
    exact paren.append _
  | percent =>
    rw [tokensOf, writeTokens_append]
    exact Finishes.append _ ⟨'%', rfl, by decide⟩

theorem delimited_op (op : Operator) (rest : List Char) : Delimited (op.text ++ rest) := by
  rintro next member
  have head : op.text.head? = some next := by
    cases op <;> exact member
  revert head
  cases op <;> rintro ⟨⟩ <;> decide

theorem delimited_symbol {symbol : Char} (rest : List Char)
    (member : symbol ∈ [')', ',', '%', '+', '-', '*', '/', '^', '&', '=', '<', '>']) :
    Delimited (symbol :: rest) := by
  rintro next ⟨⟩
  exact member

theorem spaced_moreTokens (delimited : Delimited text) (each : ∀ arg ∈ args,
      ∀ rest, Delimited rest → Spaced rest (tokensOf arg)) :
    Spaced text (moreTokens args) ∧ Delimited (writeTokens (moreTokens args) ++ text) := by
  induction args with
  | nil => exact ⟨trivial, delimited⟩
  | cons arg args ih =>
    obtain ⟨argSpaced, others⟩ := List.forall_mem_cons.mp each
    obtain ⟨othersSpaced, othersDelimited⟩ := ih others
    refine ⟨⟨trivial, Spaced.append.mpr ⟨argSpaced _ othersDelimited, othersSpaced⟩⟩, ?_⟩
    exact delimited_symbol _ (by decide)

theorem spaced_tokensOf (wellFormed : expr.WellFormed) (delimited : Delimited text) :
    Spaced text (tokensOf expr) := by
  have opened (op : Operator) {right : Expr} (rightIs : right.WellFormed) (rest : List Char) :
      (Token.op op).Follows (writeTokens (tokensOf right) ++ rest) := by
    obtain ⟨head, tail, textEq, notGt, notEq, _⟩ := begins_tokensOf rightIs
    rw [textEq]
    rintro next ⟨⟩
    exact ⟨notGt, notEq⟩
  induction wellFormed generalizing text with
  | num | bool | cell | range => exact ⟨delimited, trivial⟩
  | str => exact ⟨trivial, trivial⟩
  | @func name args named each ih =>
    have spaced : Spaced (')' :: text) (argsTokens args) := by
      have closed : Delimited (')' :: text) := delimited_symbol _ (by decide)
      cases args with
      | nil => trivial
      | cons =>
        obtain ⟨argSpaced, others⟩ := List.forall_mem_cons.mp ih
        obtain ⟨othersSpaced, othersDelimited⟩ :=
          spaced_moreTokens closed fun other member _ ends => others other member ends
        exact Spaced.append.mpr ⟨argSpaced othersDelimited, othersSpaced⟩
    refine ⟨⟨_, rfl⟩, trivial, Spaced.append.mpr ⟨spaced, trivial, trivial⟩⟩
  | @binary op left right leftIs rightIs leftSpaced rightSpaced =>
    have closed : Delimited (')' :: text) := delimited_symbol _ (by decide)
    have rightAll : Spaced text (tokensOf right ++ [.rparen]) :=
      Spaced.append.mpr ⟨rightSpaced closed, trivial, trivial⟩
    refine ⟨trivial, Spaced.append.mpr ⟨leftSpaced ?_, ?_, rightAll⟩⟩
    · rw [writeTokens_cons, List.append_assoc]
      exact delimited_op op _
    · rw [writeTokens_append, List.append_assoc]
      exact opened op rightIs _
  | @unary op expr sign exprIs ih =>
    have closed : Delimited (')' :: text) := delimited_symbol _ (by decide)
    refine ⟨trivial, ?_, Spaced.append.mpr ⟨ih closed, trivial, trivial⟩⟩
    rw [writeTokens_append, List.append_assoc]
    exact opened op exprIs _
  | percent exprIs ih =>
    exact Spaced.append.mpr ⟨ih (delimited_symbol _ (by decide)), trivial, trivial⟩

theorem writable_or_spoiled (wellFormed : expr.WellFormed) :
    ∀ token ∈ tokensOf expr, token.Writable ∨ token.Spoiled := by
  induction wellFormed with
  | num numeral =>
    refine List.forall_mem_singleton.mpr ?_
    rcases number_cases numeral with infinite | ⟨value, representable, nonneg, numberEq⟩
    · rw [infinite]
      exact .inr rfl
    · rw [numberEq]
      exact .inl ⟨value, representable, nonneg, rfl⟩
  | str value =>
    refine List.forall_mem_singleton.mpr ?_
    by_cases plain : ∀ char ∈ value.toList, Plain char
    · exact .inl plain
    · push Not at plain
      exact .inr plain
  | bool => exact List.forall_mem_singleton.mpr (.inl trivial)
  | cell typed => exact List.forall_mem_singleton.mpr (.inl ⟨typed.upper, by simp⟩)
  | range startTyped stopTyped =>
    refine List.forall_mem_singleton.mpr (.inl ⟨startTyped.upper, ?_⟩)
    rintro part ⟨⟩
    exact stopTyped.upper
  | @func name args named each ih =>
    intro token member
    rw [tokensOf, List.mem_cons, List.mem_cons, List.mem_append, List.mem_singleton] at member
    rcases member with rfl | rfl | inArgs | rfl
    · rw [String.toList_ofList]
      exact .inl named
    · exact .inl trivial
    · rcases mem_argsTokens inArgs with rfl | ⟨arg, argMember, inArg⟩
      · exact .inl trivial
      · exact ih arg argMember token inArg
    · exact .inl trivial
  | @binary op left right leftIs rightIs leftIH rightIH =>
    intro token member
    rw [tokensOf, List.mem_cons, List.mem_append, List.mem_cons, List.mem_append,
      List.mem_singleton] at member
    rcases member with rfl | inLeft | rfl | inRight | rfl
    · exact .inl trivial
    · exact leftIH token inLeft
    · exact .inl trivial
    · exact rightIH token inRight
    · exact .inl trivial
  | @unary op expr sign exprIs ih =>
    intro token member
    rw [tokensOf, List.mem_cons, List.mem_cons, List.mem_append, List.mem_singleton] at member
    rcases member with rfl | rfl | inside | rfl
    · exact .inl trivial
    · exact .inl trivial
    · exact ih token inside
    · exact .inl trivial
  | percent exprIs ih =>
    intro token member
    rw [tokensOf, List.mem_append, List.mem_singleton] at member
    rcases member with inside | rfl
    · exact ih token inside
    · exact .inl trivial

theorem literals_moreTokens (each : ∀ arg ∈ args,
      (tokensOf arg).filterMap Token.literal = arg.literals) :
    (moreTokens args).filterMap Token.literal = literalsOfArgs args := by
  induction args with
  | nil => rfl
  | cons arg args ih =>
    obtain ⟨argEq, others⟩ := List.forall_mem_cons.mp each
    rw [moreTokens, List.filterMap_cons_none rfl, List.filterMap_append, argEq, ih others,
      literalsOfArgs]

theorem literals_tokensOf (expr : Expr) :
    (tokensOf expr).filterMap Token.literal = expr.literals := by
  have symbols : [Token.rparen].filterMap Token.literal = [] := rfl
  induction expr using Expr.induction with
  | func name args ih =>
    have inArgs : (argsTokens args).filterMap Token.literal = literalsOfArgs args := by
      cases args with
      | nil => rfl
      | cons => exact literals_moreTokens ih
    rw [tokensOf, List.filterMap_cons_none rfl, List.filterMap_cons_none rfl,
      List.filterMap_append, inArgs, symbols, List.append_nil, Expr.literals]
  | binary op left right leftIH rightIH =>
    rw [tokensOf, List.filterMap_cons_none rfl, List.filterMap_append,
      List.filterMap_cons_none rfl, List.filterMap_append, leftIH, rightIH, symbols,
      List.append_nil, Expr.literals]
  | unary op expr ih =>
    rw [tokensOf, List.filterMap_cons_none rfl, List.filterMap_cons_none rfl,
      List.filterMap_append, ih, symbols, List.append_nil, Expr.literals]
  | percent expr ih =>
    rw [tokensOf, List.filterMap_append, ih]
    exact List.append_nil _
  | _ => rfl

end P2PHub.Calc
