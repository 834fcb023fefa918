import P2PHub.JsonTrees
import P2PHub.BoundaryGuardNesting

/-!
# The two depth guards of the boundary

`validateJsonNestingDepth` and `validateObjectDepth` of
`sdk/src/boundary-guard.ts`, with any number as the limit, over texts and values
given by their code units.  `JSON.parse` reads a text into the tree of all the
fields it writes, and then lets the last value of a key stay.
-/

namespace P2PHub

namespace JsonUnits

open Json

/-- The character of a code unit, none of those that JSON knows for a
surrogate. -/
def char (unit : UInt16) : Char :=
  Char.ofNat unit.toNat

def skipSpace (text : JsonString) : JsonString :=
  text.dropWhile fun unit => JsValue.isSpace (char unit)

def expect (expected : Char) (text : JsonString) : Option JsonString :=
  match skipSpace text with
  | [] => none
  | unit :: rest => if char unit = expected then some rest else none

/-- The string whose literal follows an opening quote, and what follows it. -/
def readText : JsonString → Option (JsonString × JsonString)
  | [] => none
  | unit :: rest =>
    if char unit = '"' then some ([], rest)
    else if char unit = '\\' then
      match rest with
      | [] => none
      | escaped :: rest =>
        if char escaped = 'u' then
          match rest with
          | first :: second :: third :: fourth :: rest => do
              let first ← JsValue.hexDigit (char first)
              let second ← JsValue.hexDigit (char second)
              let third ← JsValue.hexDigit (char third)
              let fourth ← JsValue.hexDigit (char fourth)
              let (units, rest) ← readText rest
              return (.ofNat (((first * 16 + second) * 16 + third) * 16 + fourth) :: units, rest)
          | _ => none
        else do
          let unit ← JsValue.simpleEscape (char escaped)
          let (units, rest) ← readText rest
          return (.ofNat unit :: units, rest)
    else if unit < 32 then none
    else do
      let (units, rest) ← readText rest
      return (unit :: units, rest)

def scanNumber (text : JsonString) : Option (Json × JsonString) :=
  (Json.scanNumber (text.map char)).map fun (value, rest) =>
    (value, text.drop (text.length - rest.length))

def literals : List (String × Json) :=
  [("null", null), ("true", boolean true), ("false", boolean false)]

def readLiteral (text : JsonString) : Option (Json × JsonString) :=
  literals.findSome? fun (word, value) =>
    if jsonString word <+: text then some (value, text.drop (jsonString word).length) else none

mutual

/-- A value at the start of a text, with all the fields that its objects write.
The fuel bounds the nesting. -/
def readValue : Nat → JsonString → Option (Json × JsonString)
  | 0, _ => none
  | fuel + 1, text =>
    match skipSpace text with
    | [] => none
    | unit :: rest =>
      if char unit = '"' then (readText rest).map fun (value, rest) => (string value, rest)
      else if char unit = '[' then
        match expect ']' rest with
        | some rest => some (array [], rest)
        | none => (readItems fuel rest).map fun (items, rest) => (array items, rest)
      else if char unit = '\x7b' then
        match expect '\x7d' rest with
        | some rest => some (object [], rest)
        | none => (readFields fuel rest).map fun (fields, rest) => (object fields, rest)
      else (readLiteral (unit :: rest)).or (scanNumber (unit :: rest))

/-- The items of an array that is not empty, and what follows its end. -/
def readItems : Nat → JsonString → Option (List Json × JsonString)
  | 0, _ => none
  | fuel + 1, text => do
      let (item, rest) ← readValue fuel text
      match expect ',' rest with
      | some rest =>
        let (items, rest) ← readItems fuel rest
        return (item :: items, rest)
      | none =>
        let rest ← expect ']' rest
        return ([item], rest)

/-- The fields of an object that is not empty, and what follows its end. -/
def readFields : Nat → JsonString → Option (List (JsonString × Json) × JsonString)
  | 0, _ => none
  | fuel + 1, text => do
      let rest ← expect '"' text
      let (key, rest) ← readText rest
      let rest ← expect ':' rest
      let (value, rest) ← readValue fuel rest
      match expect ',' rest with
      | some rest =>
        let (fields, rest) ← readFields fuel rest
        return ((key, value) :: fields, rest)
      | none =>
        let rest ← expect '\x7d' rest
        return ([(key, value)], rest)

end

/-- The value that a text writes, with all the fields of its objects. -/
def written (text : JsonString) : Option Json := do
  let (value, rest) ← readValue (text.length + 1) text
  if skipSpace rest = [] then some value else none

mutual

def lastFields : Json → Json
  | array items => array (lastFieldsItems items)
  | object fields => object (lastFieldsEach [] fields)
  | value => value

def lastFieldsItems : List Json → List Json
  | [] => []
  | item :: items => lastFields item :: lastFieldsItems items

def lastFieldsEach (kept : List (JsonString × Json)) :
    List (JsonString × Json) → List (JsonString × Json)
  | [] => kept
  | (key, value) :: fields => lastFieldsEach (setField kept key (lastFields value)) fields

end

/-- `JSON.parse`, where nothing stands for the error it throws. -/
def parse (text : JsonString) : Option Json :=
  (written text).map lastFields

/-- A JSON text none of whose objects writes a key twice. -/
def UniqueKeys (text : JsonString) : Prop :=
  ∃ value, written text = some value ∧ Distinct value

structure ObjectDepthExceededError where
  maxDepth : Binary64
  deriving DecidableEq

def ObjectDepthExceededError.message (error : ObjectDepthExceededError) : String :=
  "object exceeds the maximum nesting depth of " ++ String.ofList error.maxDepth.text

/-- `depth > maxDepth`. -/
def exceeds (depth : ℤ) : Binary64 → Bool
  | .finite maxDepth _ => decide (maxDepth < depth)
  | .infinite negative => negative
  | .nan => false

mutual

def walkDepth (depth : ℤ) (maxDepth : Binary64) : Json → Except ObjectDepthExceededError Unit
  | array items =>
    if exceeds depth maxDepth then .error ⟨maxDepth⟩ else walkItems (depth + 1) maxDepth items
  | object fields =>
    if exceeds depth maxDepth then .error ⟨maxDepth⟩ else walkFields (depth + 1) maxDepth fields
  | _ => .ok ()

def walkItems (depth : ℤ) (maxDepth : Binary64) : List Json → Except ObjectDepthExceededError Unit
  | [] => .ok ()
  | item :: items => do
      walkDepth depth maxDepth item
      walkItems depth maxDepth items

def walkFields (depth : ℤ) (maxDepth : Binary64) :
    List (JsonString × Json) → Except ObjectDepthExceededError Unit
  | [] => .ok ()
  | (_, value) :: fields => do
      walkDepth depth maxDepth value
      walkFields depth maxDepth fields

end

def validateObjectDepth (obj : Json) (maxDepth : Binary64) : Except ObjectDepthExceededError Unit :=
  walkDepth 1 maxDepth obj

def scanNesting (maxDepth : Binary64) :
    ℤ → ScanMode → JsonString → Except ObjectDepthExceededError Unit
  | _, _, [] => .ok ()
  | depth, .escaped, _ :: raw => scanNesting maxDepth depth .inString raw
  | depth, .inString, unit :: raw =>
    if char unit = '\\' then scanNesting maxDepth depth .escaped raw
    else if char unit = '"' then scanNesting maxDepth depth .outside raw
    else scanNesting maxDepth depth .inString raw
  | depth, .outside, unit :: raw =>
    if char unit = '"' then scanNesting maxDepth depth .inString raw
    else if char unit = '[' ∨ char unit = '\x7b' then
      if exceeds (depth + 1) maxDepth then .error ⟨maxDepth⟩
      else scanNesting maxDepth (depth + 1) .outside raw
    else if char unit = ']' ∨ char unit = '\x7d' then scanNesting maxDepth (depth - 1) .outside raw
    else scanNesting maxDepth depth .outside raw

def validateJsonNestingDepth (raw : JsonString) (maxDepth : Binary64) :
    Except ObjectDepthExceededError Unit :=
  scanNesting maxDepth 0 .outside raw

section

open Numeral

variable {text rest : List Char}

/-- What a reader took from a text has no quote and no bracket. -/
def TakesPlain (text rest : List Char) : Prop :=
  ∃ taken, text = taken ++ rest ∧ ∀ char ∈ taken, IsPlain char

theorem TakesPlain.refl (text : List Char) : TakesPlain text text :=
  ⟨[], rfl, List.forall_mem_nil _⟩

theorem TakesPlain.trans {later : List Char} (first : TakesPlain text rest)
    (second : TakesPlain rest later) : TakesPlain text later := by
  obtain ⟨taken, rfl, takenPlain⟩ := first
  obtain ⟨more, rfl, morePlain⟩ := second
  refine ⟨taken ++ more, (List.append_assoc _ _ _).symm, fun char member => ?_⟩
  rcases List.mem_append.mp member with early | late
  · exact takenPlain char early
  · exact morePlain char late

theorem TakesPlain.cons {char : Char} (plain : IsPlain char)
    (taken : TakesPlain text rest) : TakesPlain (char :: text) rest :=
  TakesPlain.trans ⟨[char], rfl, List.forall_mem_singleton.mpr plain⟩ taken

theorem takesPlain_digits (text : List Char) : TakesPlain text (text.dropWhile Char.isDigit) :=
  ⟨text.takeWhile Char.isDigit, List.takeWhile_append_dropWhile.symm,
    fun char member => isPlain_of_isNumberChar
      (Binary64.isNumberChar_of_isDigit (fun _ digit => List.mem_takeWhile_imp digit) char member)⟩

theorem takesPlain_fraction (text : List Char) : TakesPlain text (scanFraction text).2 := by
  unfold scanFraction
  split
  · split
    · exact .refl _
    · exact (takesPlain_digits _).cons (by decide)
  · exact .refl _

theorem takesPlain_sign (text : List Char) : TakesPlain text (scanSign text).2 := by
  unfold scanSign
  split
  · exact .cons (by decide) (.refl _)
  · exact .cons (by decide) (.refl _)
  · exact .refl _

theorem takesPlain_exponent (text : List Char) : TakesPlain text (scanExponent text).2 := by
  unfold scanExponent
  split
  · next mark rest =>
      split
      · next isMark =>
          dsimp only
          split
          · exact .refl _
          · have plain : IsPlain mark := by
              rcases isMark with rfl | rfl <;> decide
            exact .cons plain ((takesPlain_sign rest).trans (takesPlain_digits _))
      · exact .refl _
  · exact .refl _

theorem takesPlain_numeral {numeral : Numeral} (scanned : Numeral.scan text = some (numeral, rest))
    : TakesPlain text rest := by
  unfold Numeral.scan at scanned
  split at scanned
  · cases scanned
  · cases scanned
    exact (takesPlain_digits text).trans ((takesPlain_fraction _).trans (takesPlain_exponent _))

theorem takesPlain_scanNumber {value : Json} (scanned : Json.scanNumber text = some (value, rest)) :
    TakesPlain text rest := by
  have sign : TakesPlain text (JsValue.unsigned text).2 := by
    unfold JsValue.unsigned
    split
    · exact .cons (by decide) (.refl _)
    · exact .refl _
  unfold Json.scanNumber at scanned
  dsimp only at scanned
  split at scanned
  · next numeral after magnitude =>
      split at scanned
      · cases scanned
      · cases scanned
        exact sign.trans (takesPlain_numeral magnitude)
  · cases scanned

end

section

variable {text rest : JsonString} {value : Json}

def Passes (text rest : JsonString) : Prop :=
  ∀ maxDepth depth, scanNesting maxDepth depth .outside text =
    scanNesting maxDepth depth .outside rest

theorem Passes.trans {later : JsonString} (first : Passes text rest) (second : Passes rest later) :
    Passes text later :=
  fun maxDepth depth => (first maxDepth depth).trans (second maxDepth depth)

theorem passes_plain {taken : JsonString} (plain : ∀ unit ∈ taken, IsPlain (char unit))
    (rest : JsonString) : Passes (taken ++ rest) rest := by
  induction taken with
  | nil => exact fun _ _ => rfl
  | cons unit taken ih =>
    intro maxDepth depth
    have ignored := plain unit List.mem_cons_self
    simp only [IsPlain, List.mem_cons, List.not_mem_nil, or_false, not_or] at ignored
    obtain ⟨notQuote, notOpening, notClosing, notBrace, notClosingBrace⟩ := ignored
    rw [List.cons_append, scanNesting, if_neg notQuote, if_neg (by simp [notOpening, notBrace]),
      if_neg (by simp [notClosing, notClosingBrace])]
    exact ih (fun other member => plain other (List.mem_cons_of_mem _ member)) maxDepth depth

theorem isPlain_of_isSpace {char : Char} (space : JsValue.isSpace char) : IsPlain char := by
  intro member
  simp only [List.mem_cons, List.not_mem_nil, or_false] at member
  rcases member with rfl | rfl | rfl | rfl | rfl <;> cases space

theorem passes_skipSpace (text : JsonString) : Passes text (skipSpace text) := by
  have spaces : ∀ unit ∈ text.takeWhile fun unit => JsValue.isSpace (char unit),
      IsPlain (char unit) := fun unit member =>
    isPlain_of_isSpace (List.mem_takeWhile_imp (p :=
      fun unit => JsValue.isSpace (char unit)) member)
  have passes := passes_plain spaces (skipSpace text)
  rwa [skipSpace, List.takeWhile_append_dropWhile] at passes

theorem passes_to_expected {expected : Char} (found : expect expected text = some rest) :
    ∃ unit, char unit = expected ∧ Passes text (unit :: rest) := by
  unfold expect at found
  split at found
  · cases found
  · next unit rest skipped =>
      split at found
      · next isExpected =>
          cases found
          exact ⟨unit, isExpected, skipped ▸ passes_skipSpace text⟩
      · cases found

theorem passes_expected {expected : Char} (plain : IsPlain expected)
    (found : expect expected text = some rest) : Passes text rest := by
  obtain ⟨unit, rfl, passes⟩ := passes_to_expected found
  exact passes.trans (passes_plain (List.forall_mem_singleton.mpr plain) rest)

theorem passes_scanNumber (scanned : scanNumber text = some (value, rest)) : Passes text rest := by
  unfold scanNumber at scanned
  simp only [Option.map_eq_some_iff, Prod.mk.injEq, Prod.exists] at scanned
  obtain ⟨_, after, scanned, rfl, rfl⟩ := scanned
  obtain ⟨taken, takenEq, takenPlain⟩ := takesPlain_scanNumber scanned
  have size : text.length - after.length = taken.length := by
    have lengths := congrArg List.length takenEq
    rw [List.length_map, List.length_append] at lengths
    omega
  rw [size]
  have plain : ∀ unit ∈ text.take taken.length, IsPlain (char unit) := by
    intro unit member
    refine takenPlain _ ?_
    have mapped : char unit ∈ (text.take taken.length).map char := List.mem_map_of_mem member
    rwa [List.map_take, takenEq, List.take_left] at mapped
  have passes := passes_plain plain (text.drop taken.length)
  rwa [List.take_append_drop] at passes

theorem passes_readLiteral (read : readLiteral text = some (value, rest)) : Passes text rest := by
  obtain ⟨⟨word, literal⟩, member, found⟩ := List.exists_of_findSome?_eq_some read
  dsimp only at found
  split at found
  · next starts =>
      cases found
      obtain ⟨after, rfl⟩ := starts
      rw [List.drop_left]
      have plain : (literals.all fun entry =>
          (jsonString entry.1).all fun unit => decide (IsPlain (char unit))) := by
        decide +kernel
      have word := List.all_eq_true.mp plain _ member
      exact passes_plain (fun unit inside => of_decide_eq_true (List.all_eq_true.mp word unit inside))
        after
  · cases found

theorem scanNesting_plain {unit : UInt16} (notBackslash : char unit ≠ '\\')
    (notQuote : char unit ≠ '"') (maxDepth : Binary64) (depth : ℤ) (rest : JsonString) :
    scanNesting maxDepth depth .inString (unit :: rest) =
      scanNesting maxDepth depth .inString rest := by
  rw [scanNesting, if_neg notBackslash, if_neg notQuote]

theorem scanNesting_hexDigit {unit : UInt16} {digit : Nat}
    (isDigit : JsValue.hexDigit (char unit) = some digit) (maxDepth : Binary64) (depth : ℤ)
    (rest : JsonString) : scanNesting maxDepth depth .inString (unit :: rest) =
      scanNesting maxDepth depth .inString rest := by
  apply scanNesting_plain
  · intro backslash
    rw [backslash] at isDigit
    cases isDigit
  · intro quote
    rw [quote] at isDigit
    cases isDigit

theorem scanNesting_readText {units : JsonString} (read : readText text = some (units, rest))
    (maxDepth : Binary64) (depth : ℤ) :
    scanNesting maxDepth depth .inString text = scanNesting maxDepth depth .outside rest := by
  fun_induction readText text generalizing units with
  | case1 => cases read
  | case2 unit after isQuote =>
    cases read
    rw [scanNesting, if_neg (by rw [isQuote]; decide), if_pos isQuote]
  | case3 => cases read
  | case4 unit _ isBackslash escaped _ first second third fourth after ih =>
    simp only [bind, Option.bind_eq_some_iff] at read
    obtain ⟨_, firstDigit, _, secondDigit, _, thirdDigit, _, fourthDigit, ⟨more, _⟩, later,
      same⟩ := read
    cases same
    rw [scanNesting, if_pos isBackslash, scanNesting, scanNesting_hexDigit firstDigit,
      scanNesting_hexDigit secondDigit, scanNesting_hexDigit thirdDigit,
      scanNesting_hexDigit fourthDigit, ih later]
  | case5 => cases read
  | case6 unit _ isBackslash escaped after _ ih =>
    simp only [bind, Option.bind_eq_some_iff] at read
    obtain ⟨_, _, ⟨more, _⟩, later, same⟩ := read
    cases same
    rw [scanNesting, if_pos isBackslash, scanNesting, ih later]
  | case7 => cases read
  | case8 unit after notQuote notBackslash _ ih =>
    simp only [bind, Option.bind_eq_some_iff] at read
    obtain ⟨⟨more, _⟩, later, same⟩ := read
    cases same
    rw [scanNesting_plain notBackslash notQuote, ih later]

end

variable {text rest : JsonString} {value : Json} {fuel : Nat}

/-- The scan of what a reader takes throws where the walk over what it gives
does, and goes on where it ends. -/
structure ReadsDeep (fuel : Nat) : Prop where
  value : ∀ {text value rest}, readValue fuel text = some (value, rest) → ∀ maxDepth depth,
    scanNesting maxDepth depth .outside text = (do
      walkDepth (depth + 1) maxDepth value
      scanNesting maxDepth depth .outside rest)
  items : ∀ {text items rest}, readItems fuel text = some (items, rest) → ∀ maxDepth depth,
    scanNesting maxDepth depth .outside text = (do
      walkItems (depth + 1) maxDepth items
      scanNesting maxDepth (depth - 1) .outside rest)
  fields : ∀ {text fields rest}, readFields fuel text = some (fields, rest) → ∀ maxDepth depth,
    scanNesting maxDepth depth .outside text = (do
      walkFields (depth + 1) maxDepth fields
      scanNesting maxDepth (depth - 1) .outside rest)

theorem scanNesting_container {unit : UInt16} (opens : char unit = '[' ∨ char unit = '\x7b')
    {maxDepth : Binary64} {depth : ℤ} {walked : Except ObjectDepthExceededError Unit}
    (inner : scanNesting maxDepth (depth + 1) .outside text = (do
      walked
      scanNesting maxDepth (depth + 1 - 1) .outside rest)) :
    scanNesting maxDepth depth .outside (unit :: text) =
      (if exceeds (depth + 1) maxDepth then .error ⟨maxDepth⟩ else walked) >>= fun _ =>
        scanNesting maxDepth depth .outside rest := by
  have notQuote : char unit ≠ '"' := by
    rcases opens with isOpening | isOpening <;> rw [isOpening] <;> decide
  rw [scanNesting, if_neg notQuote, if_pos opens, inner, Int.add_sub_cancel]
  split <;> rfl

theorem scanNesting_closing {closing : Char} (closes : closing = ']' ∨ closing = '\x7d')
    (found : expect closing text = some rest) (maxDepth : Binary64) (depth : ℤ) :
    scanNesting maxDepth depth .outside text = scanNesting maxDepth (depth - 1) .outside rest := by
  obtain ⟨unit, isClosing, passes⟩ := passes_to_expected found
  have notQuote : char unit ≠ '"' := by
    rw [isClosing]
    rcases closes with rfl | rfl <;> decide
  have notOpening : ¬(char unit = '[' ∨ char unit = '\x7b') := by
    rw [isClosing]
    rcases closes with rfl | rfl <;> decide
  rw [passes, scanNesting, if_neg notQuote, if_neg notOpening, if_pos (isClosing ▸ closes)]

theorem passes_scalar (scalar : ∀ maxDepth depth, walkDepth depth maxDepth value = .ok ())
    (passes : Passes text rest) (maxDepth : Binary64) (depth : ℤ) :
    scanNesting maxDepth depth .outside text = (do
      walkDepth (depth + 1) maxDepth value
      scanNesting maxDepth depth .outside rest) := by
  rw [passes, scalar]
  rfl

theorem walkDepth_literal (read : readLiteral text = some (value, rest)) (maxDepth : Binary64)
    (depth : ℤ) : walkDepth depth maxDepth value = .ok () := by
  obtain ⟨⟨word, literal⟩, member, found⟩ := List.exists_of_findSome?_eq_some read
  dsimp only at found
  split at found
  · cases found
    simp only [literals, List.mem_cons, List.not_mem_nil, or_false, Prod.mk.injEq] at member
    rcases member with ⟨-, rfl⟩ | ⟨-, rfl⟩ | ⟨-, rfl⟩ <;> rw [walkDepth] <;> simp
  · cases found

theorem walkDepth_signed (negative : Bool) (magnitude maxDepth : Binary64) (depth : ℤ) :
    walkDepth depth maxDepth (signed negative magnitude) = .ok () := by
  unfold signed
  split
  · split <;> simp [walkDepth]
  · simp [walkDepth]

theorem walkDepth_scanNumber (read : scanNumber text = some (value, rest)) (maxDepth : Binary64)
    (depth : ℤ) : walkDepth depth maxDepth value = .ok () := by
  unfold scanNumber at read
  simp only [Option.map_eq_some_iff, Prod.mk.injEq, Prod.exists] at read
  obtain ⟨_, after, scanned, rfl, -⟩ := read
  unfold Json.scanNumber at scanned
  dsimp only at scanned
  split at scanned
  · split at scanned
    · cases scanned
    · cases scanned
      exact walkDepth_signed _ _ maxDepth depth
  · cases scanned

theorem reads_deep (fuel : Nat) : ReadsDeep fuel := by
  induction fuel with
  | zero => exact ⟨by simp [readValue], by simp [readItems], by simp [readFields]⟩
  | succ fuel ih =>
    refine ⟨?_, ?_, ?_⟩
    · intro text value rest read maxDepth depth
      rw [readValue] at read
      split at read
      · cases read
      · next unit after skipped =>
          have start : Passes text (unit :: after) := skipped ▸ passes_skipSpace text
          rw [start]
          split at read
          · next isQuote =>
              simp only [Option.map_eq_some_iff, Prod.mk.injEq, Prod.exists] at read
              obtain ⟨units, _, textRead, rfl, rfl⟩ := read
              refine passes_scalar (fun _ _ => by simp [walkDepth]) (fun maxDepth depth => ?_) _ _
              rw [scanNesting, if_pos isQuote, scanNesting_readText textRead]
          · split at read
            · next isOpening =>
                split at read
                · next close =>
                    cases read
                    apply scanNesting_container (.inl isOpening)
                    rw [scanNesting_closing (.inl rfl) close]
                    rfl
                · simp only [Option.map_eq_some_iff, Prod.mk.injEq, Prod.exists] at read
                  obtain ⟨items, _, itemsRead, rfl, rfl⟩ := read
                  exact scanNesting_container (.inl isOpening) (ih.items itemsRead _ _)
            · split at read
              · next isOpening =>
                  split at read
                  · next close =>
                      cases read
                      apply scanNesting_container (.inr isOpening)
                      rw [scanNesting_closing (.inr rfl) close]
                      rfl
                  · simp only [Option.map_eq_some_iff, Prod.mk.injEq, Prod.exists] at read
                    obtain ⟨fields, _, fieldsRead, rfl, rfl⟩ := read
                    exact scanNesting_container (.inr isOpening) (ih.fields fieldsRead _ _)
              · rcases Option.or_eq_some_iff.mp read with literal | ⟨-, number⟩
                · exact passes_scalar (walkDepth_literal literal) (passes_readLiteral literal) _ _
                · exact passes_scalar (walkDepth_scanNumber number) (passes_scanNumber number) _ _
    · intro text items rest read maxDepth depth
      simp only [readItems, bind, Option.bind_eq_some_iff] at read
      obtain ⟨⟨item, after⟩, first, read⟩ := read
      rw [ih.value first]
      split at read
      · next later comma =>
          simp only [Option.bind_eq_some_iff] at read
          obtain ⟨⟨items', after'⟩, others, same⟩ := read
          cases same
          rw [passes_expected (by decide) comma, ih.items others, walkItems, bind_assoc]
      · simp only [Option.bind_eq_some_iff] at read
        obtain ⟨after', close, same⟩ := read
        cases same
        rw [scanNesting_closing (.inl rfl) close, walkItems, bind_assoc]
        rfl
    · intro text fields rest read maxDepth depth
      simp only [readFields, bind, Option.bind_eq_some_iff] at read
      obtain ⟨inside, quote, ⟨key, afterKey⟩, keyRead, afterColon, colon, ⟨value, after⟩, first,
        read⟩ := read
      obtain ⟨opening, isQuote, passes⟩ := passes_to_expected quote
      have key : scanNesting maxDepth depth .outside text =
          scanNesting maxDepth depth .outside afterKey := by
        rw [passes, scanNesting, if_pos isQuote, scanNesting_readText keyRead]
      rw [key, passes_expected (by decide) colon, ih.value first]
      split at read
      · next later comma =>
          simp only [Option.bind_eq_some_iff] at read
          obtain ⟨⟨fields', after'⟩, others, same⟩ := read
          cases same
          rw [passes_expected (by decide) comma, ih.fields others, walkFields, bind_assoc]
      · simp only [Option.bind_eq_some_iff] at read
        obtain ⟨after', close, same⟩ := read
        cases same
        rw [scanNesting_closing (.inr rfl) close, walkFields, bind_assoc]
        rfl

theorem validateJsonNestingDepth_written (writes : written text = some value)
    (maxDepth : Binary64) :
    validateJsonNestingDepth text maxDepth = validateObjectDepth value maxDepth := by
  simp only [written, bind, Option.bind_eq_some_iff] at writes
  obtain ⟨⟨tree, rest⟩, read, ends⟩ := writes
  split at ends
  · next isEnd =>
      obtain rfl := Option.some.inj ends
      have trailing : scanNesting maxDepth 0 .outside rest = .ok () := by
        rw [passes_skipSpace rest, isEnd, scanNesting]
      rw [validateJsonNestingDepth, (reads_deep _).value read, trailing, Int.zero_add,
        validateObjectDepth]
      cases walkDepth 1 maxDepth tree with
      | error | ok => rfl
  · cases ends

theorem lastFieldsItems_eq {items : List Json} (each : ∀ item ∈ items, lastFields item = item) :
    lastFieldsItems items = items := by
  induction items with
  | nil => rfl
  | cons item items ih =>
    obtain ⟨first, others⟩ := List.forall_mem_cons.mp each
    rw [lastFieldsItems, first, ih others]

theorem lastFieldsEach_eq {fields kept : List (JsonString × Json)}
    (keys : ((kept ++ fields).map Prod.fst).Nodup)
    (each : ∀ field ∈ fields, lastFields field.2 = field.2) :
    lastFieldsEach kept fields = kept ++ fields := by
  induction fields generalizing kept with
  | nil => rw [lastFieldsEach, List.append_nil]
  | cons field fields ih =>
    obtain ⟨key, value⟩ := field
    obtain ⟨first, others⟩ := List.forall_mem_cons.mp each
    have fresh : key ∉ kept.map Prod.fst := by
      rw [List.map_append, List.map_cons] at keys
      exact fun member => (List.nodup_append.mp keys).2.2 key member key List.mem_cons_self rfl
    rw [lastFieldsEach, first, setField, if_neg fresh, ih, List.append_assoc, List.singleton_append]
    · rwa [List.append_assoc, List.singleton_append]
    · exact others

theorem lastFields_distinct (distinct : Distinct value) : lastFields value = value := by
  induction distinct with
  | null | boolean | number | negativeZero | string => simp [lastFields]
  | array _ ih => rw [lastFields, lastFieldsItems_eq ih]
  | @object fields keys _ ih =>
    have dropped := @lastFieldsEach_eq fields [] keys ih
    rw [lastFields, dropped, List.nil_append]

/-- A text without duplicate keys and the value it stands for exceed the same
limits. -/
theorem depth_guards_agree (parsed : parse text = some value) (unique : UniqueKeys text)
    (maxDepth : Binary64) :
    validateJsonNestingDepth text maxDepth = validateObjectDepth value maxDepth := by
  obtain ⟨tree, writes, distinct⟩ := unique
  rw [parse, writes, Option.map_some, lastFields_distinct distinct] at parsed
  cases parsed
  exact validateJsonNestingDepth_written writes maxDepth

/-- The code units of `{"[": [{},"]"]}`. -/
def nestedText : JsonString :=
  [123, 34, 91, 34, 58, 32, 91, 123, 125, 44, 34, 93, 34, 93, 125]

def nestedValue : Json :=
  object [([91], array [object [], string [93]])]

theorem depth_guards_agree_nested :
    validateJsonNestingDepth nestedText (.ofInt 2) = validateObjectDepth nestedValue (.ofInt 2) :=
      by
  have writes : written nestedText = some nestedValue := rfl
  refine depth_guards_agree rfl ⟨nestedValue, writes, .object (List.nodup_singleton _) ?_⟩ _
  refine List.forall_mem_singleton.mpr (.array (List.forall_mem_cons.mpr ⟨?_, ?_⟩))
  · exact .object List.nodup_nil (List.forall_mem_nil _)
  · exact List.forall_mem_singleton.mpr (.string _)

end JsonUnits

end P2PHub
