import P2PHub.BoundaryGuard
import P2PHub.JsonText

/-!
# The two depth limits agree

The scan of a JSON text rejects no value that the walk over the value accepts.
-/

namespace P2PHub

open JsValue

section

variable {maxDepth : Nat} {depth : Int} {rest : List Char} {text : List Char}

def Balanced (maxDepth : Nat) (depth : Int) (text : List Char) : Prop :=
  ∀ rest, scanNesting maxDepth depth .outside (text ++ rest) =
    scanNesting maxDepth depth .outside rest

theorem Balanced.append {first second : List Char} (firstBalanced : Balanced maxDepth depth first)
    (secondBalanced : Balanced maxDepth depth second) :
    Balanced maxDepth depth (first ++ second) := by
  intro rest
  rw [List.append_assoc, firstBalanced, secondBalanced]

theorem balanced_nil : Balanced maxDepth depth [] :=
  fun _ => rfl

abbrev IsPlain (char : Char) : Prop :=
  char ∉ ['"', '[', ']', '\x7b', '\x7d']

theorem balanced_of_plain (plain : ∀ char ∈ text, IsPlain char) : Balanced maxDepth depth text := by
  induction text with
  | nil => exact balanced_nil
  | cons char text ih =>
    intro rest
    have ignored := plain char List.mem_cons_self
    simp only [IsPlain, List.mem_cons, List.not_mem_nil, or_false, not_or] at ignored
    obtain ⟨notQuote, notOpening, notClosing, notBrace, notClosingBrace⟩ := ignored
    rw [List.cons_append, scanNesting, if_neg notQuote, if_neg (by simp [notOpening, notBrace]),
      if_neg (by simp [notClosing, notClosingBrace])]
    exact ih (fun other member => plain other (List.mem_cons_of_mem _ member)) rest

def nextInString : ScanMode → Char → ScanMode
  | .outside, _ => .outside
  | .escaped, _ => .inString
  | .inString, char => if char = '\\' then .escaped else if char = '"' then .outside else .inString

theorem foldl_outside (text : List Char) : text.foldl nextInString .outside = .outside := by
  induction text with
  | nil => rfl
  | cons char text ih => exact ih

theorem scanNesting_inString {mode : ScanMode} (stays : text.foldl nextInString mode ≠ .outside) :
    scanNesting maxDepth depth mode (text ++ rest) =
      scanNesting maxDepth depth (text.foldl nextInString mode) rest := by
  induction text generalizing mode with
  | nil => rfl
  | cons char text ih =>
    rw [List.foldl_cons] at stays ⊢
    rw [List.cons_append, ← ih stays]
    cases mode with
    | outside => exact absurd (foldl_outside text) stays
    | escaped => rfl
    | inString =>
      rw [scanNesting, nextInString]
      split
      · rfl
      · next notBackslash =>
          rw [nextInString, if_neg notBackslash] at stays
          split
          · next quote =>
              simp only [if_pos quote] at stays
              exact absurd (foldl_outside text) stays
          · rfl

theorem escape_stays (char : Char) :
    (escape char).toList.foldl nextInString .inString = .inString := by
  by_cases control : char.toNat < 32
  · have all : ∀ code < 32,
        (escape (Char.ofNat code)).toList.foldl nextInString .inString = .inString := by
      decide +kernel
    have here := all char.toNat control
    rwa [Char.ofNat_toNat] at here
  · by_cases quote : char = '"'
    · subst quote
      rfl
    · by_cases backslash : char = '\\'
      · subst backslash
        rfl
      · rw [escape_plain control quote backslash, String.toList_singleton]
        simp [nextInString, quote, backslash]

theorem balanced_quote (value : String) : Balanced maxDepth depth (quote value).toList := by
  intro rest
  have stays : ∀ chars : List Char,
      ((chars.map escape).flatMap String.toList).foldl nextInString .inString = .inString := by
    intro chars
    induction chars with
    | nil => rfl
    | cons char chars ih =>
      rw [List.map_cons, List.flatMap_cons, List.foldl_append, escape_stays, ih]
  rw [quote_toList, List.cons_append, scanNesting, if_pos rfl, List.append_assoc,
    scanNesting_inString (by rw [stays]; decide), stays]
  rfl

theorem balanced_separator {char : Char} (plain : IsPlain char) :
    Balanced maxDepth depth [char] := by
  apply balanced_of_plain
  intro other member
  rwa [List.mem_singleton.mp member]

theorem balanced_items {texts : List (List Char)}
    (each : ∀ text ∈ texts, Balanced maxDepth depth text) :
    Balanced maxDepth depth (itemsText texts) := by
  induction texts with
  | nil => exact balanced_nil
  | cons text texts ih =>
    have first := each text List.mem_cons_self
    have others := ih fun other member => each other (List.mem_cons_of_mem _ member)
    cases texts with
    | nil => exact first
    | cons =>
      have comma : Balanced maxDepth depth [','] := balanced_separator (by decide)
      exact first.append (comma.append others)

theorem balanced_bracketed {opening closing : Char}
    (opens : opening = '[' ∨ opening = '\x7b') (closes : closing = ']' ∨ closing = '\x7d')
    (below : depth + 1 ≤ maxDepth) (inner : Balanced maxDepth (depth + 1) text) :
    Balanced maxDepth depth (opening :: (text ++ [closing])) := by
  intro rest
  have openingNotQuote : opening ≠ '"' := by
    rcases opens with rfl | rfl <;> decide
  have closingNotQuote : closing ≠ '"' := by
    rcases closes with rfl | rfl <;> decide
  have closingNotOpening : ¬(closing = '[' ∨ closing = '\x7b') := by
    rcases closes with rfl | rfl <;> decide
  rw [List.cons_append, scanNesting, if_neg openingNotQuote, if_pos opens,
    if_neg (not_lt.mpr below), List.append_assoc, inner, List.singleton_append, scanNesting,
    if_neg closingNotQuote, if_neg closingNotOpening, if_pos closes]
  congr 1
  omega

end

variable {maxDepth depth : Nat} {items : List JsValue} {fields : List (String × JsValue)}
  {value : JsValue} {texts : List String}

theorem exists_related {α β : Type} {related : α → β → Prop} {items : List α} {texts : List β}
    (each : List.Forall₂ related items texts) :
    ∀ text ∈ texts, ∃ item ∈ items, related item text := by
  induction each with
  | nil => simp
  | cons holds _ ih =>
    intro text member
    rcases List.mem_cons.mp member with rfl | later
    · exact ⟨_, List.mem_cons_self, holds⟩
    · obtain ⟨item, itemMem, itemHolds⟩ := ih text later
      exact ⟨item, List.mem_cons_of_mem _ itemMem, itemHolds⟩

theorem walkItems_ok (walked : walkItems depth maxDepth items = .ok ()) :
    ∀ item ∈ items, walkDepth depth maxDepth item = .ok () := by
  induction items with
  | nil => simp
  | cons item items ih =>
    rw [walkItems] at walked
    cases first : walkDepth depth maxDepth item with
    | error =>
      rw [first] at walked
      cases walked
    | ok =>
      rw [first] at walked
      intro other member
      rcases List.mem_cons.mp member with rfl | later
      · exact first
      · exact ih walked other later

theorem walkFields_ok (walked : walkFields depth maxDepth fields = .ok ()) :
    ∀ field ∈ fields, walkDepth depth maxDepth field.2 = .ok () := by
  induction fields with
  | nil => simp
  | cons field fields ih =>
    obtain ⟨key, value⟩ := field
    rw [walkFields] at walked
    cases first : walkDepth depth maxDepth value with
    | error =>
      rw [first] at walked
      cases walked
    | ok =>
      rw [first] at walked
      intro other member
      rcases List.mem_cons.mp member with rfl | later
      · exact first
      · exact ih walked other later

/-- A text that the scan passes at every depth at which the walk passes the
value. -/
def ScansLike (maxDepth : Nat) (value : JsValue) (text : String) : Prop :=
  ∀ depth : Nat, walkDepth (depth + 1) maxDepth value = .ok () → Balanced maxDepth depth text.toList

theorem scansLike_of_plain {text : String}
    (plain : ∀ char ∈ text.toList, IsPlain char) : ScansLike maxDepth value text :=
  fun _ _ => balanced_of_plain plain

theorem isPlain_of_isNumberChar {char : Char} (number : Binary64.isNumberChar char) :
    IsPlain char := by
  intro member
  simp only [List.mem_cons, List.not_mem_nil, or_false] at member
  rcases member with rfl | rfl | rfl | rfl | rfl <;> cases number

theorem scansLike_array (related : List.Forall₂ (ScansLike maxDepth) items texts) :
    ScansLike maxDepth (.array items) ("[" ++ String.intercalate "," texts ++ "]") := by
  intro depth walked
  rw [walkDepth] at walked
  split at walked
  · cases walked
  · next below =>
      rw [String.toList_append, String.toList_append, itemsText_eq]
      refine balanced_bracketed (.inl rfl) (.inl rfl) (by omega) (balanced_items ?_)
      intro text member
      obtain ⟨written, writtenMem, rfl⟩ := List.mem_map.mp member
      obtain ⟨item, itemMem, scans⟩ := exists_related related written writtenMem
      exact scans (depth + 1) (walkItems_ok walked item itemMem)

theorem scansLike_object (related : List.Forall₂ (fun field entry =>
      ∃ text, entry = quote field.1 ++ ":" ++ text ∧ ScansLike maxDepth field.2 text)
      fields texts) :
    ScansLike maxDepth (.object fields) ("\x7b" ++ String.intercalate "," texts ++ "\x7d") := by
  intro depth walked
  rw [walkDepth] at walked
  split at walked
  · cases walked
  · next below =>
      rw [String.toList_append, String.toList_append, itemsText_eq]
      refine balanced_bracketed (.inr rfl) (.inr rfl) (by omega) (balanced_items ?_)
      intro text member
      obtain ⟨written, writtenMem, rfl⟩ := List.mem_map.mp member
      obtain ⟨field, fieldMem, value, rfl, scans⟩ := exists_related related written writtenMem
      rw [String.toList_append, String.toList_append]
      exact ((balanced_quote field.1).append (balanced_separator (by decide))).append
        (scans (depth + 1) (walkFields_ok walked field fieldMem))

theorem scansLike_of_isJson (maxDepth : Nat) (json : IsJson value) :
    ∃ text, stringify value = .ok (some text) ∧ ScansLike maxDepth value text := by
  induction json with
  | null =>
    have plain : ∀ char ∈ "null".toList, IsPlain char := List.all_iff_forall_prop.mp (by decide)
    exact ⟨"null", by simp [stringify], scansLike_of_plain plain⟩
  | boolean value =>
    refine ⟨if value then "true" else "false", ?_, scansLike_of_plain ?_⟩
    · cases value <;> simp [stringify]
    · cases value <;> exact List.all_iff_forall_prop.mp (by decide)
  | number representable =>
    refine ⟨String.ofList _, by rw [jsonNumber, stringify], scansLike_of_plain ?_⟩
    rw [String.toList_ofList]
    exact fun char member =>
      isPlain_of_isNumberChar (Binary64.isNumberChar_text representable char member)
  | string value =>
    exact ⟨quote value, by rw [stringify], fun _ _ => balanced_quote value⟩
  | array each ih =>
    obtain ⟨texts, written, related⟩ := stringifyItems_related (ScansLike maxDepth) ih
    exact ⟨_, by rw [stringify, written]; rfl, scansLike_array related⟩
  | object distinct ordered each ih =>
    obtain ⟨texts, written, related⟩ := stringifyFields_related (ScansLike maxDepth) ih
    exact ⟨_, by rw [stringify, written]; rfl, scansLike_object related⟩

theorem validateJsonNestingDepth_stringify {text : String}
    (json : IsJson value) (written : stringify value = .ok (some text))
    (shallow : validateObjectDepth value = .ok ()) :
    validateJsonNestingDepth text.toList = .ok () := by
  obtain ⟨scanned, scannedEq, scans⟩ := scansLike_of_isJson maxObjectDepth json
  obtain rfl : scanned = text := by simpa [scannedEq] using written
  have balanced := scans 0 shallow []
  rw [List.append_nil] at balanced
  exact balanced

end P2PHub
