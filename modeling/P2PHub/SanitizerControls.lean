import P2PHub.SanitizerHiddenLinks

/-!
# Control characters under the content sanitizer

`sanitizeAIOutput` of `sdk/src/sanitizer.ts` strips the control characters after
the other passes.  Where these see a tag or a link in spite of the control
characters in it, the order does not matter.
-/

namespace P2PHub.Sanitizer

section

variable (casing : Casing)

/-- `CONTROL_CHARS_RE` -/
def isControlChar (unit : CodeUnit) : Bool :=
  unit ≤ 8 || unit = 11 || unit = 12 || (14 ≤ unit && unit ≤ 31) || unit = 127

def stripControls (text : Text) : Text :=
  text.filter fun unit => !isControlChar unit

def sanitizeAIOutput (text : Text) : Text :=
  stripControls (sanitizeMarkdown casing text)

/-- How many of the units at the start of a text are no control characters. -/
def shownWidth (text : Text) (width : Nat) : Nat :=
  (stripControls (text.take width)).length

def Tag.RemovesContent (tag : Tag) : Prop :=
  tag.name ∈ contentBlockedTags ∧ !tag.selfClosing

instance (tag : Tag) : Decidable tag.RemovesContent :=
  inferInstanceAs (Decidable (_ ∧ _))

/-- What `stripHtml` reads after a `<` is no other for the control characters
there. -/
structure OpeningSeen (input rest : Text) : Prop where
  comment : (ascii "!--").isPrefixOf (stripControls rest) → (ascii "!--").isPrefixOf rest
  commentEnd : (ascii "!--").isPrefixOf rest →
    indexOf (ascii "-->") (stripControls (rest.drop 3)) =
      (indexOf (ascii "-->") (rest.drop 3)).map (shownWidth (rest.drop 3))
  tag : (ascii "!--").isPrefixOf rest = false → readTag casing rest = none →
    readTag casing (stripControls rest) = none
  element : (ascii "!--").isPrefixOf rest = false → ∀ tag shown, readTag casing rest = some tag →
    readTag casing (stripControls rest) = some shown → (shown.RemovesContent ↔ tag.RemovesContent)
  closing : (ascii "!--").isPrefixOf rest = false → ∀ tag shown, readTag casing rest = some tag →
    readTag casing (stripControls rest) = some shown → tag.RemovesContent →
      findClosingTag casing (stripControls input)
          (shownWidth input (input.length - (rest.length + 1) + tag.width)) shown.name =
        (findClosingTag casing input (input.length - (rest.length + 1) + tag.width) tag.name).map
          (shownWidth input)

/-- What `sanitizeMarkdown` reads after a `[` is no other for the control
characters there. -/
structure BracketSeen (rest : Text) : Prop where
  link : parseLink rest = none → parseLink (stripControls rest) = none
  scheme : ∀ link, parseLink rest = some link →
    isDangerousUrl casing (stripControls link.url) = true → isDangerousUrl casing link.url = true

/-- The loop of `sanitizeMarkdown` gets from one position to another. -/
inductive LinkScans : Text → Text → Prop
  | here (text : Text) : LinkScans text text
  | copy {unit : CodeUnit} {rest after : Text} (plain : unit = 91 → parseLink rest = none)
      (scans : LinkScans rest after) : LinkScans (unit :: rest) after
  | link {rest after : Text} {link : ParsedLink} (parsed : parseLink rest = some link)
      (scans : LinkScans link.rest after) : LinkScans (91 :: rest) after

/-- The control characters of a text shield nothing from the two passes. -/
structure Unshielded (text : Text) : Prop where
  openings : ∀ rest, Scans casing text text (60 :: rest) → OpeningSeen casing text rest
  brackets : ∀ rest, LinkScans (stripHtml casing text) (91 :: rest) → BracketSeen casing rest

end

section

variable {unit : CodeUnit} {text rest : Text} {width : Nat}

theorem stripControls_cons_control (control : isControlChar unit) :
    stripControls (unit :: rest) = stripControls rest :=
  List.filter_cons_of_neg (by simp [control])

theorem stripControls_cons_plain (plain : isControlChar unit = false) :
    stripControls (unit :: rest) = unit :: stripControls rest :=
  List.filter_cons_of_pos (by simp [plain])

theorem stripControls_append (first second : Text) :
    stripControls (first ++ second) = stripControls first ++ stripControls second :=
  List.filter_append ..

theorem stripControls_idem (text : Text) : stripControls (stripControls text) =
    stripControls text := by
  simp [stripControls]

theorem mem_stripControls (member : unit ∈ stripControls text) : unit ∈ text :=
  List.mem_of_mem_filter member

theorem drop_shownWidth (text : Text) (width : Nat) :
    (stripControls text).drop (shownWidth text width) = stripControls (text.drop width) := by
  have split := congrArg stripControls (List.take_append_drop width text)
  rw [stripControls_append] at split
  rw [← split, shownWidth, List.drop_left]

theorem shownWidth_cons_control (control : isControlChar unit) :
    shownWidth (unit :: rest) (width + 1) = shownWidth rest width := by
  rw [shownWidth, List.take_succ_cons, stripControls_cons_control control, shownWidth]

theorem shownWidth_cons_plain (plain : isControlChar unit = false) :
    shownWidth (unit :: rest) (width + 1) = shownWidth rest width + 1 := by
  rw [shownWidth, List.take_succ_cons, stripControls_cons_plain plain, List.length_cons, shownWidth]

theorem shownWidth_append (first second : Text) (width : Nat) :
    shownWidth (first ++ second) (first.length + width) =
      (stripControls first).length + shownWidth second width := by
  rw [shownWidth, List.take_length_add_append, stripControls_append, List.length_append, shownWidth]

theorem shownWidth_length (text : Text) : shownWidth text text.length =
    (stripControls text).length := by
  rw [shownWidth, List.take_length]

end

section

variable {casing : Casing} {unit : CodeUnit} {input text rest whole after needle : Text}
  {width index : Nat} {tag : Tag}

theorem indexOf_close (inside : 62 ∉ whole) : indexOf [62] (whole ++ 62 :: after) =
    some whole.length := by
  induction whole with
  | nil => rfl
  | cons unit whole ih =>
    obtain ⟨differs, later⟩ := not_or.mp (mt List.mem_cons.mpr inside)
    rw [List.cons_append, indexOf, if_neg (by simp [List.isPrefixOf, differs]), ih later,
      Option.map_some, List.length_cons]

theorem indexOf_eq_some (found : indexOf needle text = some index) :
    ∃ after, text = text.take index ++ needle ++ after := by
  induction text generalizing index with
  | nil =>
    rw [indexOf] at found
    split at found
    · next empty => exact ⟨[], by simp [empty]⟩
    · cases found
  | cons unit rest ih =>
    rw [indexOf] at found
    split at found
    · next starts =>
        cases found
        obtain ⟨after, split⟩ := List.isPrefixOf_iff_prefix.mp starts
        exact ⟨after, by rw [List.take_zero, List.nil_append, split]⟩
    · obtain ⟨before, earlier, rfl⟩ := Option.map_eq_some_iff.mp found
      obtain ⟨after, split⟩ := ih earlier
      refine ⟨after, ?_⟩
      rw [List.take_succ_cons, List.cons_append, List.cons_append, ← split]

theorem closingTag_width (after : Text) (inside : 62 ∉ whole) :
    ∃ index, indexOf [62] ((whole ++ 62 :: after).dropWhile isNameChar) = some index ∧
      ((whole ++ 62 :: after).takeWhile isNameChar).length + index = whole.length := by
  induction whole with
  | nil => exact ⟨0, rfl, rfl⟩
  | cons unit whole ih =>
    rw [List.cons_append]
    cases named : isNameChar unit with
    | true =>
      obtain ⟨index, found, total⟩ := ih fun member => inside (List.mem_cons_of_mem _ member)
      refine ⟨index, ?_, ?_⟩
      · rw [List.dropWhile_cons_of_pos named, found]
      · rw [List.takeWhile_cons_of_pos named, List.length_cons, List.length_cons]
        omega
    | false =>
      have noName : ¬isNameChar unit := by simp [named]
      refine ⟨(unit :: whole).length, ?_, ?_⟩
      · rw [List.dropWhile_cons_of_neg noName]
        exact indexOf_close inside
      · rw [List.takeWhile_cons_of_neg noName, List.length_nil, Nat.zero_add]

theorem scanAttributes_width (unit : CodeUnit) (rest : Text) :
    (scanAttributes none (unit :: rest)).1 = if unit = 62 then 1
      else (scanAttributes (if unit = 34 ∨ unit = 39 then some unit else none) rest).1 + 1 := by
  rw [scanAttributes]
  by_cases closes : unit = 62
  · rw [if_pos closes, if_pos closes]
  · rw [if_neg closes, if_neg closes]
    by_cases slash : unit = 47 ∧ rest.head? = some 62
    · obtain ⟨rfl, next⟩ := slash
      obtain ⟨tail, rfl⟩ := List.head?_eq_some_iff.mp next
      rfl
    · rw [if_neg slash]

theorem scanAttributes_name (text : Text) : (scanAttributes none text).1 =
    (text.takeWhile isNameChar).length + (scanAttributes none (text.dropWhile isNameChar)).1 := by
  induction text with
  | nil => rfl
  | cons unit text ih =>
    cases named : isNameChar unit with
    | true =>
      have plain : unit ≠ 62 ∧ ¬(unit = 34 ∨ unit = 39) := by
        refine ⟨?_, ?_⟩
        · rintro rfl
          cases named
        · rintro (rfl | rfl) <;> cases named
      rw [scanAttributes_width, if_neg plain.1, if_neg plain.2, ih,
        List.takeWhile_cons_of_pos named, List.dropWhile_cons_of_pos named, List.length_cons]
      omega
    | false =>
      have noName : ¬isNameChar unit := by simp [named]
      rw [List.takeWhile_cons_of_neg noName, List.dropWhile_cons_of_neg noName, List.length_nil,
        Nat.zero_add]

theorem scanAttributes_stripControls (quote : Option CodeUnit)
    (plain : ∀ unit ∈ quote, isControlChar unit = false) (text : Text) :
    (scanAttributes quote (stripControls text)).1 =
      shownWidth text (scanAttributes quote text).1 := by
  induction text generalizing quote with
  | nil => cases quote <;> rfl
  | cons unit text ih =>
    cases control : isControlChar unit with
    | true =>
      rw [stripControls_cons_control control]
      cases quote with
      | none =>
        have other : unit ≠ 62 ∧ ¬(unit = 34 ∨ unit = 39) := by
          refine ⟨?_, ?_⟩
          · rintro rfl
            cases control
          · rintro (rfl | rfl) <;> cases control
        rw [scanAttributes_width, if_neg other.1, if_neg other.2,
          shownWidth_cons_control control, ih none plain]
      | some quote =>
        have other : unit ≠ quote := by
          rintro rfl
          rw [plain unit rfl] at control
          cases control
        rw [scanAttributes, if_neg other, ih (some quote) plain]
        rw [shownWidth_cons_control control]
    | false =>
      rw [stripControls_cons_plain control]
      cases quote with
      | none =>
        rw [scanAttributes_width, scanAttributes_width]
        split
        · rw [shownWidth_cons_plain control]
          rfl
        · rw [shownWidth_cons_plain control, ih]
          intro quote member
          split at member
          · cases member
            exact control
          · cases member
      | some =>
        rw [scanAttributes, scanAttributes]
        dsimp only
        rw [shownWidth_cons_plain control, ih]
        intro other member
        split at member
        · cases member
        · exact plain other member

theorem shownWidth_close (plain : isControlChar unit = false) :
    shownWidth (60 :: unit :: (whole ++ 62 :: after)) (whole.length + 3) =
      (stripControls whole).length + 3 := by
  have close : shownWidth (62 :: after) 1 = 1 := rfl
  rw [shownWidth_cons_plain rfl, shownWidth_cons_plain plain, shownWidth_append, close]

theorem stripControls_close (whole after : Text) :
    stripControls (whole ++ 62 :: after) = stripControls whole ++ 62 :: stripControls after := by
  rw [stripControls_append, stripControls_cons_plain rfl]

theorem isControlChar_letter (letter : isTagStartChar unit) : isControlChar unit = false := by
  simp only [isTagStartChar, Bool.or_eq_true, Bool.and_eq_true, decide_eq_true_eq,
    UInt16.le_iff_toNat_le] at letter
  simp only [isControlChar, Bool.or_eq_false_iff, Bool.and_eq_false_iff, decide_eq_false_iff_not,
    UInt16.le_iff_toNat_le, ← UInt16.toNat_inj]
  simp at letter ⊢
  omega

/-- A tag is read without its control characters as well, and it ends where it
did. -/
theorem readTag_stripControls (read : readTag casing rest = some tag) :
    ∃ shown, readTag casing (stripControls rest) = some shown ∧
      shown.width = shownWidth (60 :: rest) tag.width := by
  cases rest with
  | nil => cases read
  | cons unit rest =>
    rw [readTag] at read
    split at read
    · next slash =>
        subst slash
        obtain ⟨index, found, rfl⟩ := Option.map_eq_some_iff.mp read
        have closes : 62 ∈ rest := by
          by_contra missing
          have noClose := fun member => missing ((List.dropWhile_sublist isNameChar).subset member)
          rw [indexOf_unit_eq_none_iff.mpr noClose] at found
          cases found
        obtain ⟨whole, after, rfl, inside⟩ := List.eq_append_cons_of_mem closes
        obtain ⟨same, isSame, total⟩ := closingTag_width after inside
        cases found.symm.trans isSame
        obtain ⟨shown, shownFound, shownTotal⟩ := closingTag_width (stripControls after)
          fun member => inside (mem_stripControls member)
        refine ⟨_, by rw [stripControls_cons_plain rfl, readTag, if_pos rfl, stripControls_close,
          shownFound, Option.map_some], ?_⟩
        rw [total, shownTotal, shownWidth_close rfl]
    · next noSlash =>
        split at read
        · next mark =>
            obtain ⟨index, found, rfl⟩ := Option.map_eq_some_iff.mp read
            have closes : 62 ∈ rest := by
              by_contra missing
              rw [indexOf_unit_eq_none_iff.mpr missing] at found
              cases found
            obtain ⟨whole, after, rfl, inside⟩ := List.eq_append_cons_of_mem closes
            cases found.symm.trans (indexOf_close inside)
            have plain : isControlChar unit = false := by
              rcases mark with rfl | rfl <;> rfl
            refine ⟨_, by rw [stripControls_cons_plain plain, readTag, if_neg noSlash, if_pos mark,
              stripControls_close, indexOf_close fun member => inside (mem_stripControls member),
              Option.map_some], ?_⟩
            rw [shownWidth_close plain]
        · next noMark =>
            split at read
            · next letter =>
                cases read
                have plain := isControlChar_letter letter
                refine ⟨_, by rw [stripControls_cons_plain plain, readTag, if_neg noSlash,
                  if_neg noMark, if_pos letter], ?_⟩
                rw [← scanAttributes_name, ← scanAttributes_name, ← stripControls_cons_plain plain,
                  scanAttributes_stripControls none (by simp), shownWidth_cons_plain rfl]
            · cases read

theorem removedWidth_opening : removedWidth casing input (60 :: rest) =
    if (ascii "!--").isPrefixOf rest then
      match indexOf (ascii "-->") (rest.drop 3) with
      | some index => some (index + 7)
      | none => some (rest.length + 1)
    else (readTag casing rest).map fun tag =>
      if tag.RemovesContent then
        match findClosingTag casing input (input.length - (rest.length + 1) + tag.width) tag.name with
        | some close => close - (input.length - (rest.length + 1))
        | none => rest.length + 1
      else tag.width := by
  rw [removedWidth, if_neg (by simp)]
  split
  · rfl
  · cases readTag casing rest with
    | none => rfl
    | some tag =>
      dsimp only
      rw [Option.map_some]
      by_cases removes : tag.RemovesContent
      · have goes : tag.name ∈ contentBlockedTags ∧ !tag.selfClosing := removes
        rw [if_pos removes, if_pos goes]
        cases findClosingTag casing input (input.length - (rest.length + 1) + tag.width) tag.name <;>
          rfl
      · have stays : ¬(tag.name ∈ contentBlockedTags ∧ !tag.selfClosing) := removes
        rw [if_neg removes, if_neg stays]

theorem comment_stripControls (starts : (ascii "!--").isPrefixOf rest) :
    rest = ascii "!--" ++ rest.drop 3 ∧ stripControls rest = ascii "!--" ++ stripControls (rest.drop 3) := by
  obtain ⟨tail, rfl⟩ := List.isPrefixOf_iff_prefix.mp starts
  exact ⟨rfl, rfl⟩

theorem shownWidth_comment (found : indexOf (ascii "-->") text = some index) :
    shownWidth (60 :: (ascii "!--" ++ text)) (index + 7) = shownWidth text index + 7 := by
  obtain ⟨after, split⟩ := indexOf_eq_some found
  have within : (text.take index).length = index := by
    have := congrArg List.length split
    rw [List.length_append, List.length_append] at this
    have three : (ascii "-->").length = 3 := rfl
    have taken := List.length_take (i := index) (l := text)
    omega
  have marks : shownWidth (ascii "-->" ++ after) 3 = 3 := rfl
  have ends : shownWidth text (index + 3) = shownWidth text index + 3 := by
    have whole : text = text.take index ++ (ascii "-->" ++ after) := by
      rw [← List.append_assoc, ← split]
    calc shownWidth text (index + 3)
        = shownWidth (text.take index ++ (ascii "-->" ++ after)) ((text.take index).length + 3) := by
          rw [within, ← whole]
      _ = shownWidth text index + 3 := by
          rw [shownWidth_append, marks, shownWidth]
  have start : ascii "!--" = [33, 45, 45] := rfl
  rw [start, show index + 7 = index + 3 + 3 + 1 from rfl, shownWidth_cons_plain rfl,
    List.cons_append,
    List.cons_append, List.cons_append, List.nil_append, shownWidth_cons_plain rfl,
    shownWidth_cons_plain rfl, shownWidth_cons_plain rfl, ends]

theorem position_stripControls {before : Text} (split : input = before ++ text) :
    input.length - text.length = before.length ∧
      (stripControls input).length - (stripControls text).length = (stripControls before).length ∧
      ∀ width, shownWidth input (input.length - text.length + width) =
        (stripControls before).length + shownWidth text width := by
  subst split
  rw [stripControls_append, List.length_append, List.length_append, Nat.add_sub_cancel,
    Nat.add_sub_cancel]
  exact ⟨rfl, rfl, shownWidth_append before text⟩

/-- At a `<` where the control characters change nothing of what is read,
`stripHtml` removes as much without them. -/
theorem removedWidth_stripControls {before : Text} (split : input = before ++ 60 :: rest)
    (seen : OpeningSeen casing input rest) :
    removedWidth casing (stripControls input) (60 :: stripControls rest) =
      (removedWidth casing input (60 :: rest)).map (shownWidth (60 :: rest)) := by
  have whole : shownWidth (60 :: rest) (rest.length + 1) = (stripControls rest).length + 1 := by
    rw [shownWidth_cons_plain rfl, shownWidth_length]
  rw [removedWidth_opening, removedWidth_opening]
  cases comment : (ascii "!--").isPrefixOf rest with
  | true =>
    obtain ⟨restEq, shownEq⟩ := comment_stripControls comment
    have starts : (ascii "!--").isPrefixOf (stripControls rest) := by
      rw [shownEq]
      exact List.isPrefixOf_iff_prefix.mpr (List.prefix_append _ _)
    have drop : (stripControls rest).drop 3 = stripControls (rest.drop 3) := by
      rw [shownEq]
      rfl
    rw [if_pos starts, if_pos rfl, drop, seen.commentEnd comment]
    cases found : indexOf (ascii "-->") (rest.drop 3) with
    | none =>
      dsimp only [Option.map_none]
      rw [Option.map_some, whole]
    | some =>
      dsimp only [Option.map_some]
      have width := shownWidth_comment found
      rw [← restEq] at width
      rw [width]
  | false =>
    have starts : ¬(ascii "!--").isPrefixOf (stripControls rest) := by
      intro shown
      rw [seen.comment shown] at comment
      cases comment
    rw [if_neg starts, if_neg Bool.false_ne_true]
    cases read : readTag casing rest with
    | none =>
      rw [seen.tag comment read]
      rfl
    | some tag =>
      obtain ⟨shown, shownRead, width⟩ := readTag_stripControls read
      have same := seen.element comment tag shown read shownRead
      obtain ⟨start, shownStart, shownAfter⟩ := position_stripControls split
      rw [stripControls_cons_plain rfl, List.length_cons] at shownStart
      rw [List.length_cons] at start shownAfter
      rw [shownRead, Option.map_some, Option.map_some, Option.map_some]
      by_cases removes : tag.RemovesContent
      · have closing := seen.closing comment tag shown read shownRead removes
        have shownIndex : (stripControls input).length - ((stripControls rest).length + 1) +
            shown.width = shownWidth input (input.length - (rest.length + 1) + tag.width) := by
          rw [shownStart, shownAfter, width]
        rw [if_pos (same.mpr removes), if_pos removes, shownIndex, closing]
        cases found : findClosingTag casing input (input.length - (rest.length + 1) + tag.width)
            tag.name with
        | none =>
          dsimp only [Option.map_none]
          rw [whole]
        | some close =>
          dsimp only [Option.map_some]
          have later : input.length - (rest.length + 1) + tag.width < close :=
            searchClosingTag_gt found
          obtain ⟨past, rfl⟩ : ∃ past, close = input.length - (rest.length + 1) + past :=
            ⟨close - (input.length - (rest.length + 1)), by omega⟩
          rw [shownAfter, shownStart, Nat.add_sub_cancel_left, Nat.add_sub_cancel_left]
      · rw [if_neg (mt same.mp removes), if_neg removes, width]

/-- Where the control characters shield nothing, `stripHtml` leaves what it leaves
without them. -/
theorem stripFrom_stripControls (before : Text) (split : input = before ++ rest)
    (seen : ∀ after, Scans casing input rest (60 :: after) → OpeningSeen casing input after) :
    stripControls (stripFrom casing input 0 rest) =
      stripFrom casing (stripControls input) 0 (stripControls rest) := by
  induction lengthEq : rest.length using Nat.strong_induction_on generalizing rest before with
  | _ length ih =>
    cases rest with
    | nil => rfl
    | cons unit rest =>
      cases removed : removedWidth casing input (unit :: rest) with
      | none =>
        have keeps : Keeps casing input unit rest := removed
        have tail := ih rest.length (by rw [← lengthEq]; exact Nat.lt_succ_self _)
          (before ++ [unit]) (by rw [split, List.append_assoc]; rfl)
          (fun after scans => seen after (.keep keeps scans)) rfl
        rw [strip_keep keeps]
        cases control : isControlChar unit with
        | true => rw [stripControls_cons_control control, stripControls_cons_control control, tail]
        | false =>
          rw [stripControls_cons_plain control, stripControls_cons_plain control, tail]
          have shownKeeps : Keeps casing (stripControls input) unit (stripControls rest) := by
            by_cases opens : unit = 60
            · subst opens
              rw [Keeps, removedWidth_stripControls split (seen rest (.here _)), removed,
                Option.map_none]
            · exact keeps_of_ne opens
          rw [strip_keep shownKeeps]
      | some width =>
        have opens : unit = 60 := by
          by_contra other
          rw [removedWidth, if_pos other] at removed
          cases removed
        subst opens
        have positive := removedWidth_pos removed
        have shorter : ((60 :: rest).drop width).length < length := by
          rw [← lengthEq, List.length_drop, List.length_cons]
          omega
        have tail := ih _ shorter (before ++ (60 :: rest).take width)
          (by rw [split, List.append_assoc, List.take_append_drop])
          (fun after scans => seen after (.piece removed scans)) rfl
        have shownRemoved := removedWidth_stripControls split (seen rest (.here _))
        rw [removed, Option.map_some] at shownRemoved
        rw [strip_piece removed, tail, stripControls_cons_plain rfl, strip_piece shownRemoved,
          ← stripControls_cons_plain rfl, drop_shownWidth]

end

variable {casing : Casing} {unit : CodeUnit} {text rest url after : Text} {link : ParsedLink}
  {depth room : Nat}

theorem depthAfter_stripControls (depth : Nat) (text : Text) :
    depthAfter depth (stripControls text) = depthAfter depth text := by
  induction text generalizing depth with
  | nil => rfl
  | cons unit text ih =>
    cases control : isControlChar unit with
    | true =>
      have other : unit ≠ 40 ∧ unit ≠ 41 := by
        constructor <;> rintro rfl <;> cases control
      have same : depthStep depth unit = depth := by
        rw [depthStep, if_neg other.1, if_neg other.2]
      rw [stripControls_cons_control control, ih, depthAfter, if_neg fun both => other.2 both.1,
        same]
    | false =>
      rw [stripControls_cons_plain control, depthAfter, depthAfter, ih]

theorem parseLink_stripControls (parsed : parseLink text = some link) :
    parseLink (stripControls text) =
      some ⟨stripControls link.label, stripControls link.url, stripControls link.rest⟩ := by
  obtain ⟨after, rfl, noClose, scanned⟩ := parseLink_eq_some_iff.mp parsed
  obtain ⟨rfl, ends⟩ := scanUrl_eq_some_iff.mp scanned
  rw [stripControls_append, stripControls_cons_plain rfl, stripControls_cons_plain rfl]
  refine parseLink_text (fun member => noClose (mem_stripControls member)) ?_
  rw [stripControls_append, stripControls_cons_plain rfl]
  exact scanUrl_eq_some_iff.mpr ⟨rfl, (depthAfter_stripControls 0 link.url).trans ends⟩

theorem isControlChar_cases (control : isControlChar unit) : unit ≤ 32 ∨ unit = 127 := by
  simp only [isControlChar, Bool.or_eq_true, Bool.and_eq_true, decide_eq_true_eq,
    UInt16.le_iff_toNat_le, ← UInt16.toNat_inj] at control ⊢
  simp at control ⊢
  omega

/-- A scheme is the same without the control characters, unless one of them is
in it. -/
theorem schemeFrom_stripControls (plain : 127 ∉ schemeFrom room text) :
    schemeFrom room (stripControls text) = schemeFrom room text := by
  induction text generalizing room with
  | nil => rfl
  | cons unit text ih =>
    rw [schemeFrom] at plain ⊢
    cases control : isControlChar unit with
    | true =>
      have colon : unit ≠ 58 := by
        rintro rfl
        cases control
      rw [if_neg colon] at plain ⊢
      rw [stripControls_cons_control control]
      rcases isControlChar_cases control with space | rfl
      · rw [if_pos (Or.inl space)] at plain ⊢
        exact ih plain
      · rw [if_neg (by decide)] at plain
        split at plain <;> exact absurd List.mem_cons_self plain
    | false =>
      rw [stripControls_cons_plain control, schemeFrom]
      split
      · rfl
      · next colon =>
          rw [if_neg colon] at plain
          split
          · next space =>
              rw [if_pos space] at plain
              exact ih plain
          · next other =>
              rw [if_neg other] at plain
              split
              · rfl
              · next more =>
                  rw [if_neg more] at plain
                  rw [ih fun member => plain (List.mem_cons_of_mem _ member)]

theorem isDangerousUrl_stripControls (dangerous : isDangerousUrl casing url) :
    isDangerousUrl casing (stripControls url) := by
  rw [isDangerousUrl, schemeOf, schemeFrom_trim, decide_eq_true_eq] at dangerous ⊢
  have plain : 127 ∉ schemeFrom 32 url := by
    intro member
    have foreign : ∀ scheme ∈ dangerousSchemes, 127 ∉ scheme := by decide
    exact not_dangerous_of_mem (by decide) (by decide) foreign member dangerous
  rw [schemeFrom_stripControls plain]
  exact dangerous

theorem BracketSeen.sanitizeUrl (seen : BracketSeen casing rest) (parsed : parseLink rest =
    some link) :
    stripControls (sanitizeUrl casing link.url) = sanitizeUrl casing (stripControls link.url) := by
  rw [Sanitizer.sanitizeUrl, Sanitizer.sanitizeUrl]
  by_cases dangerous : isDangerousUrl casing link.url
  · rw [if_pos dangerous, if_pos (isDangerousUrl_stripControls dangerous)]
    decide
  · rw [if_neg dangerous, if_neg (mt (seen.scheme link parsed) dangerous)]

/-- Where the control characters shield nothing, the links are left that are left
without them. -/
theorem links_stripControls (seen : ∀ rest, LinkScans text (91 :: rest) → BracketSeen casing rest) :
    stripControls (sanitizeLinks casing 0 text) = sanitizeLinks casing 0 (stripControls text) := by
  induction lengthEq : text.length using Nat.strong_induction_on generalizing text with
  | _ length ih =>
    cases text with
    | nil => rfl
    | cons unit rest =>
      have next (plain : unit = 91 → parseLink rest = none) :
          stripControls (sanitizeLinks casing 0 rest) =
            sanitizeLinks casing 0 (stripControls rest) :=
        ih rest.length (by rw [← lengthEq]; exact Nat.lt_succ_self _)
          (fun after scans => seen after (.copy plain scans)) rfl
      by_cases opens : unit = 91
      · subst opens
        have here := seen rest (.here _)
        cases parsed : parseLink rest with
        | none =>
          rw [links_none parsed, stripControls_cons_plain rfl, stripControls_cons_plain rfl,
            links_none (here.link parsed), next fun _ => parsed]
        | some link =>
          have shorter : link.rest.length < length := by
            rw [← lengthEq, parseLink_split parsed]
            simp only [List.length_cons, List.length_append]
            omega
          have tail := ih _ shorter (fun after scans => seen after (.link parsed scans)) rfl
          rw [links_some parsed, stripControls_cons_plain rfl,
            links_some (parseLink_stripControls parsed), stripControls_append, tail]
          have text : stripControls (linkText link.label (sanitizeUrl casing link.url)) =
              linkText (stripControls link.label)
                (stripControls (sanitizeUrl casing link.url)) := by
            have close : stripControls [41] = [41] := rfl
            simp only [linkText, List.cons_append, List.append_assoc]
            rw [stripControls_cons_plain rfl, stripControls_append, stripControls_cons_plain rfl,
              stripControls_cons_plain rfl, stripControls_append, close]
          rw [text, here.sanitizeUrl parsed]
      · have plain : unit = 91 → parseLink rest = none := fun same => absurd same opens
        rw [links_other opens]
        cases control : isControlChar unit with
        | true => rw [stripControls_cons_control control, stripControls_cons_control control,
          next plain]
        | false =>
          rw [stripControls_cons_plain control, stripControls_cons_plain control,
            links_other opens, next plain]

def bellText : Text :=
  ascii "<b" ++ 7 :: ascii ">[a](b" ++ 7 :: ascii ")"

theorem Scans.of_removed {input : Text} {width : Nat}
    (scans : Scans casing input text (unit :: after))
    (removed : removedWidth casing input text = some width) :
    text = unit :: after ∨ Scans casing input (text.drop width) (unit :: after) := by
  cases scans with
  | here => exact Or.inl rfl
  | piece other scans =>
    cases removed.symm.trans other
    exact Or.inr scans
  | keep keeps =>
    rw [Keeps, removed] at keeps
    cases keeps

theorem Scans.mem {input : Text} (scans : Scans casing input text (unit :: after)) : unit ∈ text :=
    by
  generalize finalEq : unit :: after = final at scans
  induction scans with
  | here =>
    subst finalEq
    exact List.mem_cons_self
  | piece removed _ ih => exact List.mem_of_mem_drop (ih finalEq)
  | keep keeps _ ih => exact List.mem_cons_of_mem _ (ih finalEq)

theorem LinkScans.of_parsed (scans : LinkScans (91 :: rest) (91 :: after))
    (parsed : parseLink rest = some link) : after = rest ∨ LinkScans link.rest (91 :: after) := by
  cases scans with
  | here => exact Or.inl rfl
  | copy plain =>
    rw [plain rfl] at parsed
    cases parsed
  | link other scans =>
    cases parsed.symm.trans other
    exact Or.inr scans

theorem openingSeen_bellText : OpeningSeen asciiCasing bellText bellText.tail := by
  have read : readTag asciiCasing bellText.tail = some ⟨ascii "b", 4, false⟩ := by
    decide +kernel
  have shownRead : readTag asciiCasing (stripControls bellText.tail) = some ⟨ascii "b", 3, false⟩ := by
    decide +kernel
  have keeps : ∀ width, ¬Tag.RemovesContent ⟨ascii "b", width, false⟩ := by
    have noName : ascii "b" ∉ contentBlockedTags := by
      decide
    exact fun width removes => noName removes.1
  constructor
  · decide +kernel
  · intro comment
    cases comment
  · intro _ noTag
    cases noTag
  · intro _ tag shown isTag isShown
    cases read.symm.trans isTag
    cases shownRead.symm.trans isShown
    exact iff_of_false (keeps 3) (keeps 4)
  · intro _ tag shown isTag _ removes
    cases read.symm.trans isTag
    exact absurd removes (keeps 4)

theorem bracketSeen_bellText : BracketSeen asciiCasing (ascii "a](b" ++ 7 :: ascii ")") := by
  have parsed : parseLink (ascii "a](b" ++ 7 :: ascii ")") =
      some ⟨ascii "a", ascii "b" ++ [7], []⟩ := by
    decide +kernel
  constructor
  · intro noLink
    cases noLink
  · intro link isLink dangerous
    cases parsed.symm.trans isLink
    exact absurd dangerous (by decide +kernel)

example : sanitizeAIOutput asciiCasing (ascii "<" ++ 0 :: ascii "b><script" ++ 0 :: ascii "x><<y>b>") =
    sanitizeAIOutput asciiCasing
      (stripControls (ascii "<" ++ 0 :: ascii "b><script" ++ 0 :: ascii "x><<y>b>")) := by
  decide +kernel

end P2PHub.Sanitizer
