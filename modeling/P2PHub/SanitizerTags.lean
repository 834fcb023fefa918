import P2PHub.Sanitizer

/-!
# Which texts `stripHtml` leaves without a tag

The scanner keeps a unit or skips a piece.  What it keeps is a tag again only
where a `<` that begins none is kept directly before a skipped piece, and what
is kept behind the piece completes it.
-/

namespace P2PHub.Sanitizer

section

variable (casing : Casing) (input : Text)

def Keeps (unit : CodeUnit) (rest : Text) : Prop :=
  removedWidth casing input (unit :: rest) = none

/-- The scanner gets from one position to another by skipping pieces. -/
inductive Skips : Text → Text → Prop
  | here (rest : Text) : Skips rest rest
  | piece {rest after : Text} {width : Nat} (removed : removedWidth casing input rest = some width)
      (skips : Skips (rest.drop width) after) : Skips rest after

/-- The scanner gets from one position to another. -/
inductive Scans : Text → Text → Prop
  | here (rest : Text) : Scans rest rest
  | piece {rest after : Text} {width : Nat} (removed : removedWidth casing input rest = some width)
      (scans : Scans (rest.drop width) after) : Scans rest after
  | keep {unit : CodeUnit} {rest after : Text} (keeps : Keeps casing input unit rest)
      (scans : Scans rest after) : Scans (unit :: rest) after

variable {casing input} {rest after out : Text} {unit : CodeUnit} {width skip : Nat}

theorem readTag_width {tag : Tag} (read : readTag casing rest = some tag) : 0 < tag.width := by
  unfold readTag at read
  split at read
  · cases read
  · dsimp only at read
    split at read
    · obtain ⟨index, -, rfl⟩ := Option.map_eq_some_iff.mp read
      exact Nat.succ_pos _
    · split at read
      · obtain ⟨index, -, rfl⟩ := Option.map_eq_some_iff.mp read
        exact Nat.succ_pos _
      · split at read
        · cases read
          exact Nat.succ_pos _
        · cases read

theorem closingEnd_gt {index stop : Nat} (found : closingEnd input index = some stop)
    : index < stop := by
  unfold closingEnd at found
  split at found
  · split at found
    · cases found
      omega
    · cases found
  · cases found

theorem searchClosingTag_gt {needle : Text} {index stop : Nat}
    (found : searchClosingTag input needle index rest = some stop) : index < stop := by
  induction rest generalizing index with
  | nil => cases found
  | cons unit rest ih =>
    rw [searchClosingTag] at found
    split at found
    · split at found
      · next closing closingEq =>
          cases found
          have later := closingEnd_gt closingEq
          omega
      · have later := ih found
        omega
    · have later := ih found
      omega

theorem removedWidth_pos (removed : removedWidth casing input rest = some width) : 0 < width := by
  unfold removedWidth at removed
  split at removed
  · cases removed
  · split at removed
    · cases removed
    · split at removed
      · split at removed
        · cases removed
          exact Nat.succ_pos _
        · cases removed
          exact Nat.succ_pos _
      · split at removed
        · cases removed
        · next tag tagEq =>
            split at removed
            · dsimp only at removed
              split at removed
              · next close closeEq =>
                  cases removed
                  have later := searchClosingTag_gt closeEq
                  omega
              · cases removed
                exact Nat.succ_pos _
            · cases removed
              exact readTag_width tagEq

theorem stripFrom_skip : stripFrom casing input skip rest =
    stripFrom casing input 0 (rest.drop skip) := by
  induction rest generalizing skip with
  | nil => cases skip <;> rfl
  | cons unit rest ih =>
    cases skip with
    | zero => rfl
    | succ =>
      exact ih

theorem strip_piece (removed : removedWidth casing input rest = some width) :
    stripFrom casing input 0 rest = stripFrom casing input 0 (rest.drop width) := by
  cases rest with
  | nil => cases removed
  | cons =>
    obtain ⟨less, rfl⟩ := Nat.exists_eq_succ_of_ne_zero (removedWidth_pos removed).ne'
    rw [stripFrom, removed]
    dsimp only
    rw [Nat.succ_eq_add_one, Nat.add_sub_cancel, stripFrom_skip, List.drop_succ_cons]

theorem strip_keep (keeps : Keeps casing input unit rest) :
    stripFrom casing input 0 (unit :: rest) = unit :: stripFrom casing input 0 rest := by
  rw [stripFrom, keeps]

theorem Skips.strip (skips : Skips casing input rest after) :
    stripFrom casing input 0 rest = stripFrom casing input 0 after := by
  induction skips with
  | here => rfl
  | piece removed _ ih => rw [strip_piece removed, ih]

theorem exists_skips (left : stripFrom casing input 0 rest = unit :: out) :
    ∃ after, Skips casing input rest (unit :: after) ∧ Keeps casing input unit after ∧
      out = stripFrom casing input 0 after := by
  induction lengthEq : rest.length using Nat.strong_induction_on generalizing rest with
  | _ length ih =>
    cases rest with
    | nil => cases left
    | cons first rest =>
      cases removed : removedWidth casing input (first :: rest) with
      | none =>
        rw [strip_keep removed] at left
        cases left
        exact ⟨rest, .here _, removed, rfl⟩
      | some width =>
        rw [strip_piece removed] at left
        have positive := removedWidth_pos removed
        have shorter : ((first :: rest).drop width).length < length := by
          rw [List.length_drop, lengthEq]
          simp only [List.length_cons] at lengthEq
          omega
        obtain ⟨after, skips, keeps, outEq⟩ := ih _ shorter left rfl
        exact ⟨after, .piece removed skips, keeps, outEq⟩

theorem Skips.scans {final : Text} (skips : Skips casing input rest after)
    (scans : Scans casing input after final) : Scans casing input rest final := by
  induction skips with
  | here => exact scans
  | piece removed _ ih => exact .piece removed (ih scans)

theorem exists_scans {before tail : Text} (left : stripFrom casing input 0 rest =
    before ++ unit :: tail) :
    ∃ after, Scans casing input rest (unit :: after) ∧ Keeps casing input unit after ∧
      tail = stripFrom casing input 0 after := by
  induction before generalizing rest with
  | nil =>
    obtain ⟨after, skips, keeps, tailEq⟩ := exists_skips left
    exact ⟨after, skips.scans (.here _), keeps, tailEq⟩
  | cons first before ih =>
    obtain ⟨middle, skips, keepsFirst, restEq⟩ := exists_skips left
    obtain ⟨after, scans, keeps, tailEq⟩ := ih restEq.symm
    exact ⟨after, skips.scans (.keep keepsFirst scans), keeps, tailEq⟩

theorem Scans.left (scans : Scans casing input rest (unit :: after))
    (keeps : Keeps casing input unit after) :
    ∃ before, stripFrom casing input 0 rest = before ++ unit :: stripFrom casing input 0 after := by
  generalize finalEq : unit :: after = final at scans
  induction scans with
  | here =>
    subst finalEq
    exact ⟨[], strip_keep keeps⟩
  | piece removed _ ih =>
    rw [strip_piece removed]
    exact ih finalEq
  | keep keepsFirst _ ih =>
    obtain ⟨before, beforeEq⟩ := ih finalEq
    rw [strip_keep keepsFirst, beforeEq]
    exact ⟨_ :: before, rfl⟩

end

section

variable {casing : Casing} {unit : CodeUnit} {rest text : Text} {input : Text}

/-- What may stand behind a `<`: nothing that begins a tag. -/
def BeginsNoTag (text : Text) : Prop :=
  ∀ next rest, text = next :: rest → isTagStartChar next = false ∧ next ≠ 47 ∧ next ≠ 33 ∧
    (next = 63 → 62 ∉ rest)

/-- No tag and no comment is read anywhere in a text, the check for tags fails
on it, and it is sanitized already. -/
structure Clean (casing : Casing) (text : Text) : Prop where
  noTag : ∀ before rest, text = before ++ 60 :: rest →
    readTag casing rest = none ∧ (ascii "!--").isPrefixOf rest = false
  safe : containsTagStart text = false
  fixed : sanitizeText casing text = text

theorem indexOf_unit_eq_none_iff : indexOf [unit] text = none ↔ unit ∉ text := by
  induction text with
  | nil => simp [indexOf]
  | cons first rest ih =>
    rw [indexOf]
    by_cases same : unit = first
    · simp [same]
    · simp [same, ih]

theorem readTag_none (begins : BeginsNoTag text) : readTag casing text = none := by
  cases text with
  | nil => rfl
  | cons next rest =>
    obtain ⟨noLetter, noSlash, noMark, noQuestion⟩ := begins next rest rfl
    rw [readTag, if_neg noSlash]
    by_cases question : next = 63
    · rw [if_pos (.inr question), indexOf_unit_eq_none_iff.mpr (noQuestion question)]
      rfl
    · rw [if_neg (not_or.mpr ⟨noMark, question⟩), noLetter]
      rfl

theorem comment_none (begins : BeginsNoTag text) : (ascii "!--").isPrefixOf text = false := by
  cases text with
  | nil => rfl
  | cons next rest =>
    obtain ⟨-, -, noMark, -⟩ := begins next rest rfl
    have differs : (33 == next) = false := beq_false_of_ne noMark.symm
    change ((33 == next) && _) = false
    rw [differs, Bool.false_and]

theorem readTag_letter (letter : isTagStartChar unit) : readTag casing (unit :: rest) ≠ none := by
  have noSlash : unit ≠ 47 := by
    rintro rfl
    cases letter
  have noMark : ¬(unit = 33 ∨ unit = 63) := by
    rintro (rfl | rfl) <;> cases letter
  rw [readTag, if_neg noSlash, if_neg noMark, if_pos letter]
  exact Option.some_ne_none _

theorem readTag_question (closes : 62 ∈ rest) : readTag casing (63 :: rest) ≠ none := by
  have found : indexOf [62] rest ≠ none := fun missing => indexOf_unit_eq_none_iff.mp missing closes
  exact fun none => found (Option.map_eq_none_iff.mp none)

theorem containsTagStart_iff : containsTagStart text = false ↔
    ∀ before next rest, text = before ++ 60 :: next :: rest →
      isTagStartChar next = false ∧ next ≠ 47 ∧ next ≠ 33 := by
  induction text with
  | nil => simp [containsTagStart]
  | cons first tail ih =>
    rw [containsTagStart, Bool.or_eq_false_iff, ih]
    constructor
    · rintro ⟨head, later⟩ before next rest textEq
      cases before with
      | nil =>
        cases textEq
        simpa [opensTag, and_assoc] using head
      | cons other before =>
        cases textEq
        exact later before next rest rfl
    · intro all
      constructor
      · by_cases opens : first = 60
        · cases tail with
          | nil => simp [opensTag]
          | cons next rest =>
            subst opens
            obtain ⟨noLetter, noSlash, noMark⟩ := all [] next rest rfl
            simp [opensTag, noLetter, noSlash, noMark]
        · simp [opens]
      · rintro before next rest rfl
        exact all (first :: before) next rest rfl

theorem keeps_of_ne (plain : unit ≠ 60) : Keeps casing input unit rest := by
  exact if_pos plain

theorem keeps_opening_iff : Keeps casing input 60 rest ↔
    (ascii "!--").isPrefixOf rest = false ∧ readTag casing rest = none := by
  rw [Keeps, removedWidth, if_neg (by decide)]
  constructor
  · intro keeps
    split at keeps
    · split at keeps <;> cases keeps
    · next noComment =>
        refine ⟨Bool.eq_false_iff.mpr noComment, ?_⟩
        split at keeps
        · assumption
        · split at keeps
          · dsimp only at keeps
            split at keeps <;> cases keeps
          · cases keeps
  · rintro ⟨noComment, noTag⟩
    rw [noComment, noTag]
    rfl

theorem strip_of_beginsNoTag (all : ∀ before rest, text = before ++ 60 :: rest → BeginsNoTag rest) :
    stripFrom casing input 0 text = text := by
  induction text with
  | nil => rfl
  | cons first tail ih =>
    have keeps : Keeps casing input first tail := by
      by_cases opens : first = 60
      · subst opens
        have begins := all [] tail rfl
        exact keeps_opening_iff.mpr ⟨comment_none begins, readTag_none begins⟩
      · exact keeps_of_ne opens
    rw [strip_keep keeps, ih]
    rintro before rest rfl
    exact all (first :: before) rest rfl

theorem clean_iff : Clean casing text ↔
    ∀ before rest, text = before ++ 60 :: rest → BeginsNoTag rest := by
  constructor
  · rintro ⟨noTag, safe, -⟩ before _ textEq next rest rfl
    obtain ⟨noLetter, noSlash, noMark⟩ := containsTagStart_iff.mp safe before next rest textEq
    refine ⟨noLetter, noSlash, noMark, ?_⟩
    rintro rfl closes
    exact readTag_question closes (noTag before _ textEq).1
  · intro all
    refine ⟨fun before rest textEq => ?_, ?_, strip_of_beginsNoTag all⟩
    · exact ⟨readTag_none (all before rest textEq), comment_none (all before rest textEq)⟩
    · apply containsTagStart_iff.mpr
      intro before next rest textEq
      obtain ⟨noLetter, noSlash, noMark, -⟩ := all before _ textEq next rest rfl
      exact ⟨noLetter, noSlash, noMark⟩

end

variable {casing : Casing} {input rest after : Text} {unit : CodeUnit}

/-- Where the scanner keeps a `<`, what it keeps next does not complete it. -/
structure KeepsApart (casing : Casing) (input : Text) : Prop where
  closed : ∀ rest, Scans casing input input (60 :: rest) → Keeps casing input 60 rest →
    rest.head? ≠ some 47 ∧ rest.head? ≠ some 33
  apart : ∀ rest width next after, Scans casing input input (60 :: rest) →
    Keeps casing input 60 rest → removedWidth casing input rest = some width →
      Skips casing input rest (next :: after) → Keeps casing input next after →
        isTagStartChar next = false ∧ next ≠ 47 ∧ next ≠ 33 ∧
          (next = 63 → ¬∃ tail, Scans casing input after (62 :: tail))

theorem mem_strip_iff (plain : unit ≠ 60) :
    unit ∈ stripFrom casing input 0 rest ↔ ∃ tail, Scans casing input rest (unit :: tail) := by
  constructor
  · intro member
    obtain ⟨before, tail, left⟩ := List.append_of_mem member
    obtain ⟨after, scans, -, -⟩ := exists_scans left
    exact ⟨after, scans⟩
  · rintro ⟨tail, scans⟩
    obtain ⟨before, left⟩ := scans.left (keeps_of_ne plain)
    rw [left]
    exact List.mem_append_right _ List.mem_cons_self

theorem strip_subset : stripFrom casing input 0 rest ⊆ rest := by
  intro unit member
  obtain ⟨before, tail, left⟩ := List.append_of_mem member
  obtain ⟨after, scans, -, -⟩ := exists_scans left
  clear left member
  generalize finalEq : unit :: after = final at scans
  induction scans with
  | here =>
    subst finalEq
    exact List.mem_cons_self
  | piece removed _ ih => exact List.mem_of_mem_drop (ih finalEq)
  | keep keeps _ ih => exact List.mem_cons_of_mem _ (ih finalEq)

theorem beginsNoTag_of_keeps (keeps : Keeps casing input 60 (unit :: rest))
    (noSlash : unit ≠ 47) (noMark : unit ≠ 33) :
    isTagStartChar unit = false ∧ (unit = 63 → 62 ∉ stripFrom casing input 0 rest) := by
  have noTag := (keeps_opening_iff.mp keeps).2
  constructor
  · cases letter : isTagStartChar unit with
    | false => rfl
    | true => exact absurd noTag (readTag_letter letter)
  · rintro rfl closes
    exact readTag_question (strip_subset closes) noTag

/-- What `sanitizeText` leaves is clean exactly when it keeps no `<` before
what completes it. -/
theorem sanitizeText_clean_iff (casing : Casing) (input : Text) :
    Clean casing (sanitizeText casing input) ↔ KeepsApart casing input := by
  rw [clean_iff]
  constructor
  · intro all
    have begins {rest : Text} (scans : Scans casing input input (60 :: rest))
        (keeps : Keeps casing input 60 rest) : BeginsNoTag (stripFrom casing input 0 rest) := by
      obtain ⟨before, left⟩ := scans.left keeps
      exact all before _ left
    constructor
    · intro rest scans keeps
      have noTag := begins scans keeps
      constructor
      · intro head
        obtain ⟨tail, rfl⟩ := List.head?_eq_some_iff.mp head
        exact (noTag 47 _ (strip_keep (keeps_of_ne (by decide)))).2.1 rfl
      · intro head
        obtain ⟨tail, rfl⟩ := List.head?_eq_some_iff.mp head
        exact (noTag 33 _ (strip_keep (keeps_of_ne (by decide)))).2.2.1 rfl
    · intro rest width next after scans keeps removed skips keepsNext
      have left := skips.strip.trans (strip_keep keepsNext)
      obtain ⟨noLetter, noSlash, noMark, noQuestion⟩ := begins scans keeps next _ left
      refine ⟨noLetter, noSlash, noMark, fun question closes => ?_⟩
      exact noQuestion question ((mem_strip_iff (by decide)).mpr closes)
  · intro apart before rest left next out restEq
    obtain ⟨position, scans, keeps, positionEq⟩ := exists_scans left
    obtain ⟨after, skips, keepsNext, outEq⟩ := exists_skips (positionEq.symm.trans restEq)
    cases removed : removedWidth casing input position with
    | some width =>
      obtain ⟨noLetter, noSlash, noMark, noQuestion⟩ :=
        apart.apart position width next after scans keeps removed skips keepsNext
      refine ⟨noLetter, noSlash, noMark, fun question closes => ?_⟩
      rw [outEq] at closes
      exact noQuestion question ((mem_strip_iff (by decide)).mp closes)
    | none =>
      have direct : position = next :: after := by
        cases skips with
        | here => rfl
        | piece other => cases removed.symm.trans other
      subst direct
      obtain ⟨noSlash, noMark⟩ := apart.closed _ scans keeps
      have slash : next ≠ 47 := fun same => noSlash (congrArg some same)
      have mark : next ≠ 33 := fun same => noMark (congrArg some same)
      obtain ⟨noLetter, noQuestion⟩ := beginsNoTag_of_keeps keeps slash mark
      rw [outEq]
      exact ⟨noLetter, slash, mark, noQuestion⟩

def asciiCasing : Casing :=
  ⟨fun _ unit _ => [unit]⟩

/-- A tag is left where the `<` of another one stands before a tag. -/
theorem sanitizeText_joins_tag : ¬Clean asciiCasing (sanitizeText asciiCasing (ascii "<<b>b>")) := by
  intro clean
  have left : sanitizeText asciiCasing (ascii "<<b>b>") = [] ++ 60 :: ascii "b>" := by
    decide +kernel
  have noTag := (clean.noTag _ _ left).1
  exact readTag_letter (by decide) noTag

end P2PHub.Sanitizer
