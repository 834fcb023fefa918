import P2PHub.SanitizerLinks

/-!
# Links hidden in the URLs of other links

A link that begins within a URL which `sanitizeMarkdown` keeps is left as it
was, unless it reaches beyond the URL to another link that the pass rewrites.
-/

namespace P2PHub.Sanitizer

section

variable {casing : Casing} {before inner after text : Text}

def LinksSafe (casing : Casing) (text : Text) : Prop :=
  ∀ before rest link, text = before ++ 91 :: rest → parseLink rest = some link →
    isDangerousUrl casing link.url = false

/-- A dangerous link begins within a URL, in front of the rest of the URL and of
what follows it.  It ends there, or at a link that no other bracket opens. -/
def Hidden (casing : Casing) (inner after : Text) : Prop :=
  ∃ link, parseLink (inner ++ 41 :: after) = some link ∧ isDangerousUrl casing link.url = true ∧
    (93 ∈ inner ∨ 91 ∉ after.takeWhile (· ≠ 93))

theorem inner_link {label body : Text} (noClose : 93 ∉ label)
    (ends : depthAfter 0 (before ++ 91 :: (label ++ 93 :: body)) = some 0) :
    (∃ url rest, ∀ after, parseLink (label ++ 93 :: body ++ 41 :: after) =
        some ⟨label, url, rest ++ 41 :: after⟩) ∨
      ∀ after, parseLink (label ++ 93 :: body ++ 41 :: after) = none := by
  cases body with
  | nil =>
    right
    intro after
    rw [List.append_assoc, List.cons_append]
    apply (parseLink_close_iff noClose).mpr
    intro body bodyEq
    cases (List.cons.inj bodyEq).1
  | cons first body =>
    by_cases opens : first = 40
    · subst opens
      left
      have split : before ++ 91 :: (label ++ 93 :: 40 :: body) =
          (before ++ 91 :: (label ++ [93])) ++ 40 :: body := by simp
      rw [split, depthAfter_append] at ends
      obtain ⟨depth, -, bodyEnds⟩ := Option.bind_eq_some_iff.mp ends
      cases scanned : scanUrl 0 body with
      | none =>
        obtain ⟨final, stays⟩ := scanUrl_eq_none_iff.mp scanned
        have raised : depthAfter (0 + (depth + 1)) body = some (final + (depth + 1)) :=
          depthAfter_add stays
        rw [Nat.zero_add] at raised
        cases raised.symm.trans bodyEnds
      | some found =>
        refine ⟨found.1, found.2, fun after => ?_⟩
        rw [List.append_assoc]
        exact parseLink_text noClose (scanUrl_append scanned)
    · right
      intro after
      rw [List.append_assoc, List.cons_append]
      apply (parseLink_close_iff noClose).mpr
      intro rest restEq
      exact absurd (List.cons.inj restEq).1 opens

theorem takeWhile_label {label rest : Text} (noClose : 93 ∉ label) :
    (label ++ 93 :: rest).takeWhile (· ≠ 93) = label := by
  rw [List.takeWhile_append_of_pos]
  · rw [List.takeWhile_cons_of_neg (by decide), List.append_nil]
  · intro unit member
    exact decide_eq_true fun same => noClose (same ▸ member)

/-- What is left begins with a dangerous link exactly when the text does, and no
other bracket opens the link. -/
theorem begins_dangerous_iff : (∃ link, parseLink (sanitizeLinks casing 0 text) = some link ∧
        isDangerousUrl casing link.url) ↔
      ∃ link, parseLink text = some link ∧ isDangerousUrl casing link.url ∧
        91 ∉ text.takeWhile (· ≠ 93) := by
  cases parsed : parseLink text with
  | none =>
    rw [parseLink_links_none casing parsed]
    simp
  | some link =>
    obtain ⟨body, textEq, noClose, scanned⟩ := parseLink_eq_some_iff.mp parsed
    have label : text.takeWhile (· ≠ 93) = link.label := by
      rw [textEq]
      exact takeWhile_label noClose
    rw [label]
    by_cases opened : 91 ∈ link.label
    · obtain ⟨front, last, labelEq, plain⟩ := List.eq_append_cons_of_mem opened
      have lastNoClose : 93 ∉ last := fun member =>
        noClose (labelEq ▸ List.mem_append_right _ (List.mem_cons_of_mem _ member))
      have frontNoClose : 93 ∉ front := fun member =>
        noClose (labelEq ▸ List.mem_append_left _ member)
      have left : sanitizeLinks casing 0 text = front ++ ([91] ++ (last ++ 93 :: 40 ::
          (sanitizeUrl casing link.url ++ 41 :: sanitizeLinks casing 0 link.rest))) := by
        rw [textEq, labelEq, List.append_assoc, links_plain plain, List.cons_append,
          links_some (parseLink_text lastNoClose scanned)]
        simp [linkText]
      have safeScan : scanUrl 0 (sanitizeUrl casing link.url ++ 41 :: sanitizeLinks casing 0 link.rest) =
          some (sanitizeUrl casing link.url, sanitizeLinks casing 0 link.rest) :=
        scanUrl_eq_some_iff.mpr ⟨rfl, depthAfter_sanitizeUrl (link_ends parsed)⟩
      constructor
      · rintro ⟨found, foundEq, dangerous⟩
        rw [left, parseLink_append frontNoClose, parseLink_append (by decide),
          parseLink_text lastNoClose safeScan] at foundEq
        cases foundEq
        have clean : isDangerousUrl casing (sanitizeUrl casing link.url) = false :=
          isDangerousUrl_sanitizeUrl
        cases clean.symm.trans dangerous
      · rintro ⟨found, -, -, notOpened⟩
        exact absurd opened notOpened
    · have left : sanitizeLinks casing 0 text =
          link.label ++ 93 :: 40 :: sanitizeLinks casing 0 body := by
        rw [textEq, links_plain opened, links_other (by decide), links_other (by decide)]
      obtain ⟨found, foundEq⟩ : ∃ found, scanUrl 0 (sanitizeLinks casing 0 body) = some found := by
        cases leftScan : scanUrl 0 (sanitizeLinks casing 0 body) with
        | some found => exact ⟨found, rfl⟩
        | none =>
          obtain ⟨final, stays⟩ := scanUrl_eq_none_iff.mp leftScan
          rw [scanUrl_eq_none_iff.mpr ⟨final, depthAfter_links.symm.trans stays⟩] at scanned
          cases scanned
      have same := dangerous_links scanned foundEq
      rw [left, parseLink_text noClose foundEq]
      constructor
      · rintro ⟨other, otherEq, dangerous⟩
        cases otherEq
        exact ⟨link, rfl, same.symm.trans dangerous, opened⟩
      · rintro ⟨other, otherEq, dangerous, -⟩
        cases otherEq
        exact ⟨_, rfl, same.trans dangerous⟩

theorem hidden_iff (ends : depthAfter 0 (before ++ 91 :: inner) = some 0) :
    (∃ link, parseLink (inner ++ 41 :: sanitizeLinks casing 0 after) = some link ∧
        isDangerousUrl casing link.url) ↔ Hidden casing inner after := by
  by_cases closes : 93 ∈ inner
  · obtain ⟨label, body, rfl, noClose⟩ := List.eq_append_cons_of_mem closes
    unfold Hidden
    rcases inner_link noClose ends with ⟨url, rest, parsed⟩ | none
    · rw [parsed, parsed]
      constructor
      · rintro ⟨link, linkEq, dangerous⟩
        cases linkEq
        exact ⟨_, rfl, dangerous, .inl closes⟩
      · rintro ⟨link, linkEq, dangerous, -⟩
        cases linkEq
        exact ⟨_, rfl, dangerous⟩
    · rw [none, none]
      simp
  · have noClose : 93 ∉ inner ++ [41] := by
      simp [closes]
    have shown (rest : Text) : inner ++ 41 :: rest = (inner ++ [41]) ++ rest := by simp
    have outside (rest : Text) (holds : Prop) :
        (∃ link, parseLink (inner ++ 41 :: rest) = some link ∧ isDangerousUrl casing link.url =
          true ∧ holds) ↔
          ∃ link, parseLink rest = some link ∧ isDangerousUrl casing link.url ∧ holds := by
      rw [shown, parseLink_append noClose]
      cases parseLink rest <;> simp
    have left := outside (sanitizeLinks casing 0 after) True
    simp only [and_true] at left
    rw [left, begins_dangerous_iff, ← outside after, Hidden]
    simp only [closes, false_or]

end

variable {casing : Casing} {text position : Text}

/-- The pass over the links gets from one position to another. -/
inductive Visits : Text → Text → Prop
  | here (text : Text) : Visits text text
  | copy {unit : CodeUnit} {rest after : Text} (plain : unit = 91 → parseLink rest = none)
      (visits : Visits rest after) : Visits (unit :: rest) after
  | link {rest after : Text} {link : ParsedLink} (parsed : parseLink rest = some link)
      (visits : Visits link.rest after) : Visits (91 :: rest) after

def NoHiddenLink (casing : Casing) (text : Text) : Prop :=
  ∀ rest link, Visits text (91 :: rest) → parseLink rest = some link →
    isDangerousUrl casing link.url = false → ∀ before inner, link.url = before ++ 91 :: inner →
      ¬Hidden casing inner link.rest

theorem links_copy {unit : CodeUnit} {rest : Text} (plain : unit = 91 → parseLink rest = none) :
    sanitizeLinks casing 0 (unit :: rest) = unit :: sanitizeLinks casing 0 rest := by
  by_cases opens : unit = 91
  · subst opens
    exact links_none (plain rfl)
  · exact links_other opens

theorem Visits.left (visits : Visits text position) :
    ∃ before, sanitizeLinks casing 0 text = before ++ sanitizeLinks casing 0 position := by
  induction visits with
  | here => exact ⟨[], rfl⟩
  | copy plain _ ih =>
    obtain ⟨before, beforeEq⟩ := ih
    rw [links_copy plain, beforeEq]
    exact ⟨_ :: before, rfl⟩
  | link parsed _ ih =>
    obtain ⟨before, beforeEq⟩ := ih
    rw [links_some parsed, beforeEq, ← List.append_assoc]
    exact ⟨_, rfl⟩

theorem linkText_cases {label url after before rest : Text}
    (whole : linkText label url ++ after = before ++ 91 :: rest) (noClose : 93 ∉ label) :
    (∃ inner, 93 ∉ inner ∧ rest = inner ++ 93 :: 40 :: (url ++ 41 :: after)) ∨
      (∃ front inner, url = front ++ 91 :: inner ∧ rest = inner ++ 41 :: after) ∨
        ∃ front, after = front ++ 91 :: rest := by
  have split : linkText label url ++ after = (91 :: label) ++ (93 :: 40 :: (url ++ 41 :: after)) :=
    by
    simp [linkText]
  rw [split] at whole
  rcases List.append_eq_append_iff.mp whole with ⟨more, beforeEq, tailEq⟩ | ⟨more, labelEq, tailEq⟩
  · cases more with
    | nil => cases (List.cons.inj tailEq).1
    | cons first more =>
      cases more with
      | nil => cases (List.cons.inj (List.cons.inj tailEq).2).1
      | cons second more =>
        have urlEq := (List.cons.inj (List.cons.inj tailEq).2).2
        rcases List.append_eq_append_iff.mp urlEq with ⟨last, moreEq, afterEq⟩ | ⟨last, urlIs,
          restEq⟩
        · cases last with
          | nil => cases (List.cons.inj afterEq).1
          | cons other last => exact .inr (.inr ⟨last, (List.cons.inj afterEq).2⟩)
        · cases last with
          | nil => cases (List.cons.inj restEq).1
          | cons other last =>
            obtain ⟨rfl, restIs⟩ := List.cons.inj restEq
            exact .inr (.inl ⟨more, last, urlIs, restIs⟩)
  · cases more with
    | nil => cases (List.cons.inj tailEq).1
    | cons first more =>
      obtain ⟨rfl, restEq⟩ := List.cons.inj tailEq
      refine .inl ⟨more, fun member => ?_, restEq⟩
      have inside : 93 ∈ 91 :: label :=
        labelEq ▸ List.mem_append_right _ (List.mem_cons_of_mem _ member)
      rcases List.mem_cons.mp inside with same | inLabel
      · cases same
      · exact noClose inLabel

theorem links_safe (noHidden : NoHiddenLink casing text) :
    LinksSafe casing (sanitizeLinks casing 0 text) := by
  induction lengthEq : text.length using Nat.strong_induction_on generalizing text with
  | _ length ih =>
    intro before rest found leftEq foundEq
    cases text with
    | nil => cases before <;> cases leftEq
    | cons unit tail =>
      have copied (plain : unit = 91 → parseLink tail = none)
          (left : unit :: sanitizeLinks casing 0 tail = before ++ 91 :: rest) :
          isDangerousUrl casing found.url = false := by
        cases before with
        | nil =>
          cases left
          rw [parseLink_links_none casing (plain rfl)] at foundEq
          cases foundEq
        | cons first before =>
          have later : NoHiddenLink casing tail := fun rest link visits =>
            noHidden rest link (.copy plain visits)
          have shorter : tail.length < length := by
            rw [← lengthEq]
            exact Nat.lt_succ_self _
          exact ih _ shorter later rfl before rest found (List.cons.inj left).2 foundEq
      by_cases opens : unit = 91
      · subst opens
        cases parsed : parseLink tail with
        | none => exact copied (fun _ => parsed) ((links_none parsed).symm.trans leftEq)
        | some link =>
          obtain ⟨body, tailEq, noClose, scanned⟩ := parseLink_eq_some_iff.mp parsed
          have ends := link_ends parsed
          rw [links_some parsed] at leftEq
          rcases linkText_cases leftEq noClose with ⟨inner, innerNoClose, rfl⟩ |
              ⟨front, inner, urlEq, rfl⟩ | ⟨front, afterEq⟩
          · have scan : scanUrl 0 (sanitizeUrl casing link.url ++
                41 :: sanitizeLinks casing 0 link.rest) =
                some (sanitizeUrl casing link.url, sanitizeLinks casing 0 link.rest) :=
              scanUrl_eq_some_iff.mpr ⟨rfl, depthAfter_sanitizeUrl ends⟩
            cases (parseLink_text innerNoClose scan).symm.trans foundEq
            exact isDangerousUrl_sanitizeUrl
          · have safe : isDangerousUrl casing link.url = false := by
              by_contra dangerous
              rw [sanitizeUrl, if_pos (eq_true_of_ne_false dangerous)] at urlEq
              have blank : (91 : CodeUnit) ∉ ascii "about:blank" := by decide
              exact blank (urlEq ▸ List.mem_append_right _ List.mem_cons_self)
            rw [sanitizeUrl, safe, if_neg Bool.false_ne_true] at urlEq
            have noneHidden := noHidden tail link (.here _) parsed safe front inner urlEq
            rw [urlEq] at ends
            by_contra dangerous
            exact noneHidden ((hidden_iff ends).mp ⟨found, foundEq, eq_true_of_ne_false dangerous⟩)
          · have later : NoHiddenLink casing link.rest := fun rest other visits =>
              noHidden rest other (.link parsed visits)
            have shorter : link.rest.length < length := by
              have lengths := congrArg List.length (parseLink_split parsed)
              simp only [List.length_append, List.length_cons] at lengths lengthEq
              omega
            exact ih _ shorter later rfl front rest found afterEq foundEq
      · exact copied (fun same => absurd same opens) ((links_other opens).symm.trans leftEq)

/-- `sanitizeMarkdown` leaves no dangerous link exactly when no URL that it
keeps hides one. -/
theorem sanitizeMarkdown_safe_iff (casing : Casing) (markdown : Text) :
    LinksSafe casing (sanitizeMarkdown casing markdown) ↔
      NoHiddenLink casing (stripHtml casing markdown) := by
  constructor
  · intro safe rest link visits parsed kept front inner urlEq hidden
    have ends := link_ends parsed
    rw [urlEq] at ends
    obtain ⟨found, foundEq, dangerous⟩ := (hidden_iff ends).mpr hidden
    have copied : ∃ before, sanitizeLinks casing 0 (stripHtml casing markdown) =
        before ++ sanitizeLinks casing 0 (91 :: rest) := visits.left
    obtain ⟨before, left⟩ := copied
    have whole : sanitizeMarkdown casing markdown =
        (before ++ 91 :: (link.label ++ 93 :: 40 :: front)) ++
          91 :: (inner ++ 41 :: sanitizeLinks casing 0 link.rest) := by
      rw [sanitizeMarkdown, left, links_some parsed, sanitizeUrl, kept, if_neg Bool.false_ne_true,
        urlEq]
      simp [linkText]
    cases (safe _ _ found whole foundEq).symm.trans dangerous
  · exact links_safe

/-- A link in the URL of a link is left. -/
theorem sanitizeMarkdown_keeps_hidden :
    ¬LinksSafe asciiCasing (sanitizeMarkdown asciiCasing (ascii "[a](x[b](data:y))")) := by
  intro safe
  have left : sanitizeMarkdown asciiCasing (ascii "[a](x[b](data:y))") =
      ascii "[a](x" ++ 91 :: ascii "b](data:y))" := by
    decide +kernel
  have inner : parseLink (ascii "b](data:y))") = some ⟨ascii "b", ascii "data:y", ascii ")"⟩ := by
    decide +kernel
  have dangerous : isDangerousUrl asciiCasing (ascii "data:y") := by
    decide +kernel
  cases (safe _ _ _ left inner).symm.trans dangerous

end P2PHub.Sanitizer
