import P2PHub.SanitizerTags

/-!
# Which links `sanitizeMarkdown` leaves

The pass rewrites the URL of every link that it meets, and passes over the URLs
that it keeps.  A link within such a URL is left as it is, so what it leaves is
safe exactly when no dangerous link is hidden in a URL that is kept.
-/

namespace P2PHub.Sanitizer

section

variable {rest after url first second text : Text} {unit : CodeUnit} {depth final more : Nat}

/-- How many parentheses are open after some text, unless one is closed too often. -/
def depthAfter : Nat → Text → Option Nat
  | depth, [] => some depth
  | depth, unit :: rest =>
    if unit = 41 ∧ depth = 0 then none else depthAfter (depthStep depth unit) rest

theorem depthAfter_append : depthAfter depth (first ++ second) =
    (depthAfter depth first).bind fun middle => depthAfter middle second := by
  induction first generalizing depth with
  | nil => rfl
  | cons unit first ih =>
    rw [List.cons_append, depthAfter, depthAfter]
    split
    · rfl
    · exact ih

theorem depthAfter_add (ends : depthAfter depth text = some final) :
    depthAfter (depth + more) text = some (final + more) := by
  induction text generalizing depth with
  | nil =>
    cases ends
    rfl
  | cons unit text ih =>
    rw [depthAfter] at ends ⊢
    split at ends
    · cases ends
    · next goesOn =>
        have step : depthStep (depth + more) unit = depthStep depth unit + more := by
          unfold depthStep
          split
          · omega
          · split
            · next closes =>
                have positive : depth ≠ 0 := fun zero => goesOn ⟨closes, zero⟩
                omega
            · rfl
        have still : ¬(unit = 41 ∧ depth + more = 0) := by
          rintro ⟨same, zero⟩
          exact goesOn ⟨same, by omega⟩
        rw [if_neg still, step]
        exact ih ends

theorem scanUrl_eq_some_iff : scanUrl depth text = some (url, after) ↔
    text = url ++ 41 :: after ∧ depthAfter depth url = some 0 := by
  induction text generalizing depth url with
  | nil => simp [scanUrl]
  | cons unit text ih =>
    rw [scanUrl]
    split
    · next closes =>
        obtain ⟨rfl, rfl⟩ := closes
        constructor
        · intro found
          cases found
          exact ⟨rfl, rfl⟩
        · rintro ⟨textEq, ends⟩
          cases url with
          | nil =>
            obtain rfl := (List.cons.inj textEq).2
            rfl
          | cons =>
            cases textEq
            cases ends
    · next goesOn =>
        constructor
        · intro found
          obtain ⟨⟨tail, rest⟩, tailEq, pair⟩ := Option.map_eq_some_iff.mp found
          cases pair
          obtain ⟨rfl, ends⟩ := ih.mp tailEq
          refine ⟨rfl, ?_⟩
          rw [depthAfter, if_neg goesOn]
          exact ends
        · rintro ⟨textEq, ends⟩
          cases url with
          | nil =>
            cases ends
            exact absurd ⟨(List.cons.inj textEq).1, rfl⟩ goesOn
          | cons =>
            obtain ⟨rfl, tailEq⟩ := List.cons.inj textEq
            rw [depthAfter, if_neg goesOn] at ends
            rw [ih.mpr ⟨tailEq, ends⟩]
            rfl

theorem scanUrl_eq_none_iff : scanUrl depth text = none ↔ ∃ final, depthAfter depth text =
    some final := by
  induction text generalizing depth with
  | nil => simp [scanUrl, depthAfter]
  | cons unit text ih =>
    rw [scanUrl, depthAfter]
    split
    · simp
    · rw [Option.map_eq_none_iff]
      exact ih

theorem scanUrl_append (found : scanUrl depth text = some (url, after)) :
    scanUrl depth (text ++ rest) = some (url, after ++ rest) := by
  obtain ⟨rfl, ends⟩ := scanUrl_eq_some_iff.mp found
  rw [List.append_assoc, List.cons_append]
  exact scanUrl_eq_some_iff.mpr ⟨rfl, ends⟩

end

section

variable {rest label url text : Text} {link : ParsedLink}

theorem parseLink_eq_some_iff : parseLink text = some link ↔
    ∃ after, text = link.label ++ 93 :: 40 :: after ∧ 93 ∉ link.label ∧
      scanUrl 0 after = some (link.url, link.rest) := by
  have split : text = text.takeWhile (· ≠ 93) ++ text.dropWhile (· ≠ 93) :=
    (List.takeWhile_append_dropWhile).symm
  have noClose : 93 ∉ text.takeWhile (· ≠ 93) := by
    intro member
    have all := List.all_takeWhile (p := (· ≠ 93)) (l := text)
    have differs := List.all_eq_true.mp all 93 member
    simp at differs
  constructor
  · intro parsed
    unfold parseLink at parsed
    split at parsed
    · next first next after dropEq =>
        have closes : first = 93 := by
          have head := List.head?_dropWhile_not (· ≠ 93) text
          rw [dropEq] at head
          simpa using head
        split at parsed
        · next opens =>
            obtain ⟨⟨url, rest⟩, scanned, rfl⟩ := Option.map_eq_some_iff.mp parsed
            refine ⟨after, ?_, noClose, scanned⟩
            rw [dropEq, closes, opens] at split
            exact split
        · cases parsed
    · cases parsed
  · rintro ⟨after, rfl, labelEq, scanned⟩
    have drop : (link.label ++ 93 :: 40 :: after).dropWhile (· ≠ 93) = 93 :: 40 :: after := by
      rw [List.dropWhile_append_of_pos]
      · rfl
      · intro other member
        exact decide_eq_true fun same => labelEq (same ▸ member)
    have take : (link.label ++ 93 :: 40 :: after).takeWhile (· ≠ 93) = link.label := by
      rw [List.takeWhile_append_of_pos]
      · rw [List.takeWhile_cons_of_neg (by decide), List.append_nil]
      · intro other member
        exact decide_eq_true fun same => labelEq (same ▸ member)
    rw [parseLink, drop, take]
    simp only [if_true, scanned, Option.map_some]

theorem parseLink_text {after : Text} (noClose : 93 ∉ label)
    (scanned : scanUrl 0 after = some (url, rest)) :
    parseLink (label ++ 93 :: 40 :: after) = some ⟨label, url, rest⟩ :=
  parseLink_eq_some_iff.mpr ⟨after, rfl, noClose, scanned⟩

theorem parseLink_append {before : Text} (noClose : 93 ∉ before) : parseLink (before ++ text) =
      (parseLink text).map fun link => { link with label := before ++ link.label } := by
  cases parsed : parseLink text with
  | some =>
    obtain ⟨after, rfl, labelEq, scanned⟩ := parseLink_eq_some_iff.mp parsed
    rw [← List.append_assoc]
    apply parseLink_text _ scanned
    exact fun member => (List.mem_append.mp member).elim noClose labelEq
  | none =>
    cases whole : parseLink (before ++ text) with
    | none => rfl
    | some =>
      obtain ⟨after, wholeEq, labelEq, scanned⟩ := parseLink_eq_some_iff.mp whole
      rcases List.append_eq_append_iff.mp wholeEq with ⟨more, labelIs, textEq⟩ | ⟨more, beforeEq,
        tailEq⟩
      · have inner : 93 ∉ more := fun member => labelEq (labelIs ▸ List.mem_append_right _ member)
        rw [textEq, parseLink_text inner scanned] at parsed
        cases parsed
      · cases more with
        | nil =>
          have direct := parseLink_text (show 93 ∉ ([] : Text) by simp) scanned
          rw [List.nil_append] at direct tailEq
          rw [← tailEq, direct] at parsed
          cases parsed
        | cons =>
          obtain ⟨rfl, -⟩ := List.cons.inj tailEq
          exact absurd (beforeEq ▸ List.mem_append_right _ List.mem_cons_self) noClose

theorem parseLink_split (parsed : parseLink text = some link) :
    text = link.label ++ 93 :: 40 :: (link.url ++ 41 :: link.rest) := by
  obtain ⟨after, textEq, -, scanned⟩ := parseLink_eq_some_iff.mp parsed
  obtain ⟨rfl, -⟩ := scanUrl_eq_some_iff.mp scanned
  exact textEq

theorem parseLink_close_iff {after : Text} (noClose : 93 ∉ label) :
    parseLink (label ++ 93 :: after) = none ↔ ∀ body, after = 40 :: body → scanUrl 0 body = none :=
      by
  constructor
  · rintro none body rfl
    cases scanned : scanUrl 0 body with
    | none => rfl
    | some found =>
      have link : parseLink (label ++ 93 :: 40 :: body) = some ⟨label, found.1, found.2⟩ :=
        parseLink_text noClose scanned
      rw [link] at none
      cases none
  · intro noUrl
    cases parsed : parseLink (label ++ 93 :: after) with
    | none => rfl
    | some =>
      obtain ⟨body, wholeEq, linkNoClose, scanned⟩ := parseLink_eq_some_iff.mp parsed
      rcases List.append_eq_append_iff.mp wholeEq with ⟨more, labelEq, tailEq⟩ | ⟨more, labelEq,
        tailEq⟩
      · cases more with
        | nil =>
          have bodyEq := (List.cons.inj tailEq).2
          rw [noUrl body bodyEq] at scanned
          cases scanned
        | cons =>
          obtain ⟨rfl, -⟩ := List.cons.inj tailEq
          exact absurd (labelEq ▸ List.mem_append_right _ List.mem_cons_self) linkNoClose
      · cases more with
        | nil =>
          have bodyEq := (List.cons.inj tailEq).2
          rw [noUrl body bodyEq.symm] at scanned
          cases scanned
        | cons =>
          obtain ⟨rfl, -⟩ := List.cons.inj tailEq
          exact absurd (labelEq ▸ List.mem_append_right _ List.mem_cons_self) noClose

end

section

variable {casing : Casing} {text front back before rest other : Text} {unit : CodeUnit} {room : Nat}

theorem schemeFrom_spaces (spaces : ∀ unit ∈ back, isWhiteSpace unit) :
    schemeFrom room (front ++ back) = schemeFrom room front := by
  induction front generalizing room with
  | nil =>
    rw [List.nil_append]
    induction back with
    | nil => rfl
    | cons unit back ih =>
      obtain ⟨space, others⟩ := List.forall_mem_cons.mp spaces
      have noColon : unit ≠ 58 := by
        rintro rfl
        cases space
      have nothing : schemeFrom room back = [] := ih others
      simp only [schemeFrom, noColon, space, or_true, if_true, if_false, nothing]
  | cons unit front ih =>
    rw [List.cons_append, schemeFrom, schemeFrom, ih, ih]

theorem schemeFrom_dropWhile : schemeFrom room (text.dropWhile isWhiteSpace) =
    schemeFrom room text := by
  induction text with
  | nil => rfl
  | cons unit text ih =>
    cases space : isWhiteSpace unit with
    | false => rw [List.dropWhile_cons_of_neg (by rw [space]; exact Bool.false_ne_true)]
    | true =>
      have noColon : unit ≠ 58 := by
        rintro rfl
        cases space
      rw [List.dropWhile_cons_of_pos space, ih, schemeFrom, if_neg noColon, if_pos (.inr space)]

theorem schemeFrom_trim : schemeFrom room (trim text) = schemeFrom room text := by
  have splitEnd (whole : Text) : schemeFrom room (whole.reverse.dropWhile isWhiteSpace).reverse =
      schemeFrom room whole := by
    have halves : whole = (whole.reverse.dropWhile isWhiteSpace).reverse ++
        (whole.reverse.takeWhile isWhiteSpace).reverse := by
      rw [← List.reverse_append, List.takeWhile_append_dropWhile, List.reverse_reverse]
    have spaces : ∀ unit ∈ (whole.reverse.takeWhile isWhiteSpace).reverse, isWhiteSpace unit := by
      intro unit member
      have all := List.all_takeWhile (p := isWhiteSpace) (l := whole.reverse)
      exact List.all_eq_true.mp all unit (List.mem_reverse.mp member)
    conv_rhs => rw [halves]
    exact (schemeFrom_spaces spaces).symm
  rw [trim, splitEnd, schemeFrom_dropWhile]

theorem schemeFrom_bracket (front : Text) (room : Nat) :
    (∀ rest other, schemeFrom room (front ++ 91 :: rest) = schemeFrom room (front ++ 91 :: other)) ∨
      ∀ rest, 91 ∈ schemeFrom room (front ++ 91 :: rest) := by
  induction front generalizing room with
  | nil =>
    right
    intro rest
    rw [List.nil_append, schemeFrom, if_neg (by decide), if_neg (by decide)]
    split
    · exact List.mem_singleton_self _
    · exact List.mem_cons_self
  | cons unit front ih =>
    simp only [List.cons_append, schemeFrom]
    split
    · exact .inl fun _ _ => rfl
    · split
      · exact ih room
      · split
        · exact .inl fun _ _ => rfl
        · rcases ih (room - 1) with same | inside
          · exact .inl fun rest other => congrArg _ (same rest other)
          · exact .inr fun rest => List.mem_cons_of_mem _ (inside rest)

theorem mem_toLowerCaseAfter {unit : CodeUnit} (low : unit < 128) (same : lowerAscii unit = unit)
    (member : unit ∈ text) : unit ∈ toLowerCaseAfter casing before text := by
  induction text generalizing before with
  | nil => cases member
  | cons first text ih =>
    rw [toLowerCaseAfter]
    rcases List.mem_cons.mp member with rfl | later
    · rw [if_pos low, same]
      exact List.mem_append_left _ List.mem_cons_self
    · exact List.mem_append_right _ (ih later)

theorem not_dangerous_of_mem {unit : CodeUnit} (low : unit < 128) (same : lowerAscii unit = unit)
    (foreign : ∀ scheme ∈ dangerousSchemes, unit ∉ scheme) (member : unit ∈ text) :
    toLowerCase casing text ∉ dangerousSchemes :=
  fun dangerous => foreign _ dangerous (mem_toLowerCaseAfter low same member)

theorem isDangerousUrl_bracket : isDangerousUrl casing (front ++ 91 :: rest) =
    isDangerousUrl casing (front ++ 91 :: other) := by
  unfold isDangerousUrl schemeOf
  rw [schemeFrom_trim, schemeFrom_trim]
  rcases schemeFrom_bracket front 32 with same | inside
  · rw [same rest other]
  · have foreign : ∀ scheme ∈ dangerousSchemes, 91 ∉ scheme := by decide
    rw [decide_eq_false (not_dangerous_of_mem (by decide) (by decide) foreign (inside rest)),
      decide_eq_false (not_dangerous_of_mem (by decide) (by decide) foreign (inside other))]

theorem isDangerousUrl_blank : isDangerousUrl casing (ascii "about:blank") = false := by
  have scheme : schemeFrom 32 (trim (ascii "about:blank")) = ascii "about" := by decide
  have lower : toLowerCase casing (ascii "about") = ascii "about" := rfl
  rw [isDangerousUrl, schemeOf, scheme, lower]
  decide

theorem isDangerousUrl_sanitizeUrl : isDangerousUrl casing (sanitizeUrl casing text) = false := by
  unfold sanitizeUrl
  split
  · exact isDangerousUrl_blank
  · next safe => exact Bool.eq_false_iff.mpr safe

end

variable {casing : Casing} {rest text before : Text} {unit : CodeUnit} {link : ParsedLink}
  {skip depth : Nat} {url : Text}

theorem links_skip : sanitizeLinks casing skip text = sanitizeLinks casing 0 (text.drop skip) := by
  induction text generalizing skip with
  | nil => cases skip <;> rfl
  | cons unit text ih =>
    cases skip with
    | zero => rfl
    | succ =>
      exact ih

theorem drop_link (parsed : parseLink rest = some link) :
    rest.drop (rest.length - link.rest.length) = link.rest := by
  have split := parseLink_split parsed
  have suffix : rest = (link.label ++ 93 :: 40 :: link.url ++ [41]) ++ link.rest := by
    simpa using split
  generalize link.label ++ 93 :: 40 :: link.url ++ [41] = front at suffix
  rw [suffix, List.length_append, Nat.add_sub_cancel, List.drop_left]

theorem links_some (parsed : parseLink rest = some link) : sanitizeLinks casing 0 (91 :: rest) =
      linkText link.label (sanitizeUrl casing link.url) ++ sanitizeLinks casing 0 link.rest := by
  rw [sanitizeLinks, if_neg (by simp), if_pos rfl, parsed]
  dsimp only
  rw [links_skip, drop_link parsed]

theorem links_none (noLink : parseLink rest = none) :
    sanitizeLinks casing 0 (91 :: rest) = 91 :: sanitizeLinks casing 0 rest := by
  rw [sanitizeLinks, if_neg (by simp), if_pos rfl, noLink]

theorem links_other (plain : unit ≠ 91) :
    sanitizeLinks casing 0 (unit :: rest) = unit :: sanitizeLinks casing 0 rest := by
  rw [sanitizeLinks, if_neg plain]
  split
  · next image =>
      obtain ⟨rfl, head⟩ := image
      obtain ⟨tail, rfl⟩ := List.head?_eq_some_iff.mp head
      rw [List.tail_cons]
      cases parsed : parseLink tail with
      | none => rfl
      | some link =>
        have longer : (91 :: tail).length - link.rest.length =
            tail.length - link.rest.length + 1 := by
          have lengths := congrArg List.length (parseLink_split parsed)
          simp only [List.length_append, List.length_cons] at lengths ⊢
          omega
        dsimp only
        rw [links_skip, longer, List.drop_succ_cons, drop_link parsed, links_some parsed]
        rfl
  · rfl

theorem links_head (casing : Casing) (unit : CodeUnit) (rest : Text) : ∃ tail,
    sanitizeLinks casing 0 (unit :: rest) = unit :: tail := by
  by_cases opens : unit = 91
  · subst opens
    cases parsed : parseLink rest with
    | none => exact ⟨_, links_none parsed⟩
    | some => exact ⟨_, links_some parsed⟩
  · exact ⟨_, links_other opens⟩

theorem depthAfter_url {after : Text} (ends : depthAfter 0 url = some 0) :
    depthAfter depth (40 :: url ++ 41 :: after) = depthAfter depth after := by
  have inner : depthAfter (depth + 1) url = some (depth + 1) := by
    have raised : depthAfter (0 + (depth + 1)) url = some (0 + (depth + 1)) := depthAfter_add ends
    rwa [Nat.zero_add] at raised
  rw [List.cons_append, depthAfter, if_neg (by simp), show depthStep depth 40 = depth + 1 from rfl,
    depthAfter_append, inner, Option.bind_some, depthAfter, if_neg (by simp)]
  rfl

theorem depthAfter_sanitizeUrl (ends : depthAfter 0 url = some 0) :
    depthAfter 0 (sanitizeUrl casing url) = some 0 := by
  unfold sanitizeUrl
  split
  · decide
  · exact ends

theorem link_ends (parsed : parseLink rest = some link) : depthAfter 0 link.url = some 0 := by
  obtain ⟨after, -, -, scanned⟩ := parseLink_eq_some_iff.mp parsed
  exact (scanUrl_eq_some_iff.mp scanned).2

theorem depthAfter_links : depthAfter depth (sanitizeLinks casing 0 text) = depthAfter depth text :=
    by
  induction lengthEq : text.length using Nat.strong_induction_on generalizing text depth with
  | _ length ih =>
    cases text with
    | nil => rfl
    | cons unit rest =>
      have shorter : rest.length < length := by
        rw [← lengthEq]
        exact Nat.lt_succ_self _
      have copied : depthAfter depth (unit :: sanitizeLinks casing 0 rest) =
          depthAfter depth (unit :: rest) := by
        rw [depthAfter, depthAfter, ih _ shorter rfl]
      by_cases opens : unit = 91
      · subst opens
        cases parsed : parseLink rest with
        | none => rw [links_none parsed, copied]
        | some link =>
          have ends := link_ends parsed
          have split := parseLink_split parsed
          have later : link.rest.length < length := by
            have lengths := congrArg List.length split
            simp only [List.length_append, List.length_cons] at lengths lengthEq
            omega
          have whole : 91 :: rest =
              (91 :: link.label ++ [93]) ++ (40 :: link.url ++ 41 :: link.rest) := by
            rw [split]
            simp
          have left : linkText link.label (sanitizeUrl casing link.url) ++
              sanitizeLinks casing 0 link.rest = (91 :: link.label ++ [93]) ++
                (40 :: sanitizeUrl casing link.url ++ 41 :: sanitizeLinks casing 0 link.rest) := by
            simp [linkText]
          rw [links_some parsed, left, whole]
          generalize 91 :: link.label ++ [93] = front
          rw [depthAfter_append, depthAfter_append]
          congr 1
          funext middle
          rw [depthAfter_url (depthAfter_sanitizeUrl ends), depthAfter_url ends, ih _ later rfl]
      · rw [links_other opens, copied]

theorem links_label (noClose : 93 ∉ before) (noLink : parseLink (before ++ text) = none) :
    sanitizeLinks casing 0 (before ++ text) = before ++ sanitizeLinks casing 0 text := by
  induction before with
  | nil => rfl
  | cons unit before ih =>
    have inner : 93 ∉ before := fun member => noClose (List.mem_cons_of_mem _ member)
    have innerNone : parseLink (before ++ text) = none := by
      have single : (93 : CodeUnit) ∉ [unit] := fun member =>
        noClose (List.mem_singleton.mp member ▸ List.mem_cons_self)
      have whole : parseLink ([unit] ++ (before ++ text)) = _ := parseLink_append single
      rw [List.singleton_append] at whole
      rw [List.cons_append] at noLink
      rw [noLink] at whole
      exact Option.map_eq_none_iff.mp whole.symm
    have step : sanitizeLinks casing 0 (unit :: (before ++ text)) =
        unit :: sanitizeLinks casing 0 (before ++ text) := by
      by_cases opens : unit = 91
      · subst opens
        exact links_none innerNone
      · exact links_other opens
    rw [List.cons_append, step, ih inner innerNone]
    rfl

theorem links_plain (plain : 91 ∉ before) :
    sanitizeLinks casing 0 (before ++ text) = before ++ sanitizeLinks casing 0 text := by
  induction before with
  | nil => rfl
  | cons unit before ih =>
    obtain ⟨head, tail⟩ := not_or.mp (mt List.mem_cons.mpr plain)
    rw [List.cons_append, links_other (Ne.symm head), ih tail]
    rfl

theorem parseLink_links_none (casing : Casing) (noLink : parseLink text = none) :
    parseLink (sanitizeLinks casing 0 text) = none := by
  by_cases closes : 93 ∈ text
  · obtain ⟨label, after, rfl, noClose⟩ := List.eq_append_cons_of_mem closes
    rw [links_label noClose noLink, links_other (by decide)]
    rw [parseLink_close_iff noClose] at noLink ⊢
    intro body bodyEq
    cases after with
    | nil => cases bodyEq
    | cons first after =>
      obtain ⟨tail, tailEq⟩ := links_head casing first after
      cases tailEq.symm.trans bodyEq
      obtain rfl := (List.cons.inj bodyEq).2
      obtain ⟨final, stays⟩ := scanUrl_eq_none_iff.mp (noLink after rfl)
      exact scanUrl_eq_none_iff.mpr ⟨final, depthAfter_links.trans stays⟩
  · have same : sanitizeLinks casing 0 text = text := by
      have whole : parseLink (text ++ []) = none := by rwa [List.append_nil]
      have copied : sanitizeLinks casing 0 (text ++ []) = _ := links_label closes whole
      rw [List.append_nil] at copied
      rw [copied]
      exact List.append_nil text
    rw [same, noLink]

theorem dangerous_links {left after leftAfter : Text} (scanned : scanUrl depth text = some (url,
    after)) (leftScanned : scanUrl depth (sanitizeLinks casing 0 text) = some (left, leftAfter)) :
    isDangerousUrl casing left = isDangerousUrl casing url := by
  obtain ⟨rfl, ends⟩ := scanUrl_eq_some_iff.mp scanned
  by_cases bracket : 91 ∈ url
  · obtain ⟨front, more, rfl, plain⟩ := List.eq_append_cons_of_mem bracket
    obtain ⟨middle, frontEnds, -⟩ := Option.bind_eq_some_iff.mp (depthAfter_append.symm.trans ends)
    rw [List.append_assoc, links_plain plain] at leftScanned
    obtain ⟨tail, tailEq⟩ := links_head casing 91 (more ++ 41 :: after)
    rw [List.cons_append, tailEq] at leftScanned
    obtain ⟨leftEq, leftEnds⟩ := scanUrl_eq_some_iff.mp leftScanned
    rcases List.append_eq_append_iff.mp leftEq with ⟨rest, leftIs, tailIs⟩ | ⟨rest, frontIs, tailIs⟩
    · cases rest with
      | nil => cases (List.cons.inj tailIs).1
      | cons =>
        cases tailIs
        rw [leftIs]
        exact isDangerousUrl_bracket
    · cases rest with
      | nil => cases (List.cons.inj tailIs).1
      | cons =>
        cases tailIs
        rw [frontIs, depthAfter_append, leftEnds] at frontEnds
        cases frontEnds
  · rw [links_plain bracket, links_other (by decide)] at leftScanned
    have same := leftScanned.symm.trans (scanUrl_eq_some_iff.mpr ⟨rfl, ends⟩)
    rw [(Prod.mk.inj (Option.some.inj same)).1]

end P2PHub.Sanitizer
