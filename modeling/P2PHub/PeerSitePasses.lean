import P2PHub.PeerSiteAccess

/-!
# What an access pass of the peer site rests on

Each pass goes back to one approval of one accepted knock, and a knock is
accepted once: the rate limit of a peer outlasts the replay window of what it
signed.
-/

namespace P2PHub.PeerSite

open SiteAccess OrderedMap

section

variable (verify : JsonString → List UInt8 → List UInt8 → Bool)

/-- Whether incoming requests are accepted after some calls. -/
def acceptingAfter (history : List AccessEvent) : Bool :=
  history.foldl (fun accepting event =>
    match event.turn.call with
    | .setAcceptIncomingRequests enabled => enabled
    | _ => accepting) false

def AccessEvent.knock? (event : AccessEvent) : Option Knock :=
  match event.turn.call with
  | .requestAccess input => input.knock?
  | _ => none

/-- The call at a position accepted a knock and returned an identifier. -/
structure AcceptedKnock (history : List AccessEvent) (position : Nat) (event : AccessEvent)
    (requestId : String) (knock : Knock) : Prop where
  found : history[position]? = some event
  carried : event.knock? = some knock
  returned : event.answer = .pending requestId
  accepting : acceptingAfter (history.take position) = true
  signed : knock.Signed verify
  fresh : WithinReplayWindow event.turn.now knock.timestamp

/-- The call at a position approved a request and issued a pass. -/
structure IssuedPass (history : List AccessEvent) (position : Nat) (event : AccessEvent)
    (requestId : String) (pass : AccessPass) : Prop where
  found : history[position]? = some event
  called : event.turn.call = .resolveAccessRequest requestId true
  issued : event.issued = some pass

/-- Every pass for the site was issued by an approval within five minutes of an
accepted knock of its peer, no request yields two passes, and no two calls
accept one knock. -/
structure SoundPasses (history : List AccessEvent) : Prop where
  approved : ∀ (position : Nat) event pass, history[position]? = some event →
    event.issued = some pass → pass.scope = siteReadScope → ∃ requestId earlier request knock,
        IssuedPass history position event requestId pass ∧ earlier < position ∧
          AcceptedKnock verify history earlier request requestId knock ∧
          knock.peerId = pass.peerId ∧ request.turn.now ≤ event.turn.now ∧
          event.turn.decidedAt - request.turn.now ≤ accessRequestTtl
  one_pass : ∀ first second firstEvent secondEvent requestId firstPass secondPass,
    IssuedPass history first firstEvent requestId firstPass →
      IssuedPass history second secondEvent requestId secondPass → first = second
  one_request : ∀ first second firstEvent secondEvent firstId secondId firstKnock secondKnock,
    AcceptedKnock verify history first firstEvent firstId firstKnock →
      AcceptedKnock verify history second secondEvent secondId secondKnock →
      firstKnock.peerId = secondKnock.peerId →
      firstKnock.timestamp = secondKnock.timestamp → first = second

end

section

variable {verify : JsonString → List UInt8 → List UInt8 → Bool} {randomUUID : Nat → String}
  {site : SiteAccess} {turn : AccessTurn}

/-- A knock that passes every check up to its signature. -/
structure Admissible (verify : JsonString → List UInt8 → List UInt8 → Bool) (site : SiteAccess)
    (now : Int) (knock : Knock) : Prop where
  fresh : WithinReplayWindow now knock.timestamp
  rested : site.knockedRecently knock.peerId now = false
  signed : knock.Signed verify

inductive Effect (verify : JsonString → List UInt8 → List UInt8 → Bool)
    (randomUUID : Nat → String) (site : SiteAccess) (turn : AccessTurn) :
    SiteAccess → AccessAnswer → Option AccessPass → Prop
  | toggled {enabled : Bool} (called : turn.call = .setAcceptIncomingRequests enabled) :
      Effect verify randomUUID site turn { site with acceptIncoming := enabled } .done none
  | refused {input : RequestAccessInput} {error : String} (called : turn.call =
    .requestAccess input) : Effect verify randomUUID site turn site (.refused error) none
  | turnedAway {input : RequestAccessInput} {knock : Knock} {error : String}
      (called : turn.call = .requestAccess input) :
      Effect verify randomUUID site turn (site.recordKnock knock.peerId turn.now)
        (.refused error) none
  | entered {input : RequestAccessInput} {knock : Knock} (called : turn.call = .requestAccess input)
      (carried : input.knock? = some knock)
      (admissible : Admissible verify site turn.now knock)
      (accepting : site.acceptIncoming = true) :
      Effect verify randomUUID site turn
        ((site.recordKnock knock.peerId turn.now).enterRequest randomUUID knock turn.now)
        (.pending (randomUUID site.drawn)) none
  | unknown {requestId : String} {approved : Bool}
      (called : turn.call = .resolveAccessRequest requestId approved) :
      Effect verify randomUUID site turn site (.resolved false) none
  | dismissed {requestId : String} {approved known : Bool}
      (called : turn.call = .resolveAccessRequest requestId approved) :
      Effect verify randomUUID site turn
        { site with pendingRequests := site.pendingRequests.delete requestId } (.resolved known)
        none
  | granted {requestId : String} {pending : PendingAccessRequest} {pass : AccessPass}
      {passes : AccessPassManager}
      (called : turn.call = .resolveAccessRequest requestId true)
      (found : site.pendingRequests.get requestId = some pending)
      (inTime : turn.decidedAt - pending.createdAt ≤ accessRequestTtl)
      (bearer : pass.peerId = pending.peerId) :
      Effect verify randomUUID site turn
        { site with pendingRequests := site.pendingRequests.delete requestId, passes := passes }
        (.resolved true) (some pass)

theorem AccessPassManager.issue_ok {passes changed : AccessPassManager} {now ttl : Int}
    {peerId scope : JsonString} {pass : AccessPass}
    (issued : passes.issue now peerId scope ttl = .ok (changed, pass)) : pass.peerId = peerId := by
  unfold AccessPassManager.issue at issued
  split at issued
  · cases issued
  split at issued
  · cases issued
  split at issued
  · cases issued
  cases issued
  rfl

theorem requestAccess_effect {input : RequestAccessInput}
    (called : turn.call = .requestAccess input) :
    Effect verify randomUUID site turn (site.requestAccess verify randomUUID turn.now input).1
      (site.requestAccess verify randomUUID turn.now input).2 none := by
  unfold requestAccess
  split
  · exact .refused called
  · next knock carried =>
      split
      · exact .refused called
      · next fresh =>
          split
          · exact .refused called
          · next rested =>
              split
              · exact .refused called
              · next signed =>
                  have admissible : Admissible verify site turn.now knock :=
                    ⟨not_not.mp fresh, Bool.eq_false_of_not_eq_true rested, not_not.mp signed⟩
                  dsimp only
                  split
                  · next accepting => exact .entered called carried admissible accepting
                  · exact .turnedAway called

theorem resolveAccessRequest_effect {requestId : String} {approved : Bool}
    (called : turn.call = .resolveAccessRequest requestId approved) :
    Effect verify randomUUID site turn (site.resolveAccessRequest turn requestId approved).1
      (site.resolveAccessRequest turn requestId approved).2.1
      (site.resolveAccessRequest turn requestId approved).2.2 := by
  unfold resolveAccessRequest
  split
  · exact .unknown called
  · next pending found =>
      dsimp only
      split
      · exact .dismissed called
      · next accepted =>
          obtain rfl : approved := not_not.mp accepted
          split
          · exact .dismissed called
          · split
            · exact .dismissed called
            · next inTime =>
                unfold issuePass
                split
                · next passes pass issued =>
                    exact .granted called found (not_lt.mp inTime)
                      (AccessPassManager.issue_ok issued)
                · exact .dismissed called

theorem perform_turn (site : SiteAccess) (turn : AccessTurn) :
    (site.perform verify randomUUID turn).2.turn = turn := by
  unfold perform
  cases turn.call <;> rfl

theorem perform_effect (site : SiteAccess) (turn : AccessTurn) :
    Effect verify randomUUID site turn (site.perform verify randomUUID turn).1
      (site.perform verify randomUUID turn).2.answer
      (site.perform verify randomUUID turn).2.issued := by
  cases called : turn.call with
  | setAcceptIncomingRequests =>
    simp only [perform, called]
    exact .toggled called
  | requestAccess =>
    simp only [perform, called]
    exact requestAccess_effect called
  | resolveAccessRequest =>
    simp only [perform, called]
    exact resolveAccessRequest_effect called

end

section

variable {verify : JsonString → List UInt8 → List UInt8 → Bool} {history : List AccessEvent}
  {last event : AccessEvent} {position : Nat} {requestId : String} {knock : Knock}
  {pass : AccessPass}

theorem getElem?_snoc (found : (history ++ [last])[position]? = some event) :
    history[position]? = some event ∨ position = history.length ∧ event = last := by
  rcases Nat.lt_trichotomy position history.length with before | rfl | after
  · rw [List.getElem?_append_left before] at found
    exact Or.inl found
  · rw [List.getElem?_concat_length] at found
    exact Or.inr ⟨rfl, (Option.some.inj found).symm⟩
  · have bound := (List.getElem?_eq_some_iff.mp found).1
    rw [List.length_append, List.length_singleton] at bound
    omega

theorem getElem?_of_snoc (found : history[position]? = some event) :
    (history ++ [last])[position]? = some event := by
  rw [List.getElem?_append_left (List.getElem?_eq_some_iff.mp found).1]
  exact found

theorem take_snoc (found : history[position]? = some event) :
    (history ++ [last]).take position = history.take position :=
  List.take_append_of_le_length (List.getElem?_eq_some_iff.mp found).1.le

theorem AcceptedKnock.snoc (accepted : AcceptedKnock verify history position event requestId knock)
    : AcceptedKnock verify (history ++ [last]) position event requestId knock :=
  { accepted with
    found := getElem?_of_snoc accepted.found
    accepting := by
      rw [take_snoc accepted.found]
      exact accepted.accepting }

theorem AcceptedKnock.of_snoc
    (accepted : AcceptedKnock verify (history ++ [last]) position event requestId knock) :
    AcceptedKnock verify history position event requestId knock ∨
      position = history.length ∧ event = last := by
  rcases getElem?_snoc accepted.found with found | new
  · left
    have accepting := accepted.accepting
    rw [take_snoc found] at accepting
    exact { accepted with found := found, accepting := accepting }
  · exact Or.inr new

theorem IssuedPass.snoc (issued : IssuedPass history position event requestId pass) :
    IssuedPass (history ++ [last]) position event requestId pass :=
  { issued with found := getElem?_of_snoc issued.found }

theorem IssuedPass.of_snoc (issued : IssuedPass (history ++ [last]) position event requestId pass) :
    IssuedPass history position event requestId pass ∨
      position = history.length ∧ event = last := by
  rcases getElem?_snoc issued.found with found | new
  · exact Or.inl { issued with found := found }
  · exact Or.inr new

section

variable (accepted : AcceptedKnock verify history position event requestId knock)
include accepted

theorem AcceptedKnock.below : position < history.length :=
  (List.getElem?_eq_some_iff.mp accepted.found).1

theorem AcceptedKnock.mem : event ∈ history :=
  List.mem_of_getElem? accepted.found

end

theorem IssuedPass.mem (issued : IssuedPass history position event requestId pass) :
    event ∈ history :=
  List.mem_of_getElem? issued.found

end

section

variable {site : SiteAccess} {peerId other : JsonString} {now later : Int}

theorem knockedRecently_eq_false : site.knockedRecently peerId now = false ↔
      ∀ lastKnock, site.knockTimestamps.get peerId = some lastKnock →
        lastKnock + knockRateLimit ≤ now := by
  unfold knockedRecently
  cases site.knockTimestamps.get peerId with
  | none => simp
  | some =>
    simp only [Option.any_some, decide_eq_false_iff_not, not_lt, Option.some.injEq, forall_eq']
    omega

theorem get_recordKnock (site : SiteAccess) (peerId : JsonString) (now : Int) (other : JsonString) :
    (site.recordKnock peerId now).knockTimestamps.get other = if other = peerId then some now
      else (site.knockTimestamps.get other).filter fun timestamp =>
        !decide (knockRateLimit ≤ now - timestamp) := by
  simp only [recordKnock, get_deleteWhere, get_set]
  split
  · have positive : 0 < knockRateLimit := by decide
    simp [Option.filter, positive]
  · rfl

/-- A peer whose knock was just entered rests from then on, and another one
rests later only if it does so now or its entry stands. -/
theorem rested_recordKnock
    (rested : (site.recordKnock peerId now).knockedRecently other later = false) :
    (other = peerId ∧ now + knockRateLimit ≤ later) ∨
      site.knockedRecently other now = false ∨ site.knockedRecently other later = false := by
  rw [knockedRecently_eq_false] at rested
  by_cases same : other = peerId
  · left
    exact ⟨same, rested now (by rw [get_recordKnock, if_pos same])⟩
  · right
    cases found : site.knockTimestamps.get other with
    | none =>
      left
      rw [knockedRecently_eq_false, found]
      intro lastKnock impossible
      cases impossible
    | some lastKnock =>
      simp only [knockedRecently_eq_false, found, Option.some.injEq, forall_eq']
      by_cases stale : knockRateLimit ≤ now - lastKnock
      · left
        omega
      · right
        apply rested
        rw [get_recordKnock, if_neg same, found]
        simp [Option.filter, stale]

theorem not_within_both {timestamp : ℚ} (first : WithinReplayWindow now timestamp)
    (second : WithinReplayWindow later timestamp) : ¬now + knockRateLimit ≤ later := by
  intro rested
  have firstClose := abs_lt.mp (Binary64.abs_lt_of_abs_nearest_le (by norm_num) first)
  have secondClose := abs_lt.mp (Binary64.abs_lt_of_abs_nearest_le (by norm_num) second)
  have apart : (now : ℚ) + 3600000 ≤ later := by
    have cast : ((now + knockRateLimit : Int) : ℚ) ≤ later := by exact_mod_cast rested
    norm_num [knockRateLimit] at cast
    exact cast
  norm_num at firstClose secondClose
  linarith [firstClose.1, firstClose.2, secondClose.1, secondClose.2]

end

section

variable {verify : JsonString → List UInt8 → List UInt8 → Bool} {randomUUID : Nat → String}
  {history : List AccessEvent} {site after : SiteAccess} {turn : AccessTurn}
  {answer : AccessAnswer} {issued : Option AccessPass} {requestId : String}

def Drawn (randomUUID : Nat → String) (site : SiteAccess) (requestId : String) : Prop :=
  ∃ number < site.drawn, randomUUID number = requestId

/-- What the state keeps of the calls so far. -/
structure Accounts (verify : JsonString → List UInt8 → List UInt8 → Bool)
    (randomUUID : Nat → String) (history : List AccessEvent) (site : SiteAccess) : Prop where
  accepting : site.acceptIncoming = acceptingAfter history
  pending : ∀ requestId request, site.pendingRequests.get requestId = some request →
    Drawn randomUUID site requestId ∧
      ∃ position event knock, AcceptedKnock verify history position event requestId knock ∧
        knock.peerId = request.peerId ∧ event.turn.now = request.createdAt
  spent : ∀ position event requestId pass, IssuedPass history position event requestId pass →
    Drawn randomUUID site requestId ∧ site.pendingRequests.get requestId = none
  rests : ∀ position event requestId knock,
    AcceptedKnock verify history position event requestId knock →
      ∀ now, (∀ earlier ∈ history, earlier.turn.issuedAt ≤ now) →
        site.knockedRecently knock.peerId now = false → event.turn.now + knockRateLimit ≤ now
  sound : SoundPasses verify history

theorem accounts_new : Accounts verify randomUUID [] .new where
  accepting := rfl
  pending := by
    intro requestId request found
    cases found
  spent := by
    intro position event requestId pass issued
    cases issued.mem
  rests := by
    intro position event requestId knock accepted
    cases accepted.mem
  sound :=
    { approved := by
        intro position event pass found
        cases found
      one_pass := by
        intro first second firstEvent secondEvent requestId firstPass secondPass issued
        cases issued.mem
      one_request := by
        intro first second firstEvent secondEvent firstId secondId firstKnock secondKnock accepted
        cases accepted.mem }

theorem acceptingAfter_snoc (history : List AccessEvent) (event : AccessEvent) :
    acceptingAfter (history ++ [event]) = match event.turn.call with
      | .setAcceptIncomingRequests enabled => enabled
      | _ => acceptingAfter history := by
  simp only [acceptingAfter, List.foldl_append, List.foldl_cons, List.foldl_nil]

section

variable (effect : Effect verify randomUUID site turn after answer issued)
include effect

theorem Effect.accepting (accepting : site.acceptIncoming = acceptingAfter history) :
    after.acceptIncoming = acceptingAfter (history ++ [⟨turn, answer, issued⟩]) := by
  rw [acceptingAfter_snoc]
  cases effect with
  | toggled called => simp only [called]
  | refused called | unknown called | dismissed called | granted called =>
    simp only [called, accepting]
  | turnedAway called => simp only [called, ← accepting, recordKnock]
  | entered called =>
    simp only [called, ← accepting, recordKnock, enterRequest]

theorem Effect.drawn
    (drawn : Drawn randomUUID site requestId) : Drawn randomUUID after requestId := by
  obtain ⟨number, below, named⟩ := drawn
  cases effect with
  | entered => exact ⟨number, Nat.lt_succ_of_lt below, named⟩
  | _ => exact ⟨number, below, named⟩

end

theorem Effect.entered_of_pending
    (effect : Effect verify randomUUID site turn after (.pending requestId) issued) :
    ∃ input knock, turn.call = .requestAccess input ∧ input.knock? = some knock ∧
      Admissible verify site turn.now knock ∧ site.acceptIncoming ∧
      after = (site.recordKnock knock.peerId turn.now).enterRequest randomUUID knock turn.now ∧
      requestId = randomUUID site.drawn := by
  cases effect with
  | entered called carried admissible accepting =>
    exact ⟨_, _, called, carried, admissible, accepting, rfl, rfl⟩

section

variable (effect : Effect verify randomUUID site turn after answer issued)
include effect

theorem Effect.admissible {knock : Knock} {position : Nat} {event : AccessEvent}
    (isNew : event = ⟨turn, answer, issued⟩)
    (accepted : AcceptedKnock verify (history ++ [⟨turn, answer, issued⟩]) position event requestId
      knock) : Admissible verify site turn.now knock ∧
      after = (site.recordKnock knock.peerId turn.now).enterRequest randomUUID knock turn.now := by
  subst isNew
  have returned : answer = .pending requestId := accepted.returned
  subst returned
  obtain ⟨input, other, called, carried, admissible, _, rfl, _⟩ := effect.entered_of_pending
  have same : some other = some knock := by
    rw [← carried, ← accepted.carried]
    simp only [AccessEvent.knock?, called]
  cases same
  exact ⟨admissible, rfl⟩

theorem Effect.pending_cases
    {request : PendingAccessRequest} (found : after.pendingRequests.get requestId = some request) :
    site.pendingRequests.get requestId = some request ∨
      answer = .pending requestId ∧ requestId = randomUUID site.drawn ∧
        request.createdAt = turn.now ∧
        ∃ input knock, turn.call = .requestAccess input ∧ input.knock? = some knock ∧
          Admissible verify site turn.now knock ∧ site.acceptIncoming ∧
          knock.peerId = request.peerId := by
  have deleted {spent : String}
      (old : (site.pendingRequests.delete spent).get requestId = some request) :
      site.pendingRequests.get requestId = some request := by
    rw [get_delete] at old
    split at old
    · cases old
    · exact old
  cases effect with
  | toggled | refused | turnedAway | unknown => exact Or.inl found
  | entered called carried admissible accepting =>
    simp only [enterRequest, recordKnock, get_set] at found
    split at found
    · next same =>
        cases found
        exact Or.inr ⟨by rw [same], same, rfl, _, _, called, carried, admissible, accepting, rfl⟩
    · exact Or.inl found
  | dismissed | granted => exact Or.inl (deleted found)

theorem Effect.pending (accounts : Accounts verify randomUUID history site) (requestId : String)
    (request : PendingAccessRequest) (found : after.pendingRequests.get requestId = some request) :
    Drawn randomUUID after requestId ∧ ∃ position event knock,
        AcceptedKnock verify (history ++ [⟨turn, answer, issued⟩]) position event requestId knock ∧
        knock.peerId = request.peerId ∧ event.turn.now = request.createdAt := by
  rcases effect.pending_cases found with
    old | ⟨returned, named, moment, input, knock, called, carried, admissible, accepting, bearer⟩
  · obtain ⟨drawn, position, event, knock, accepted, bearer, moment⟩ :=
      accounts.pending requestId request old
    exact ⟨effect.drawn drawn, position, event, knock, accepted.snoc, bearer, moment⟩
  · refine ⟨?_, history.length, ⟨turn, answer, issued⟩, knock, ?_, bearer, moment.symm⟩
    · subst returned
      obtain ⟨_, _, _, _, _, _, rfl, _⟩ := effect.entered_of_pending
      exact ⟨site.drawn, Nat.lt_succ_self _, named.symm⟩
    · exact
        { found := List.getElem?_concat_length
          carried := by simp only [AccessEvent.knock?, called, carried]
          returned := returned
          accepting := by
            rw [List.take_left, ← accounts.accepting]
            exact accepting
          signed := admissible.signed
          fresh := admissible.fresh }

end

theorem Effect.spent (injective : Function.Injective randomUUID)
    (effect : Effect verify randomUUID site turn after answer issued)
    (accounts : Accounts verify randomUUID history site) (position : Nat) (event : AccessEvent)
    (requestId : String) (pass : AccessPass)
    (isIssued : IssuedPass (history ++ [⟨turn, answer, issued⟩]) position event requestId pass) :
    Drawn randomUUID after requestId ∧ after.pendingRequests.get requestId = none := by
  have absent (drawn : Drawn randomUUID site requestId)
      (missing : site.pendingRequests.get requestId = none) :
      after.pendingRequests.get requestId = none := by
    by_contra present
    obtain ⟨request, found⟩ := Option.ne_none_iff_exists'.mp present
    rcases effect.pending_cases found with old | ⟨_, named, _⟩
    · rw [missing] at old
      cases old
    · obtain ⟨number, below, same⟩ := drawn
      have equal := injective (same.trans named)
      omega
  rcases isIssued.of_snoc with old | ⟨_, rfl⟩
  · obtain ⟨drawn, missing⟩ := accounts.spent position event requestId pass old
    exact ⟨effect.drawn drawn, absent drawn missing⟩
  · have isCalled := isIssued.called
    have carried := isIssued.issued
    cases effect with
    | granted called found =>
      cases called.symm.trans isCalled
      obtain ⟨number, below, named⟩ := (accounts.pending _ _ found).1
      exact ⟨⟨number, below, named⟩, get_delete_self _ _⟩
    | _ => cases carried

section

variable (effect : Effect verify randomUUID site turn after answer issued)
    (accounts : Accounts verify randomUUID history site)
    (clock : ∀ earlier ∈ history, earlier.turn.issuedAt ≤ turn.now)
include effect accounts clock

/-- A knock that was accepted is not followed by another one of its peer before
the rate limit is over. -/
theorem Effect.rests (position : Nat) (event : AccessEvent) (requestId : String) (knock : Knock)
    (accepted : AcceptedKnock verify (history ++ [⟨turn, answer, issued⟩]) position event requestId
      knock) (now : Int)
    (later : ∀ earlier ∈ history ++ [⟨turn, answer, issued⟩], earlier.turn.issuedAt ≤ now)
    (rested : after.knockedRecently knock.peerId now = false) :
    event.turn.now + knockRateLimit ≤ now := by
  have laterThanTurn : turn.now ≤ now := by
    have last := later _ (List.mem_append_right _ (List.mem_singleton_self _))
    have order := turn.inOrder
    dsimp only at last
    omega
  have laterThanHistory : ∀ earlier ∈ history, earlier.turn.issuedAt ≤ now :=
    fun earlier member => later earlier (List.mem_append_left _ member)
  -- The entry of a knock is written in one place only.
  have recorded {peerId : JsonString}
      (old : AcceptedKnock verify history position event requestId knock)
      (rested : (site.recordKnock peerId turn.now).knockedRecently knock.peerId now = false) :
      event.turn.now + knockRateLimit ≤ now := by
    rcases rested_recordKnock rested with ⟨_, passed⟩ | atTurn | atNow
    · have before := clock event old.mem
      have order := event.turn.inOrder
      omega
    · have passed := accounts.rests _ _ _ _ old turn.now clock atTurn
      omega
    · exact accounts.rests _ _ _ _ old now laterThanHistory atNow
  rcases accepted.of_snoc with old | ⟨_, isNew⟩
  · cases effect with
    | turnedAway | entered => exact recorded old rested
    | _ => exact accounts.rests _ _ _ _ old now laterThanHistory rested
  · obtain ⟨_, rfl⟩ := effect.admissible isNew accepted
    subst isNew
    have entry := (knockedRecently_eq_false.mp rested) turn.now (by
      change (site.recordKnock knock.peerId turn.now).knockTimestamps.get knock.peerId = _
      rw [get_recordKnock, if_pos rfl])
    exact entry

theorem Effect.sound : SoundPasses verify (history ++ [⟨turn, answer, issued⟩]) where
  approved := by
    intro position event pass found carried forSite
    rcases getElem?_snoc found with old | ⟨rfl, rfl⟩
    · obtain ⟨requestId, earlier, request, knock, isIssued, before, accepted, rest⟩ :=
        accounts.sound.approved position event pass old carried forSite
      exact ⟨requestId, earlier, request, knock, isIssued.snoc, before, accepted.snoc, rest⟩
    · cases effect with
      | granted called isPending inTime bearer =>
        cases carried
        obtain ⟨_, earlier, request, knock, accepted, peer, moment⟩ :=
          accounts.pending _ _ isPending
        refine ⟨_, earlier, request, knock, ⟨List.getElem?_concat_length, called, rfl⟩,
          accepted.below, accepted.snoc, peer.trans bearer.symm, ?_, ?_⟩
        · have before := clock request accepted.mem
          have order := request.turn.inOrder
          dsimp only
          omega
        · rw [moment]
          exact inTime
      | _ => cases carried
  one_pass := by
    intro first second firstEvent secondEvent requestId firstPass secondPass firstIssued
      secondIssued
    -- A new pass takes a request that no earlier one can have taken.
    have unspent {earlier : Nat} {event last : AccessEvent} {pass new : AccessPass}
        (old : IssuedPass history earlier event requestId pass)
        (isNew : last = ⟨turn, answer, issued⟩)
        (called : last.turn.call = .resolveAccessRequest requestId true)
        (carried : last.issued = some new) : False := by
      subst isNew
      have missing := (accounts.spent _ _ _ _ old).2
      cases effect with
      | granted isCalled found =>
        cases called.symm.trans isCalled
        rw [missing] at found
        cases found
      | _ => cases carried
    rcases firstIssued.of_snoc with firstOld | ⟨firstAt, firstNew⟩
    · rcases secondIssued.of_snoc with secondOld | ⟨secondAt, secondNew⟩
      · exact accounts.sound.one_pass _ _ _ _ _ _ _ firstOld secondOld
      · exact (unspent firstOld secondNew secondIssued.called secondIssued.issued).elim
    · rcases secondIssued.of_snoc with secondOld | ⟨secondAt, secondNew⟩
      · exact (unspent secondOld firstNew firstIssued.called firstIssued.issued).elim
      · rw [firstAt, secondAt]
  one_request := by
    intro first second firstEvent secondEvent firstId secondId firstKnock secondKnock
      firstAccepted secondAccepted samePeer sameTimestamp
    have apart {earlier position : Nat} {event last : AccessEvent} {oldId newId : String}
        {oldKnock newKnock : Knock}
        (old : AcceptedKnock verify history earlier event oldId oldKnock)
        (isNew : last = ⟨turn, answer, issued⟩)
        (new : AcceptedKnock verify (history ++ [⟨turn, answer, issued⟩]) position last newId
          newKnock) (peers : newKnock.peerId = oldKnock.peerId)
        (timestamps : newKnock.timestamp = oldKnock.timestamp) : False := by
      obtain ⟨admissible, _⟩ := effect.admissible isNew new
      have rested := admissible.rested
      rw [peers] at rested
      have fresh := admissible.fresh
      rw [timestamps] at fresh
      exact not_within_both old.fresh fresh (accounts.rests _ _ _ _ old turn.now clock rested)
    rcases firstAccepted.of_snoc with firstOld | ⟨firstAt, firstNew⟩
    · rcases secondAccepted.of_snoc with secondOld | ⟨secondAt, secondNew⟩
      · exact accounts.sound.one_request _ _ _ _ _ _ _ _ firstOld secondOld samePeer sameTimestamp
      · exact (apart firstOld secondNew secondAccepted samePeer.symm sameTimestamp.symm).elim
    · rcases secondAccepted.of_snoc with secondOld | ⟨secondAt, secondNew⟩
      · exact (apart secondOld firstNew firstAccepted samePeer sameTimestamp).elim
      · rw [firstAt, secondAt]

end

theorem Accounts.step (injective : Function.Injective randomUUID)
    (accounts : Accounts verify randomUUID history site)
    (clock : ∀ earlier ∈ history, earlier.turn.issuedAt ≤ turn.now) :
    Accounts verify randomUUID (history ++ [(site.perform verify randomUUID turn).2])
      (site.perform verify randomUUID turn).1 := by
  have effect : Effect verify randomUUID site turn _ _ _ := perform_effect site turn
  have whole (event : AccessEvent) (same : event.turn = turn) :
      event = ⟨turn, event.answer, event.issued⟩ := by
    subst same
    rfl
  rw [whole _ (perform_turn site turn)]
  exact
    { accepting := effect.accepting accounts.accepting
      pending := effect.pending accounts
      spent := effect.spent injective accounts
      rests := effect.rests accounts clock
      sound := effect.sound accounts clock }

end

variable {verify : JsonString → List UInt8 → List UInt8 → Bool} {randomUUID : Nat → String}
  {history : List AccessEvent} {site : SiteAccess}

/-- Passes of the peer site rest on approved knocks, whatever the order of the
calls, as long as the clock does not go back and identifiers are not drawn twice. -/
theorem access_passes_sound (injective : Function.Injective randomUUID)
    (runs : Transition.Runs (step verify randomUUID) ClockAdvances .new history site) :
    SoundPasses verify history := by
  have accounts : Accounts verify randomUUID history site := by
    refine runs.invariant (Accounts verify randomUUID) accounts_new ?_
    intro history before turn after outputs holds clock stepped
    cases stepped
    exact holds.step injective clock
  exact accounts.sound

def knockInput : RequestAccessInput where
  peerId := some (.string (List.replicate 64 97))
  claim := some (.string (Json.jsonString "let me in"))
  timestamp := some (.number (.ofInt 1700000000000))
  signature := some (.string (Json.jsonString "00"))

def turnAt (now : Int) (call : AccessCall) : AccessTurn :=
  ⟨call, now, now, now, le_refl now, le_refl now⟩

def growingIds (number : Nat) : String :=
  String.ofList (List.replicate number 'x')

theorem growingIds_injective : Function.Injective growingIds := by
  intro first second same
  have texts : List.replicate first 'x' = List.replicate second 'x' := String.ofList_injective same
  simpa using congrArg List.length texts

/-- A knock that is approved when its time is just up. -/
theorem access_passes_sound_approved : ∃ history site,
      Transition.Runs (step (fun _ _ _ => true) growingIds) ClockAdvances .new
          history site ∧ history.any (fun event => event.issued.isSome) ∧
        SoundPasses (fun _ _ _ => true) history := by
  obtain ⟨history, site, runs, issued⟩ := Transition.exists_runs_of_runWhile
    (step (fun _ _ _ => true) growingIds)
    (fun history _ turn => history.all fun event => decide (event.turn.issuedAt ≤ turn.now))
    ClockAdvances .new
    [turnAt 1700000000000 (.setAcceptIncomingRequests true),
      turnAt 1700000000001 (.requestAccess knockInput),
      turnAt 1700000300001 (.resolveAccessRequest "" true)]
    (fun result => result.2.any fun event => event.issued.isSome)
    (fun history _ turn earlier event member =>
      of_decide_eq_true (List.all_eq_true.mp earlier event member))
    (by decide +kernel)
  exact ⟨history, site, runs, issued, access_passes_sound growingIds_injective runs⟩

end P2PHub.PeerSite
