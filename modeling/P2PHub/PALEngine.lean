import P2PHub.AIBudgets
import P2PHub.QueryFilters
import P2PHub.TransitionRuns

/-!
# The engine of PAL rules

`handleEvent` of `apps/core-server/src/pal/engine.ts` with the limiters of
`pal/rate-limiter.ts` and `fixed-window.ts`.  A call reads the clock once.
-/

namespace P2PHub.PAL

open Json SlidingWindow Transition

/-- The arguments of the constructor; the timestamps are passed along. -/
structure FixedWindowLimiter where
  limit : Nat
  windowMs : Nat

namespace FixedWindowLimiter

variable (limiter : FixedWindowLimiter) (now : Int) (timestamps : List Int)

def active : List Int :=
  timestamps.filter fun timestamp => decide (now - limiter.windowMs ≤ timestamp)

def wouldAllow : Bool :=
  decide ((limiter.active now timestamps).length < limiter.limit)

def allow : Bool × List Int :=
  let active := limiter.active now timestamps
  if limiter.limit ≤ active.length then (false, active) else (true, active ++ [now])

end FixedWindowLimiter

structure PALRateLimitConfig where
  perRule : Option AIBudgetDimension
  global : Option AIBudgetDimension

def limiterOr (dimension : Option AIBudgetDimension) (limit windowMs : Nat) :
    FixedWindowLimiter where
  limit := positiveInt (dimension.map AIBudgetDimension.limit) limit
  windowMs := positiveInt (dimension.map AIBudgetDimension.windowMs) windowMs

/-- A rule, or the node. -/
abbrev Scope := Option JsonString

def PALRateLimitConfig.limiter (config : PALRateLimitConfig) (scope : Scope) :
    FixedWindowLimiter :=
  if scope.isSome then limiterOr config.perRule 30 (60 * 60 * 1000)
  else limiterOr config.global 100 (60 * 1000)

/-- The timestamps of `perRule`, none where a rule has no limiter yet, and of
`globalLimiter`. -/
abbrev PALRateLimiter := Scope → List Int

def suppressed (ruleId : JsonString) (budget : String) : JsonString :=
  jsonString "[PAL] Rate limit exceeded for rule " ++ ruleId ++
    jsonString (", execution suppressed" ++ budget)

structure PALProposal where
  id : JsonString
  ruleId : JsonString
  ruleName : JsonString
  topic : JsonString
  initiator : JsonString
  skill : JsonString
  payload : List (JsonString × Json)

/-- A call of a rule's handler.  The bus passes plain objects only, and `uuid` is
what `randomUUID` returns. -/
structure EventCall where
  rule : PALRule
  payload : List (JsonString × Json)
  topic : JsonString
  emittedAt : Int
  uuid : JsonString
  now : Int

/-- A scalar that is assigned to `__proto__` is lost. -/
def scalarFields (payload : List (JsonString × Json)) : List (JsonString × Json) :=
  payload.filter fun field => (scalar? field.2).isSome && field.1 ≠ jsonString "__proto__"

def EventCall.proposal (call : EventCall) : PALProposal where
  id := jsonString "pal:" ++ call.rule.id ++ jsonString ":" ++ call.uuid
  ruleId := call.rule.id
  ruleName := call.rule.name
  topic := call.topic
  initiator := jsonString "agent:pal." ++ call.rule.id
  skill := call.rule.action.skill
  payload := call.rule.action.payload ++ [(jsonString "event", .object [
    (jsonString "topic", .string call.topic),
    (jsonString "at", .number (.ofInt call.emittedAt)),
    (jsonString "fields", .object (scalarFields call.payload))])]

/-- A refusal comes with the line that is logged. -/
inductive EventOutcome
  | unmatched
  | refused (logged : JsonString)
  | proposed (proposal : PALProposal)

section

variable (config : PALRateLimitConfig) (limiter : PALRateLimiter)

def PALRateLimiter.allow (ruleId : JsonString) (now : Int) :
    Except JsonString Unit × PALRateLimiter :=
  let wouldAllow scope := (config.limiter scope).wouldAllow now (limiter scope)
  if !wouldAllow (some ruleId) then (.error (suppressed ruleId ""), limiter)
  else if !wouldAllow none then
    (.error (suppressed ruleId " (node-wide budget exhausted)"), limiter)
  else (.ok (), fun scope => if scope.all (· = ruleId) then
    ((config.limiter scope).allow now (limiter scope)).2 else limiter scope)

variable (toLowerCase : JsonString → JsonString) (call : EventCall)

def EventCall.matched : Bool :=
  let fields := (scalarFields call.payload).filterMap fun field =>
    (scalar? field.2).map fun value => (field.1, value)
  call.rule.filter.all (matchesRecord toLowerCase fields)

def handleEvent : EventOutcome × PALRateLimiter :=
  if !call.matched toLowerCase then (.unmatched, limiter)
  else
    let allowed := limiter.allow config call.rule.id call.now
    (match allowed.1 with
      | .error logged => .refused logged
      | .ok () => .proposed call.proposal, allowed.2)

abbrev Handled := EventCall × EventOutcome

def engineStep : Option (PALRateLimiter × List Handled) :=
  let handled := handleEvent config limiter toLowerCase call
  some (handled.2, [(call, handled.1)])

end

/-- When the proposals of a scope were made. -/
def spent (history : List Handled) (scope : Scope) : List Int :=
  history.filterMap fun handled =>
    match handled.2 with
    | .proposed _ => if scope.all (· = handled.1.rule.id) then some handled.1.now else none
    | _ => none

/-- No window `[now - windowMs, now]` holds more than the limit. -/
def FixedWindowLimiter.Keeps (limiter : FixedWindowLimiter) (times : List Int) : Prop :=
  Within id (fun _ => 1) (limiter.windowMs + 1) limiter.limit times

section

variable {limiter : FixedWindowLimiter} {times kept : List Int} {now : Int}

theorem active_eq : limiter.active now times =
    times.filter fun time => decide (now - (limiter.windowMs + 1) < id time) := by
  apply List.filter_congr
  intro time _
  rw [decide_eq_decide, id]
  omega

theorem wouldAllow_shown (shows : Shows id (limiter.windowMs + 1) now times kept) :
    limiter.wouldAllow now kept = limiter.wouldAllow now times := by
  rw [FixedWindowLimiter.wouldAllow, active_eq, shows now le_rfl, ← active_eq]
  rfl

theorem allow_shown (shows : Shows id (limiter.windowMs + 1) now times kept)
    (room : limiter.wouldAllow now times) :
    Shows id (limiter.windowMs + 1) now (times ++ [now]) (limiter.allow now kept).2 := by
  rw [← wouldAllow_shown shows] at room
  rw [FixedWindowLimiter.allow, if_neg (not_le.mpr (of_decide_eq_true room)), active_eq]
  exact shows.expire.snoc

theorem keeps_proposed (keeps : limiter.Keeps times) (room : limiter.wouldAllow now times) :
    limiter.Keeps (times ++ [now]) := by
  intro moment
  rw [windowWeight_append]
  by_cases before : moment < now
  · have outside : windowWeight id (fun _ => 1) (limiter.windowMs + 1) moment [now] = 0 :=
      windowWeight_eq_zero (by simp [before])
    rw [outside]
    exact keeps moment
  · have one := windowWeight_le_sum id (fun _ => 1) (limiter.windowMs + 1) moment [now]
    have fewer : windowWeight id (fun _ => 1) (limiter.windowMs + 1) moment times ≤
        (limiter.active now times).length := by
      rw [windowWeight, List.map_const', List.sum_replicate, nsmul_one, Nat.cast_id]
      apply List.Sublist.length_le
      apply List.monotone_filter_right
      intro time
      simp only [id_eq, decide_eq_true_eq]
      omega
    have below := of_decide_eq_true room
    simp only [List.map_cons, List.map_nil, List.sum_singleton] at one
    omega

end

def Past (history : List Handled) (clock : Int) : Prop :=
  ∀ handled ∈ history, handled.1.now ≤ clock

def ClockForward (history : List Handled) (_ : PALRateLimiter) (call : EventCall) : Prop :=
  Past history call.now

/-- The timestamps show the proposals so far.  These keep every budget, and each
call was answered as if the earlier ones, and nothing else, stood recorded. -/
structure Accounts (config : PALRateLimitConfig) (toLowerCase : JsonString → JsonString)
    (history : List Handled) (limiter : PALRateLimiter) : Prop where
  shows : ∀ scope clock, Past history clock →
    Shows id ((config.limiter scope).windowMs + 1) clock (spent history scope) (limiter scope)
  keeps : ∀ scope, (config.limiter scope).Keeps (spent history scope)
  answers : ∀ earlier call outcome, earlier ++ [(call, outcome)] <+: history →
    outcome = (handleEvent config (spent earlier) toLowerCase call).1

variable {config : PALRateLimitConfig} {toLowerCase : JsonString → JsonString}
  {limiter after : PALRateLimiter} {history : List Handled} {call : EventCall} {outcome : EventOutcome}

theorem Accounts.next (accounts : Accounts config toLowerCase history limiter)
    (forward : Past history call.now)
    (answered : outcome = (handleEvent config (spent history) toLowerCase call).1)
    (each : ∀ scope, spent [(call, outcome)] scope = [] ∧ after scope = limiter scope ∨
      spent [(call, outcome)] scope = [call.now] ∧
        (config.limiter scope).wouldAllow call.now (spent history scope) ∧
        after scope = ((config.limiter scope).allow call.now (limiter scope)).2) :
    Accounts config toLowerCase (history ++ [(call, outcome)]) after := by
  have spends scope : spent (history ++ [(call, outcome)]) scope =
      spent history scope ++ spent [(call, outcome)] scope := List.filterMap_append
  constructor
  · intro scope clock past
    rcases each scope with ⟨unspent, same⟩ | ⟨one, room, recorded⟩
    · rw [spends, unspent, same, List.append_nil]
      exact accounts.shows scope clock fun other member => past other (List.mem_append_left _ member)
    · rw [spends, one, recorded]
      exact (allow_shown (accounts.shows scope call.now forward) room).later
        (past _ List.mem_concat_self)
  · intro scope
    rcases each scope with ⟨unspent, _⟩ | ⟨one, room, _⟩
    · rw [spends, unspent, List.append_nil]
      exact accounts.keeps scope
    · rw [spends, one]
      exact keeps_proposed (accounts.keeps scope) room
  · intro earlier other result part
    rcases List.prefix_concat_iff.mp part with whole | before
    · obtain ⟨rfl, same⟩ := List.append_inj' whole rfl
      cases same
      exact answered
    · exact accounts.answers earlier other result before

theorem Accounts.handled (accounts : Accounts config toLowerCase history limiter)
    (forward : Past history call.now) :
    let handled := handleEvent config limiter toLowerCase call
    Accounts config toLowerCase (history ++ [(call, handled.1)]) handled.2 := by
  have same scope := wouldAllow_shown (accounts.shows scope call.now forward)
  have answered : (handleEvent config limiter toLowerCase call).1 =
      (handleEvent config (spent history) toLowerCase call).1 := by
    simp only [handleEvent, PALRateLimiter.allow, same, apply_ite Prod.fst]
  refine accounts.next forward answered fun scope => ?_
  simp only [handleEvent, PALRateLimiter.allow, same]
  by_cases matched : call.matched toLowerCase
  · by_cases ruleRoom : (config.limiter (some call.rule.id)).wouldAllow call.now
        (spent history (some call.rule.id))
    · by_cases nodeRoom : (config.limiter none).wouldAllow call.now (spent history none)
      · simp only [matched, ruleRoom, nodeRoom]
        by_cases counts : scope.all (· = call.rule.id)
        · refine .inr ⟨by simp [spent, counts], ?_, if_pos counts⟩
          cases scope with
          | none => exact nodeRoom
          | some ruleId => rwa [of_decide_eq_true counts]
        · exact .inl ⟨by simp [spent, counts], if_neg counts⟩
      · simp only [matched, ruleRoom, nodeRoom]
        exact .inl ⟨rfl, rfl⟩
    · simp only [matched, ruleRoom]
      exact .inl ⟨rfl, rfl⟩
  · simp only [matched]
    exact .inl ⟨rfl, rfl⟩

/-- What holds in every run under a clock that does not go back. -/
theorem engine_accounts (runs : Runs (fun limiter => engineStep config limiter toLowerCase)
      ClockForward (fun _ => []) history limiter) :
    Accounts config toLowerCase history limiter := by
  apply runs.invariant (Accounts config toLowerCase)
  · exact ⟨fun _ _ _ => .refl _ _ _ _, fun _ => within_nil, by simp⟩
  · intro history limiter call after outputs accounts forward stepped
    cases stepped
    exact accounts.handled forward

def lateInvoices : EventCall where
  rule := ⟨[], [], ⟨[], .created⟩, none, ⟨[], []⟩⟩
  payload := []
  topic := jsonString "invoice:created"
  emittedAt := 0
  uuid := []
  now := 0

theorem engine_accounts_once : ∃ history limiter, history ≠ [] ∧
    Accounts ⟨none, none⟩ id history limiter := by
  have forward : ClockForward [] (fun _ => []) lateInvoices := List.forall_mem_nil _
  exact ⟨_, _, List.cons_ne_nil _ _, engine_accounts (.tail .refl forward rfl)⟩

end P2PHub.PAL
