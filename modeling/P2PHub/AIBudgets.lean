import P2PHub.RateLimiterLaw

/-!
# The AI budgets

`AIBudgetManager` after `apps/core-server/src/ai/ai-budget-manager.ts`: a
sliding window for every peer and one for the node.  A call is charged to its
caller's window before the window of the node is asked, so that a call which
the node refuses stays charged to its caller.  This file says exactly which
sequences of calls are answered by the history of successful calls.
-/

namespace P2PHub

open SlidingWindow RateLimiter OrderedMap

structure AIBudgetDimension where
  limit : JsNumber
  windowMs : JsNumber

structure AIBudgetConfig where
  perPeer : Option AIBudgetDimension := none
  global : Option AIBudgetDimension := none

def defaultPerPeerAiLimit : Nat := 10

def defaultPerPeerAiWindowMs : Nat := 60 * 60 * 1000

def defaultGlobalAiLimit : Nat := 30

def defaultGlobalAiWindowMs : Nat := 60 * 1000

def localOperatorKey : String :=
  "<local>"

structure AIWindow where
  timestamps : List Int
  lastTouch : Int
  deriving DecidableEq

namespace AIWindow

def new (now : Int) : AIWindow where
  timestamps := []
  lastTouch := now

/-- Record and allow the call, or refuse it without recording. -/
def allow (window : AIWindow) (limit windowMs : Nat) (now : Int) : AIWindow × Bool :=
  let recent := window.timestamps.filter fun timestamp => decide (now - windowMs < timestamp)
  if limit ≤ recent.length then (⟨recent, now⟩, false)
  else (⟨recent ++ [now], now⟩, true)

def idleSince (window : AIWindow) (now : Int) (windowMs : Nat) : Bool :=
  decide (windowMs ≤ now - window.lastTouch)

end AIWindow

/-- `Math.round` of a quotient whose divisor is even. -/
def roundedQuotient (value divisor : Nat) : Nat :=
  (value + divisor / 2) / divisor

def windowLabel (windowMs : Nat) : String :=
  if 60 * 60 * 1000 ≤ windowMs then
    toString (roundedQuotient windowMs (60 * 60 * 1000)) ++ "h"
  else if 60 * 1000 ≤ windowMs then
    toString (roundedQuotient windowMs (60 * 1000)) ++ "m"
  else toString (roundedQuotient windowMs 1000) ++ "s"

def positiveInt (value : Option JsNumber) (fallback : Nat) : Nat :=
  (value.bind JsNumber.positive?).elim fallback Subtype.val

structure AIBudgetManager where
  perPeerLimit : Nat
  perPeerWindowMs : Nat
  globalLimit : Nat
  globalWindowMs : Nat
  perPeer : OrderedMap String AIWindow
  globalWindow : AIWindow
  lastSweep : Int

/-- The message of an `AIQuotaExceededError`. -/
def peerQuotaMessage (manager : AIBudgetManager) (peerKey : String) : String :=
  "AI quota exceeded for peer \"" ++ peerKey ++ "\": at most " ++
    toString manager.perPeerLimit ++ " request(s) per " ++ windowLabel manager.perPeerWindowMs

def nodeQuotaMessage (manager : AIBudgetManager) : String :=
  "AI quota exceeded: node-wide at most " ++ toString manager.globalLimit ++
    " request(s) per " ++ windowLabel manager.globalWindowMs

/-- A call of `consume`; every reading of the clock during the call is `now`. -/
structure AICall where
  peerId : Option String
  now : Int
  deriving DecidableEq

namespace AICall

def caller (call : AICall) : Option String :=
  call.peerId.filter fun peerId => decide (0 < peerId.length)

def peerKey (call : AICall) : String :=
  call.caller.getD localOperatorKey

def charge (call : AICall) : RateCall String :=
  ⟨call.peerKey, call.now⟩

end AICall

namespace AIBudgetManager

def new (config : AIBudgetConfig) (now : Int) : AIBudgetManager where
  perPeerLimit :=
    positiveInt (config.perPeer.map AIBudgetDimension.limit) defaultPerPeerAiLimit
  perPeerWindowMs :=
    positiveInt (config.perPeer.map AIBudgetDimension.windowMs) defaultPerPeerAiWindowMs
  globalLimit := positiveInt (config.global.map AIBudgetDimension.limit) defaultGlobalAiLimit
  globalWindowMs :=
    positiveInt (config.global.map AIBudgetDimension.windowMs) defaultGlobalAiWindowMs
  perPeer := .empty
  globalWindow := .new now
  lastSweep := 0

def windowFor (manager : AIBudgetManager) (peerId : String) (now : Int) : AIWindow :=
  (manager.perPeer.get peerId).getD (.new now)

/-- Drop the windows of idle peers, at most once per window. -/
def maybeSweep (manager : AIBudgetManager) (now : Int) : AIBudgetManager :=
  if now - manager.lastSweep < manager.perPeerWindowMs then manager
  else
    { manager with
      lastSweep := now
      perPeer := manager.perPeer.deleteWhere fun _ window =>
        window.idleSince now manager.perPeerWindowMs }

/-- `consume` behind its sweep.  The caller's window is charged first. -/
def consumeUnswept (manager : AIBudgetManager) (call : AICall) :
    AIBudgetManager × Except String Unit :=
  let (peerWindow, allowed) := (manager.windowFor call.peerKey call.now).allow
    manager.perPeerLimit manager.perPeerWindowMs call.now
  let charged := { manager with perPeer := manager.perPeer.set call.peerKey peerWindow }
  if !allowed then (charged, .error (peerQuotaMessage manager call.peerKey))
  else
    let (globalWindow, admitted) :=
      manager.globalWindow.allow manager.globalLimit manager.globalWindowMs call.now
    let asked := { charged with globalWindow := globalWindow }
    if !admitted then (asked, .error (nodeQuotaMessage manager))
    else (asked, .ok ())

def consume (manager : AIBudgetManager) (call : AICall) : AIBudgetManager × Except String Unit :=
  (manager.maybeSweep call.now).consumeUnswept call

def judge (answer : AIBudgetManager → AICall → AIBudgetManager × Except String Unit) :
    AIBudgetManager → List AICall → List (AICall × Bool)
  | _, [] => []
  | manager, call :: calls =>
    let answered := answer manager call
    (call, answered.2.toBool) :: judge answer answered.1 calls

/-- The successful calls in the window `(now - windowMs, now]`. -/
def grantedInWindow (windowMs : Nat) (earlier : List (AICall × Bool)) (now : Int) :
    List (AICall × Bool) :=
  earlier.filter fun other =>
    other.2 && decide (now - windowMs < other.1.now ∧ other.1.now ≤ now)

def nodeHasRoom (manager : AIBudgetManager) (earlier : List (AICall × Bool)) (now : Int) : Bool :=
  decide ((grantedInWindow manager.globalWindowMs earlier now).length < manager.globalLimit)

def callerHasRoom (manager : AIBudgetManager) (earlier : List (AICall × Bool)) (call : AICall) :
    Bool :=
  decide (((grantedInWindow manager.perPeerWindowMs earlier call.now).filter fun other =>
    decide (other.1.caller = call.caller)).length < manager.perPeerLimit)

/-- The rule: a call succeeds while both windows hold fewer successful calls
than their limits. -/
def budgetLaw (manager : AIBudgetManager) :
    List (AICall × Bool) → List AICall → List (AICall × Bool)
  | _, [] => []
  | earlier, call :: calls =>
    let verdict := manager.callerHasRoom earlier call && manager.nodeHasRoom earlier call.now
    (call, verdict) :: budgetLaw manager (earlier ++ [(call, verdict)]) calls

/-- The verdicts of the callers' windows alone: every call that finds room
under its key is charged, whatever the node then says. -/
def chargeLaw (manager : AIBudgetManager) (earlier : List (RateCall String × Bool))
    (calls : List AICall) : List (RateCall String × Bool) :=
  windowLaw manager.perPeerWindowMs manager.perPeerLimit earlier (calls.map AICall.charge)

def GrantsCharged (manager : AIBudgetManager) (charged : List (RateCall String × Bool))
    (granted : List (AICall × Bool)) (calls : List AICall) : Prop :=
  ∀ verdicts ∈ (manager.budgetLaw granted calls).zip (manager.chargeLaw charged calls),
    verdicts.1.2 = true → verdicts.2.2 = true

def Chronological (calls : List AICall) : Prop :=
  calls.Pairwise fun earlier later => earlier.now ≤ later.now

/-- What the manager must do on calls in order: it follows the rule, a refused
call changes no other answer, and neither does the sweep. -/
structure ExactBudget (manager : AIBudgetManager) (calls : List AICall) : Prop where
  law : judge consume manager calls = manager.budgetLaw [] calls
  refused : ∀ (index : Nat) call, (judge consume manager calls)[index]? = some (call, false) →
    judge consume manager (calls.eraseIdx index) = (judge consume manager calls).eraseIdx index
  unswept : judge consume manager calls = judge consumeUnswept manager calls

section

/-- What becomes of a call: whether it is charged to its caller and whether it
succeeds. -/
structure Settlement where
  call : AICall
  charged : Bool
  granted : Bool

def Settlement.charge (settlement : Settlement) : RateCall String × Bool :=
  (settlement.call.charge, settlement.charged)

def Settlement.grant (settlement : Settlement) : AICall × Bool :=
  (settlement.call, settlement.granted)

variable {manager : AIBudgetManager} {earlier : List Settlement} {clock now : Int} {call : AICall}

def stored (manager : AIBudgetManager) (key : String) : List Int :=
  (manager.perPeer.get key).elim [] AIWindow.timestamps

def grantedTimes (earlier : List Settlement) : List Int :=
  (earlier.filter Settlement.granted).map fun settlement => settlement.call.now

/-- The windows of the manager show the calls that were charged to them. -/
structure Accounts (manager : AIBudgetManager) (earlier : List Settlement) (clock : Int)
  : Prop where
  peers : ∀ key, Shows id manager.perPeerWindowMs clock
    (allowedTimes id (earlier.map Settlement.charge) key) (manager.stored key)
  node : Shows id manager.globalWindowMs clock (grantedTimes earlier)
    manager.globalWindow.timestamps
  touched : ∀ key window, manager.perPeer.get key = some window →
    ∀ timestamp ∈ window.timestamps, timestamp ≤ window.lastTouch
  past : ∀ settlement ∈ earlier, settlement.call.now ≤ clock
  charged : ∀ settlement ∈ earlier, settlement.granted = true → settlement.charged = true

theorem Accounts.later (accounts : Accounts manager earlier clock) (passed : clock ≤ now) :
    Accounts manager earlier now where
  peers key := (accounts.peers key).later passed
  node := accounts.node.later passed
  touched := accounts.touched
  past settlement member := (accounts.past settlement member).trans passed
  charged := accounts.charged

theorem accounts_new (config : AIBudgetConfig) (begin clock : Int) :
    Accounts (.new config begin) [] clock where
  peers key := by
    have empty : (AIBudgetManager.new config begin).stored key = [] := by
      rfl
    exact .refl _ _ _ _
  node := .refl _ _ _ _
  touched key window found := by
    cases found
  past := List.forall_mem_nil _
  charged := List.forall_mem_nil _

/-- The limits and the lengths of the windows never change. -/
structure SameLimits (before after : AIBudgetManager) : Prop where
  perPeerLimit : after.perPeerLimit = before.perPeerLimit
  perPeerWindowMs : after.perPeerWindowMs = before.perPeerWindowMs
  globalLimit : after.globalLimit = before.globalLimit
  globalWindowMs : after.globalWindowMs = before.globalWindowMs

theorem SameLimits.trans {before between after : AIBudgetManager}
    (first : SameLimits before between) (second : SameLimits between after) :
    SameLimits before after where
  perPeerLimit := second.perPeerLimit.trans first.perPeerLimit
  perPeerWindowMs := second.perPeerWindowMs.trans first.perPeerWindowMs
  globalLimit := second.globalLimit.trans first.globalLimit
  globalWindowMs := second.globalWindowMs.trans first.globalWindowMs

theorem maybeSweep_sameLimits (manager : AIBudgetManager) (now : Int) :
    SameLimits manager (manager.maybeSweep now) := by
  unfold maybeSweep
  split <;> exact ⟨rfl, rfl, rfl, rfl⟩

theorem consumeUnswept_sameLimits (manager : AIBudgetManager) (call : AICall) :
    SameLimits manager (manager.consumeUnswept call).1 := by
  unfold consumeUnswept
  dsimp only
  split
  · exact ⟨rfl, rfl, rfl, rfl⟩
  · split <;> exact ⟨rfl, rfl, rfl, rfl⟩

theorem Accounts.maybeSweep (accounts : Accounts manager earlier now) :
    Accounts (manager.maybeSweep now) earlier now := by
  unfold AIBudgetManager.maybeSweep
  split
  · exact accounts
  · refine ⟨fun key => ?_, accounts.node, fun key window found => ?_, accounts.past,
      accounts.charged⟩
    · have shows := accounts.peers key
      unfold stored at shows ⊢
      rw [get_deleteWhere]
      cases found : manager.perPeer.get key with
      | none =>
        rw [found] at shows
        exact shows
      | some window =>
        rw [found] at shows
        by_cases idle : window.idleSince now manager.perPeerWindowMs
        · rw [Option.filter_some_neg (by simpa using idle)]
          apply shows.forget
          intro timestamp member
          have touched := accounts.touched key window found timestamp member
          have waited := of_decide_eq_true idle
          show timestamp ≤ now - manager.perPeerWindowMs
          omega
        · rw [Option.filter_some_pos (by simpa using idle)]
          exact shows
    · dsimp only at found
      rw [get_deleteWhere, Option.filter_eq_some_iff] at found
      exact accounts.touched key window found.1

theorem allow_eq (window : AIWindow) (limit windowMs : Nat) (now : Int) :
    let recent := window.timestamps.filter fun timestamp => decide (now - windowMs < timestamp)
    window.allow limit windowMs now =
      (⟨recent ++ (if recent.length < limit then [now] else []), now⟩,
        decide (recent.length < limit)) := by
  intro recent
  unfold AIWindow.allow
  by_cases full : limit ≤ recent.length
  · have noRoom : ¬recent.length < limit := Nat.not_lt.mpr full
    rw [if_pos full, if_neg noRoom, decide_eq_false noRoom, List.append_nil]
  · have room : recent.length < limit := Nat.lt_of_not_le full
    rw [if_neg full, if_pos room, decide_eq_true room]

theorem windowFor_timestamps (manager : AIBudgetManager) (key : String) (now : Int) :
    (manager.windowFor key now).timestamps = manager.stored key := by
  unfold windowFor stored
  cases manager.perPeer.get key with
  | none | some => rfl

def settle (manager : AIBudgetManager) (earlier : List Settlement) (call : AICall) : Settlement :=
  let charged := decide ((callsInWindow manager.perPeerWindowMs
    (earlier.map Settlement.charge) call.charge).length < manager.perPeerLimit)
  { call := call
    charged := charged
    granted := charged && manager.nodeHasRoom (earlier.map Settlement.grant) call.now }

theorem Accounts.length_peer (accounts : Accounts manager earlier call.now) :
    ((manager.stored call.peerKey).filter fun timestamp =>
        decide (call.now - manager.perPeerWindowMs < timestamp)).length =
      (callsInWindow manager.perPeerWindowMs (earlier.map Settlement.charge)
        call.charge).length := by
  have shows := accounts.peers call.peerKey call.now (le_refl _)
  rw [show ((manager.stored call.peerKey).filter fun timestamp =>
    decide (call.now - manager.perPeerWindowMs < timestamp)) = _ from shows]
  apply @length_recent _ _ _ _ _ call.charge
  · intro other member
    obtain ⟨settlement, isEarlier, rfl⟩ := List.mem_map.mp member
    exact accounts.past settlement isEarlier
  · exact fun other _ same => same

theorem Accounts.length_node (accounts : Accounts manager earlier call.now) :
    (manager.globalWindow.timestamps.filter fun timestamp =>
        decide (call.now - manager.globalWindowMs < timestamp)).length =
      (grantedInWindow manager.globalWindowMs (earlier.map Settlement.grant) call.now).length := by
  have shows := accounts.node call.now (le_refl _)
  rw [show (manager.globalWindow.timestamps.filter fun timestamp =>
    decide (call.now - manager.globalWindowMs < timestamp)) = _ from shows]
  rw [grantedTimes, grantedInWindow, List.filter_map, List.filter_map, List.length_map,
    List.length_map, List.filter_filter]
  refine congrArg List.length (List.filter_congr fun settlement member => ?_)
  have past := accounts.past settlement member
  simp only [Function.comp_apply, Settlement.grant, id_eq, past, and_true]
  exact Bool.and_comm _ _

theorem allowedTimes_settled (settlement : Settlement) (key : String) :
    allowedTimes id ((earlier ++ [settlement]).map Settlement.charge) key =
      allowedTimes id (earlier.map Settlement.charge) key ++
        if settlement.call.peerKey = key ∧ settlement.charged then [settlement.call.now]
        else [] := by
  by_cases own : settlement.call.peerKey = key
  · cases charged : settlement.charged <;>
      simp [allowedTimes, Settlement.charge, AICall.charge, own, charged]
  · simp [allowedTimes, Settlement.charge, AICall.charge, own]

theorem grantedTimes_settled (settlement : Settlement) :
    grantedTimes (earlier ++ [settlement]) = grantedTimes earlier ++
      if settlement.granted then [settlement.call.now] else [] := by
  cases granted : settlement.granted <;> simp [grantedTimes, granted]

/-- The windows after a call show its settlement when the window of the node
does. -/
theorem Accounts.extend (accounts : Accounts manager earlier call.now) (settlement : Settlement)
    (callEq : settlement.call = call)
    (charged : settlement.granted → settlement.charged) {node : AIWindow}
    (shows : Shows id manager.globalWindowMs call.now
      (grantedTimes (earlier ++ [settlement])) node.timestamps) : Accounts { manager with
        perPeer := manager.perPeer.set call.peerKey
          ⟨((manager.stored call.peerKey).filter fun timestamp =>
              decide (call.now - manager.perPeerWindowMs < timestamp)) ++
            (if settlement.charged then [call.now] else []), call.now⟩
        globalWindow := node }
      (earlier ++ [settlement]) call.now where
  peers key := by
    have recent := accounts.peers key
    subst callEq
    rw [allowedTimes_settled]
    unfold stored at recent ⊢
    dsimp only
    rw [get_set]
    by_cases own : settlement.call.peerKey = key
    · subst own
      cases settlement.charged with
      | false =>
        simp only [Bool.false_eq_true, and_false, if_false, List.append_nil]
        exact recent.expire
      | true =>
        simp only [and_self, if_true]
        exact recent.expire.snoc
    · rw [if_neg (Ne.symm own), if_neg fun both => own both.1, List.append_nil]
      exact recent
  node := shows
  touched key window found := by
    rw [get_set] at found
    split at found
    · cases found
      intro timestamp member
      rcases List.mem_append.mp member with recent | latest
      · have showsNow := accounts.peers call.peerKey call.now (le_refl _)
        have kept : timestamp ∈ (manager.stored call.peerKey).filter fun timestamp =>
          decide (call.now - manager.perPeerWindowMs < id timestamp) := recent
        rw [showsNow] at kept
        obtain ⟨other, isEarlier, rfl⟩ := List.mem_map.mp (List.mem_of_mem_filter kept)
        obtain ⟨old, oldMem, rfl⟩ := List.mem_map.mp (List.mem_of_mem_filter isEarlier)
        exact accounts.past old oldMem
      · split at latest
        · exact le_of_eq (List.mem_singleton.mp latest)
        · cases latest
    · exact accounts.touched key window found
  past other member := by
    rcases List.mem_append.mp member with old | new
    · exact accounts.past other old
    · obtain rfl := List.mem_singleton.mp new
      rw [callEq]
  charged other member := by
    rcases List.mem_append.mp member with old | new
    · exact accounts.charged other old
    · obtain rfl := List.mem_singleton.mp new
      exact charged

theorem Accounts.consumeUnswept (accounts : Accounts manager earlier call.now) :
    (manager.consumeUnswept call).2.toBool = (manager.settle earlier call).granted ∧
      Accounts (manager.consumeUnswept call).1 (earlier ++ [manager.settle earlier call])
        call.now := by
  have peerCount := accounts.length_peer
  have nodeCount := accounts.length_node
  have nodeRecent := accounts.node.expire
  have extended := fun node => @Accounts.extend _ _ _ accounts (manager.settle earlier call) rfl
    (fun granted => (Bool.and_eq_true_iff.mp granted).1) node
  simp only [grantedTimes_settled] at extended
  unfold AIBudgetManager.consumeUnswept
  simp only [allow_eq, windowFor_timestamps, peerCount, nodeCount]
  by_cases charged : (callsInWindow manager.perPeerWindowMs
      (earlier.map Settlement.charge) call.charge).length < manager.perPeerLimit
  · by_cases room : (grantedInWindow manager.globalWindowMs (earlier.map Settlement.grant)
        call.now).length < manager.globalLimit
    · have settled : manager.settle earlier call = ⟨call, true, true⟩ := by
        simp [settle, nodeHasRoom, charged, room]
      rw [settled] at extended ⊢
      simp only [charged, room, decide_true, Bool.not_true, Bool.false_eq_true, if_false, if_true]
      exact ⟨rfl, extended _ nodeRecent.snoc⟩
    · have settled : manager.settle earlier call = ⟨call, true, false⟩ := by
        simp [settle, nodeHasRoom, charged, room]
      rw [settled] at extended ⊢
      simp only [charged, room, decide_true, decide_false, Bool.not_true, Bool.not_false,
        Bool.false_eq_true, if_false, if_true, List.append_nil] at extended ⊢
      exact ⟨rfl, extended _ nodeRecent⟩
  · have settled : manager.settle earlier call = ⟨call, false, false⟩ := by
      simp [settle, charged]
    rw [settled] at extended ⊢
    simp only [charged, decide_false, Bool.not_false, Bool.false_eq_true, if_false, if_true,
      List.append_nil] at extended ⊢
    exact ⟨rfl, extended _ accounts.node⟩

end

section

variable {manager after : AIBudgetManager} {earlier : List Settlement} {clock : Int}
  {call : AICall} {calls : List AICall}
  {answer : AIBudgetManager → AICall → AIBudgetManager × Except String Unit}

def settlements (manager : AIBudgetManager) : List Settlement → List AICall → List Settlement
  | _, [] => []
  | earlier, call :: calls =>
    let settlement := manager.settle earlier call
    settlement :: settlements manager (earlier ++ [settlement]) calls

theorem SameLimits.settle (same : SameLimits manager after) (earlier : List Settlement)
    (call : AICall) : after.settle earlier call = manager.settle earlier call := by
  simp only [AIBudgetManager.settle, nodeHasRoom, same.perPeerLimit, same.perPeerWindowMs,
    same.globalLimit, same.globalWindowMs]

theorem SameLimits.settlements (same : SameLimits manager after) (earlier : List Settlement)
    (calls : List AICall) : after.settlements earlier calls = manager.settlements earlier calls :=
    by
  induction calls generalizing earlier with
  | nil => rfl
  | cons call calls ih =>
    rw [AIBudgetManager.settlements, AIBudgetManager.settlements, same.settle, ih]

def Settles (answer : AIBudgetManager → AICall → AIBudgetManager × Except String Unit) : Prop :=
  ∀ manager earlier call, Accounts manager earlier call.now →
    (answer manager call).2.toBool = (manager.settle earlier call).granted ∧
      Accounts (answer manager call).1 (earlier ++ [manager.settle earlier call]) call.now ∧
      SameLimits manager (answer manager call).1

theorem settles_consumeUnswept : Settles consumeUnswept := by
  intro manager earlier call accounts
  obtain ⟨verdict, kept⟩ := accounts.consumeUnswept
  exact ⟨verdict, kept, consumeUnswept_sameLimits manager call⟩

theorem settles_consume : Settles consume := by
  intro manager earlier call accounts
  have swept := maybeSweep_sameLimits manager call.now
  obtain ⟨verdict, kept⟩ := accounts.maybeSweep.consumeUnswept
  rw [swept.settle] at verdict kept
  exact ⟨verdict, kept, swept.trans (consumeUnswept_sameLimits _ call)⟩

theorem judge_eq_settlements (settles : Settles answer) (accounts : Accounts manager earlier clock)
    (chronological : Chronological calls) (passed : ∀ call ∈ calls, clock ≤ call.now) :
    judge answer manager calls = (manager.settlements earlier calls).map Settlement.grant := by
  induction calls generalizing manager earlier clock with
  | nil => rfl
  | cons call calls ih =>
    obtain ⟨first, rest⟩ := List.pairwise_cons.mp chronological
    have reached := accounts.later (passed call List.mem_cons_self)
    obtain ⟨verdict, kept, same⟩ := settles manager earlier call reached
    rw [judge, settlements, List.map_cons, ih kept rest first, same.settlements, verdict]
    rfl

theorem judge_new (settles : Settles answer) (config : AIBudgetConfig) (begin : Int)
    (chronological : Chronological calls) : judge answer (.new config begin) calls =
      ((AIBudgetManager.new config begin).settlements [] calls).map Settlement.grant := by
  cases calls with
  | nil => rfl
  | cons call =>
    refine judge_eq_settlements settles (accounts_new config begin call.now) chronological ?_
    intro other member
    rcases List.mem_cons.mp member with rfl | later
    · exact le_refl _
    · exact (List.pairwise_cons.mp chronological).1 other later

/-- Every successful call of a caller was charged under its key, so a call that
is charged finds room by the rule. -/
theorem callerHasRoom_of_charged
    (kept : ∀ settlement ∈ earlier, settlement.granted → settlement.charged)
    (charged : (manager.settle earlier call).charged) :
    manager.callerHasRoom (earlier.map Settlement.grant) call := by
  have room : (callsInWindow manager.perPeerWindowMs
      (earlier.map Settlement.charge) call.charge).length < manager.perPeerLimit :=
    of_decide_eq_true charged
  refine decide_eq_true (lt_of_le_of_lt ?_ room)
  rw [grantedInWindow, callsInWindow, List.filter_filter, List.filter_map,
    List.filter_map, List.length_map, List.length_map]
  rw [← List.countP_eq_length_filter, ← List.countP_eq_length_filter]
  apply List.countP_mono_left
  intro settlement member counted
  simp only [Function.comp_apply, Settlement.grant, Bool.and_eq_true] at counted
  obtain ⟨sameCaller, granted, recent⟩ := counted
  have sameKey : settlement.call.peerKey = call.peerKey := by
    rw [AICall.peerKey, of_decide_eq_true sameCaller, AICall.peerKey]
  have inWindow := of_decide_eq_true recent
  simp [Settlement.charge, AICall.charge, sameKey, inWindow, kept settlement member granted]

theorem grantsCharged_cons :
    manager.GrantsCharged (earlier.map Settlement.charge) (earlier.map Settlement.grant)
        (call :: calls) ↔
      let verdict := manager.callerHasRoom (earlier.map Settlement.grant) call &&
        manager.nodeHasRoom (earlier.map Settlement.grant) call.now
      let settlement := manager.settle earlier call
      (verdict → settlement.charged) ∧
        manager.GrantsCharged ((earlier ++ [settlement]).map Settlement.charge)
          (earlier.map Settlement.grant ++ [(call, verdict)]) calls := by
  simp only [GrantsCharged, budgetLaw, chargeLaw, List.map_cons, windowLaw,
    List.zip_cons_cons, List.forall_mem_cons, List.map_append, List.map_nil, Int.ofNat_lt]
  exact Iff.rfl

/-- The manager follows the rule exactly when every call that the rule grants
is charged. -/
theorem settlements_eq_budgetLaw_iff
    (kept : ∀ settlement ∈ earlier, settlement.granted → settlement.charged) :
    (manager.settlements earlier calls).map Settlement.grant =
        manager.budgetLaw (earlier.map Settlement.grant) calls ↔
      manager.GrantsCharged (earlier.map Settlement.charge) (earlier.map Settlement.grant)
        calls := by
  induction calls generalizing earlier with
  | nil => simp [settlements, budgetLaw, GrantsCharged]
  | cons call calls ih =>
    rw [grantsCharged_cons, settlements, budgetLaw, List.map_cons, List.cons.injEq]
    have implied : (manager.settle earlier call).charged →
        manager.callerHasRoom (earlier.map Settlement.grant) call :=
      callerHasRoom_of_charged kept
    have grantEq : (manager.settle earlier call).grant =
        (call, (manager.settle earlier call).charged &&
          manager.nodeHasRoom (earlier.map Settlement.grant) call.now) := rfl
    have keptAfter : ∀ settlement ∈ earlier ++ [manager.settle earlier call],
        settlement.granted → settlement.charged := by
      intro settlement member
      rcases List.mem_append.mp member with old | new
      · exact kept settlement old
      · obtain rfl := List.mem_singleton.mp new
        exact fun granted => (Bool.and_eq_true_iff.mp granted).1
    have tail := ih keptAfter
    rw [List.map_append, List.map_cons, List.map_nil, grantEq] at tail
    dsimp only
    rw [grantEq]
    cases charged : (manager.settle earlier call).charged with
    | true =>
      rw [charged] at tail
      rw [implied charged, ← tail]
      simp
    | false =>
      rw [charged] at tail
      cases verdict : manager.callerHasRoom (earlier.map Settlement.grant) call &&
          manager.nodeHasRoom (earlier.map Settlement.grant) call.now with
      | false =>
        rw [Bool.false_and] at tail ⊢
        rw [tail]
        simp
      | true => simp

end

section

variable {manager : AIBudgetManager} {earlier other : List (AICall × Bool)} {calls : List AICall}

theorem grantedInWindow_eq (windowMs : Nat) (past : List (AICall × Bool)) (now : Int) :
    grantedInWindow windowMs past now = (past.filter Prod.snd).filter fun call =>
      decide (now - windowMs < call.1.now ∧ call.1.now ≤ now) := by
  rw [grantedInWindow, List.filter_filter]
  exact List.filter_congr fun call _ => Bool.and_comm _ _

theorem budgetLaw_congr (same : earlier.filter Prod.snd = other.filter Prod.snd) :
    manager.budgetLaw earlier calls = manager.budgetLaw other calls := by
  induction calls generalizing earlier other with
  | nil => rfl
  | cons call calls ih =>
    have verdictEq : (manager.callerHasRoom earlier call && manager.nodeHasRoom earlier call.now) =
          (manager.callerHasRoom other call && manager.nodeHasRoom other call.now) := by
      simp only [callerHasRoom, nodeHasRoom, grantedInWindow_eq, same]
    rw [budgetLaw, budgetLaw, verdictEq, ih]
    rw [List.filter_append, List.filter_append, same]

theorem budgetLaw_eraseIdx {index : Nat} {call : AICall}
    (refused : (manager.budgetLaw earlier calls)[index]? = some (call, false)) :
    manager.budgetLaw earlier (calls.eraseIdx index) =
      (manager.budgetLaw earlier calls).eraseIdx index := by
  induction calls generalizing earlier index with
  | nil => rfl
  | cons first calls ih =>
    cases index with
    | zero =>
      have verdict : (manager.callerHasRoom earlier first &&
          manager.nodeHasRoom earlier first.now) = false :=
        congrArg Prod.snd (Option.some.inj refused)
      rw [List.eraseIdx_cons_zero, budgetLaw, List.eraseIdx_cons_zero, verdict]
      apply budgetLaw_congr
      simp
    | succ =>
      exact congrArg _ (ih refused)

end

variable {calls : List AICall}

theorem judge_new_eq_budgetLaw_iff (config : AIBudgetConfig) (begin : Int)
    (chronological : Chronological calls) : judge consume (.new config begin) calls =
        (AIBudgetManager.new config begin).budgetLaw [] calls ↔
      (AIBudgetManager.new config begin).GrantsCharged [] [] calls := by
  rw [judge_new settles_consume config begin chronological]
  exact @settlements_eq_budgetLaw_iff _ [] _ (List.forall_mem_nil _)

/-- A new manager is exact on calls in order if and only if every call that the
rule grants finds room in its caller's window, which is also charged for the
calls that the node refuses, and the same holds without any one refused call. -/
theorem ai_budgets_exact_iff (config : AIBudgetConfig) (begin : Int)
    (chronological : Chronological calls) : ExactBudget (.new config begin) calls ↔
      (AIBudgetManager.new config begin).GrantsCharged [] [] calls ∧ ∀ (index : Nat) call,
          ((AIBudgetManager.new config begin).budgetLaw [] calls)[index]? = some (call, false) →
            (AIBudgetManager.new config begin).GrantsCharged [] [] (calls.eraseIdx index) := by
  have orderedWithout : ∀ index, Chronological (calls.eraseIdx index) :=
    fun index => chronological.sublist (List.eraseIdx_sublist calls index)
  have lawIff := judge_new_eq_budgetLaw_iff config begin chronological
  constructor
  · intro exact
    refine ⟨lawIff.mp exact.law, fun index call refused => ?_⟩
    rw [← exact.law] at refused
    apply (judge_new_eq_budgetLaw_iff config begin (orderedWithout index)).mp
    rw [exact.refused index call refused, exact.law, budgetLaw_eraseIdx]
    rw [← exact.law]
    exact refused
  · rintro ⟨charged, chargedWithout⟩
    have law := lawIff.mpr charged
    refine ⟨law, fun index call refused => ?_, ?_⟩
    · rw [law] at refused ⊢
      rw [← budgetLaw_eraseIdx refused]
      exact (judge_new_eq_budgetLaw_iff config begin (orderedWithout index)).mpr
        (chargedWithout index call refused)
    · rw [judge_new settles_consume config begin chronological,
        judge_new settles_consumeUnswept config begin chronological]

/-- One call for a peer in a second, and one for the node in ten milliseconds. -/
def tightBudget : AIBudgetConfig where
  perPeer := some ⟨.integer 1, .integer 1000⟩
  global := some ⟨.integer 1, .integer 10⟩

instance (manager : AIBudgetManager) (charged : List (RateCall String × Bool))
    (granted : List (AICall × Bool)) (calls : List AICall) :
    Decidable (manager.GrantsCharged charged granted calls) :=
  inferInstanceAs (Decidable (∀ verdicts ∈ _, _))

/-- The second call of a peer in its window is refused, and that is exact. -/
theorem ai_budgets_exact_iff_refusing :
    ExactBudget (.new tightBudget 0) [⟨some "a", 0⟩, ⟨some "a", 20⟩, ⟨none, 40⟩] := by
  refine (ai_budgets_exact_iff tightBudget 0 ?_).mpr ⟨by decide +kernel, ?_⟩
  · simp [Chronological]
  · intro index call refused
    have erased : ∀ place ∈ List.range 3, (AIBudgetManager.new tightBudget 0).GrantsCharged [] []
        ([⟨some "a", 0⟩, ⟨some "a", 20⟩, ⟨none, 40⟩].eraseIdx place) := by
      decide +kernel
    have bound := (List.getElem?_eq_some_iff.mp refused).1
    have length : ((AIBudgetManager.new tightBudget 0).budgetLaw []
        [⟨some "a", 0⟩, ⟨some "a", 20⟩, ⟨none, 40⟩]).length = 3 := rfl
    exact erased index (List.mem_range.mpr (length ▸ bound))

/-- A call that the node refuses stays charged to its caller. -/
theorem ai_budgets_charge_refused_calls :
    ¬∀ (config : AIBudgetConfig) (begin : Int) (calls : List AICall),
      Chronological calls → ExactBudget (.new config begin) calls := by
  intro exact
  have law := (exact tightBudget 0 [⟨some "a", 0⟩, ⟨some "b", 1⟩, ⟨some "b", 20⟩]
    (by simp [Chronological])).law
  revert law
  decide +kernel

end AIBudgetManager

end P2PHub
