import Mathlib.Data.List.Induction
import P2PHub.PeerAccessGate
import P2PHub.PeerSiteAccess

/-!
# Access passes over a history of calls

The rest of `core/src/task-broker/access-pass-manager.ts`: passes are revoked,
looked up and listed, and dropped once they have expired.  The clock is in whole
milliseconds.
-/

namespace P2PHub.PeerSite

open Json AccessPassManager OrderedMap

section

def defaultPassTtl : Int := 60 * 60 * 1000

/-- A `ttl` that is no integer is refused like zero. -/
def wholeTtl (ttl : Binary64) : Int :=
  match ttl.toRat? with
  | some value => if value.den = 1 then value.num else 0
  | none => 0

def defaultTtlMs (option : Option Binary64) : Int :=
  let ttl := (option.map wholeTtl).getD defaultPassTtl
  if 0 < ttl then ttl else defaultPassTtl

def AccessPass.expired (now : Int) (pass : AccessPass) : Bool :=
  decide (pass.expiresAt < now)

def AccessPassManager.revoke (passes : AccessPassManager) (peerId scope : JsonString) :
    AccessPassManager × Bool :=
  (passes.delete (passKey peerId scope), (passes.get (passKey peerId scope)).isSome)

def AccessPassManager.hasValidPass (passes : AccessPassManager) (now : Int)
    (peerId scope : JsonString) : AccessPassManager × Bool :=
  match passes.get (passKey peerId scope) with
  | none => (passes, false)
  | some pass =>
    if pass.expired now then (passes.delete (passKey peerId scope), false) else (passes, true)

def AccessPassManager.inspectPass (passes : AccessPassManager) (now : Int)
    (peerId scope : JsonString) : PassState :=
  match passes.get (passKey peerId scope) with
  | none => .none
  | some pass => if pass.expired now then .expired else .valid

def AccessPassManager.listPasses (passes : AccessPassManager) (now : Int) :
    AccessPassManager × List AccessPass :=
  (passes.deleteWhere fun _ pass => pass.expired now,
    passes.values.filter fun pass => !pass.expired now)

inductive PassCall
  | issue (peerId scope : JsonString) (ttl : Option Binary64)
  | revoke (peerId scope : JsonString)
  | hasValidPass (peerId scope : JsonString)
  | inspectPass (peerId scope : JsonString)
  | listPasses
  deriving DecidableEq

def PassCall.pair? : PassCall → Option (JsonString × JsonString)
  | issue peerId scope _ => some (peerId, scope)
  | revoke peerId scope => some (peerId, scope)
  | hasValidPass peerId scope => some (peerId, scope)
  | inspectPass peerId scope => some (peerId, scope)
  | listPasses => none

structure TimedPassCall where
  now : Int
  call : PassCall
  deriving DecidableEq

variable (defaultTtl : Int)

/-- A call that throws changes nothing. -/
def AccessPassManager.after (passes : AccessPassManager) (timed : TimedPassCall) :
    AccessPassManager :=
  match timed.call with
  | .issue peerId scope ttl =>
    match passes.issue timed.now peerId scope ((ttl.map wholeTtl).getD defaultTtl) with
    | .ok (issued, _) => issued
    | .error _ => passes
  | .revoke peerId scope => (passes.revoke peerId scope).1
  | .hasValidPass peerId scope => (passes.hasValidPass timed.now peerId scope).1
  | .inspectPass _ _ => passes
  | .listPasses => (passes.listPasses timed.now).1

def passesAfter (calls : List TimedPassCall) : AccessPassManager :=
  calls.foldl (after defaultTtl) .empty

/-- When the pass of a peer for a scope expires: what the last successful `issue`
said, unless it was revoked since. -/
def standing (peerId scope : JsonString) (last : Option Int) (timed : TimedPassCall) : Option Int :=
  match timed.call with
  | .issue issuedTo issuedFor ttl =>
    let lifetime := (ttl.map wholeTtl).getD defaultTtl
    if (issuedTo, issuedFor) = (peerId, scope) ∧ peerId ≠ [] ∧ scope ≠ [] ∧ 0 < lifetime then
      some (timed.now + lifetime)
    else last
  | .revoke revokedFrom revokedFor =>
    if (revokedFrom, revokedFor) = (peerId, scope) then none else last
  | _ => last

/-- No call is about another peer and scope that have the same key. -/
def Unambiguous (calls : List TimedPassCall) (peerId scope : JsonString) : Prop :=
  ∀ timed ∈ calls, ∀ pair, timed.call.pair? = some pair →
    passKey pair.1 pair.2 = passKey peerId scope → pair = (peerId, scope)

end

section

variable {defaultTtl : Int} {passes : AccessPassManager} {calls : List TimedPassCall}
  {timed : TimedPassCall} {peerId scope other : JsonString} {now : Int}

theorem passKey_injective {otherScope : JsonString} (plain : 0 ∉ peerId) (otherPlain : 0 ∉ other)
    (same : passKey other otherScope = passKey peerId scope) :
    (other, otherScope) = (peerId, scope) := by
  have first (peerId scope : JsonString) (plain : 0 ∉ peerId) :
      (passKey peerId scope).takeWhile (· ≠ 0) = peerId := by
    rw [passKey, List.append_assoc, List.takeWhile_append_of_pos]
    · simp
    · intro unit member
      exact decide_eq_true fun zero => plain (zero ▸ member)
  have samePeer := congrArg (List.takeWhile (· ≠ 0)) same
  rw [first _ _ plain, first _ _ otherPlain] at samePeer
  subst samePeer
  rw [List.append_cancel_left same]

/-- Peers without a NUL have keys of their own. -/
theorem unambiguous_of_plain (plain : 0 ∉ peerId)
    (others : ∀ timed ∈ calls, ∀ pair, timed.call.pair? = some pair → 0 ∉ pair.1) :
    Unambiguous calls peerId scope := by
  intro timed member pair isPair same
  exact passKey_injective plain (others timed member pair isPair) same

theorem issue_eq (passes : AccessPassManager) (now ttl : Int) (peerId scope : JsonString) :
    (∃ message, passes.issue now peerId scope ttl = .error message ∧
      ¬(peerId ≠ [] ∧ scope ≠ [] ∧ 0 < ttl)) ∨ ∃ pass, passes.issue now peerId scope ttl =
      .ok (passes.set (passKey peerId scope) pass, pass) ∧ pass.expiresAt = now + ttl ∧
        peerId ≠ [] ∧ scope ≠ [] ∧ 0 < ttl := by
  unfold issue
  split
  · next empty => exact .inl ⟨_, rfl, fun valid => valid.1 empty⟩
  · split
    · next empty => exact .inl ⟨_, rfl, fun valid => valid.2.1 empty⟩
    · split
      · next small => exact .inl ⟨_, rfl, fun valid => absurd valid.2.2 (not_lt.mpr small)⟩
      · exact .inr ⟨_, rfl, rfl, ‹_›, ‹_›, by omega⟩

/-- A call about another pair leaves the pass. -/
theorem get_after_other (apart : ∀ pair, timed.call.pair? = some pair →
      passKey pair.1 pair.2 ≠ passKey peerId scope) (listed : timed.call ≠ .listPasses) :
    (passes.after defaultTtl timed).get (passKey peerId scope) =
      passes.get (passKey peerId scope) := by
  unfold after
  split
  · next holder area ttl isCall =>
      have differs := apart _ (by rw [isCall]; rfl)
      rcases issue_eq passes timed.now ((ttl.map wholeTtl).getD defaultTtl) holder area with
        ⟨message, failed, _⟩ | ⟨pass, issued, _⟩
      · rw [failed]
      · rw [issued]
        exact get_set_of_ne _ _ differs.symm
  · next holder area isCall =>
      have differs := apart _ (by rw [isCall]; rfl)
      exact get_delete_of_ne _ differs.symm
  · next holder area isCall =>
      have differs := apart _ (by rw [isCall]; rfl)
      unfold hasValidPass
      split
      · rfl
      · split
        · exact get_delete_of_ne _ differs.symm
        · rfl
  · rfl
  · next isCall => exact absurd isCall listed

/-- The pass that is held is the one that stands, if that has not expired. -/
structure Held (passes : AccessPassManager) (peerId scope : JsonString) (latest : Int)
    (standing : Option Int) : Prop where
  stands : ∀ pass, passes.get (passKey peerId scope) = some pass → standing = some pass.expiresAt
  kept : ∀ expiresAt, standing = some expiresAt → latest ≤ expiresAt →
    ∃ pass, passes.get (passKey peerId scope) = some pass

theorem Held.later {last : Option Int} (held : Held passes peerId scope timed.now last)
    (defaultTtl : Int)
    (own : ∀ pair, timed.call.pair? = some pair → passKey pair.1 pair.2 = passKey peerId scope →
      pair = (peerId, scope)) : Held (passes.after defaultTtl timed) peerId scope timed.now
      (standing defaultTtl peerId scope last timed) := by
  by_cases about : timed.call.pair? = some (peerId, scope)
  · obtain ⟨now, call⟩ := timed
    cases call with
    | issue holder area ttl =>
      cases about
      rcases issue_eq passes now ((ttl.map wholeTtl).getD defaultTtl) peerId scope with
        ⟨message, failed, invalid⟩ | ⟨pass, issued, expires, valid⟩
      · simp only [after, failed, standing, true_and, if_neg invalid]
        exact held
      · simp only [after, issued, standing, true_and, if_pos valid]
        refine ⟨fun found isFound => ?_, fun _ _ _ => ⟨pass, get_set_self _ _ _⟩⟩
        rw [get_set_self] at isFound
        cases isFound
        rw [expires]
    | revoke =>
      cases about
      simp only [after, revoke, standing, if_true]
      refine ⟨fun pass found => ?_, fun _ impossible => by cases impossible⟩
      rw [get_delete_self] at found
      cases found
    | hasValidPass =>
      cases about
      simp only [after, hasValidPass, standing]
      split
      · exact held
      · next pass found =>
          split
          · next expired =>
              refine ⟨fun other gone => ?_, fun expiresAt stands inTime => ?_⟩
              · rw [get_delete_self] at gone
                cases gone
              · cases stands.symm.trans (held.stands pass found)
                exact absurd (of_decide_eq_true expired) (not_lt.mpr inTime)
          · exact held
    | inspectPass => exact held
    | listPasses => cases about
  · have same : standing defaultTtl peerId scope last timed = last := by
      unfold standing
      split
      · next isCall => exact if_neg fun valid => about (by rw [isCall, ← valid.1]; rfl)
      · next isCall => exact if_neg fun pair => about (by rw [isCall, ← pair]; rfl)
      · rfl
    rw [same]
    by_cases listed : timed.call = .listPasses
    · simp only [after, listed, listPasses]
      refine ⟨fun pass found => ?_, fun expiresAt stands inTime => ?_⟩
      · rw [get_deleteWhere, Option.filter_eq_some_iff] at found
        exact held.stands pass found.1
      · obtain ⟨pass, found⟩ := held.kept expiresAt stands inTime
        cases stands.symm.trans (held.stands pass found)
        have unexpired : pass.expired timed.now = false := decide_eq_false (not_lt.mpr inTime)
        exact ⟨pass, by rw [get_deleteWhere, found]; simp [unexpired]⟩
    · have slot : (passes.after defaultTtl timed).get (passKey peerId scope) =
          passes.get (passKey peerId scope) :=
        get_after_other (fun pair isPair sameKey => about (own pair isPair sameKey ▸ isPair)) listed
      exact ⟨slot ▸ held.stands, slot ▸ held.kept⟩

theorem held_passesAfter (own : Unambiguous calls peerId scope)
    (chronological : (calls.map TimedPassCall.now ++ [now]).Pairwise (· ≤ ·)) :
    Held (passesAfter defaultTtl calls) peerId scope now
      (calls.foldl (standing defaultTtl peerId scope) none) := by
  induction calls using List.reverseRecOn generalizing now with
  | nil => exact ⟨(fun _ found => by cases found), (fun _ impossible => by cases impossible)⟩
  | append_singleton calls timed ih =>
    rw [List.map_append, List.map_singleton, List.pairwise_append] at chronological
    obtain ⟨earlier, -, last⟩ := chronological
    have inTime : timed.now ≤ now := last timed.now (by simp) now (by simp)
    have held := (ih (fun call member => own call (List.mem_append_left _ member)) earlier).later
      defaultTtl (own timed (by simp))
    rw [passesAfter, List.foldl_append, List.foldl_append]
    exact ⟨held.stands,
      fun expiresAt stands later => held.kept expiresAt stands (inTime.trans later)⟩

/-- As long as no two pairs share a key, a pass is valid exactly when the last
successful `issue` for its pair was not revoked and has not expired, and calls
for other pairs leave it as it is. -/
theorem access_passes_exact (defaultTtl : Int) (own : Unambiguous calls peerId scope)
    (chronological : (calls.map TimedPassCall.now ++ [now]).Pairwise (· ≤ ·)) :
    (((passesAfter defaultTtl calls).hasValidPass now peerId scope).2 ↔
      ∃ expiresAt, calls.foldl (standing defaultTtl peerId scope) none = some expiresAt ∧
        now ≤ expiresAt) ∧ ∀ before timed after, calls = before ++ timed :: after →
      (∃ pair, timed.call.pair? = some pair ∧ pair ≠ (peerId, scope)) →
        (passesAfter defaultTtl (before ++ [timed])).get (passKey peerId scope) =
          (passesAfter defaultTtl before).get (passKey peerId scope) := by
  have held : Held (passesAfter defaultTtl calls) peerId scope now _ :=
    held_passesAfter own chronological
  constructor
  · unfold hasValidPass
    constructor
    · intro valid
      split at valid
      · cases valid
      · next pass found =>
          split at valid
          · cases valid
          · next unexpired =>
              exact ⟨pass.expiresAt, held.stands pass found,
                not_lt.mp fun expired => unexpired (decide_eq_true expired)⟩
    · rintro ⟨expiresAt, stands, inTime⟩
      obtain ⟨pass, found⟩ := held.kept expiresAt stands inTime
      cases stands.symm.trans (held.stands pass found)
      have unexpired : pass.expired now = false := decide_eq_false (not_lt.mpr inTime)
      simp [found, unexpired]
  · rintro before timed after rfl ⟨pair, isPair, other⟩
    rw [passesAfter, List.foldl_append]
    refine get_after_other (fun found isFound sameKey => ?_) (fun listed => ?_)
    · cases isPair.symm.trans isFound
      exact other (own timed (by simp) pair isPair sameKey)
    · rw [listed] at isPair
      cases isPair

end

def aliceCalls : List TimedPassCall :=
  [⟨0, .issue (jsonString "alice") (jsonString "site") (some (.ofInt 10))⟩,
    ⟨5, .revoke (jsonString "bob") (jsonString "site")⟩, ⟨7, .listPasses⟩]

theorem access_passes_exact_alice :
    (((passesAfter 60 aliceCalls).hasValidPass 9 (jsonString "alice") (jsonString "site")).2 ↔
      ∃ expiresAt, aliceCalls.foldl (standing 60 (jsonString "alice") (jsonString "site")) none =
        some expiresAt ∧ 9 ≤ expiresAt) ∧
    ∀ before timed after, aliceCalls = before ++ timed :: after →
      (∃ pair, timed.call.pair? = some pair ∧ pair ≠ (jsonString "alice", jsonString "site")) →
        (passesAfter 60 (before ++ [timed])).get (passKey (jsonString "alice") (jsonString "site")) =
          (passesAfter 60 before).get (passKey (jsonString "alice") (jsonString "site")) := by
  refine access_passes_exact 60 (unambiguous_of_plain (by decide) ?_) (by decide)
  simp only [aliceCalls, List.forall_mem_cons, PassCall.pair?, Option.some.injEq, forall_eq']
  exact ⟨by decide, by decide, (fun _ impossible => by cases impossible), List.forall_mem_nil _⟩

/-- A pass of a peer whose identifier ends in a NUL and a scope is one for that
scope and another peer. -/
theorem key_collides : ¬∀ (defaultTtl : Int) (calls : List TimedPassCall)
    (peerId scope : JsonString) (now : Int),
    (calls.map TimedPassCall.now ++ [now]).Pairwise (· ≤ ·) →
      (((passesAfter defaultTtl calls).hasValidPass now peerId scope).2 ↔
        ∃ expiresAt, calls.foldl (standing defaultTtl peerId scope) none = some expiresAt ∧
          now ≤ expiresAt) := by
  intro claimed
  have exactly := claimed 60 [⟨0, .issue [97, 0, 98] [99] none⟩] [97] [98, 0, 99] 0 (by decide)
  obtain ⟨expiresAt, stands, -⟩ := exactly.mp (by decide +kernel)
  simp [standing] at stands

end P2PHub.PeerSite
