import Mathlib.Logic.Function.Basic
import P2PHub.TransitionRuns
import P2PHub.WireContract

/-!
# The resolver of ENS names

`resolve` of `plugins/ens/src/index.ts` and its cache, which is keyed by the
normalized name.  A client is a function of its URL, as the answers of the
chain do not change.
-/

namespace P2PHub.Ens

open NetworkLight Transition

section

structure EnsRpcClient where
  getText : String → String → Option String
  getOwner : String → Option String

/-- The packages around the plugin, `EnsDeps`, and `toLowerCase`.  `none` stands
for `null` and for a throw that is caught; `confusables` gives the `similarTo`
of its entries. -/
structure EnsEnv where
  confusables : Char → Option (List (Option String))
  ens_normalize : String → Except String String
  recoverMessageAddress : String → String → Option String
  buildClient : String → EnsRpcClient
  ensClient : Option EnsRpcClient
  ttlMs : Int
  toLowerCase : String → String

structure EnsConfig where
  enabled : Bool
  rpcUrl : Option String

inductive EnsResolveResult
  | verified (peerId ensOwnerAddress : String) (warning : Option String)
  | unverified (claimedPeerId ensOwnerAddress warning : Option String)
  deriving DecidableEq

def EnsResolveResult.isVerified : EnsResolveResult → Bool
  | verified .. => true
  | unverified .. => false

def statementFor (peerId name : String) : String :=
  s!"I authorize peer {peerId} for name {name}"

variable (env : EnsEnv)

def looksConfusable (name : String) : Bool :=
  name.toList.any fun ch => decide (127 < ch.toNat) &&
    ((env.confusables ch).getD []).any fun similarTo => similarTo.any (· ≠ "")

def warningOf (name : String) : Option String :=
  if looksConfusable env name then
    some "name contains characters that visually resemble others (homograph risk)"
  else none

def nonempty (text : Option String) : Option String :=
  text.filter (· ≠ "")

def doResolve (rpc : EnsRpcClient) (normalized : String) (warning : Option String) :
    EnsResolveResult :=
  let ownerAddress := (nonempty (rpc.getOwner normalized)).map env.toLowerCase
  match nonempty (rpc.getText normalized "p2p.peer") with
  | none => .unverified none ownerAddress warning
  | some claimedPeerId =>
    match nonempty (rpc.getText normalized "p2p.sig") with
    | none => .unverified (some claimedPeerId) ownerAddress warning
    | some sigRecord =>
      if ¬isPeerId claimedPeerId then .unverified (some claimedPeerId) ownerAddress warning
      else
        match nonempty ownerAddress with
        | none => .unverified (some claimedPeerId) none warning
        | some ownerAddress =>
          let address :=
            env.recoverMessageAddress (statementFor claimedPeerId normalized) sigRecord
          if nonempty (address.map env.toLowerCase) = some ownerAddress then
            .verified claimedPeerId ownerAddress warning
          else .unverified (some claimedPeerId) (some ownerAddress) warning

/-- An entry of the cache.  `name` and `rpc` observe the call that wrote it. -/
structure Cached (normalized : String) where
  result : EnsResolveResult
  writtenAt : Int
  name : String
  rpc : EnsRpcClient
  answers : result = doResolve env rpc normalized (warningOf env name)

structure EnsState where
  stored : Option EnsConfig
  cache : (normalized : String) → Option (Cached env normalized)

def EnsState.initial : EnsState env :=
  ⟨none, fun _ => none⟩

variable {env}

def getConfig (stored : Option EnsConfig) : EnsConfig :=
  stored.getD ⟨false, none⟩

def setConfig (s : EnsState env) (enabled : Option Bool) (rpcUrl : Option String) :
    EnsState env :=
  let current := getConfig s.stored
  { s with stored := some ⟨enabled.getD current.enabled, (nonempty rpcUrl).or current.rpcUrl⟩ }

def clientOf (env : EnsEnv) (config : EnsConfig) : Option EnsRpcClient :=
  env.ensClient.or ((nonempty config.rpcUrl).map env.buildClient)

def EnsState.hit (s : EnsState env) (normalized : String) (now : Int) :
    Option (Cached env normalized) :=
  (s.cache normalized).filter fun cached => decide (now - cached.writtenAt < env.ttlMs)

/-- The clock shows `now` when the cache is read, and `after` when it is written. -/
def resolve (s : EnsState env) (name : String) (now after : Int) :
    Except String EnsResolveResult × EnsState env :=
  if name = "" then (.error "resolve expects \x7b name: string \x7d", s)
  else if ¬(getConfig s.stored).enabled then
    (.error "ens: resolution is disabled (enable via ens.setConfig)", s)
  else
    match env.ens_normalize name with
    | .error message => (.error s!"ens: invalid name \"{name}\": {message}", s)
    | .ok normalized =>
      match clientOf env (getConfig s.stored) with
      | none => (.error "ens: no RPC URL configured (set via ens.setConfig)", s)
      | some rpc =>
        match s.hit normalized now with
        | some cached => (.ok cached.result, s)
        | none =>
          let result := doResolve env rpc normalized (warningOf env name)
          (.ok result, if result.isVerified then
              { s with cache :=
                Function.update s.cache normalized (some ⟨result, after, name, rpc, rfl⟩) }
            else s)

inductive EnsLabel
  | setConfig (enabled : Option Bool) (rpcUrl : Option String)
  | resolve (name : String) (now after : Int)

/-- An answer, with the stored configuration that was in force. -/
structure Answer where
  stored : Option EnsConfig
  name : String
  result : Except String EnsResolveResult

def ensStep (s : EnsState env) : EnsLabel → Option (EnsState env × List Answer)
  | .setConfig enabled rpcUrl => some (setConfig s enabled rpcUrl, [])
  | .resolve name now after =>
    let answered := resolve s name now after
    some (answered.2, [⟨s.stored, name, answered.1⟩])

end

variable {env : EnsEnv} {s after : EnsState env} {history answers : List Answer}

/-- What is answered when the cache is empty. -/
def uncached (env : EnsEnv) (stored : Option EnsConfig) (name : String) :
    Except String EnsResolveResult :=
  (resolve (⟨stored, fun _ => none⟩ : EnsState env) name 0 0).1

/-- An entry that is hit was written for a spelling that looks confusable just
as this one, and from the same records as the client in force has. -/
def SameSource (_ : List Answer) (s : EnsState env) : EnsLabel → Prop
  | .setConfig .. => True
  | .resolve name now _ => ∀ normalized rpc cached, env.ens_normalize name = .ok normalized →
      clientOf env (getConfig s.stored) = some rpc → s.hit normalized now = some cached →
        looksConfusable env name = looksConfusable env cached.name ∧
        rpc.getText normalized = cached.rpc.getText normalized ∧
        rpc.getOwner normalized = cached.rpc.getOwner normalized

theorem resolve_eq_uncached {name : String} {now later : Int}
    (same : SameSource history s (.resolve name now later)) :
    (resolve s name now later).1 = uncached env s.stored name := by
  unfold uncached resolve
  dsimp only
  split
  · rfl
  split
  · rfl
  cases isName : env.ens_normalize name with
  | error => rfl
  | ok normalized =>
    cases isClient : clientOf env (getConfig s.stored) with
    | none => rfl
    | some rpc =>
      have miss : (⟨s.stored, fun _ => none⟩ : EnsState env).hit normalized 0 = none := rfl
      cases isHit : s.hit normalized now with
      | none => simp only [miss, isHit]
      | some cached =>
        obtain ⟨warning, texts, owner⟩ := same normalized rpc cached isName isClient isHit
        simp only [miss, isHit, cached.answers, doResolve, warningOf, warning, texts, owner]

/-- In every run in which each entry that is hit has the same source, each answer
is what an uncached resolve gives under the configuration in force. -/
theorem resolve_transparent (runs : Runs ensStep SameSource (.initial env) history s) :
    ∀ answer ∈ history, answer.result = uncached env answer.stored answer.name := by
  apply runs.invariant fun history _ => ∀ answer ∈ history,
    answer.result = uncached env answer.stored answer.name
  · simp
  · intro history s label after answers transparent same stepped answer member
    rcases List.mem_append.mp member with member | member
    · exact transparent answer member
    · cases label with
      | setConfig =>
        cases stepped
        cases member
      | resolve =>
        cases stepped
        cases List.mem_singleton.mp member
        exact resolve_eq_uncached same

/-- One peer that has signed every name, and full-width letters that look like
the letters they are normalized to. -/
def oneNameEnv : EnsEnv where
  confusables ch := if ch = 'ａ' then some [some "a"] else none
  ens_normalize name := .ok (String.ofList (name.toList.map fun ch => if ch = 'ａ' then 'a' else ch))
  recoverMessageAddress _ _ := some "0x1"
  buildClient _ :=
    ⟨fun _ key => some (if key = "p2p.peer" then String.ofList (List.replicate 64 'a') else "0x2"),
      fun _ => some "0x1"⟩
  ensClient := none
  ttlMs := 1000
  toLowerCase := id

theorem resolve_transparent_once : ∃ history : List Answer, history ≠ [] ∧
    ∀ answer ∈ history, answer.result = uncached oneNameEnv answer.stored answer.name := by
  have enables : SameSource [] (.initial oneNameEnv) (.setConfig (some true) (some "u")) :=
    trivial
  have misses : SameSource [] (setConfig (.initial oneNameEnv) (some true) (some "u"))
      (.resolve "a" 0 0) := fun _ _ _ _ _ hit => by cases hit
  exact ⟨_, List.cons_ne_nil _ _, resolve_transparent (.tail (.tail .refl enables rfl) misses rfl)⟩

/-- The second spelling gets the answer of the first, without its warning. -/
theorem warning_lost : ∃ (history : List Answer) (s : EnsState oneNameEnv),
    Runs ensStep unrestricted (.initial oneNameEnv) history s ∧ ∃ answer ∈ history,
      answer.result ≠ uncached oneNameEnv answer.stored answer.name := by
  obtain ⟨history, s, runs, lost⟩ := exists_runs_of_any ensStep (fun _ => True)
    (.initial oneNameEnv) [.setConfig (some true) (some "u"), .resolve "a" 0 0, .resolve "ａ" 1 1]
    (fun last => last.2.any fun answer =>
      answer.result ≠ uncached oneNameEnv answer.stored answer.name)
    (fun _ _ => trivial) (by decide +kernel)
  obtain ⟨answer, member, other⟩ := List.any_eq_true.mp lost
  exact ⟨history, s, runs, answer, member, of_decide_eq_true other⟩

end P2PHub.Ens
