import P2PHub.RevocationRegister

/-!
# Revocations are kept

A content hash that was written stays in the register file and is reported by
every service that loads the file afterwards, as long as no turn takes a stale
list for the register.  Nothing in the services rules such a turn out.
-/

namespace P2PHub.Certification

open Json AsyncCalls Transition

variable {path : JsonString} {register after : Register} {emitted : List Event}
  {history : List (Nat × Event)} {pool begin : Pool Register Call}

/-- A turn takes no stale list for the register: a text that is written lists
what the file lists, a service that has loaded the register returns from a
further `load` with what the file lists, and a list that is read replaces none
with other content hashes. -/
def UpToDate (_ : List (Nat × Event)) (pool : Pool Register Call) : Label Request Answer → Prop
  | .launch (.load index) => ∀ service, pool.shared.services[index]? = some service →
      service.loaded = true → Covers service.revocation.isRevoked pool.shared.file.isRevoked
  | .launch _ => True
  | .resume index _ =>
    (∀ caller contentHash text, pool.calls[index]? = some (.writing caller contentHash text) →
      Covers text.isRevoked pool.shared.file.isRevoked) ∧
    ∀ caller stored service, pool.calls[index]? = some (.assigning caller (.stored stored)) →
      pool.shared.services[caller]? = some service →
        Covers stored.isRevoked service.revocation.isRevoked

theorem resumes_grows {call next : Call} {answer : Answer} {position : Nat}
    (upToDate : UpToDate history pool (.resume position answer))
    (located : pool.calls[position]? = some call)
    (resumes : Resumes pool.shared call after next emitted) : pool.shared.Grows after := by
  cases resumes with
  | fails | reads | resolves => exact .refl _
  | keeps found => exact grows_setService found fun _ => id
  | assigns found => exact grows_setService found (upToDate.2 _ _ _ located found)
  | renames => exact ⟨upToDate.1 _ _ _ located, fun _ _ => id⟩

/-- What a call has written is in the file once it is renamed. -/
def Call.Persists (register : Register) : Call → Prop
  | .writing _ contentHash text => text.isRevoked contentHash = true
  | .releasing _ contentHash => register.file.isRevoked contentHash = true
  | _ => True

theorem Call.Persists.grow {call : Call} (persists : call.Persists register)
    (grows : register.Grows after) : call.Persists after := by
  cases call with
  | writing => exact persists
  | releasing => exact grows.file _ persists
  | _ => trivial

/-- Every revocation that has completed is in the file. -/
def Persisted (history : List (Nat × Event)) (register : Register) : Prop :=
  ∀ call contentHash listed, (call, .revoked contentHash listed) ∈ history →
    register.file.isRevoked contentHash = true

theorem Persisted.grow (persisted : Persisted history register)
    (grows : register.Grows after) : Persisted history after :=
  fun call contentHash listed member =>
    grows.file contentHash (persisted call contentHash listed member)

theorem Persisted.append {index : Nat} (persisted : Persisted history register)
    (fresh : ∀ contentHash listed, Event.revoked contentHash listed ∈ emitted →
      register.file.isRevoked contentHash) :
    Persisted (history ++ emitted.map (index, ·)) register := by
  intro call contentHash listed member
  rcases List.mem_append.mp member with old | new
  · exact persisted call contentHash listed old
  · obtain ⟨event, isEmitted, same⟩ := List.mem_map.mp new
    cases same
    exact fresh contentHash listed isEmitted

theorem persisted_preserved : Preserved (services path) UpToDate begin Persisted
      (fun _ register _ call => call.Persists register) where
  acted history pool action register _ holds _ launched := by
    have grows := launch_grows launched
    exact ⟨holds.1.grow grows, fun index call _ persists => persists.grow grows⟩
  launched history pool action register call emitted _ holds _ launched := by
    have grows := launch_grows launched
    have launches := launch_launches launched
    refine ⟨(holds.1.grow grows).append ?_, ?_, fun index other _ persists =>
      persists.grow grows⟩
    · intro contentHash listed member
      cases launches with
      | known | reads | refuses | writes => simp at member
    · cases launches with
      | known | reads | refuses => trivial
      | writes listed => exact listed
  resumed history pool index answer call register next emitted _ holds permitted found resumed := by
    have resumes := resume_resumes resumed
    have grows := resumes_grows permitted found resumes
    have persists := holds.2 index call found
    refine ⟨(holds.1.grow grows).append ?_, ?_, fun position other _ _ kept => kept.grow grows⟩
    · intro contentHash listed member
      cases resumes with
      | fails | reads | keeps | assigns | renames => simp at member
      | resolves =>
        cases List.mem_singleton.mp member
        exact persists
    · cases resumes with
      | fails | reads | keeps | assigns | resolves => trivial
      | renames => exact persists

variable {contentHash : JsonString}

/-- A call that has read the file has read a content hash. -/
def Call.Reads (contentHash : JsonString) : Call → Prop
  | .assigning _ read => read.isRevoked contentHash = true
  | _ => True

/-- The file lists a content hash, and every service reports it on which a
`load` has returned that is at least the `first` call. -/
def Reported (contentHash : JsonString) (first : Nat) (history : List (Nat × Event))
    (register : Register) : Prop :=
  register.file.isRevoked contentHash = true ∧
    ∀ call host, (call, .loaded host) ∈ history → first ≤ call → register.Reports host contentHash

theorem Reported.grow {first : Nat}
    (reported : Reported contentHash first history register) (grows : register.Grows after) :
    Reported contentHash first history after :=
  ⟨grows.file _ reported.1, fun call host member late =>
    grows.reports host contentHash (reported.2 call host member late)⟩

theorem Reported.append {first index : Nat} (reported : Reported contentHash first history register)
    (fresh : first ≤ index → ∀ host, Event.loaded host ∈ emitted →
      register.Reports host contentHash) :
    Reported contentHash first (history ++ emitted.map (index, ·)) register := by
  refine ⟨reported.1, fun call host member late => ?_⟩
  rcases List.mem_append.mp member with old | new
  · exact reported.2 call host old late
  · obtain ⟨event, isEmitted, same⟩ := List.mem_map.mp new
    cases same
    exact fresh late host isEmitted

theorem reported_preserved (first : Nat) :
    Preserved (services path) UpToDate begin (Reported contentHash first)
      (fun _ _ index call => first ≤ index → call.Reads contentHash) where
  acted history pool action register _ holds _ launched :=
    ⟨holds.1.grow (launch_grows launched), fun _ _ _ reads => reads⟩
  launched history pool action register call emitted _ holds permitted launched := by
    have grows := launch_grows launched
    have launches := launch_launches launched
    refine ⟨(holds.1.grow grows).append fun _ host member => ?_, fun _ => ?_,
      fun _ _ _ reads => reads⟩
    · cases launches with
      | known found loaded =>
        cases List.mem_singleton.mp member
        have listed := permitted _ found loaded contentHash holds.1.1
        exact grows.reports _ contentHash ⟨_, found, listed⟩
      | reads | refuses | writes => simp at member
    · cases launches with
      | known | reads | refuses | writes => trivial
  resumed history pool index answer call register next emitted _ holds permitted found resumed := by
    have resumes := resume_resumes resumed
    have grows := resumes_grows permitted found resumes
    have reads := holds.2 index call found
    refine ⟨(holds.1.grow grows).append fun late host member => ?_, fun _ => ?_,
      fun _ _ _ _ kept => kept⟩
    · cases resumes with
      | fails | reads | renames | resolves => simp at member
      | keeps => cases reads late
      | assigns located =>
        cases List.mem_singleton.mp member
        exact reports_setService located (reads late)
    · cases resumes with
      | fails | keeps | assigns | renames | resolves => trivial
      | reads => exact holds.1.1

/-- When no turn takes a stale list, a content hash that a completed
`revokeCertificate` has written stays in the file, and every service on which a
later `load` has returned reports it as revoked. -/
theorem revocations_kept {file : RegisterFile} {earlier later : List (Nat × Event)}
    {middle last : Pool Register Call} {call : Nat} {listed : RevocationList}
    (before : Runs (services path).step UpToDate (.initial ⟨file, []⟩) earlier middle)
    (revoked : (call, .revoked contentHash listed) ∈ earlier)
    (afterwards : Runs (services path).step UpToDate middle later last) :
    last.shared.file.isRevoked contentHash ∧
      ∀ loader host, middle.calls.length ≤ loader → (loader, .loaded host) ∈ later →
        last.shared.Reports host contentHash := by
  have begins : Holds Persisted
      (fun _ register _ (call : Call) => call.Persists register) [] (.initial ⟨file, []⟩) :=
    ⟨fun _ _ _ member => (nomatch member), fun _ _ found => nomatch found⟩
  have persisted := (persisted_preserved.run_holds begins before).1
  have goesOn : Holds (Reported contentHash middle.calls.length)
      (fun _ _ index (call : Call) => middle.calls.length ≤ index → call.Reads contentHash)
      [] middle := by
    refine ⟨⟨persisted call contentHash listed revoked, fun _ _ member => (nomatch member)⟩, ?_⟩
    intro index other found late
    have bound := (List.getElem?_eq_some_iff.mp found).1
    omega
  obtain ⟨fileLists, reports⟩ := ((reported_preserved _).run_holds goesOn afterwards).1
  exact ⟨fileLists, fun loader host late returned => reports loader host returned late⟩

def firstHash : JsonString := List.replicate 64 97
def secondHash : JsonString := List.replicate 64 98

def revocationEntry (contentHash : JsonString) : RevocationEntry :=
  ⟨contentHash, none, [], jsonString "compromised"⟩

/-- A service revokes a content hash, in the call of an index. -/
def revocationBy (service call : Nat) (contentHash : JsonString) : List (Label Request Answer) :=
  [.launch (.revokeCertificate service contentHash (jsonString "compromised") none []),
    .resume call .succeeded, .resume call .succeeded]

/-- A host loads the register, in the call of an index. -/
def loadBy (service call : Nat) : List (Label Request Answer) :=
  [.launch .construct, .launch (.load service), .resume call .succeeded, .resume call .succeeded]

/-- A turn that writes only where there is no file, and loads only a service
that has neither loaded nor revoked anything. -/
def isFirst (_ : List (Nat × Event)) (pool : Pool Register Call) : Label Request Answer → Bool
  | .launch (.load index) => (pool.shared.services[index]?).all fun service => !service.loaded
  | .launch _ => true
  | .resume index _ =>
    match pool.calls[index]? with
    | some (.writing _ _ _) => pool.shared.file = .missing
    | some (.assigning caller _) =>
      (pool.shared.services[caller]?).all fun service => service.revocation = ⟨[]⟩
    | _ => true

theorem upToDate_of_isFirst
    {label : Label Request Answer} (first : isFirst history pool label) :
    UpToDate history pool label := by
  cases label with
  | launch request =>
    cases request with
    | load =>
      intro service found loaded
      rw [isFirst, found, Option.all_some, loaded] at first
      cases first
    | _ => trivial
  | resume =>
    rw [isFirst] at first
    constructor
    · intro caller contentHash text found other listed
      rw [found] at first
      rw [of_decide_eq_true first] at listed
      cases listed
    · intro caller stored service found located other listed
      rw [found] at first
      dsimp only at first
      rw [located, Option.all_some] at first
      rw [of_decide_eq_true first] at listed
      cases listed

/-- A content hash is revoked and a host loads the register afterwards. -/
theorem revocations_kept_first : ∃ last : Pool Register Call,
    last.shared.file.isRevoked firstHash ∧ last.shared.Reports 1 firstHash := by
  have executed : (((runWhile (services []).step isFirst [] (.initial ⟨.missing, []⟩)
      (.launch .construct :: revocationBy 0 0 firstHash)).bind fun middle =>
        (runWhile (services []).step isFirst [] middle.1 (loadBy 1 1)).map
          fun last => (middle, last)).any fun states =>
            (0, .revoked firstHash ⟨[revocationEntry firstHash]⟩) ∈ states.1.2 &&
              states.1.1.calls.length ≤ 1 && (1, .loaded 1) ∈ states.2.2) := by
    decide +kernel
  obtain ⟨⟨⟨middle, earlier⟩, last, later⟩, isRun, passed⟩ :=
    (Option.any_eq_true _ _).mp executed
  obtain ⟨_, first, mapped⟩ := Option.bind_eq_some_iff.mp isRun
  obtain ⟨_, second, same⟩ := Option.map_eq_some_iff.mp mapped
  cases same
  simp only [Bool.and_eq_true, decide_eq_true_eq] at passed
  obtain ⟨⟨revoked, launched⟩, loaded⟩ := passed
  have before := runs_of_runWhile (fun _ _ _ => upToDate_of_isFirst) .refl first
  have afterwards := runs_of_runWhile (fun _ _ _ => upToDate_of_isFirst) .refl second
  obtain ⟨inFile, reports⟩ := revocations_kept before revoked afterwards
  exact ⟨last, inFile, reports 1 1 launched loaded⟩

/-- Two operators load the register before either has written it, and the
second write drops the revocation of the first: the host that loads last does
not report it. -/
theorem revocation_lost : ∃ (earlier later : List (Nat × Event)) (middle last : Pool Register Call),
    Runs (services []).step unrestricted (.initial ⟨.missing, []⟩)
        earlier middle ∧ (2, .revoked firstHash ⟨[revocationEntry firstHash]⟩) ∈ earlier ∧
      Runs (services []).step unrestricted middle later last ∧
      last.shared.file.isRevoked firstHash = false ∧
      ∃ loader host, middle.calls.length ≤ loader ∧ (loader, .loaded host) ∈ later ∧
        ¬last.shared.Reports host firstHash := by
  have executed : (((run (services []).step (.initial ⟨.missing, []⟩)
      (loadBy 0 0 ++ loadBy 1 1 ++ revocationBy 0 2 firstHash)).bind fun middle =>
        (run (services []).step middle.1
          (revocationBy 1 3 secondHash ++ loadBy 2 4)).map fun last => (middle, last)).any
            fun states =>
              (2, .revoked firstHash ⟨[revocationEntry firstHash]⟩) ∈ states.1.2 &&
                !states.2.1.shared.file.isRevoked firstHash && states.1.1.calls.length ≤ 4 &&
                (4, .loaded 2) ∈ states.2.2 &&
                (states.2.1.shared.services[2]?).all fun service =>
                  !service.revocation.isRevoked firstHash) := by
    decide +kernel
  obtain ⟨⟨⟨middle, earlier⟩, last, later⟩, isRun, passed⟩ :=
    (Option.any_eq_true _ _).mp executed
  obtain ⟨_, first, mapped⟩ := Option.bind_eq_some_iff.mp isRun
  obtain ⟨_, second, same⟩ := Option.map_eq_some_iff.mp mapped
  cases same
  simp only [Bool.and_eq_true, decide_eq_true_eq, Bool.not_eq_true'] at passed
  obtain ⟨⟨⟨⟨revoked, missing⟩, launched⟩, loaded⟩, unreported⟩ := passed
  refine ⟨earlier, later, middle, last, runs_of_run (fun _ _ => trivial) first, revoked,
    runs_of_run (fun _ _ => trivial) second, missing, 4, 2, launched, loaded, ?_⟩
  rintro ⟨host, found, listed⟩
  rw [found, Option.all_some, listed] at unreported
  cases unreported

end P2PHub.Certification
