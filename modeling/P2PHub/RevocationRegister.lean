import P2PHub.AsyncCalls
import P2PHub.ManifestSigning
import P2PHub.Sanitizer

/-!
# The revocation register

Any number of certification services, of one or of several processes, load one
register file and write it.  Each keeps a list of its own, and a write replaces
the file by the text of that list.
-/

namespace P2PHub.Certification

open Json ManifestSigning

structure RevocationEntry where
  contentHash : JsonString
  pluginId : Option JsonString
  revokedAt : JsonString
  reason : JsonString
  deriving DecidableEq

structure RevocationList where
  entries : List RevocationEntry
  deriving DecidableEq

def RevocationList.isRevoked (revocation : RevocationList) (contentHash : JsonString) : Bool :=
  revocation.entries.any fun entry => entry.contentHash = contentHash

/-- What `readJsonFile` finds at the path of the register.  The text `null`
counts as no file. -/
inductive RegisterFile
  | missing
  | unparsable
  | misshapen
  | stored (revocation : RevocationList)
  deriving DecidableEq

def RegisterFile.isRevoked (file : RegisterFile) (contentHash : JsonString) : Bool :=
  match file with
  | .stored revocation => revocation.isRevoked contentHash
  | _ => false

structure CertificationService where
  revocation : RevocationList
  loaded : Bool
  deriving DecidableEq

inductive ServiceError
  | certification (pluginId reason : JsonString)
  | storageCorruption (path : JsonString)
  | invalidShape (path : JsonString)
  | storage
  deriving DecidableEq

def ServiceError.message : ServiceError → Option JsonString
  | .certification pluginId reason =>
    some (jsonString "plugin \"" ++ pluginId ++ jsonString "\" is not certified: " ++ reason)
  | .storageCorruption path =>
    some (jsonString "storage file is corrupt and could not be parsed: " ++ path)
  | .invalidShape path =>
    some (jsonString "revocation list at " ++ path ++ jsonString " has an invalid shape")
  | .storage => none

inductive Event
  | loaded (service : Nat)
  | revoked (contentHash : JsonString) (register : RevocationList)
  | rejected (error : ServiceError)
  deriving DecidableEq

/-- The register file and the services, in the order of their construction. -/
structure Register where
  file : RegisterFile
  services : List CertificationService
  deriving DecidableEq

inductive Request
  | construct
  | load (service : Nat)
  | revokeCertificate (service : Nat) (contentHash reason : JsonString)
      (pluginId : Option JsonString) (now : JsonString)

/-- Whether an operation on a file succeeds. -/
inductive Answer
  | succeeded
  | failed
  deriving DecidableEq

/-- A call is suspended in `readJsonFile`, before the file is read or after, or
in `atomicWriteFile`, before its rename or after. -/
inductive Call
  | reading (service : Nat)
  | assigning (service : Nat) (read : RegisterFile)
  | writing (service : Nat) (contentHash : JsonString) (text : RevocationList)
  | releasing (service : Nat) (contentHash : JsonString)
  | settled
  deriving DecidableEq

section

def RevocationList.revoke (revocation : RevocationList) (entry : RevocationEntry) :
    RevocationList :=
  if revocation.isRevoked entry.contentHash then revocation
  else ⟨revocation.entries ++ [entry]⟩

def Register.setService (register : Register) (index : Nat) (service : CertificationService) :
    Register :=
  { register with services := register.services.set index service }

/-- `revokeCertificate` up to the lock of the register file. -/
def revokeCertificate (register : Register) (index : Nat) (service : CertificationService)
    (contentHash reason : JsonString) (pluginId : Option JsonString) (now : JsonString) :
    Register × Option (Call × List Event) :=
  let caller := pluginId.getD (jsonString "?")
  if isHex 64 contentHash then
    if Sanitizer.trim reason = [] then
      (register, some (.settled, [.rejected (.certification caller
        (jsonString "a revocation reason is required"))]))
    else
      let revocation := service.revocation.revoke ⟨contentHash, pluginId, now, reason⟩
      (register.setService index { service with revocation },
        some (.writing index contentHash revocation, []))
  else
    (register, some (.settled, [.rejected (.certification caller
      (jsonString "cannot revoke malformed content hash \"" ++ contentHash ++ jsonString "\""))]))

/-- A method up to its first await.  There is nothing to call on a service that
does not exist. -/
def launch (register : Register) : Request → Register × Option (Call × List Event)
  | .construct =>
    ({ register with services := register.services ++ [⟨⟨[]⟩, false⟩] }, none)
  | .load index =>
    match register.services[index]? with
    | some service =>
      if service.loaded then (register, some (.settled, [.loaded index]))
      else (register, some (.reading index, []))
    | none => (register, none)
  | .revokeCertificate index contentHash reason pluginId now =>
    match register.services[index]? with
    | some service =>
      revokeCertificate register index service contentHash reason pluginId now
    | none => (register, none)

variable (path : JsonString)

/-- The end of `load`, once the file is read. -/
def assignRevocation (register : Register) (index : Nat) (service : CertificationService) :
    RegisterFile → Register × Call × List Event
  | .missing => (register.setService index { service with loaded := true }, .settled,
      [.loaded index])
  | .unparsable => (register, .settled, [.rejected (.storageCorruption path)])
  | .misshapen => (register, .settled, [.rejected (.invalidShape path)])
  | .stored revocation => (register.setService index ⟨revocation, true⟩, .settled, [.loaded index])

def resume (register : Register) (call : Call) (answer : Answer) :
    Option (Register × Call × List Event) :=
  match call, answer with
  | .settled, _ => none
  | .assigning index read, _ =>
    (register.services[index]?).map fun service =>
      assignRevocation path register index service read
  | _, .failed => some (register, .settled, [.rejected .storage])
  | .reading index, .succeeded => some (register, .assigning index register.file, [])
  | .writing index contentHash text, .succeeded =>
    some ({ register with file := .stored text }, .releasing index contentHash, [])
  | .releasing index contentHash, .succeeded =>
    (register.services[index]?).map fun service =>
      (register, .settled, [.revoked contentHash service.revocation])

def services : AsyncCalls.Program Register Request Call Answer Event where
  launch := launch
  resume := resume path

end

variable {path : JsonString} {emitted : List Event}

/-- Every content hash that one register lists is listed by another. -/
def Covers (wider narrower : JsonString → Bool) : Prop :=
  ∀ contentHash, narrower contentHash = true → wider contentHash = true

def Register.Reports (register : Register) (index : Nat) (contentHash : JsonString) : Prop :=
  ∃ service, register.services[index]? = some service ∧
    service.revocation.isRevoked contentHash = true

/-- Neither the file nor a service loses a content hash. -/
structure Register.Grows (before after : Register) : Prop where
  file : Covers after.file.isRevoked before.file.isRevoked
  reports : ∀ index contentHash, before.Reports index contentHash → after.Reports index contentHash

theorem Register.Grows.refl (register : Register) : register.Grows register :=
  ⟨fun _ => id, fun _ _ => id⟩

theorem isRevoked_revoke (revocation : RevocationList) (entry : RevocationEntry) :
    (revocation.revoke entry).isRevoked entry.contentHash := by
  unfold RevocationList.revoke
  split
  · assumption
  · simp [RevocationList.isRevoked]

theorem covers_revoke (revocation : RevocationList) (entry : RevocationEntry) :
    Covers (revocation.revoke entry).isRevoked revocation.isRevoked := by
  intro contentHash listed
  unfold RevocationList.revoke
  split
  · exact listed
  · rw [RevocationList.isRevoked, List.any_append, Bool.or_eq_true]
    exact Or.inl listed

variable {register after : Register} {index : Nat} {service replacement : CertificationService}

theorem grows_setService (found : register.services[index]? = some service)
    (covers : Covers replacement.revocation.isRevoked service.revocation.isRevoked) :
    register.Grows (register.setService index replacement) := by
  refine ⟨fun _ => id, ?_⟩
  rintro other contentHash ⟨reporter, located, listed⟩
  by_cases same : index = other
  · subst other
    cases found.symm.trans located
    have bound := (List.getElem?_eq_some_iff.mp found).1
    exact ⟨replacement, List.getElem?_set_self bound, covers contentHash listed⟩
  · exact ⟨reporter, by rw [Register.setService, List.getElem?_set_ne same, located], listed⟩

theorem reports_setService {contentHash : JsonString}
    (found : register.services[index]? = some service)
    (listed : replacement.revocation.isRevoked contentHash) :
    (register.setService index replacement).Reports index contentHash :=
  ⟨replacement, List.getElem?_set_self (List.getElem?_eq_some_iff.mp found).1, listed⟩

/-- Neither the file nor a service loses a content hash when a method is
called. -/
theorem launch_grows {request : Request} {result : Option (Call × List Event)}
    (launched : launch register request = (after, result)) : register.Grows after := by
  cases request with
  | construct =>
    cases launched
    refine ⟨fun _ => id, ?_⟩
    rintro index contentHash ⟨reporter, located, listed⟩
    have bound := (List.getElem?_eq_some_iff.mp located).1
    exact ⟨reporter, by rw [List.getElem?_append_left bound, located], listed⟩
  | load =>
    have same : after = register := by
      rw [launch] at launched
      split at launched
      · split at launched <;> exact (Prod.mk.inj launched).1.symm
      · exact (Prod.mk.inj launched).1.symm
    rw [same]
    exact .refl register
  | revokeCertificate =>
    rw [launch] at launched
    split at launched
    · next service found =>
        rw [revokeCertificate] at launched
        split at launched
        · split at launched <;> rw [← (Prod.mk.inj launched).1]
          · exact .refl register
          · exact grows_setService found (covers_revoke _ _)
        · rw [← (Prod.mk.inj launched).1]
          exact .refl register
    · rw [← (Prod.mk.inj launched).1]
      exact .refl register

/-- What a method does up to its first await. -/
inductive Launches (register : Register) : Request → Call → List Event → Prop
  | known {index : Nat} {service : CertificationService}
      (found : register.services[index]? = some service) (loaded : service.loaded = true) :
      Launches register (.load index) .settled [.loaded index]
  | reads {index : Nat} : Launches register (.load index) (.reading index) []
  | refuses {request : Request} {error : ServiceError} :
      Launches register request .settled [.rejected error]
  | writes {request : Request} {index : Nat} {contentHash : JsonString} {text : RevocationList}
      (listed : text.isRevoked contentHash = true) :
      Launches register request (.writing index contentHash text) []

theorem launch_launches {request : Request} {call : Call}
    (launched : launch register request = (after, some (call, emitted))) :
    Launches register request call emitted := by
  cases request with
  | construct => cases launched
  | load =>
    rw [launch] at launched
    split at launched
    · next service found =>
        split at launched
        · next loaded =>
            cases launched
            exact .known found loaded
        · cases launched
          exact .reads
    · cases launched
  | revokeCertificate =>
    rw [launch] at launched
    split at launched
    · rw [revokeCertificate] at launched
      split at launched
      · split at launched
        · cases launched
          exact .refuses
        · cases launched
          exact .writes (isRevoked_revoke _ _)
      · cases launched
        exact .refuses
    · cases launched

/-- What a call does from one await to the next. -/
inductive Resumes (register : Register) : Call → Register → Call → List Event → Prop
  | fails {call : Call} {error : ServiceError} :
      Resumes register call register .settled [.rejected error]
  | reads {index : Nat} :
      Resumes register (.reading index) register (.assigning index register.file) []
  | keeps {index : Nat} {service : CertificationService}
      (found : register.services[index]? = some service) :
      Resumes register (.assigning index .missing)
        (register.setService index { service with loaded := true }) .settled [.loaded index]
  | assigns {index : Nat} {service : CertificationService} {stored : RevocationList}
      (found : register.services[index]? = some service) :
      Resumes register (.assigning index (.stored stored))
        (register.setService index ⟨stored, true⟩) .settled [.loaded index]
  | renames {index : Nat} {contentHash : JsonString} {text : RevocationList} :
      Resumes register (.writing index contentHash text) { register with file := .stored text }
        (.releasing index contentHash) []
  | resolves {index : Nat} {contentHash : JsonString} {listed : RevocationList} :
      Resumes register (.releasing index contentHash) register .settled
        [.revoked contentHash listed]

theorem resume_resumes {call next : Call} {answer : Answer}
    (resumed : resume path register call answer = some (after, next, emitted)) :
    Resumes register call after next emitted := by
  cases call with
  | settled => cases resumed
  | assigning index read =>
    have located : (register.services[index]?).map (fun service =>
        assignRevocation path register index service read) = some (after, next, emitted) := by
      cases answer <;> exact resumed
    obtain ⟨service, found, assigned⟩ := Option.map_eq_some_iff.mp located
    cases read with
    | missing =>
      cases assigned
      exact .keeps found
    | unparsable | misshapen =>
      cases assigned
      exact .fails
    | stored =>
      cases assigned
      exact .assigns found
  | reading =>
    cases answer with
    | failed =>
      cases resumed
      exact .fails
    | succeeded =>
      cases resumed
      exact .reads
  | writing =>
    cases answer with
    | failed =>
      cases resumed
      exact .fails
    | succeeded =>
      cases resumed
      exact .renames
  | releasing =>
    cases answer with
    | failed =>
      cases resumed
      exact .fails
    | succeeded =>
      obtain ⟨service, _, resolved⟩ := Option.map_eq_some_iff.mp resumed
      cases resolved
      exact .resolves

end P2PHub.Certification
