import P2PHub.InsertionOrderedMap

/-!
# The vault

The encrypted store of secrets, after `core/src/storage/vault-manager.ts`.
scrypt and AES-256-GCM are a parameter.  A secret that is not there, one that
was written under another key and one that was tampered with have the same
answer.
-/

namespace P2PHub

open OrderedMap

/-- `decrypt` gives nothing where the platform throws. -/
structure VaultCipher (Key Entry : Type) where
  scrypt : String → String → Key
  encrypt : Key → Nat → String → Entry
  decrypt : Key → Entry → Option String

/-- What is encrypted under a key is decrypted under it. -/
structure VaultCipher.Lawful {Key Entry : Type} (cipher : VaultCipher Key Entry) : Prop where
  decrypts (key : Key) (iv : Nat) (value : String) :
    cipher.decrypt key (cipher.encrypt key iv value) = some value

structure VaultFile (Entry : Type) where
  salt : String
  entries : OrderedMap String Entry

/-- What is on disk; nothing before the first secret is stored. -/
abbrev VaultDisk (Entry : Type) := Option (VaultFile Entry)

/-- How the write of a secret ends.  It may fail after the file was replaced,
when its lock is released. -/
inductive VaultWrite
  | stored
  | failed
  | notReleased
  deriving DecidableEq, Repr

namespace VaultManager

section

variable {Key Entry : Type} (cipher : VaultCipher Key Entry) (masterKey : String)

def entry (disk : VaultDisk Entry) (name : String) : Option Entry :=
  disk.bind fun file => file.entries.get name

def deriveKey (file : VaultFile Entry) : Key :=
  cipher.scrypt masterKey file.salt

def getSecret (disk : VaultDisk Entry) (name : String) : Option String :=
  disk.bind fun file =>
    (file.entries.get name).bind fun entry =>
      cipher.decrypt (deriveKey cipher masterKey file) entry

/-- The file with a secret, made with the salt when there was none. -/
def setSecret (disk : VaultDisk Entry) (salt : String) (iv : Nat) (name value : String) :
    VaultFile Entry :=
  let file := disk.getD ⟨salt, .empty⟩
  { file with
    entries := file.entries.set name (cipher.encrypt (deriveKey cipher masterKey file) iv value) }

def verifyKey (disk : VaultDisk Entry) (candidate : String) : Bool :=
  match disk with
  | none => false
  | some file =>
    file.entries.values.all fun entry =>
      (cipher.decrypt (deriveKey cipher candidate file) entry).isSome

end

variable {Key Entry : Type} {cipher : VaultCipher Key Entry} {masterKey : String}
  {disk : VaultDisk Entry} {salt : String} {iv : Nat} {name other value : String}

theorem entry_setSecret_self :
    ∃ stored, entry (some (setSecret cipher masterKey disk salt iv name value)) name =
      some stored :=
  ⟨_, get_set_self (disk.getD ⟨salt, .empty⟩).entries name _⟩

theorem entry_setSecret_of_ne (apart : other ≠ name) :
    entry (some (setSecret cipher masterKey disk salt iv name value)) other = entry disk other := by
  simp only [entry, setSecret, Option.bind_some]
  rw [get_set_of_ne _ _ apart]
  cases disk with
  | none => exact get_empty _
  | some file => rfl

theorem getSecret_setSecret_self (lawful : cipher.Lawful) :
    getSecret cipher masterKey (some (setSecret cipher masterKey disk salt iv name value)) name =
      some value := by
  simp only [getSecret, setSecret, Option.bind_some]
  rw [get_set_self, Option.bind_some]
  exact lawful.decrypts _ _ _

theorem getSecret_setSecret_of_ne (apart : other ≠ name) :
    getSecret cipher masterKey (some (setSecret cipher masterKey disk salt iv name value))
        other = getSecret cipher masterKey disk other := by
  simp only [getSecret, setSecret, Option.bind_some]
  rw [get_set_of_ne _ _ apart]
  cases disk with
  | none | some => rfl

theorem getSecret_eq_none_of_absent (absent : entry disk name = none) :
    getSecret cipher masterKey disk name = none := by
  cases disk with
  | none => rfl
  | some file =>
    have missing : file.entries.get name = none := absent
    simp [getSecret, missing]

theorem entry_isSome_of_getSecret (found : getSecret cipher masterKey disk name = some value) :
    ∃ stored, entry disk name = some stored := by
  cases held : entry disk name with
  | none =>
    rw [getSecret_eq_none_of_absent held] at found
    cases found
  | some stored => exact ⟨stored, rfl⟩

end VaultManager

end P2PHub
