import P2PHub.ManifestSigning
import P2PHub.ServerConnection

/-!
# Domains of signatures

What the identity capability of plugins signs and verifies, after
`core/src/plugin-loader/plugin-loader.ts`, beside the other messages that are
signed with the same key: identity bindings and certificates of children.  The
domain stands before the data with nothing between them.
-/

namespace P2PHub.Identity

open Json ManifestSigning Utf8

/-- Ed25519 with its keys.  `verify` is false where the platform throws. -/
structure Ed25519Scheme (PrivateKey : Type) where
  publicKeyHex : PrivateKey → String
  sign : PrivateKey → List UInt8 → List UInt8
  verify : String → List UInt8 → List UInt8 → Bool

/-- A signature is that of one message under its key. -/
structure Ed25519Scheme.Binds {PrivateKey : Type} (scheme : Ed25519Scheme PrivateKey) : Prop where
  accepts (key : PrivateKey) (message : List UInt8) :
    scheme.verify (scheme.publicKeyHex key) message (scheme.sign key message) = true
  rejects (key : PrivateKey) {message other : List UInt8} (apart : other ≠ message) :
    scheme.verify (scheme.publicKeyHex key) other (scheme.sign key message) = false

/-- `Buffer.from(text, "utf8")`. -/
def utf8Bytes (text : JsonString) : List UInt8 :=
  encode (Utf16.decode (text.map UInt16.toNat))

def domainMessage (domain : JsonString) (data : List UInt8) : List UInt8 :=
  utf8Bytes domain ++ data

def hexValue (unit : UInt16) : Option Nat :=
  if 48 ≤ unit ∧ unit ≤ 57 then some (unit.toNat - 48)
  else if 97 ≤ unit ∧ unit ≤ 102 then some (unit.toNat - 87)
  else if 65 ≤ unit ∧ unit ≤ 70 then some (unit.toNat - 55)
  else none

/-- `Buffer.from(text, "hex")`: up to the first pair that is no byte. -/
def hexBytes : JsonString → List UInt8
  | high :: low :: rest =>
    match hexValue high, hexValue low with
    | some high, some low => UInt8.ofNat (16 * high + low) :: hexBytes rest
    | _, _ => []
  | _ => []

def childCertContext : String :=
  "p2p-hub:agent-identity:cert:v1"

def canonicalizeCertificate (context parent child label : JsonString) (issuedAt : Json) :
    List UInt8 :=
  encode (canonicalizeJson (.object [ (jsonString "context", .string context),
      (jsonString "parent", .string parent),
      (jsonString "child", .string child),
      (jsonString "label", .string label),
      (jsonString "issuedAt", issuedAt) ]))

section

variable {PrivateKey : Type} (scheme : Ed25519Scheme PrivateKey)

/-- `ctx.identity.sign`. -/
def identitySign (key : PrivateKey) (domain : JsonString) (data : List UInt8) : List UInt8 :=
  scheme.sign key (domainMessage domain data)

/-- `ctx.identity.verify`. -/
def identityVerify (publicKeyHex : String) (domain : JsonString)
    (data signature : List UInt8) : Bool :=
  scheme.verify publicKeyHex (domainMessage domain data) signature

/-- The check of a binding on the texts that are on the wire. -/
def verifyIdentityBinding (peerId clientNonce serverNonce certFingerprint signature : String) :
    Bool :=
  NetworkLight.verifyIdentityBinding (fun publicKeyHex message signature =>
      scheme.verify publicKeyHex (encode message.toList) (hexBytes (jsonString signature)))
    peerId clientNonce serverNonce certFingerprint signature

def isNumber : Json → Bool
  | .number _ => true
  | .negativeZero => true
  | _ => false

def verifyChildCertificate (parentPublicKeyHex : String) : Json → Bool
  | .object cert =>
    match property cert "context", property cert "parent", property cert "child",
      property cert "label", property cert "issuedAt", property cert "signature" with
    | some (.string context), some (.string parent), some (.string child),
      some (.string label), some issuedAt, some (.string signature) =>
        decide (context = jsonString childCertContext) && isNumber issuedAt &&
          decide ((hexBytes signature).length = 64) &&
          scheme.verify parentPublicKeyHex
            (canonicalizeCertificate context parent child label issuedAt) (hexBytes signature)
    | _, _, _, _, _, _ => false
  | _ => false

def certificateSignature : Json → Option (List UInt8)
  | .object cert =>
    match property cert "signature" with
    | some (.string signature) => some (hexBytes signature)
    | _ => none
  | _ => none

/-- The signature of some data in a domain is accepted nowhere else. -/
structure DomainSeparated (key : PrivateKey) (domain : JsonString) (data : List UInt8) : Prop where
  domains : ∀ other otherData, other ≠ domain →
    identityVerify scheme (scheme.publicKeyHex key) other otherData
      (identitySign scheme key domain data) = false
  bindings : ∀ clientNonce serverNonce certFingerprint signature,
    hexBytes (jsonString signature) = identitySign scheme key domain data →
    verifyIdentityBinding scheme (scheme.publicKeyHex key) clientNonce serverNonce certFingerprint
      signature = false
  certificates : ∀ certificate,
    certificateSignature certificate = some (identitySign scheme key domain data) →
    verifyChildCertificate scheme (scheme.publicKeyHex key) certificate = false

end

def StartsWithChar (data : List UInt8) : Prop :=
  ∃ char rest, data = String.utf8EncodeChar char ++ rest

section

theorem utf8Bytes_append_starts (text : JsonString) (nonempty : text ≠ []) (rest : List UInt8) :
    StartsWithChar (utf8Bytes text ++ rest) := by
  obtain ⟨char, chars, decoded⟩ : ∃ char chars,
      Utf16.decode (text.map UInt16.toNat) = char :: chars := by
    match text, nonempty with
    | [unit], _ => exact ⟨_, [], rfl⟩
    | unit :: low :: rest, _ =>
      simp only [List.map_cons, Utf16.decode]
      split <;> exact ⟨_, _, rfl⟩
  refine ⟨char, chars.flatMap String.utf8EncodeChar ++ rest, ?_⟩
  rw [utf8Bytes, decoded, encode, List.flatMap_cons, List.append_assoc]

theorem encode_starts {char : Char} {chars : List Char} : StartsWithChar (encode (char :: chars)) :=
  ⟨char, encode chars, rfl⟩

theorem utf8Bytes_jsonString (text : String) :
    utf8Bytes (jsonString text) = encode text.toList := by
  rw [utf8Bytes, jsonString, Utf16.toNat_units, Utf16.decode_units]

end

variable {PrivateKey : Type} {scheme : Ed25519Scheme PrivateKey} {key : PrivateKey}
  {domain : JsonString} {data : List UInt8}

section

variable (binds : scheme.Binds) (apart : ¬StartsWithChar (domainMessage domain data))
include binds apart

theorem bindings_apart {clientNonce serverNonce certFingerprint signature : String}
    (isSignature : hexBytes (jsonString signature) = identitySign scheme key domain data) :
    verifyIdentityBinding scheme (scheme.publicKeyHex key) clientNonce serverNonce certFingerprint
      signature = false := by
  have message : StartsWithChar (encode (NetworkLight.buildIdentityBindingMessage clientNonce
      serverNonce certFingerprint).toList) := by
    simp only [NetworkLight.buildIdentityBindingMessage, NetworkLight.identityBindingContext,
      String.toList_append]
    exact encode_starts
  have other : encode (NetworkLight.buildIdentityBindingMessage clientNonce serverNonce
      certFingerprint).toList ≠ domainMessage domain data :=
    fun same => apart (same ▸ message)
  simp only [verifyIdentityBinding, NetworkLight.verifyIdentityBinding, isSignature, identitySign,
    binds.rejects key other, Bool.and_false]

theorem certificates_apart {certificate : Json}
    (isSignature : certificateSignature certificate = some (identitySign scheme key domain data)) :
    verifyChildCertificate scheme (scheme.publicKeyHex key) certificate = false := by
  cases certificate with
  | object =>
    simp only [verifyChildCertificate]
    split
    · next context parent child label issuedAt signature _ _ _ _ _ isText =>
        have message : StartsWithChar
            (canonicalizeCertificate context parent child label issuedAt) := by
          exact encode_starts
        have other : canonicalizeCertificate context parent child label issuedAt ≠
            domainMessage domain data :=
          fun same => apart (same ▸ message)
        have bytes : hexBytes signature = identitySign scheme key domain data := by
          simpa [certificateSignature, isText] using isSignature
        rw [bytes, identitySign, binds.rejects key other, Bool.and_false]
    · rfl
  | _ => rfl

end

/-- A signature is confined to its domain exactly when the domain is empty and
the data does not begin with a character. -/
theorem domainSeparated_iff (binds : scheme.Binds) :
    DomainSeparated scheme key domain data ↔ domain = [] ∧ ¬StartsWithChar data := by
  constructor
  · intro separated
    have accepted {other : JsonString} {otherData : List UInt8}
        (same : domainMessage other otherData = domainMessage domain data) : other = domain := by
      by_contra apart
      have rejected := separated.domains other otherData apart
      rw [identityVerify, same, identitySign, binds.accepts] at rejected
      cases rejected
    have empty : [] = domain := @accepted [] (domainMessage domain data) rfl
    subst empty
    refine ⟨rfl, ?_⟩
    rintro ⟨char, rest, rfl⟩
    have same : domainMessage (jsonString (String.ofList [char])) rest =
        domainMessage [] (String.utf8EncodeChar char ++ rest) := by
      rw [domainMessage, utf8Bytes_jsonString, String.toList_ofList, encode, List.flatMap_singleton]
      rfl
    have decoded := congrArg utf8Bytes (accepted same)
    rw [utf8Bytes_jsonString, String.toList_ofList, encode, List.flatMap_singleton] at decoded
    exact String.utf8EncodeChar_ne_nil decoded
  · rintro ⟨rfl, apart⟩
    have message : ¬StartsWithChar (domainMessage [] data) := apart
    refine ⟨?_, fun _ _ _ _ => bindings_apart binds message,
      fun _ => certificates_apart binds message⟩
    intro other otherData nonempty
    apply binds.rejects
    intro same
    apply apart
    have starts := utf8Bytes_append_starts other nonempty otherData
    rw [domainMessage] at same
    rw [same] at starts
    exact starts

def plainScheme : Ed25519Scheme Unit where
  publicKeyHex _ := "00"
  sign _ message := message
  verify _ message signature := decide (message = signature)

theorem plainScheme_binds : plainScheme.Binds where
  accepts _ _ := decide_eq_true rfl
  rejects _ _ _ apart := decide_eq_false apart

theorem domainSeparated_iff_plain : DomainSeparated plainScheme () [] [] ∧
      ¬DomainSeparated plainScheme () (jsonString "notes:") [1] := by
  constructor
  · refine (domainSeparated_iff plainScheme_binds).mpr ⟨rfl, ?_⟩
    rintro ⟨char, rest, same⟩
    exact String.utf8EncodeChar_ne_nil (List.append_eq_nil_iff.mp same.symm).1
  · intro separated
    cases ((domainSeparated_iff plainScheme_binds).mp separated).1

/-- A plugin signs in a domain of its own choice what is verified in another. -/
theorem domains_overlap : ¬∀ (PrivateKey : Type) (scheme : Ed25519Scheme PrivateKey), scheme.Binds →
      ∀ (key : PrivateKey) (domain : JsonString) (data : List UInt8),
        DomainSeparated scheme key domain data := by
  intro separated
  have rejected := (separated Unit plainScheme plainScheme_binds ()
    (jsonString "p2p-hub:tasks:completion-proof:") (utf8Bytes (jsonString "v1:t:p:2026-01-01"))
    ).domains (jsonString "p2p-hub:tasks:completion-proof:v1:")
    (utf8Bytes (jsonString "t:p:2026-01-01")) (by decide)
  revert rejected
  decide +kernel

end P2PHub.Identity
