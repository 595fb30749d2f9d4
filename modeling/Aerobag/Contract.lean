import Aerobag.Lib.Base64
import Aerobag.Lib.Except
import Aerobag.Lib.Recorded
import Aerobag.Lib.Sha256
import Mathlib.Data.Char
import Mathlib.Data.List.Lex
import Mathlib.Data.List.Sort

/-!
# The cloud contract (`product-contracts/src/aerobag_cloud.rs`)

What the cloud server and its clients exchange, and the functions on it that both share.
Cryptography and base64 are fields of `Primitives`; JSON is written out only where the code looks at
its length.
-/

namespace Aerobag

def containsAny (s : String) (chars : List Char) : Bool := s.toList.any fun c => chars.contains c

def u32BeBytes (n : Nat) : Bytes :=
  [UInt8.ofNat (n / 2 ^ 24), UInt8.ofNat (n / 2 ^ 16), UInt8.ofNat (n / 2 ^ 8), UInt8.ofNat n]

/-- Third-party functions the server and the clients call. -/
structure Primitives where
  sha256 : Bytes → Bytes
  base64UrlEncode : Bytes → String
  /-- `URL_SAFE_NO_PAD.decode`; `none` for an error. -/
  base64UrlDecode : String → Option Bytes
  verifyingKeyValid : Bytes → Bool
  /-- `VerifyingKey::verify` of a message and a 64 byte signature. -/
  ed25519Verify : Bytes → Bytes → Bytes → Bool

def Primitives.sha256Hex (P : Primitives) (bytes : Bytes) : String := hexBytes (P.sha256 bytes)

/-- An ideal hash for the client: it has no collisions, and the digest at the end of a message can be
split off. -/
structure Primitives.CollisionFree (P : Primitives) : Prop where
  injective : Function.Injective P.sha256
  split : ∀ {a b c d}, a ++ strBytes (P.sha256Hex c) = b ++ strBytes (P.sha256Hex d) →
    a = b ∧ c = d

theorem Primitives.collisionFree_of_recorded {P : Primitives} {rc : List (Bytes × Bytes)}
    (hr : RecordedDigests rc) (hsh : P.sha256 = recordedHash rc) : P.CollisionFree := by
  refine ⟨hsh ▸ recordedHash_injective hr, ?_⟩
  intro a b c d h
  have hsm : c = d := by
    rw [Primitives.sha256Hex, Primitives.sha256Hex, hsh] at h
    rcases le_total (recordedHash rc c).length (recordedHash rc d).length with hle | hle
    · obtain ⟨zs, hzs⟩ := suffix_of_append_hexBytes hle h
      exact (recordedHash_suffix hr hzs).symm
    · obtain ⟨zs, hzs⟩ := suffix_of_append_hexBytes hle h.symm
      exact recordedHash_suffix hr hzs
  subst hsm
  exact ⟨List.append_cancel_right h, rfl⟩

/-- Injective primitives that can be evaluated. -/
def Primitives.transparent : Primitives where
  sha256 := id
  base64UrlEncode := hexBytes
  base64UrlDecode text := some (strBytes text)
  verifyingKeyValid _ := true
  ed25519Verify _ _ _ := true

/-- SHA-256 and base64 as they are. Signatures are not looked at here. -/
def standardPrimitives : Primitives :=
  { Primitives.transparent with
    sha256 := Sha256.digest
    base64UrlEncode := Base64.encode
    base64UrlDecode := Base64.decode }

def acsContractId : String := "ACS1"
def acsApiPrefix : String := "/cloud/v1"
def acsSignatureClockWindowMs : Int := 5 * 60 * 1000
def acsFixedRootId : String := "root"
def acsAccountLocatorBytes : Nat := 32
def acsSigningKeyIdBytes : Nat := 16
def acsRequestNonceBytes : Nat := 16
def acsMaxVisibleChildObjects : Nat := 4096
def acsAuthContractHeader : String := "Aerobag-Contract"
def acsAuthAccountHeader : String := "Aerobag-Account"
def acsAuthKeyIdHeader : String := "Aerobag-Key-Id"
def acsAuthAlgorithmHeader : String := "Aerobag-Signature-Algorithm"
def acsAuthTimestampHeader : String := "Aerobag-Timestamp-Ms"
def acsAuthNonceHeader : String := "Aerobag-Nonce"
def acsAuthBodyHashHeader : String := "Aerobag-Body-SHA256"
def acsAuthSignatureHeader : String := "Aerobag-Signature"

inductive AcsEncryptedValueKind where
  | object
  | root
  deriving DecidableEq, Repr

def AcsEncryptedValueKind.asStr : AcsEncryptedValueKind → String
  | object => "object"
  | root => "root"

/-- Opaque encrypted bytes plus the visible Merkle edges authenticated by the client. -/
structure AcsEncryptedValue where
  ciphertextBase64url : String
  ciphertextSha256 : String
  childObjectIds : List String
  deriving DecidableEq, Repr

def validateChildObjectIds (childObjectIds : List String) : Except String Unit :=
  if childObjectIds.length > acsMaxVisibleChildObjects then
    .error "encrypted value has too many visible child objects"
  else if (childObjectIds.zip childObjectIds.tail).any fun pair => decide (¬ pair.1 < pair.2) then
    .error "child object IDs must be sorted and unique"
  else if childObjectIds.any fun child => child.isEmpty || containsAny child ['\r', '\n'] then
    .error "invalid child object ID"
  else .ok ()

def acsEncryptedValueAssociatedData (kind : AcsEncryptedValueKind) (valueId : String)
    (childObjectIds : List String) : Except String Bytes := do
  validateChildObjectIds childObjectIds
  .rejectIf (valueId.isEmpty || containsAny valueId ['\r', '\n'])
    "invalid encrypted value ID"
  return strBytes "aerobag-cloud-encrypted-value-v1" ++ [0] ++ strBytes kind.asStr ++ [0] ++
    u32BeBytes valueId.utf8ByteSize ++ strBytes valueId ++ u32BeBytes childObjectIds.length ++
    childObjectIds.flatMap fun child => u32BeBytes child.utf8ByteSize ++ strBytes child

namespace AcsEncryptedValue

variable (P : Primitives)

/-- The child identifiers are sorted and repetitions removed. -/
def fromCiphertext (ciphertext : Bytes) (childObjectIds : List String) : AcsEncryptedValue where
  ciphertextBase64url := P.base64UrlEncode ciphertext
  ciphertextSha256 := P.sha256Hex ciphertext
  childObjectIds := (childObjectIds.insertionSort (· ≤ ·)).dedup

def ciphertext (value : AcsEncryptedValue) : Except String Bytes :=
  match P.base64UrlDecode value.ciphertextBase64url with
  | some bytes => .ok bytes
  | none => .error "ciphertext is not valid base64url"

def validate (value : AcsEncryptedValue) : Except String Unit := do
  validateChildObjectIds value.childObjectIds
  let ciphertext ← value.ciphertext P
  .rejectIf (P.sha256Hex ciphertext ≠ value.ciphertextSha256) "ciphertext hash mismatch"

def authenticatedHash (value : AcsEncryptedValue) (kind : AcsEncryptedValueKind)
    (valueId : String) : Except String String := do
  value.validate P
  let associatedData ← acsEncryptedValueAssociatedData kind valueId value.childObjectIds
  return P.sha256Hex (associatedData ++ strBytes value.ciphertextSha256)

end AcsEncryptedValue

inductive AcsHttpMethod where
  | get
  | post
  | put
  deriving DecidableEq, Repr

def AcsHttpMethod.asStr : AcsHttpMethod → String
  | get => "GET"
  | post => "POST"
  | put => "PUT"

/-- The `Aerobag-*` HTTP headers. The only signature algorithm, `Ed25519`, is left out. -/
structure AcsRequestAuthentication where
  contractId : String
  accountLocator : String
  signingKeyId : String
  timestampEpochMs : Int
  nonceBase64url : String
  bodySha256 : String
  signatureBase64url : String
  deriving DecidableEq, Repr

def AcsRequestAuthentication.signingBytes (self : AcsRequestAuthentication)
    (method : AcsHttpMethod) (canonicalRequestTarget : String) : Except String Bytes :=
  if self.contractId ≠ acsContractId then
    .error "unsupported ACS contract"
  else if !acsApiPrefix.toList.isPrefixOf canonicalRequestTarget.toList ||
      containsAny canonicalRequestTarget ['\r', '\n'] then
    .error "invalid ACS request target"
  else if [self.accountLocator, self.signingKeyId, self.nonceBase64url, self.bodySha256].any
      fun value => value.isEmpty || containsAny value ['\r', '\n'] then
    .error "invalid ACS signature field"
  else
    .ok (strBytes (acsContractId ++ "\n" ++ method.asStr ++ "\n" ++ canonicalRequestTarget ++ "\n" ++
      self.accountLocator ++ "\n" ++ self.signingKeyId ++ "\n" ++ toString self.timestampEpochMs ++
      "\n" ++ self.nonceBase64url ++ "\n" ++ self.bodySha256 ++ "\n"))

/-- `pair.split_once('=').unwrap_or((pair, ""))`. -/
def splitQueryPair (pair : List Char) : List Char × List Char :=
  let (key, rest) := pair.span (· ≠ '=')
  (key, rest.drop 1)

/-- The order of `(&str, &str)` pairs. -/
def queryPairLe (a b : List Char × List Char) : Prop := a.1 < b.1 ∨ (a.1 = b.1 ∧ a.2 ≤ b.2)

instance : DecidableRel queryPairLe := fun _ _ => inferInstanceAs (Decidable (_ ∨ _))

/-- The request target that is signed, with its query pairs sorted. -/
def acsCanonicalRequestTarget (path : String) (query : Option String) : Except String String :=
  if !acsApiPrefix.toList.isPrefixOf path.toList || containsAny path ['\r', '\n', '?', '#'] ||
      query.any fun query => containsAny query ['\r', '\n', '#'] then
    .error "invalid ACS request target"
  else match query.filter fun query => !query.isEmpty with
    | none => .ok path
    | some query =>
      let pairs := (query.toList.splitOn '&').map splitQueryPair
      let encoded := (pairs.insertionSort queryPairLe).map fun pair =>
        String.ofList (pair.1 ++ '=' :: pair.2)
      .ok (path ++ "?" ++ "&".intercalate encoded)

inductive AcsCreateObjectOutcome where
  | created
  | alreadyExists
  deriving DecidableEq, Repr

structure AcsObjectSnapshot where
  objectId : String
  value : AcsEncryptedValue
  createdAtEpochMs : Int
  deriving DecidableEq, Repr

structure AcsRootSnapshot where
  revision : Nat
  rootHash : String
  value : AcsEncryptedValue
  updatedAtEpochMs : Int
  deriving DecidableEq, Repr

/-- A root replacement, without the contract id. -/
structure AcsCompareAndSwapRootRequest where
  expectedRevision : Nat
  expectedRootHash : Option String
  replacement : AcsEncryptedValue
  deriving DecidableEq, Repr

inductive AcsCompareAndSwapRootResponse where
  | committed (root : AcsRootSnapshot)
  | conflict (currentRevision : Nat) (currentRootHash : Option String)
  deriving DecidableEq, Repr

inductive AcsSseEvent where
  | ready (sequence rootRevision : Nat) (rootHash : Option String)
  | rootChanged (sequence rootRevision : Nat) (rootHash : String)
  | reset (sequence rootRevision : Nat) (rootHash : Option String)
  | heartbeat (sequence rootRevision : Nat) (rootHash : Option String)
  deriving DecidableEq, Repr

namespace AcsSseEvent

def sequence : AcsSseEvent → Nat
  | ready sequence _ _ | rootChanged sequence _ _ | reset sequence _ _ | heartbeat sequence _ _ =>
    sequence

def rootRevision : AcsSseEvent → Nat
  | ready _ revision _ | rootChanged _ revision _ | reset _ revision _ | heartbeat _ revision _ =>
    revision

def rootHash : AcsSseEvent → Option String
  | ready _ _ hash | reset _ _ hash | heartbeat _ _ hash => hash
  | rootChanged _ _ hash => some hash

end AcsSseEvent

inductive AcsErrorCode where
  | invalidRequest
  | unauthorized
  | requestExpired
  | replayDetected
  | notFound
  | objectIdCollision
  | missingChildObject
  | conflict
  | quotaExceeded
  | rateLimited
  | readOnly
  | accountSuspended
  | payloadTooLarge
  | responseTooLarge
  | internal
  deriving DecidableEq, Repr

inductive AcsRateLimitGate where
  | accountCreationNetwork
  | accountCreationGlobal
  | outstandingCreationChallenges
  | globalOperations
  | networkOperations
  | accountOperations
  | globalIngress
  | networkIngress
  | accountIngress
  | globalEgress
  | networkEgress
  | accountEgress
  | globalSseConnections
  | accountSseConnections
  | networkSseConnections
  deriving DecidableEq, Repr

end Aerobag
