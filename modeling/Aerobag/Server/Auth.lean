import Aerobag.Server.Store

/-!
# Request authentication (`aerobag-cloud-server/src/auth.rs`)

A request is accepted when its headers are well formed, its timestamp is in the window around the
server's clock, its signature verifies and its nonce has no live row. The clock is read before the
verification, which then takes the locks of the database and of the limits one after the other.
Clock values are integers: `now + window` stays in the range of `i64`.
-/

namespace Aerobag.Server

/-- A request; `headers name` is the first such header, if it is text. -/
structure SignedRequest where
  headers : String → Option String
  method : AcsHttpMethod
  path : String
  query : Option String
  body : Bytes

/-- Expired rows are purged before the nonce is recorded. -/
def consumeNonce (db : Database) (accountLocator signingKeyId nonce : String)
    (expiresAtEpochMs nowEpochMs : Int) : StoreResult Unit × Database :=
  let live := db.requestNonces.deleteWhere fun row => decide (row.expiresAtEpochMs < nowEpochMs)
  match live.get? (accountLocator, signingKeyId, nonce) with
  | some _ =>
    (.error (.new .replayDetected "request nonce was already used"),
      { db with requestNonces := live })
  | none =>
    (.ok (), { db with
      requestNonces := live.insert ⟨accountLocator, signingKeyId, nonce, expiresAtEpochMs⟩ })

def requiredHeader (headers : String → Option String) (name : String) : StoreResult String :=
  match (headers name).filter fun value => !value.isEmpty with
  | some value => .ok value
  | none => .error (.new .unauthorized
      ("required authentication header " ++ name ++ " is missing or invalid"))

/-- The value of a non-empty string of decimal digits. -/
def parseDigits (digits : List Char) : Option Nat :=
  if !digits.isEmpty && digits.all Char.isDigit then
    some (digits.foldl (fun n c => 10 * n + (c.toNat - 48)) 0)
  else none

def parseI64 (text : String) : Option Int :=
  let value := match text.toList with
    | '-' :: digits => (parseDigits digits).map fun n => -(n : Int)
    | '+' :: digits => (parseDigits digits).map fun n => (n : Int)
    | digits => (parseDigits digits).map fun n => (n : Int)
  value.filter fun n => decide (-(2 ^ 63) ≤ n ∧ n < 2 ^ 63)

def parseAuthentication (headers : String → Option String) :
    StoreResult AcsRequestAuthentication := do
  let algorithm ← requiredHeader headers acsAuthAlgorithmHeader
  .rejectIf (algorithm ≠ "ed25519") (.new .unauthorized "unsupported signature algorithm")
  let contractId ← requiredHeader headers acsAuthContractHeader
  let accountLocator ← requiredHeader headers acsAuthAccountHeader
  let signingKeyId ← requiredHeader headers acsAuthKeyIdHeader
  let timestamp ← requiredHeader headers acsAuthTimestampHeader
  match parseI64 timestamp with
  | none => throw (.new .unauthorized "invalid request timestamp")
  | some timestampEpochMs =>
    let nonceBase64url ← requiredHeader headers acsAuthNonceHeader
    let bodySha256 ← requiredHeader headers acsAuthBodyHashHeader
    let signatureBase64url ← requiredHeader headers acsAuthSignatureHeader
    return { contractId, accountLocator, signingKeyId, timestampEpochMs, nonceBase64url,
             bodySha256, signatureBase64url }

section Verification

variable (P : Primitives)

def decodeExact (value : String) (length : Nat) (label : String) : StoreResult Bytes :=
  let wrongLength := StoreError.new .unauthorized (label ++ " has the wrong length")
  if value.utf8ByteSize > (length + 2) / 3 * 4 then .error wrongLength
  else match P.base64UrlDecode value with
    | none => .error (.new .unauthorized (label ++ " is not valid base64url"))
    | some bytes => if bytes.length ≠ length then .error wrongLength else .ok bytes

def validateAccountLocator (accountLocator : String) : StoreResult Unit := do
  let _ ← decodeExact P accountLocator acsAccountLocatorBytes "account locator"

def verifyAuthentication (authentication : AcsRequestAuthentication) (request : SignedRequest)
    (publicKey : Bytes) (nowEpochMs : Int) : StoreResult Unit := do
  .rejectIf (authentication.contractId ≠ acsContractId)
    (.new .unauthorized "unsupported request authentication contract")
  validateAccountLocator P authentication.accountLocator
  let _ ← decodeExact P authentication.signingKeyId acsSigningKeyIdBytes "signing key ID"
  .rejectIf ((nowEpochMs - authentication.timestampEpochMs).natAbs > acsSignatureClockWindowMs)
    (.new .requestExpired "signed request timestamp is outside the accepted clock window")
  let _ ← decodeExact P authentication.nonceBase64url acsRequestNonceBytes "request nonce"
  .rejectIf (authentication.bodySha256 ≠ P.sha256Hex request.body)
    (.new .unauthorized "signed request body hash does not match body")
  let canonicalTarget ← invalidRequest (acsCanonicalRequestTarget request.path request.query)
  let signingBytes ← invalidRequest (authentication.signingBytes request.method canonicalTarget)
  let signature ← decodeExact P authentication.signatureBase64url 64 "signature"
  .rejectIf (!P.verifyingKeyValid publicKey)
    (.new .unauthorized "signing public key is invalid")
  .rejectIf (!P.ed25519Verify publicKey signingBytes signature)
    (.new .unauthorized "request signature is invalid")

def accountAuthentication (db : Database) (accountLocator : String) (write : Bool) :
    StoreResult (String × Bytes) := do
  enforceMode db.serviceMode write "service"
  match db.accounts.get? accountLocator with
  | none => throw (.new .notFound "cloud account does not exist")
  | some account =>
    enforceMode account.mode write "account"
    .rejectIf (account.signingPublicKey.length ≠ 32)
      (.internal "stored signing public key has wrong size")
    return (account.signingKeyId, account.signingPublicKey)

/-- The critical section that a call of `verify_registered_request` takes next. -/
inductive VerifyPhase where
  | accountAuthentication
  | checkAccountOperation
  | admitAccountIngress
  | consumeNonce
  deriving DecidableEq, Repr

def VerifyPhase.next : VerifyPhase → Option VerifyPhase
  | accountAuthentication => some checkAccountOperation
  | checkAccountOperation => some admitAccountIngress
  | admitAccountIngress => some consumeNonce
  | consumeNonce => none

/-- A call of `verify_registered_request`, with what its headers say. -/
structure VerifyCall where
  callId : Nat
  request : SignedRequest
  pathAccountLocator : String
  write : Bool
  nowEpochMs : Int
  authentication : AcsRequestAuthentication
  phase : VerifyPhase

/-- The checks of `verify_registered_request` before it asks the store. -/
def requestAuthentication (request : SignedRequest) (pathAccountLocator : String) :
    StoreResult AcsRequestAuthentication := do
  let authentication ← parseAuthentication request.headers
  .rejectIf (authentication.accountLocator ≠ pathAccountLocator)
    (.new .unauthorized "signed account does not match request path")
  return authentication

/-- The checks of `verify_registered_request` up to the limits. -/
def checkRegisteredRequest (db : Database) (call : VerifyCall) : StoreResult Unit := do
  let (signingKeyId, signingPublicKey) ←
    accountAuthentication db call.pathAccountLocator call.write
  .rejectIf (call.authentication.signingKeyId ≠ signingKeyId)
    (.new .unauthorized "request signing key is not registered for this account")
  verifyAuthentication P call.authentication call.request signingPublicKey call.nowEpochMs

/-- One critical section of `verify_registered_request`. -/
def verifyRegisteredRequest (cfg : StoreConfig) (db : Database) (limits : RuntimeLimits)
    (call : VerifyCall) : StoreResult Unit × RuntimeLimits × Database :=
  let account := call.pathAccountLocator
  match call.phase with
  | .accountAuthentication => (checkRegisteredRequest P db call, limits, db)
  | .checkAccountOperation =>
    let (result, limits) :=
      checkAccountOperation cfg.accountOperationBucket limits account call.nowEpochMs
    (result, limits, db)
  | .admitAccountIngress =>
    let (result, limits) := admitAccountIngress cfg.accountIngressBucket limits account
      call.request.body.length call.nowEpochMs
    (result, limits, db)
  | .consumeNonce =>
    let (result, db) := consumeNonce db account call.authentication.signingKeyId
      call.authentication.nonceBase64url (call.nowEpochMs + acsSignatureClockWindowMs)
      call.nowEpochMs
    (result, limits, db)

/-- The fields of an account creation request that its authentication reads. -/
structure AcsCreateAccountRequest where
  accountLocator : String
  signingKeyId : String
  signingPublicKeyBase64url : String

/-- The checks of `verify_account_creation_request` that change nothing. -/
def checkAccountCreationRequest (signedRequest : SignedRequest) (request : AcsCreateAccountRequest)
    (nowEpochMs : Int) : StoreResult (AcsRequestAuthentication × Bytes) := do
  validateAccountLocator P request.accountLocator
  let authentication ← parseAuthentication signedRequest.headers
  .rejectIf (authentication.accountLocator ≠ request.accountLocator ∨
      authentication.signingKeyId ≠ request.signingKeyId)
    (.new .unauthorized "signed identity does not match account request")
  let publicKey ← decodeExact P request.signingPublicKeyBase64url 32 "signing public key"
  .rejectIf (request.signingKeyId ≠ P.base64UrlEncode ((P.sha256 publicKey).take acsSigningKeyIdBytes))
    (.new .unauthorized "signing key ID does not match public key")
  verifyAuthentication P authentication signedRequest publicKey nowEpochMs
  return (authentication, publicKey)

def verifyAccountCreationRequest (db : Database) (signedRequest : SignedRequest)
    (request : AcsCreateAccountRequest) (nowEpochMs : Int) : StoreResult Bytes × Database :=
  match checkAccountCreationRequest P signedRequest request nowEpochMs with
  | .error e => (.error e, db)
  | .ok (authentication, publicKey) =>
    let (result, db) := consumeNonce db request.accountLocator request.signingKeyId
      authentication.nonceBase64url (nowEpochMs + acsSignatureClockWindowMs) nowEpochMs
    (result.map fun _ => publicKey, db)

end Verification

end Aerobag.Server
