import Aerobag.Contract
import Aerobag.Lib.Table

/-!
# The cloud server's database (`aerobag-cloud-server/src/store.rs`)

The rows of the tables that the store's functions read and write, the store's errors, and small
functions on rows. Columns that no modelled function reads are left out. `children_json` is the list
it encodes, and the `CHECK` on the two ciphertext columns is the type `Placement`.
-/

namespace Aerobag.Server

structure StoreError where
  code : AcsErrorCode
  message : String
  retryAfterMs : Option Nat
  rateLimitGate : Option AcsRateLimitGate
  deriving DecidableEq, Repr

namespace StoreError

def new (code : AcsErrorCode) (message : String) : StoreError := ⟨code, message, none, none⟩

def internal (message : String) : StoreError := new .internal message

/-- The text of the database's own error is a parameter. -/
def sqlite (error : String) : StoreError := internal ("cloud database failure: " ++ error)

/-- The text of the operating system's error is a parameter. -/
def io (context error : String) : StoreError := internal (context ++ ": " ++ error)

end StoreError

abbrev StoreResult := Except StoreError

/-! ## Machine integers

Columns are SQLite integers, that is, signed 64 bit numbers. The code reads most of them as `u64`,
which fails on a negative number, and computes with saturating `u64` arithmetic. -/

def u64Max : Nat := 2 ^ 64 - 1

def i64Max : Nat := 2 ^ 63 - 1

/-- `u64::saturating_add`; unfolding it would count up to `u64Max`. -/
@[irreducible] def satAdd (a b : Nat) : Nat := min (a + b) u64Max

def readU64 (column : Int) : StoreResult Nat :=
  if column < 0 then .error (.sqlite "integer out of range") else .ok column.toNat

/-- A `u64` bound as a statement parameter. -/
def bindU64 (value : Nat) : StoreResult Nat :=
  if value > i64Max then .error (.sqlite "integer out of range") else .ok value

inductive AccountMode where
  | normal
  | readOnly
  | suspended
  deriving DecidableEq, Repr

structure AccountRow where
  accountLocator : String
  signingKeyId : String
  signingPublicKey : Bytes
  mode : AccountMode
  quotaBytes : Nat
  objectLimit : Nat
  storedBytes : Int
  objectCount : Int
  eventSequence : Nat
  deriving DecidableEq, Repr

inductive ObjectState where
  | pending
  | ready
  deriving DecidableEq, Repr

/-- In the row, or in the blob file with the key. -/
inductive Placement where
  | inlineCiphertext (bytes : Bytes)
  | blobStorageKey (key : String)
  deriving DecidableEq, Repr

def Placement.blobKey? : Placement → Option String
  | inlineCiphertext _ => none
  | blobStorageKey key => some key

structure ObjectRow where
  accountLocator : String
  objectId : String
  authenticatedHash : String
  ciphertextSha256 : String
  ciphertextBytes : Nat
  childObjectIds : List String
  state : ObjectState
  placement : Placement
  createdAtEpochMs : Int
  deriving DecidableEq, Repr

def ObjectRow.key (row : ObjectRow) : String × String := (row.accountLocator, row.objectId)

def ObjectRow.madeReady (row : ObjectRow) : ObjectRow := { row with state := .ready }

theorem ObjectRow.key_madeReady (row : ObjectRow) : row.madeReady.key = row.key := rfl

structure RootRow where
  accountLocator : String
  revision : Nat
  rootHash : String
  ciphertextSha256 : String
  ciphertext : Bytes
  childObjectIds : List String
  updatedAtEpochMs : Int
  deriving DecidableEq, Repr

structure RootEventRow where
  accountLocator : String
  sequence : Nat
  rootRevision : Nat
  rootHash : String
  deriving DecidableEq, Repr

def RootEventRow.key (row : RootEventRow) : String × Nat := (row.accountLocator, row.sequence)

structure NonceRow where
  accountLocator : String
  signingKeyId : String
  nonce : String
  expiresAtEpochMs : Int
  deriving DecidableEq, Repr

def NonceRow.key (row : NonceRow) : String × String × String :=
  (row.accountLocator, row.signingKeyId, row.nonce)

structure Database where
  serviceMode : AccountMode
  accounts : Table AccountRow.accountLocator
  objects : Table ObjectRow.key
  roots : Table RootRow.accountLocator
  rootEvents : Table RootEventRow.key
  requestNonces : Table NonceRow.key

def Database.initialized : Database :=
  ⟨.normal, .empty, .empty, .empty, .empty, .empty⟩

/-- `serde_json`'s escape of one character of a string. -/
def jsonEscape (c : Char) : List Char :=
  if c = '"' then ['\\', '"']
  else if c = '\\' then ['\\', '\\']
  else if c = Char.ofNat 8 then ['\\', 'b']
  else if c = '\t' then ['\\', 't']
  else if c = '\n' then ['\\', 'n']
  else if c = Char.ofNat 12 then ['\\', 'f']
  else if c = '\r' then ['\\', 'r']
  else if c.toNat < 32 then ['\\', 'u', '0', '0', hexDigit (c.toNat / 16), hexDigit (c.toNat % 16)]
  else [c]

def childrenJson (ids : List String) : String :=
  let strings := ids.map fun id => String.ofList ('"' :: id.toList.flatMap jsonEscape ++ ['"'])
  "[" ++ ",".intercalate strings ++ "]"

def objectStorageAccountingOverheadBytes : Nat := 512

def rootStorageAccountingOverheadBytes : Nat := 512

def objectStorageBytes (objectId : String) (ciphertextBytes : Nat) (childrenJson : String) : Nat :=
  satAdd (satAdd (satAdd ciphertextBytes objectId.utf8ByteSize) childrenJson.utf8ByteSize)
    objectStorageAccountingOverheadBytes

def rootStorageBytes (ciphertextBytes : Nat) (childrenJson : String) : Nat :=
  satAdd (satAdd ciphertextBytes childrenJson.utf8ByteSize) rootStorageAccountingOverheadBytes

def ObjectRow.storageBytes (row : ObjectRow) : Nat :=
  objectStorageBytes row.objectId row.ciphertextBytes (childrenJson row.childObjectIds)

def RootRow.storageBytes (row : RootRow) : Nat :=
  rootStorageBytes row.ciphertext.length (childrenJson row.childObjectIds)

def blobStorageKey (P : Primitives) (accountLocator objectId ciphertextSha256 : String) : String :=
  hexBytes (P.sha256 (strBytes "aerobag-cloud-blob-v2" ++ [0] ++ strBytes accountLocator ++ [0] ++
    strBytes objectId ++ [0] ++ strBytes ciphertextSha256))

def isOpaqueIdChar (c : Char) : Bool := c.isAlphanum || c = '-' || c = '_'

def validateOpaqueId (value label : String) : StoreResult Unit :=
  if value.isEmpty || value.utf8ByteSize > 128 || !value.toList.all isOpaqueIdChar then
    .error (.new .invalidRequest (label ++ " is invalid"))
  else .ok ()

end Aerobag.Server
