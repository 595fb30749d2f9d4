import Aerobag.Server.Schema

/-!
# Request rate limits (`aerobag-cloud-server/src/store.rs`)

Token buckets counted in quanta: a token is `refill_period_ms` quanta, and every elapsed
millisecond adds `refill_amount` of them.
-/

namespace Aerobag.Server

structure TokenBucketConfig where
  capacity : Nat
  refillAmount : Nat
  refillPeriodMs : Nat
  deriving DecidableEq, Repr

def TokenBucketConfig.validate (self : TokenBucketConfig) (label : String) : StoreResult Unit :=
  if self.capacity = 0 ∨ self.refillAmount = 0 ∨ self.refillPeriodMs = 0 then
    .error (.internal (label ++ " token bucket values must be positive"))
  else if u64Max < self.capacity * self.refillPeriodMs then
    .error (.internal (label ++ " token bucket is too large"))
  else .ok ()

structure TokenBucket where
  availableQuanta : Nat
  updatedAtEpochMs : Int
  initialized : Bool
  deriving DecidableEq, Repr

def u128Max : Nat := 2 ^ 128 - 1

def satSubI64 (a b : Int) : Int := max (-(2 ^ 63)) (min (a - b) i64Max)

namespace TokenBucket

def default : TokenBucket := ⟨0, 0, false⟩

def refill (self : TokenBucket) (config : TokenBucketConfig) (nowEpochMs : Int) : TokenBucket :=
  let full := config.capacity * config.refillPeriodMs
  if !self.initialized then ⟨full, nowEpochMs, true⟩
  else
    let elapsedMs := (max (satSubI64 nowEpochMs self.updatedAtEpochMs) 0).toNat
    { self with
      availableQuanta := min (min (self.availableQuanta + elapsedMs * config.refillAmount) u128Max) full
      updatedAtEpochMs := nowEpochMs }

/-- `Err` carries the advised wait. The refill is kept either way. -/
def reserve (self : TokenBucket) (amount : Nat) (config : TokenBucketConfig) (nowEpochMs : Int) :
    Except Nat Unit × TokenBucket :=
  let bucket := self.refill config nowEpochMs
  let required := amount * config.refillPeriodMs
  if bucket.availableQuanta < required then
    let deficit := required - bucket.availableQuanta
    let retryAfterMs := (deficit + config.refillAmount - 1) / config.refillAmount
    (.error (min retryAfterMs u64Max), bucket)
  else (.ok (), { bucket with availableQuanta := bucket.availableQuanta - required })

/-- Calls of `reserve` one after the other, each with its amount and its time. -/
def reserveAll (config : TokenBucketConfig) :
    TokenBucket → List (Nat × Int) → List (Except Nat Unit) × TokenBucket
  | bucket, [] => ([], bucket)
  | bucket, (amount, nowEpochMs) :: calls =>
    let (result, next) := bucket.reserve amount config nowEpochMs
    let (results, last) := reserveAll config next calls
    (result :: results, last)

def granted (config : TokenBucketConfig) (self : TokenBucket) (calls : List (Nat × Int)) : Nat :=
  (((self.reserveAll config calls).1.zip calls).map fun (result, amount, _) =>
    if result.isOk then amount else 0).sum

end TokenBucket

/-- The buckets of each account; an account without one has the default bucket. -/
structure RuntimeLimits where
  accountOperations : String → TokenBucket
  accountIngressBytes : String → TokenBucket

def RuntimeLimits.default : RuntimeLimits := ⟨fun _ => .default, fun _ => .default⟩

def rateLimited (gate : AcsRateLimitGate) (message : String) (retryAfterMs : Nat) : StoreError :=
  ⟨.rateLimited, message, some retryAfterMs, some gate⟩

def checkAccountOperation (config : TokenBucketConfig) (limits : RuntimeLimits)
    (accountLocator : String) (nowEpochMs : Int) : StoreResult Unit × RuntimeLimits :=
  let (result, bucket) := (limits.accountOperations accountLocator).reserve 1 config nowEpochMs
  (result.mapError (rateLimited .accountOperations "cloud account request rate is exceeded"),
    { limits with
      accountOperations := fun account =>
        if account = accountLocator then bucket else limits.accountOperations account })

def admitAccountIngress (config : TokenBucketConfig) (limits : RuntimeLimits)
    (accountLocator : String) (bytes : Nat) (nowEpochMs : Int) :
    StoreResult Unit × RuntimeLimits :=
  if bytes = 0 then (.ok (), limits)
  else
    let (result, bucket) :=
      (limits.accountIngressBytes accountLocator).reserve bytes config nowEpochMs
    (result.mapError (rateLimited .accountIngress "cloud account ingress rate is exceeded"),
      { limits with
        accountIngressBytes := fun account =>
          if account = accountLocator then bucket else limits.accountIngressBytes account })

end Aerobag.Server
