import Mathlib.Data.Nat.Basic
import Aerobag.Server.Limits

/-!
# Token buckets

What a bucket grants over a sequence of calls, and what the advised wait is worth. The times of the calls
are given as a list that does not step back, from a start to an end.
-/

open List

namespace Aerobag.Server

namespace TokenBucketConfig

/-- The unit in which a bucket counts. -/
def quanta (config : TokenBucketConfig) (amount : Nat) : Nat := amount * config.refillPeriodMs

theorem validate_eq_ok {c : TokenBucketConfig} {l : String} (h : c.validate l = .ok ()) :
    0 < c.refillAmount ∧ 0 < c.refillPeriodMs ∧ c.quanta c.capacity ≤ u64Max := by
  unfold validate at h
  split_ifs at h
  unfold quanta
  omega

end TokenBucketConfig

namespace TokenBucket

variable {cf : TokenBucketConfig} {bk : TokenBucket} {now la : Int}

/-- The quanta that a bucket has at a time, before the limit of its capacity. -/
def accrued (config : TokenBucketConfig) (bucket : TokenBucket) (now : Int) : Nat :=
  bucket.availableQuanta + (now - bucket.updatedAtEpochMs).toNat * config.refillAmount

theorem accrued_add (h : bk.updatedAtEpochMs ≤ now) (hl : now ≤ la) : bk.accrued cf la =
      bk.accrued cf now + (la - now).toNat * cf.refillAmount := by
  have hsp : (la - bk.updatedAtEpochMs).toNat =
      (now - bk.updatedAtEpochMs).toNat + (la - now).toNat := by omega
  rw [accrued, accrued, hsp, Nat.add_mul, Nat.add_assoc]

theorem elapsed_le (a b : Int) : (max (satSubI64 a b) 0).toNat ≤ min (a - b).toNat i64Max := by
  unfold satSubI64 i64Max
  omega

/-- A refill adds at most what the time that has passed is worth, and no less while that time is in the
range of `i64`. -/
theorem refill_spec (c : TokenBucketConfig) (b : TokenBucket) (now : Int) :
    let next := b.refill c now
    next.initialized ∧ next.updatedAtEpochMs = now ∧
    (b.initialized → c.quanta c.capacity ≤ u64Max → next.availableQuanta ≤ b.accrued c now ∧
      (now - b.updatedAtEpochMs ≤ i64Max →
          min (b.accrued c now) (c.quanta c.capacity) ≤ next.availableQuanta)) := by
  by_cases h : b.initialized
  · simp only [refill, h, Bool.not_true, Bool.false_eq_true, if_false, accrued, true_and, forall_const]
    have hel := elapsed_le now b.updatedAtEpochMs
    refine fun hfl => ⟨?_, fun hrn => ?_⟩
    · have := Nat.mul_le_mul_right c.refillAmount (hel.trans (min_le_left ..))
      omega
    · have heq : (max (satSubI64 now b.updatedAtEpochMs) 0).toNat =
          (now - b.updatedAtEpochMs).toNat := by
        unfold satSubI64
        omega
      have hm : u64Max ≤ u128Max := by decide
      unfold TokenBucketConfig.quanta at *
      rw [heq]
      omega
  · simp [refill, h]

/-- A call leaves the refilled bucket as it is, or takes its amount out of it. -/
theorem reserve_cases (c : TokenBucketConfig) (b : TokenBucket) (a : Nat) (now : Int) :
    ∃ next, b.refill c now = next ∧ (next.availableQuanta < c.quanta a ∧ b.reserve a c now =
        (.error (min ((c.quanta a - next.availableQuanta + c.refillAmount - 1) /
          c.refillAmount) u64Max), next) ∨
      c.quanta a ≤ next.availableQuanta ∧ b.reserve a c now =
        (.ok (), { next with availableQuanta := next.availableQuanta - c.quanta a })) := by
  refine ⟨_, rfl, ?_⟩
  by_cases hlt : (b.refill c now).availableQuanta < c.quanta a
  · exact .inl ⟨hlt, if_pos hlt⟩
  · exact .inr ⟨not_lt.1 hlt, if_neg hlt⟩

theorem reserve_accrued (hfl : cf.quanta cf.capacity ≤ u64Max) (h : bk.initialized)
    (hnw : bk.updatedAtEpochMs ≤ now) (hl : now ≤ la) (a : Nat) :
    let (result, next) := bk.reserve a cf now
    next.initialized ∧ next.updatedAtEpochMs = now ∧
      cf.quanta (if result.isOk then a else 0) + next.accrued cf la ≤ bk.accrued cf la := by
  obtain ⟨hin, htm, hsp⟩ := refill_spec cf bk now
  have hle := (hsp h hfl).1
  rw [accrued_add hnw hl]
  obtain ⟨next, rfl, ⟨-, heq⟩ | ⟨htk, heq⟩⟩ := reserve_cases cf bk a now <;> rw [heq]
  · refine ⟨hin, htm, ?_⟩
    simpa [accrued, Except.toBool, TokenBucketConfig.quanta, htm] using hle
  · refine ⟨hin, htm, ?_⟩
    simp only [accrued, Except.toBool, if_true, htm]
    rw [accrued] at hle
    omega

/-- What a sequence of calls is granted, in quanta. -/
theorem quanta_granted_le {cs : List (Nat × Int)}
    (hfl : cf.quanta cf.capacity ≤ u64Max) (h : bk.initialized)
    (htm : (bk.updatedAtEpochMs :: cs.map Prod.snd ++ [la]).Pairwise (· ≤ ·)) :
    cf.quanta (bk.granted cf cs) ≤ bk.accrued cf la := by
  induction cs generalizing bk with
  | nil => simp [granted, TokenBucketConfig.quanta]
  | cons c cs ih =>
    obtain ⟨hle, hr⟩ := pairwise_cons.1 htm
    obtain ⟨hin, htime, hst⟩ := reserve_accrued hfl h (hle c.2 (by simp))
      ((pairwise_cons.1 hr).1 la (by simp)) c.1
    have hcn : bk.granted cf (c :: cs) = (if (bk.reserve c.1 cf c.2).1.isOk then c.1 else 0) +
          (bk.reserve c.1 cf c.2).2.granted cf cs := rfl
    rw [hcn, TokenBucketConfig.quanta, Nat.add_mul]
    exact (Nat.add_le_add_left (ih hin (by rwa [htime])) _).trans hst

end TokenBucket

open TokenBucket in
/-- **The rate of a bucket.** While time does not step back, what is granted is at most the capacity and
what is refilled between the first and the last call. The products in `u128` are in its range. -/
theorem token_bucket_rate_bound {config : TokenBucketConfig} {label : String}
    {calls : List (Nat × Int)} {lo hi : Int} (hvalid : config.validate label = .ok ())
    (hconfig : config.refillAmount ≤ u64Max ∧ config.refillPeriodMs ≤ u64Max)
    (hcalls : ∀ call ∈ calls, call.1 ≤ u64Max) :
    ((lo :: calls.map Prod.snd ++ [hi]).Pairwise (· ≤ ·) →
        TokenBucket.default.granted config calls ≤
          config.capacity + config.refillAmount * (hi - lo).toNat / config.refillPeriodMs) ∧
      config.capacity * config.refillPeriodMs ≤ u128Max ∧
      ∀ bucket : TokenBucket, ∀ call ∈ calls, call.1 * config.refillPeriodMs ≤ u128Max ∧
        (max (satSubI64 call.2 bucket.updatedAtEpochMs) 0).toNat * config.refillAmount ≤ u128Max := by
  obtain ⟨-, hpr, hfl⟩ := TokenBucketConfig.validate_eq_ok hvalid
  refine ⟨fun htm => ?_, hfl.trans (by decide), fun bucket call hcl => ⟨?_, ?_⟩⟩
  · rw [← Nat.mul_add_div hpr, Nat.le_div_iff_mul_le hpr, mul_comm config.refillPeriodMs,
      mul_comm config.refillAmount]
    cases calls with
    | nil => simp [granted, reserveAll]
    | cons call calls =>
      -- The first call finds a full bucket.
      have hrf : TokenBucket.default.refill config call.2 =
          refill ⟨config.quanta config.capacity, lo, true⟩ config call.2 := by
        have hm : u64Max ≤ u128Max := by decide
        rw [TokenBucketConfig.quanta] at hfl ⊢
        simp [refill, TokenBucket.default]
        omega
      have hle := @quanta_granted_le config ⟨config.quanta config.capacity, lo, true⟩ hi _ hfl
        rfl htm
      simp only [granted, reserveAll, reserve, ← hrf] at hle ⊢
      exact hle
  · exact (Nat.mul_le_mul (hcalls call hcl) hconfig.2).trans (by decide)
  · have hle := (elapsed_le call.2 bucket.updatedAtEpochMs).trans (min_le_right ..)
    exact (Nat.mul_le_mul hle hconfig.1).trans (by decide)

/-- Three calls within nine milliseconds. -/
theorem token_bucket_rate_bound_sample :
    TokenBucket.default.granted ⟨2, 1, 3⟩ [(1, 0), (1, 2), (1, 9)] ≤ 2 + 1 * (9 - 0 : Int).toNat / 3 :=
  (token_bucket_rate_bound (show (⟨2, 1, 3⟩ : TokenBucketConfig).validate "" = .ok () by rfl)
    (by decide) (by decide)).1 (by decide)

/-- When time steps back, the bucket forgets how far it has been refilled: in two milliseconds a
bucket of one token that gets one token in a millisecond grants three. -/
theorem granted_again_after_step_back :
    ∃ (config : TokenBucketConfig) (calls : List (Nat × Int)), config.validate "" = .ok () ∧
      (∀ call ∈ calls, call.1 = 1 ∧ 0 ≤ call.2 ∧ call.2 ≤ 1) ∧
      config.capacity + config.refillAmount * (1 - 0 : Int).toNat / config.refillPeriodMs <
        TokenBucket.default.granted config calls :=
  ⟨⟨1, 1, 1⟩, [(1, 1), (1, 0), (1, 1), (1, 0), (1, 1)], rfl, by decide, by decide⟩

namespace TokenBucket

variable {cf : TokenBucketConfig} {first bk : TokenBucket} {now la : Int}

/-- At a time the second bucket has what the first one has accrued by then. -/
def Accrues (config : TokenBucketConfig) (first bucket : TokenBucket) (now : Int) : Prop :=
  bucket.availableQuanta ≤ first.accrued config now ∧ (now - first.updatedAtEpochMs ≤ i64Max →
    min (first.accrued config now) (config.quanta config.capacity) ≤ bucket.availableQuanta)

/-- A partial refill loses nothing. -/
theorem Accrues.refill (hfl : cf.quanta cf.capacity ≤ u64Max)
    (h : Accrues cf first bk bk.updatedAtEpochMs) (hin : bk.initialized)
    (hf : first.updatedAtEpochMs ≤ bk.updatedAtEpochMs)
    (hnw : bk.updatedAtEpochMs ≤ now) : Accrues cf first (bk.refill cf now) now := by
  obtain ⟨hle, hge⟩ := (refill_spec cf bk now).2.2 hin hfl
  obtain ⟨hle', hge'⟩ := h
  rw [accrued] at hle hge
  rw [Accrues, accrued_add hf hnw]
  refine ⟨by omega, fun hrn => ?_⟩
  omega

theorem Accrues.reserveAll {b : TokenBucket} {cs : List (Nat × Int)}
    (hfu : cf.quanta cf.capacity ≤ u64Max)
    (h : Accrues cf first b b.updatedAtEpochMs) (hin : b.initialized)
    (hf : first.updatedAtEpochMs ≤ b.updatedAtEpochMs)
    (htm : (b.updatedAtEpochMs :: cs.map Prod.snd ++ [la]).Pairwise (· ≤ ·))
    (hfl : ∀ res ∈ (b.reserveAll cf cs).1, res.isOk = false) :
    Accrues cf first ((b.reserveAll cf cs).2.refill cf la) la := by
  induction cs generalizing b with
  | nil => exact h.refill hfu hin hf (by simpa [TokenBucket.reserveAll] using htm)
  | cons c cs ih =>
    obtain ⟨hle, hr⟩ := pairwise_cons.1 htm
    have hnw := hle c.2 (by simp)
    obtain ⟨hin', htime, -⟩ := refill_spec cf b c.2
    obtain ⟨next, rfl, ⟨-, heq⟩ | ⟨-, heq⟩⟩ := reserve_cases cf b c.1 c.2
    · simp only [TokenBucket.reserveAll, heq, mem_cons, forall_eq_or_imp] at hfl ⊢
      refine ih ?_ hin' ?_ ?_ hfl.2 <;> rw [htime]
      exacts [h.refill hfu hin hf hnw, hf.trans hnw, hr]
    · simp [TokenBucket.reserveAll, heq, Except.toBool] at hfl

end TokenBucket

open TokenBucket in
/-- **The advised wait is exact.** A call that is refused with a wait fails again before the wait is
over and succeeds from then on, if nothing but calls that fail is made in between. -/
theorem retry_after_exact {config : TokenBucketConfig} {label : String} {bucket next : TokenBucket}
    {amount wait d : Nat} {now : Int} {calls : List (Nat × Int)}
    (hvalid : config.validate label = .ok ()) (hamount : amount ≤ config.capacity)
    (herr : bucket.reserve amount config now = (.error wait, next)) (hwait : wait < u64Max)
    (htimes : (now :: calls.map Prod.snd ++ [now + d]).Pairwise (· ≤ ·))
    (hfail : ∀ result ∈ (next.reserveAll config calls).1, result.isOk = false) :
    let retry := ((next.reserveAll config calls).2.reserve amount config (now + d)).1
    (d < wait → retry.isOk = false) ∧ (wait ≤ d → d ≤ i64Max → retry = .ok ()) := by
  obtain ⟨hrf, -, hfl⟩ := TokenBucketConfig.validate_eq_ok hvalid
  obtain ⟨hin, htime, -⟩ := refill_spec config bucket now
  obtain ⟨_, rfl, ⟨hlt, heq⟩ | ⟨-, heq⟩⟩ := reserve_cases config bucket amount now
  swap
  · simp [heq] at herr
  obtain ⟨hm, rfl⟩ := Prod.mk.inj (heq.symm.trans herr)
  rw [Except.error.injEq] at hm
  rw [min_eq_left_of_lt (by omega)] at hm
  have hd : (now + d - now).toNat = d := by omega
  -- The wait is over when the time that has passed is worth the deficit.
  have hov : wait ≤ d ↔
      config.quanta amount ≤ (bucket.refill config now).accrued config (now + d) := by
    rw [← hm, Nat.div_le_iff_le_mul_add_pred hrf, accrued, htime, hd, mul_comm config.refillAmount]
    omega
  rw [← htime] at htimes
  obtain ⟨hup, hlw⟩ := Accrues.reserveAll hfl ⟨by simp [accrued], by simp [accrued]⟩ hin le_rfl
    htimes hfail
  rw [htime] at hup hlw
  have hcp : config.quanta amount ≤ config.quanta config.capacity := Nat.mul_le_mul_right _ hamount
  obtain ⟨_, rfl, ⟨hlt', heq'⟩ | ⟨hle', heq'⟩⟩ :=
    reserve_cases config ((bucket.refill config now).reserveAll config calls).2 amount (now + d) <;>
    rw [heq']
  · refine ⟨fun _ => rfl, fun hge hrn => ?_⟩
    have := hov.1 hge
    have := hlw (by omega)
    omega
  · refine ⟨fun her => ?_, fun _ _ => rfl⟩
    have := hov.2 (hle'.trans hup)
    omega

/-- After the advised wait of three milliseconds the call succeeds, with two other calls in between.
-/
theorem retry_after_exact_sample :
    let config : TokenBucketConfig := ⟨1, 2, 5⟩
    (((⟨0, 0, true⟩ : TokenBucket).reserveAll config [(1, 1), (1, 2)]).2.reserve 1 config 3).1 = .ok () :=
  (@retry_after_exact ⟨1, 2, 5⟩ "" ⟨0, 0, true⟩ ⟨0, 0, true⟩ 1 3 3 0 [(1, 1), (1, 2)] rfl le_rfl rfl
    (by decide) (by decide) (by decide)).2 le_rfl (by decide)

/-- A bucket that takes 2⁶³ + 1 milliseconds for its only token. The elapsed time saturates before the
advised wait is over. -/
theorem retry_fails_after_saturated_wait :
    ∃ (config : TokenBucketConfig) (bucket : TokenBucket) (now : Int) (wait : Nat),
      config.validate "" = .ok () ∧ -(2 ^ 63) ≤ now ∧ now + wait ≤ i64Max ∧ wait < u64Max ∧
      (bucket.reserve 1 config now).1 = .error wait ∧
      ((bucket.reserve 1 config now).2.reserve 1 config (now + wait)).1.isOk = false :=
  ⟨⟨1, 1, 2 ^ 63 + 1⟩, ⟨0, -(2 ^ 62), true⟩, -(2 ^ 62), 2 ^ 63 + 1, by decide⟩

end Aerobag.Server
