import Aerobag.Server.Proofs.SystemProofs

/-!
# Replayed requests

A nonce expires `acsSignatureClockWindowMs` after the clock reading of the call that has consumed it,
the signed timestamp after itself. The nonce outlives it if the timestamp is not ahead of that
reading, and no call with a later reading purges the nonce while a copy of the request is verified.
-/

open Except

namespace Aerobag.Server

variable {P : Primitives} {cfg : StoreConfig} {db : Database} {key : String × String × String}
  {account kid nc : String} {es now : Int}

/-- The nonce is recorded, at least until this time. -/
def LiveNonce (db : Database) (key : String × String × String) (expires : Int) : Prop :=
  ∃ row, db.requestNonces.get? key = some row ∧ expires ≤ row.expiresAtEpochMs

theorem get?_consumeNonce {row : NonceRow} (h : db.requestNonces.get? key = some row)
    (hnw : now ≤ row.expiresAtEpochMs) :
    (consumeNonce db account kid nc es now).2.requestNonces.get? key = some row := by
  have hlv : (db.requestNonces.deleteWhere fun row => decide (row.expiresAtEpochMs < now)).get?
      key = some row :=
    Table.get?_deleteWhere_eq_some.2 ⟨h, by simpa using hnw⟩
  unfold consumeNonce
  simp only
  split
  · exact hlv
  · next hn =>
    rw [Table.get?_insert hn, if_neg, hlv]
    rintro rfl
    rw [NonceRow.key, hn] at hlv
    cases hlv

/-- A nonce that is recorded is not accepted again before it expires. -/
theorem consumeNonce_of_liveNonce (h : LiveNonce db (account, kid, nc) es)
    (hnw : now ≤ es) (es' : Int) : (consumeNonce db account kid nc es' now).1 ≠ .ok () := by
  obtain ⟨row, hr, hes⟩ := h
  have hlv : (db.requestNonces.deleteWhere fun row => decide (row.expiresAtEpochMs < now)).get?
      (account, kid, nc) = some row :=
    Table.get?_deleteWhere_eq_some.2 ⟨hr, by simp; omega⟩
  simp [consumeNonce, hlv]

/-- A nonce that is accepted is recorded. -/
theorem consumeNonce_ok (h : (consumeNonce db account kid nc es now).1 = .ok ()) :
    LiveNonce (consumeNonce db account kid nc es now).2 (account, kid, nc) es := by
  unfold consumeNonce at h ⊢
  simp only at h ⊢
  split at h
  · simp at h
  · next hn => exact ⟨⟨account, kid, nc, es⟩, (Table.get?_insert hn _).trans (if_pos rfl), le_refl _⟩

variable {s s' t : Store} {call v : VerifyCall} {callId : Nat} {res : StoreResult Unit}

def VerifyCall.nonceKey (call : VerifyCall) : String × String × String :=
  (call.pathAccountLocator, call.authentication.signingKeyId, call.authentication.nonceBase64url)

theorem verifyAuthentication_ok {a : AcsRequestAuthentication} {r : SignedRequest} {pk : Bytes}
    (h : verifyAuthentication P a r pk now = .ok ()) :
    (now - a.timestampEpochMs).natAbs ≤ acsSignatureClockWindowMs := by
  simp only [verifyAuthentication, bind_eq_ok, rejectIf_eq_ok] at h
  obtain ⟨_, _, _, _, _, _, _, hwn, _⟩ := h
  exact not_lt.1 hwn

/-- A request that is checked is within the clock window. -/
theorem checkRegisteredRequest_ok (h : checkRegisteredRequest P db call = .ok ()) :
    (call.nowEpochMs - call.authentication.timestampEpochMs).natAbs ≤ acsSignatureClockWindowMs := by
  simp only [checkRegisteredRequest, bind_eq_ok] at h
  obtain ⟨_, _, _, _, hvr⟩ := h
  exact verifyAuthentication_ok hvr

/-- A call that is left after a section was there before, or has come to its next section. -/
theorem Store.mem_nextPhase (hcl : s.verifications.get? callId = some call)
    (hv : v ∈ (s.nextPhase call res).rows) : v ∈ s.verifications.rows ∨
      res = .ok () ∧ ∃ phase, call.phase.next = some phase ∧ v = { call with phase } := by
  unfold nextPhase at hv
  split at hv
  · next phase hph =>
    obtain ⟨old, ho, rfl⟩ := Table.mem_rows_updateWhere.1 hv
    split
    · next hid =>
      obtain rfl := Table.eq_of_key_eq ho (Table.get?_eq_some.1 hcl).1 (of_decide_eq_true hid)
      exact .inr ⟨rfl, phase, hph, rfl⟩
    · exact .inl ho
  · exact .inl (Table.mem_rows_deleteWhere.1 hv).1

/-- The call has read the clock before, and its timestamp was in the window then. -/
structure VerifyCall.Sound (clock : Int) (call : VerifyCall) : Prop where
  clock : call.nowEpochMs ≤ clock
  window : call.phase ≠ .accountAuthentication →
    (call.nowEpochMs - call.authentication.timestampEpochMs).natAbs ≤ acsSignatureClockWindowMs

def Store.VerifySound (s : Store) : Prop := ∀ call ∈ s.verifications.rows, call.Sound s.clock

theorem Store.VerifySound.step {l : Label} (h : s.VerifySound)
    (hst : s.step P cfg l = some s') : s'.VerifySound := by
  cases effect_of_step hst with
  | tick hcl => exact fun v hv => ⟨(h v hv).clock.trans hcl, (h v hv).window⟩
  | crash => exact fun v hv => absurd hv List.not_mem_nil
  | requestStarted _ hn =>
    intro v hv
    obtain hv | rfl := (Table.mem_rows_insert hn).1 hv
    · exact h v hv
    · exact ⟨le_refl _, fun hph => absurd rfl hph⟩
  | @verifyRequest _ call _ _ _ _ hcl hvr =>
    intro v hv
    have hc := h call (Table.get?_eq_some.1 hcl).1
    obtain hv | ⟨rfl, ph, -, rfl⟩ := mem_nextPhase hcl hv
    · exact h v hv
    refine ⟨hc.clock, fun _ => ?_⟩
    by_cases hph : call.phase = .accountAuthentication
    · simp only [verifyRegisteredRequest, hph, Prod.mk.injEq] at hvr
      exact checkRegisteredRequest_ok hvr.1
    · exact hc.window hph
  | _ => exact h

/-- At this clock reading no nonce is purged that a call under way would still find. -/
def Store.Spares (s : Store) (nowEpochMs : Int) : Prop :=
  ∀ call ∈ s.verifications.rows, ∀ row ∈ s.db.requestNonces.get? call.nonceKey,
    row.expiresAtEpochMs < nowEpochMs → row.expiresAtEpochMs < call.nowEpochMs

instance (s : Store) (nowEpochMs : Int) : Decidable (s.Spares nowEpochMs) :=
  inferInstanceAs (Decidable (∀ call ∈ s.verifications.rows, _))

/-- Where a nonce is consumed, the timestamp is not ahead of the clock reading, and no nonce of a call
under way is purged. -/
def Store.sparesNonces (s : Store) : Label → Bool
  | .verifyRequest callId => (s.verifications.get? callId).all fun call =>
      decide (call.phase = .consumeNonce →
        call.authentication.timestampEpochMs ≤ call.nowEpochMs ∧ s.Spares call.nowEpochMs)
  | .verifyCreation _ _ nowEpochMs => decide (s.Spares nowEpochMs)
  | _ => true

theorem Store.spares_of_sparesNonces (h : s.sparesNonces (.verifyRequest callId) = true)
    (hcl : s.verifications.get? callId = some call) (hph : call.phase = .consumeNonce) :
    call.authentication.timestampEpochMs ≤ call.nowEpochMs ∧ s.Spares call.nowEpochMs := by
  simp only [sparesNonces, hcl, Option.all_some, decide_eq_true_eq] at h
  exact h hph

/-- The nonce is on record; or its time is over, for the calls under way too. -/
def Store.NonceKept (s : Store) (key : String × String × String) (expires : Int) : Prop :=
  LiveNonce s.db key expires ∨ expires < s.clock ∧
    ∀ call ∈ s.verifications.rows, call.nonceKey = key → expires < call.nowEpochMs

theorem Store.NonceKept.consumeNonce (h : s.NonceKept key es) (hsp : s.Spares now)
    (hnw : now ≤ s.clock) {ns : Table NonceRow.key} {es' : Int}
    (hdb : (Server.consumeNonce s.db account kid nc es' now).2 = { s.db with requestNonces := ns }) :
    ({ s with db := { s.db with requestNonces := ns } } : Store).NonceKept key es := by
  obtain ⟨row, hr, hes⟩ | h := h
  · by_cases hlt : row.expiresAtEpochMs < now
    · refine .inr ⟨by simp only; omega, fun v hv hk => ?_⟩
      have hvn := hsp v hv row (hk ▸ hr) hlt
      omega
    · refine .inl ⟨row, ?_, hes⟩
      have hkp : (Server.consumeNonce s.db account kid nc es' now).2.requestNonces.get? key = some row :=
        get?_consumeNonce hr (not_lt.1 hlt)
      rwa [hdb] at hkp
  · exact .inr h

/-- A section changes neither the nonce of a call nor its clock reading. -/
theorem Store.NonceKept.nextPhase (h : s.NonceKept key es)
    (hcl : s.verifications.get? callId = some call) {ls : RuntimeLimits} :
    ({ s with limits := ls, verifications := s.nextPhase call res } : Store).NonceKept key es := by
  refine h.imp_right fun ⟨hes, hvs⟩ => ⟨hes, fun v hv hk => ?_⟩
  obtain hv | ⟨-, ph, -, rfl⟩ := mem_nextPhase hcl hv
  · exact hvs v hv hk
  · exact hvs call (Table.get?_eq_some.1 hcl).1 hk

/-- A recorded nonce stays until it expires. -/
theorem Store.NonceKept.step {l : Label} (h : s.NonceKept key es) (hsn : s.VerifySound)
    (hst : s.step P cfg l = some s') (hok : s.sparesNonces l = true) : s'.NonceKept key es := by
  have hfr : ∀ {t : Store}, t.clock = s.clock → t.verifications = s.verifications →
      t.db.requestNonces = s.db.requestNonces → t.NonceKept key es := by
    intro t hcl hvs hnn
    simpa only [NonceKept, LiveNonce, hcl, hvs, hnn] using h
  cases effect_of_step hst with
  | tick hcl => exact h.imp_right fun h => ⟨h.1.trans_le hcl, h.2⟩
  | crash => exact h.imp_right fun h => ⟨h.1, fun v hv => absurd hv List.not_mem_nil⟩
  | requestStarted _ hn =>
    refine h.imp_right fun h => ⟨h.1, fun v hv hk => ?_⟩
    obtain hv | rfl := (Table.mem_rows_insert hn).1 hv
    · exact h.2 v hv hk
    · exact h.1
  | @verifyRequest _ call _ _ ns _ hcl hvr =>
    refine NonceKept.nextPhase (s := { s with db := { s.db with requestNonces := ns } }) ?_ hcl
    cases hph : call.phase with
    | consumeNonce =>
      simp only [verifyRegisteredRequest, hph, Prod.mk.injEq] at hvr
      exact h.consumeNonce (spares_of_sparesNonces hok hcl hph).2
        (hsn call (Table.get?_eq_some.1 hcl).1).clock hvr.2.2
    | _ =>
      simp only [verifyRegisteredRequest, hph, Prod.mk.injEq] at hvr
      exact hfr rfl rfl (congrArg Database.requestNonces hvr.2.2).symm
  | verifyCreation _ hnw hvr =>
    unfold verifyAccountCreationRequest at hvr
    split at hvr
    · exact hfr rfl rfl (congrArg (fun p => p.2.requestNonces) hvr).symm
    · exact h.consumeNonce (of_decide_eq_true hok) hnw (congrArg Prod.snd hvr)
  | openStore _ hr =>
    obtain ⟨m, rfl⟩ := repairStorageAccounting_ok hr
    exact hfr rfl rfl rfl
  | createAccount =>
    obtain hdb | ⟨_, _, _, _, hdb⟩ := createAccount_snd _ _ <;> exact hfr rfl rfl (by rw [hdb])
  | createObjectInline _ _ _ _ hrs | createObjectPending _ _ _ _ _ hrs =>
    obtain ⟨_, _, _, _, _, _, _, _, _, _, _, _, rfl⟩ := reserveAccountUsage_ok hrs
    exact hfr rfl rfl rfl
  | rootCommitted _ _ _ _ _ hrp =>
    obtain ⟨_, _, _, _, _, _, _, _, _, rfl⟩ := replaceAccountRootUsage_ok hrp
    exact hfr rfl rfl rfl
  | gcAccount => exact hfr rfl rfl gcAccount_requestNonces
  | setAccountQuota =>
    obtain hdb | ⟨_, hdb⟩ := setAccountQuota_snd _ <;> exact hfr rfl rfl (by rw [hdb])
  | _ => exact hfr rfl rfl rfl

/-- The call returns `Ok` with its next section, the last one. -/
def Store.Accepts (P : Primitives) (cfg : StoreConfig) (s : Store) (call : VerifyCall) : Prop :=
  call.phase = .consumeNonce ∧ (verifyRegisteredRequest P cfg s.db s.limits call).1 = .ok ()

instance (P : Primitives) (cfg : StoreConfig) (s : Store) (call : VerifyCall) :
    Decidable (s.Accepts P cfg call) :=
  inferInstanceAs (Decidable (_ ∧ _ = _))

/-- An accepting call leaves its nonce on record. -/
theorem Store.Accepts.nonceKept (h : s.Accepts P cfg call)
    (hcl : s.verifications.get? callId = some call)
    (hst : s.step P cfg (.verifyRequest callId) = some s') :
    s'.NonceKept call.nonceKey (call.nowEpochMs + acsSignatureClockWindowMs) := by
  cases effect_of_step hst with
  | verifyRequest _ hcl' hvr =>
    obtain rfl := Option.some.inj (hcl.symm.trans hcl')
    obtain ⟨hph, hok⟩ := h
    simp only [verifyRegisteredRequest, hph, Prod.mk.injEq] at hok hvr
    have hlv := consumeNonce_ok hok
    rw [hvr.2.2] at hlv
    exact .inl hlv

/-- A call whose nonce is kept until then is not accepted. -/
theorem Store.NonceKept.not_accepts (h : s.NonceKept call.nonceKey es)
    (hcl : s.verifications.get? callId = some call) (hes : call.nowEpochMs ≤ es) :
    ¬ s.Accepts P cfg call := by
  rintro ⟨hph, hok⟩
  simp only [verifyRegisteredRequest, hph] at hok
  obtain hlv | ⟨-, hvs⟩ := h
  · exact consumeNonce_of_liveNonce hlv hes _ hok
  · have hlt := hvs call (Table.get?_eq_some.1 hcl).1 rfl
    omega

/-- A request that a call has accepted is accepted by no other call with the same authentication and
account, whatever the server does in between, if every nonce is consumed at a clock reading that the
timestamp is not ahead of and that purges no nonce of a call under way. -/
theorem accepted_request_not_replayed {callId' : Nat} {call' : VerifyCall}
    {before labels : List Label} (hreach : Run.exec (Store.step P cfg) .created before = some s)
    (hcall : s.verifications.get? callId = some call) (haccept : s.Accepts P cfg call)
    (hrun : Run.exec (Store.step P cfg) s (.verifyRequest callId :: labels) = some t)
    (hspares : Run.Steps (Store.step P cfg) (fun s label => s.sparesNonces label = true) s
      (.verifyRequest callId :: labels))
    (hcall' : t.verifications.get? callId' = some call')
    (hauth : call'.authentication = call.authentication)
    (haccount : call'.pathAccountLocator = call.pathAccountLocator) :
    ¬ t.Accepts P cfg call' := by
  intro hag
  have hsn : s.VerifySound := Run.exec_inv Store.VerifySound (fun hst h => h.step hst)
    (fun _ hv => absurd hv List.not_mem_nil) hreach
  obtain ⟨s', hst, hr⟩ := Run.exec_cons_eq_some.1 hrun
  obtain ⟨hok, hsp⟩ := (Run.steps_cons hst).1 hspares
  have hkp := Run.exec_inv_of_steps
    (fun u => u.VerifySound ∧ u.NonceKept call.nonceKey (call.nowEpochMs + acsSignatureClockWindowMs))
    (fun hst hok h => ⟨h.1.step hst, h.2.step h.1 hst hok⟩)
    ⟨hsn.step hst, haccept.nonceKept hcall hst⟩ hr hsp
  -- the copy's timestamp is in its window, which ends before the nonce expires
  have hwn := (hkp.1 call' (Table.get?_eq_some.1 hcall').1).window (by simp [hag.1])
  have hts := (Store.spares_of_sparesNonces hok hcall haccept.1).1
  rw [hauth] at hwn
  have hk : call'.nonceKey = call.nonceKey := by simp [VerifyCall.nonceKey, hauth, haccount]
  exact (hk ▸ hkp.2).not_accepts hcall' (by omega) hag

def signedRequest (timestamp nonce : String) : SignedRequest where
  headers name :=
    if name = acsAuthAlgorithmHeader then some "ed25519"
    else if name = acsAuthContractHeader then some acsContractId
    else if name = acsAuthAccountHeader then some "account-locator-of-32-characters"
    else if name = acsAuthKeyIdHeader then some "key-of-16-chars."
    else if name = acsAuthTimestampHeader then some timestamp
    else if name = acsAuthNonceHeader then some nonce
    else if name = acsAuthBodyHashHeader then some (hexBytes [1])
    else if name = acsAuthSignatureHeader then some (String.ofList (List.replicate 64 's'))
    else none
  method := .put
  path := "/cloud/v1/accounts/account-locator-of-32-characters/root"
  query := none
  body := [1]

/-- A request arrives and is verified up to its last section. -/
def verifyUpToNonce (callId : Nat) (timestamp nonce : String) : List Label :=
  .startRequest callId (signedRequest timestamp nonce) "account-locator-of-32-characters" true ::
    List.replicate 3 (.verifyRequest callId)

def firstRequest (timestamp : String) : List Label :=
  .createAccount "account-locator-of-32-characters" "key-of-16-chars." (List.replicate 32 7) ::
    verifyUpToNonce 1 timestamp "nonce-of-16-char"

/-- A request signed at time `0` is accepted; then a copy and another one are verified side by side. -/
def copyBesideOther (copyAt otherAt : Int) (otherTimestamp : String) : List Label :=
  [.verifyRequest 1, .tick copyAt] ++ verifyUpToNonce 2 "0" "nonce-of-16-char" ++
    [.tick otherAt] ++ verifyUpToNonce 3 otherTimestamp "another-16-char." ++ [.verifyRequest 3]

/-- A copy of an accepted request is verified beside another request, and refused. -/
theorem accepted_request_not_replayed_copyBesideOther :
    ∃ s t call call', Run.exec (Store.step .transparent .small) .created (firstRequest "0") = some s ∧
      s.verifications.get? 1 = some call ∧ s.Accepts .transparent .small call ∧
      Run.exec (Store.step .transparent .small) s (copyBesideOther 1000 2000 "1500") = some t ∧
      t.verifications.get? 2 = some call' ∧ call'.phase = .consumeNonce ∧
      ¬ t.Accepts .transparent .small call' := by
  have hch : (Run.exec (Store.step .transparent .small) .created (firstRequest "0")).any (fun s =>
      (s.verifications.get? 1).any fun call => decide (s.Accepts .transparent .small call) &&
        decide (Run.Steps (Store.step .transparent .small)
          (fun s label => s.sparesNonces label = true) s (copyBesideOther 1000 2000 "1500")) &&
        (Run.exec (Store.step .transparent .small) s (copyBesideOther 1000 2000 "1500")).any fun t =>
          (t.verifications.get? 2).any fun call' => decide (call'.phase = .consumeNonce ∧
            call'.authentication = call.authentication ∧
            call'.pathAccountLocator = call.pathAccountLocator)) = true := by decide +kernel
  obtain ⟨s, hreach, h⟩ := Run.exists_of_any hch
  obtain ⟨call, hcall, h⟩ := (Option.any_eq_true _ _).1 h
  simp only [Bool.and_eq_true, decide_eq_true_eq] at h
  obtain ⟨⟨haccept, hspares⟩, h⟩ := h
  obtain ⟨t, hrun, h⟩ := Run.exists_of_any h
  obtain ⟨call', hcall', h⟩ := (Option.any_eq_true _ _).1 h
  obtain ⟨hph, hauth, haccount⟩ := of_decide_eq_true h
  exact ⟨s, t, call, call', hreach, hcall, haccept, hrun, hcall', hph,
    accepted_request_not_replayed hreach hcall haccept hrun hspares hcall' hauth haccount⟩

/-- Whether a call is accepted after the given steps. -/
def acceptsAfter (labels : List Label) (callId : Nat) : Bool :=
  (Run.exec (Store.step .transparent .small) .created labels).any fun s =>
    (s.verifications.get? callId).any fun call => decide (s.Accepts .transparent .small call)

/-- A request signed one window ahead of the clock is accepted at once, and again as soon as its
nonce has expired. One that is not ahead is accepted again if another request purges the nonce while
the copy is verified. -/
theorem request_replayed :
    (acceptsAfter (firstRequest "300000") 1 = true ∧
      acceptsAfter (firstRequest "300000" ++ [.verifyRequest 1, .tick 300001] ++
        verifyUpToNonce 2 "300000" "nonce-of-16-char") 2 = true) ∧
    acceptsAfter (firstRequest "0") 1 = true ∧
      acceptsAfter (firstRequest "0" ++ copyBesideOther 300000 300001 "1") 2 = true := by
  decide +kernel

end Aerobag.Server
