import Aerobag.Server.Proofs.StoreProofs

/-!
# What a step of the server can do

`Store.Effect` lists the transitions of the server with the facts that hold when they are taken;
`effect_of_step` shows that there are no others. An invariant has one case for each.
-/

open Option

namespace Aerobag.Server

/-- What a step can do, with the conditions under which it does it. Invariants are proved by cases
on this. -/
inductive Store.Effect (P : Primitives) (cfg : StoreConfig) (s : Store) : Label → Store → Prop
  | tick {now : Int} (hclock : s.clock ≤ now) : Effect P cfg s (.tick now) { s with clock := now }
  | crash : Effect P cfg s .crash
      { s with
        calls := .empty, verifications := .empty, gc := none, limits := .default, process := .stopped }
  | openStore {db : Database} (hprocess : s.process = .stopped)
      (hrepair : repairStorageAccounting cfg s.db = .ok db) :
      Effect P cfg s .openStore { s with db, process := .opening (pendingRows db) none }
  | requestRejected {callId : Nat} {request : SignedRequest} {account : String} {write : Bool}
      (hprocess : s.process = .running) :
      Effect P cfg s (.startRequest callId request account write) s
  | requestStarted {callId : Nat} {request : SignedRequest} {account : String} {write : Bool}
      {authentication : AcsRequestAuthentication} (hprocess : s.process = .running)
      (hnew : s.verifications.get? callId = none) :
      Effect P cfg s (.startRequest callId request account write)
        { s with
          verifications := s.verifications.insert ⟨callId, request, account, write, s.clock,
            authentication, .accountAuthentication⟩ }
  | verifyRequest {callId : Nat} {call : VerifyCall} {result : StoreResult Unit}
      {limits : RuntimeLimits} {requestNonces : Table NonceRow.key}
      (hprocess : s.process = .running) (hcall : s.verifications.get? callId = some call)
      (hverify : verifyRegisteredRequest P cfg s.db s.limits call =
        (result, limits, { s.db with requestNonces })) :
      Effect P cfg s (.verifyRequest callId)
        { s with
          limits, db := { s.db with requestNonces }, verifications := s.nextPhase call result }
  | verifyCreation {signedRequest : SignedRequest} {request : AcsCreateAccountRequest} {now : Int}
      {result : StoreResult Bytes} {requestNonces : Table NonceRow.key}
      (hprocess : s.process = .running) (hnow : now ≤ s.clock)
      (hverify : verifyAccountCreationRequest P s.db signedRequest request now =
        (result, { s.db with requestNonces })) :
      Effect P cfg s (.verifyCreation signedRequest request now)
        { s with db := { s.db with requestNonces } }
  | createAccount {account keyId : String} {publicKey : Bytes} (hprocess : s.process = .running) :
      Effect P cfg s (.createAccount account keyId publicKey)
        { s with db := (Server.createAccount cfg s.db account keyId publicKey).2 }
  | createObjectRejected {callId : Nat} {account objectId : String} {value : AcsEncryptedValue}
      {now : Int} {free : Nat} (mode : AccountMode) (hprocess : s.process = .running) :
      Effect P cfg s (.createObject callId account objectId value now free)
        { s with db := Server.setServiceMode s.db mode }
  | createObjectInline {callId : Nat} {account objectId : String} {value : AcsEncryptedValue}
      {now : Int} {free : Nat} {object : PreparedObject} {reserved : Database}
      (hprocess : s.process = .running) (hobject : prepareObject P objectId value = .ok object)
      (hnew : s.db.objects.get? (account, objectId) = none)
      (hchildren : ensureChildrenExist s.db account object.childObjectIds = .ok ())
      (hreserve : reserveAccountUsage s.db account object.storageBytes
        cfg.globalStorageLimitBytes = .ok reserved) :
      Effect P cfg s (.createObject callId account objectId value now free)
        { s with
          db := { reserved with objects := reserved.objects.insert (object.row account .ready
            (.inlineCiphertext object.ciphertext) now) } }
  | createObjectPending {callId : Nat} {account objectId : String} {value : AcsEncryptedValue}
      {now : Int} {free : Nat} {object : PreparedObject} {reserved : Database} {key : String}
      (hprocess : s.process = .running) (hobject : prepareObject P objectId value = .ok object)
      (hcall : s.calls.get? callId = none)
      (hnew : s.db.objects.get? (account, objectId) = none)
      (hchildren : ensureChildrenExist s.db account object.childObjectIds = .ok ())
      (hreserve : reserveAccountUsage s.db account object.storageBytes
        cfg.globalStorageLimitBytes = .ok reserved)
      (hkey : key = blobStorageKey P account objectId object.ciphertextSha256) :
      Effect P cfg s (.createObject callId account objectId value now free)
        { s with
          db := { reserved with objects := reserved.objects.insert (object.row account .pending
            (.blobStorageKey key) now) }
          calls := s.calls.insert ⟨callId, account, objectId, object.ciphertext,
            object.storageBytes, key, .inserted⟩ }
  | blobWritten {callId : Nat} {call : CreateCall} {modified : Int} {files : BlobFiles}
      (hprocess : s.process = .running) (hcall : s.calls.get? callId = some call)
      (hphase : call.phase = .inserted)
      (hwrite : Server.writeBlob s.files call.blobStorageKey call.ciphertext modified = .ok files) :
      Effect P cfg s (.writeBlob callId (.completed modified))
        ({ s with files }.setPhase callId (some .written))
  | blobFailed {callId : Nat} {call : CreateCall} {io : BlobIo} {files : BlobFiles}
      (hprocess : s.process = .running) (hcall : s.calls.get? callId = some call)
      (hphase : call.phase = .inserted)
      (hfiles : files = s.files ∨ ∃ modified,
        Server.writeBlob s.files call.blobStorageKey call.ciphertext modified = .ok files) :
      Effect P cfg s (.writeBlob callId io) ({ s with files }.setPhase callId (some .failed))
  | markReady {callId : Nat} {call : CreateCall} (hprocess : s.process = .running)
      (hcall : s.calls.get? callId = some call) (hphase : call.phase = .written) :
      Effect P cfg s (.markReady callId)
        ({ s with db := Server.markReady s.db call.accountLocator call.objectId }.setPhase
          callId none)
  | removePending {callId : Nat} {call : CreateCall} (hprocess : s.process = .running)
      (hcall : s.calls.get? callId = some call) (hphase : call.phase = .failed) :
      Effect P cfg s (.removePending callId)
        ({ s with
          db := removePendingObject s.db call.accountLocator call.objectId call.storageBytes
          }.setPhase callId none)
  | abandonCall {callId : Nat} {call : CreateCall} (hprocess : s.process = .running)
      (hcall : s.calls.get? callId = some call) :
      Effect P cfg s (.abandonCall callId) (s.setPhase callId none)
  | rootRejected {account : String} {request : AcsCompareAndSwapRootRequest} {now : Int}
      {free : Nat} {egress : StoreResult Unit} (mode : AccountMode)
      (hprocess : s.process = .running) :
      Effect P cfg s (.compareAndSwapRoot account request now free egress)
        { s with db := Server.setServiceMode s.db mode }
  | rootCommitted {account : String} {request : AcsCompareAndSwapRootRequest} {now : Int}
      {free : Nat} {egress : StoreResult Unit} {root : PreparedRoot} {replaced : Database}
      (hprocess : s.process = .running) (hroot : prepareRoot P request.replacement = .ok root)
      (hrevision : request.expectedRevision =
        ((s.db.roots.get? account).map RootRow.revision).getD 0)
      (hhash : request.expectedRootHash = (s.db.roots.get? account).map RootRow.rootHash)
      (hchildren : ensureChildrenExist s.db account root.childObjectIds = .ok ())
      (hreplace : replaceAccountRootUsage s.db account
        (((s.db.roots.get? account).map RootRow.storageBytes).getD 0) root.storageBytes
        cfg.globalStorageLimitBytes = .ok replaced) :
      Effect P cfg s (.compareAndSwapRoot account request now free egress)
        { s with
          db := writeRoot cfg replaced account
            (root.row account (request.expectedRevision + 1) now) }
  | startGc {now grace : Int} (hprocess : s.process = .running) (hgc : s.gc = none) :
      Effect P cfg s (.startGc now grace) { s with gc := some (Server.startGc s.db now grace) }
  | gcAccount {listed : List String} {cutoff : Int} {account : String}
      {remaining blobKeys : List String} (hprocess : s.process = .running)
      (hgc : s.gc = some (.accounts cutoff (account :: remaining) blobKeys)) :
      Effect P cfg s (.gcStep listed)
        { s with
          db := (Server.gcAccount s.db account cutoff).1
          gc := some (.accounts cutoff remaining
            (blobKeys ++ (Server.gcAccount s.db account cutoff).2)) }
  | gcReferenced {listed : List String} {cutoff : Int} {blobKeys : List String}
      (hprocess : s.process = .running) (hgc : s.gc = some (.accounts cutoff [] blobKeys)) :
      Effect P cfg s (.gcStep listed)
        { s with gc := some (.blobKeys cutoff (referencedBlobKeys s.db) blobKeys) }
  | gcUnlink {listed : List String} {cutoff : Int} {referenced remaining : List String}
      {key : String} (hprocess : s.process = .running)
      (hgc : s.gc = some (.blobKeys cutoff referenced (key :: remaining))) :
      Effect P cfg s (.gcStep listed)
        { s with
          files := removeFileIfPresent s.files key
          gc := some (.blobKeys cutoff referenced remaining) }
  | gcList {listed : List String} {cutoff : Int} {referenced : List String}
      (hprocess : s.process = .running) (hgc : s.gc = some (.blobKeys cutoff referenced [])) :
      Effect P cfg s (.gcStep listed) { s with gc := some (.files cutoff referenced listed) }
  | gcKeep {listed : List String} {cutoff : Int} {referenced remaining : List String}
      {key : String} (hprocess : s.process = .running)
      (hgc : s.gc = some (.files cutoff referenced (key :: remaining))) :
      Effect P cfg s (.gcStep listed) { s with gc := some (.files cutoff referenced remaining) }
  | gcSweep {listed : List String} {cutoff : Int} {referenced remaining : List String}
      {key : String} (hprocess : s.process = .running)
      (hgc : s.gc = some (.files cutoff referenced (key :: remaining)))
      (hsweep : sweepKeeps cutoff referenced s.files key = false) :
      Effect P cfg s (.gcStep listed)
        { s with
          files := removeFileIfPresent s.files key
          gc := some (.files cutoff referenced remaining) }
  | gcDone {listed : List String} (hprocess : s.process = .running) :
      Effect P cfg s (.gcStep listed) { s with gc := none }
  | gcAbort (hprocess : s.process = .running) : Effect P cfg s .gcAbort { s with gc := none }
  | setServiceMode {mode : AccountMode} (hprocess : s.process = .running) :
      Effect P cfg s (.setServiceMode mode) { s with db := Server.setServiceMode s.db mode }
  | setAccountMode {account : String} {mode : AccountMode} (hprocess : s.process = .running) :
      Effect P cfg s (.setAccountMode account mode)
        { s with db := Server.setAccountMode s.db account mode }
  | setAccountQuota {account : String} {quota : Nat} (hprocess : s.process = .running) :
      Effect P cfg s (.setAccountQuota account quota)
        { s with db := (Server.setAccountQuota s.db account quota).2 }
  | deleteAccount {account : String} (hprocess : s.process = .running) :
      Effect P cfg s (.deleteAccount account) { s with db := Server.deleteAccount s.db account }
  | reconcileReady {readable : Bool} {row : ObjectRow} {remaining : List ObjectRow}
      (hprocess : s.process = .opening (row :: remaining) none)
      (hvalid : pendingBlobValid P s.files row = true) :
      Effect P cfg s (.reconcile readable)
        { s with
          db := Server.markReady s.db row.accountLocator row.objectId
          process := .opening remaining none }
  | reconcileDelete {readable : Bool} {row : ObjectRow} {remaining : List ObjectRow}
      (hprocess : s.process = .opening (row :: remaining) none) :
      Effect P cfg s (.reconcile readable)
        { s with
          db := deletePending s.db row.accountLocator row.objectId
          process := .opening remaining (some row) }
  | reconcileRelease {row : ObjectRow} {remaining : List ObjectRow}
      (hprocess : s.process = .opening remaining (some row)) :
      Effect P cfg s .reconcileRelease
        { s with
          db := s.db.adjustUsage row.accountLocator (· - row.storageBytes) (· - 1)
          process := .opening remaining none }
  | opened (hprocess : s.process = .opening [] none) :
      Effect P cfg s .opened { s with process := .running }

namespace Store

variable {P : Primitives} {cfg : StoreConfig} {s s' : Store} {c : CreateCall} {cid : Nat}

theorem callIn_eq_some {p : CreatePhase} :
    s.callIn cid p = some c ↔ s.calls.get? cid = some c ∧ c.phase = p := by
  simp [callIn]

theorem consumeNonce_snd (db : Database) (a k n : String) (es now : Int) :
    ∃ ns, (consumeNonce db a k n es now).2 = { db with requestNonces := ns } := by
  unfold consumeNonce
  simp only
  split <;> exact ⟨_, rfl⟩

/-- One locked section of a verification. -/
private theorem effect_of_verifyRequest {v : VerifyCall} (hpr : s.process = .running)
    (hcl : s.verifications.get? cid = some v) {res : StoreResult Unit} {ls : RuntimeLimits}
    {db : Database} (hv : verifyRegisteredRequest P cfg s.db s.limits v = (res, ls, db)) :
    Effect P cfg s (.verifyRequest cid)
      { s with limits := ls, db, verifications := s.nextPhase v res } := by
  have hfr : ∃ ns, db = { s.db with requestNonces := ns } := by
    obtain rfl : _ = db := congrArg (fun p => p.2.2) hv
    unfold verifyRegisteredRequest
    cases v.phase with
    | consumeNonce => exact consumeNonce_snd _ _ _ _ _ _
    | _ => exact ⟨_, rfl⟩
  obtain ⟨ns, rfl⟩ := hfr
  exact .verifyRequest hpr hcl hv

private theorem effect_of_verifyCreation {sr : SignedRequest} {req : AcsCreateAccountRequest}
    {now : Int} (hpr : s.process = .running) (hnw : now ≤ s.clock) :
    Effect P cfg s (.verifyCreation sr req now)
      { s with db := (verifyAccountCreationRequest P s.db sr req now).2 } := by
  obtain ⟨ns, hdb⟩ : ∃ ns, (verifyAccountCreationRequest P s.db sr req now).2 =
      { s.db with requestNonces := ns } := by
    unfold verifyAccountCreationRequest
    split
    · exact ⟨_, rfl⟩
    · exact consumeNonce_snd _ _ _ _ _ _
  rw [hdb]
  exact .verifyCreation hpr hnw (Prod.ext rfl hdb)

/-- The first transaction of a creation. -/
private theorem effect_of_createObject {a oid : String}
    {v : AcsEncryptedValue} {now : Int} {f : Nat} (hpr : s.process = .running)
    (hcl : s.calls.get? cid = none) : Effect P cfg s (.createObject cid a oid v now f)
      (s.createObject P cfg cid a oid v now f).2 := by
  unfold createObject
  split
  · next e db hfr =>
    obtain ⟨m, hmd⟩ := @ensureNewStorageWrite_snd cfg s.db f
    rw [hfr] at hmd
    obtain rfl : db = _ := hmd
    exact .createObjectRejected m hpr
  · next db hfr =>
    obtain rfl := ensureNewStorageWrite_ok hfr
    split
    · exact .createObjectRejected s.db.serviceMode hpr
    · next obj ho =>
      obtain ⟨-, rfl, -⟩ := prepareObject_ok ho
      split
      · next key db htx =>
        obtain ⟨-, hne⟩ | ⟨r, hn, hkd, hrs, h⟩ := createObjectTransaction_cases htx
        · exact absurd rfl (hne key)
        · obtain ⟨h, -⟩ | ⟨key', hk, h, rfl⟩ := h
          · simp at h
          · obtain rfl : key = key' := by simpa using h
            exact .createObjectPending hpr ho hcl hn hkd hrs hk
      · next res db hpn htx =>
        obtain ⟨⟨m, rfl⟩, -⟩ | ⟨r, hn, hkd, hrs, h⟩ := createObjectTransaction_cases htx
        · exact .createObjectRejected m hpr
        · obtain ⟨-, rfl⟩ | ⟨key, -, rfl, -⟩ := h
          · exact .createObjectInline hpr ho hn hkd hrs
          · exact absurd rfl (hpn key)

/-- The write of a blob, which may fail before or after it has taken place. -/
private theorem effect_of_writeBlob {ci : Nat} {io : BlobIo}
    (hpr : s.process = .running) (hcl : s.callIn ci .inserted = some c) :
    Effect P cfg s (.writeBlob ci io) (s.writeBlob c io) := by
  obtain ⟨hcl, hph⟩ := callIn_eq_some.1 hcl
  obtain rfl : c.callId = ci := (Table.get?_eq_some.1 hcl).2
  cases io with
  | failedBefore => exact .blobFailed hpr hcl hph (.inl rfl)
  | completed m =>
    simp only [writeBlob]
    split
    · next fs hwr => exact .blobWritten hpr hcl hph hwr
    · exact .blobFailed hpr hcl hph (.inl rfl)
  | failedAfter m =>
    simp only [writeBlob]
    split
    · next fs hwr => exact .blobFailed hpr hcl hph (.inr ⟨m, hwr⟩)
    · exact .blobFailed hpr hcl hph (.inl rfl)

/-- One step of a collection. -/
private theorem effect_of_gcStep {l : List String} {run : GcRun}
    (hpr : s.process = .running) (hgc : s.gc = some run) : Effect P cfg s (.gcStep l) { s with
        db := (Server.gcStep s.db s.files l run).1
        files := (Server.gcStep s.db s.files l run).2.1
        gc := (Server.gcStep s.db s.files l run).2.2 } := by
  match run, hgc with
  | .accounts cutoff (a :: remaining) blobKeys, hgc => exact .gcAccount hpr hgc
  | .accounts cutoff [] blobKeys, hgc => exact .gcReferenced hpr hgc
  | .blobKeys cutoff referenced (key :: remaining), hgc => exact .gcUnlink hpr hgc
  | .blobKeys cutoff referenced [], hgc => exact .gcList hpr hgc
  | .files cutoff referenced (key :: remaining), hgc =>
    simp only [Server.gcStep]
    split
    · exact .gcKeep hpr hgc
    · next hsw => exact .gcSweep hpr hgc (by simpa using hsw)
  | .files cutoff referenced [], hgc => exact .gcDone hpr

variable {l : Label}

/-- The steps of a running process. -/
private theorem effect_of_runningStep (hpr : s.process = .running)
    (h : s.runningStep P cfg l = some s') : Effect P cfg s l s' := by
  cases l with
  | startRequest cid req a w =>
    simp only [runningStep, startRequest] at h
    split at h
    · simp at h
    · next hn =>
      split at h
      · exact some.inj h ▸ .requestRejected hpr
      · exact some.inj h ▸ .requestStarted hpr (by simpa using hn)
  | verifyRequest cid =>
    obtain ⟨v, hcl, rfl⟩ := map_eq_some_iff.1 h
    exact effect_of_verifyRequest hpr hcl rfl
  | verifyCreation sr req now =>
    simp only [runningStep] at h
    split at h
    · next hnw => exact some.inj h ▸ effect_of_verifyCreation hpr hnw
    · simp at h
  | createAccount a k pk => exact some.inj h ▸ .createAccount hpr
  | createObject cid a oid v now f =>
    simp only [runningStep] at h
    split at h
    · simp at h
    · next hcl => exact some.inj h ▸ effect_of_createObject hpr (by simpa using hcl)
  | writeBlob cid io =>
    obtain ⟨c, hcl, rfl⟩ := map_eq_some_iff.1 h
    exact effect_of_writeBlob hpr hcl
  | markReady cid =>
    obtain ⟨c, hcl, rfl⟩ := map_eq_some_iff.1 h
    obtain ⟨hcl, hph⟩ := callIn_eq_some.1 hcl
    exact .markReady hpr hcl hph
  | removePending cid =>
    obtain ⟨c, hcl, rfl⟩ := map_eq_some_iff.1 h
    obtain ⟨hcl, hph⟩ := callIn_eq_some.1 hcl
    exact .removePending hpr hcl hph
  | abandonCall cid =>
    obtain ⟨c, hcl, rfl⟩ := map_eq_some_iff.1 h
    exact .abandonCall hpr hcl
  | compareAndSwapRoot a req now f e =>
    obtain rfl := some.inj h
    cases hcs : Server.compareAndSwapRoot P cfg s.db a req now f e with
    | mk res db =>
      obtain ⟨⟨m, rfl⟩, -⟩ | ⟨rt, r, _, hrt, hr, hha, hkd, hrp,
        rfl, -⟩ := compareAndSwapRoot_cases hcs
      · exact .rootRejected m hpr
      · exact .rootCommitted hpr hrt hr hha hkd hrp
  | startGc now g =>
    simp only [runningStep] at h
    split at h
    · simp at h
    · next hgc => exact some.inj h ▸ .startGc hpr (by simpa using hgc)
  | gcStep ls =>
    obtain ⟨run, hgc, rfl⟩ := map_eq_some_iff.1 h
    exact effect_of_gcStep hpr hgc
  | gcAbort =>
    obtain ⟨run, -, rfl⟩ := map_eq_some_iff.1 h
    exact .gcAbort hpr
  | setServiceMode m => exact some.inj h ▸ .setServiceMode hpr
  | setAccountMode a m => exact some.inj h ▸ .setAccountMode hpr
  | setAccountQuota a q => exact some.inj h ▸ .setAccountQuota hpr
  | deleteAccount a => exact some.inj h ▸ .deleteAccount hpr
  | tick _ | crash | openStore | reconcile _ | reconcileRelease | opened => simp [runningStep] at h

/-- The steps of `open` while it settles the pending rows. -/
private theorem effect_of_openingStep {rem : List ObjectRow}
    {o : Option ObjectRow} (hpr : s.process = .opening rem o)
    (h : s.openingStep P rem o l = some s') : Effect P cfg s l s' := by
  cases l with
  | reconcile r =>
    simp only [openingStep] at h
    split at h
    · split at h
      · next hv =>
        rw [Bool.and_eq_true] at hv
        exact some.inj h ▸ .reconcileReady hpr hv.2
      · exact some.inj h ▸ .reconcileDelete hpr
    · simp at h
  | reconcileRelease =>
    obtain ⟨row, rfl, rfl⟩ := map_eq_some_iff.1 h
    exact .reconcileRelease hpr
  | opened =>
    simp only [openingStep] at h
    split at h
    · next hdn =>
      obtain ⟨rfl, rfl⟩ := hdn
      exact some.inj h ▸ .opened hpr
    · simp at h
  | _ => simp [openingStep] at h

/-- Every step has one of the effects. -/
theorem effect_of_step (h : s.step P cfg l = some s') : Effect P cfg s l s' := by
  unfold step at h
  split at h
  · split at h
    · next hcl => exact some.inj h ▸ .tick hcl
    · simp at h
  · exact some.inj h ▸ .crash
  · split at h
    · next hpr hrp => exact some.inj h ▸ .openStore hpr hrp
    · simp at h
  · split at h
    · next hpr => exact effect_of_runningStep hpr h
    · next hpr => exact effect_of_openingStep hpr h
    · simp at h

end Store

end Aerobag.Server
