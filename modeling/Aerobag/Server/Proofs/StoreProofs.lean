import Aerobag.Server.System

/-!
# What the store's functions do

One lemma for each function of the store: what a call that succeeds has checked and what it commits.
Proofs about runs never unfold the functions.
-/

open List Except

namespace Aerobag.Server

variable {P : Primitives} {cfg : StoreConfig} {db db' : Database} {al oid : String}
  {vl : AcsEncryptedValue} {n : Nat} {row : ObjectRow} {co : Int}

theorem readU64_eq_ok {c : Int} : readU64 c = .ok n ↔ c = n := by
  unfold readU64
  split
  · simp; omega
  · simp; omega

theorem bindU64_eq_ok {v : Nat} : bindU64 v = .ok n ↔ v = n ∧ n ≤ i64Max := by
  unfold bindU64
  split
  · simp; omega
  · simp; omega

theorem sumStoredBytes_eq_ok :
    sumStoredBytes db = .ok n ↔ db.accounts.total AccountRow.storedBytes = n ∧ n ≤ i64Max := by
  simp only [sumStoredBytes]
  split
  · simp; omega
  · simp only [readU64_eq_ok]; omega

theorem satAdd_le {a b : Nat} (h : satAdd a b ≤ n) (hn : n ≤ i64Max) : a + b ≤ n := by
  have : i64Max < u64Max := by decide
  unfold satAdd at h
  omega

theorem satAdd_eq {a b : Nat} (ha : a ≤ i64Max) (hb : b ≤ i64Max) : satAdd a b = a + b := by
  have : i64Max + i64Max < u64Max := by decide
  unfold satAdd
  omega

@[simp] theorem setServiceMode_self : setServiceMode db db.serviceMode = db := rfl

/-- Only the service mode is changed. -/
theorem ensureNewStorageWrite_snd (f : Nat) :
    ∃ m, (ensureNewStorageWrite cfg db f).2 = setServiceMode db m := by
  unfold ensureNewStorageWrite
  split
  · exact ⟨_, setServiceMode_self.symm⟩
  · split
    · exact ⟨_, setServiceMode_self.symm⟩
    · exact ⟨_, rfl⟩

theorem ensureNewStorageWrite_ok {f : Nat} (h : ensureNewStorageWrite cfg db f = (.ok (), db')) :
    db' = db := by
  unfold ensureNewStorageWrite at h
  split at h
  · simp at h
  · split at h <;> simp at h
    exact h.symm

theorem afterUsageError_eq (e : StoreError) : ∃ m, afterUsageError db e = setServiceMode db m := by
  unfold afterUsageError
  split
  · exact ⟨_, rfl⟩
  · exact ⟨_, setServiceMode_self.symm⟩

/-- A reservation that succeeds is within the limits of the account and of the server. -/
theorem reserveAccountUsage_ok {bs l : Nat} (h : reserveAccountUsage db al bs l = .ok db') :
    ∃ a, ∃ s count g : Nat, db.accounts.get? al = some a ∧ a.storedBytes = s ∧
      a.objectCount = count ∧ satAdd s bs ≤ a.quotaBytes ∧ satAdd count 1 ≤ a.objectLimit ∧
      db.accounts.total AccountRow.storedBytes = g ∧ g ≤ i64Max ∧
      satAdd g bs ≤ l ∧ db' = db.adjustUsage al (· + bs) (· + 1) := by
  unfold reserveAccountUsage at h
  split at h
  · simp at h
  · next a hg =>
    simp only [bind_eq_ok, pure_eq_ok, rejectIf_eq_ok, readU64_eq_ok, sumStoredBytes_eq_ok] at h
    obtain ⟨s, hso, count, hc, _, hq, g, ⟨hgl, hm⟩, _, hlm, rfl⟩ := h
    rw [not_or, not_lt, not_lt] at hq
    exact ⟨a, s, count, g, hg, hso, hc, hq.1, hq.2, hgl, hm, not_lt.1 hlm, rfl⟩

/-- The same for a root, which replaces another one. -/
theorem replaceAccountRootUsage_ok {p rp l : Nat}
    (h : replaceAccountRootUsage db al p rp l = .ok db') :
    ∃ a, ∃ s g : Nat, db.accounts.get? al = some a ∧ a.storedBytes = s ∧
      satAdd (s - p) rp ≤ a.quotaBytes ∧ db.accounts.total AccountRow.storedBytes = g ∧ g ≤ i64Max ∧
      satAdd (g - p) rp ≤ l ∧ db' = db.adjustUsage al (fun _ => (satAdd (s - p) rp : Nat)) id := by
  unfold replaceAccountRootUsage at h
  split at h
  · simp at h
  · next a hg =>
    simp only [bind_eq_ok, pure_eq_ok, rejectIf_eq_ok, readU64_eq_ok, sumStoredBytes_eq_ok] at h
    obtain ⟨s, hso, _, hq, g, ⟨hgl, hm⟩, _, hlm, rfl⟩ := h
    exact ⟨a, s, g, hg, hso, not_lt.1 hq, hgl, hm, not_lt.1 hlm, rfl⟩

/-- All children are ready objects of the account. -/
theorem ensureChildrenExist_ok {cs : List String}
    (h : ensureChildrenExist db al cs = .ok ()) {c : String} (hch : c ∈ cs) :
    ∃ row, db.objects.get? (al, c) = some row ∧ row.state = .ready := by
  simp only [ensureChildrenExist, bind_eq_ok] at h
  obtain ⟨_, _, h⟩ := h
  have hes := forM_eq_ok.1 h c hch
  split at hes
  · next hm =>
    simp only [contains_eq_mem, decide_eq_true_eq, List.mem_map, mem_filter, Bool.and_eq_true] at hm
    obtain ⟨row, ⟨hro, ha, hr⟩, hid⟩ := hm
    exact ⟨row, Table.get?_eq_some.2 ⟨hro, by simp [ObjectRow.key, ha, hid]⟩, hr⟩
  · simp at hes

theorem prepareObject_ok {obj : PreparedObject} (h : prepareObject P oid vl = .ok obj) :
    validateOpaqueId oid "object ID" = .ok () ∧
    obj.objectId = oid ∧ obj.childObjectIds = vl.childObjectIds ∧
    vl.ciphertext P = .ok obj.ciphertext ∧ P.sha256Hex obj.ciphertext = obj.ciphertextSha256 ∧
    obj.storageBytes = objectStorageBytes oid obj.ciphertext.length
      (childrenJson obj.childObjectIds) := by
  simp only [prepareObject, invalidRequest, AcsEncryptedValue.validate, bind_eq_ok,
    pure_eq_ok, mapError_eq_ok, rejectIf_eq_ok, not_not] at h
  obtain ⟨_, ⟨_, _, bs, hb, hha⟩, _, hid, ct, hcp, _, _, rfl⟩ := h
  obtain rfl : bs = ct := Except.ok.inj (hb.symm.trans hcp)
  exact ⟨hid, rfl, rfl, hcp, hha, rfl⟩

/-- The transaction of `create_object` changes at most the mode of the service, or it reserves the
object's usage and inserts its row. -/
theorem createObjectTransaction_cases {obj : PreparedObject} {now : Int}
    {res : StoreResult CreateObjectProgress}
    (h : createObjectTransaction P cfg db al obj now = (res, db')) :
    ((∃ m, db' = setServiceMode db m) ∧ ∀ key, res ≠ .ok (.pending key)) ∨
    ∃ r, db.objects.get? (al, obj.objectId) = none ∧
      ensureChildrenExist db al obj.childObjectIds = .ok () ∧
      reserveAccountUsage db al obj.storageBytes cfg.globalStorageLimitBytes = .ok r ∧
      ((res = .ok (.done .created) ∧ db' = { r with objects := r.objects.insert (obj.row al .ready
            (.inlineCiphertext obj.ciphertext) now) }) ∨
      ∃ key, key = blobStorageKey P al obj.objectId obj.ciphertextSha256 ∧
        res = .ok (.pending key) ∧ db' = { r with
          objects := r.objects.insert (obj.row al .pending (.blobStorageKey key) now) }) := by
  unfold createObjectTransaction at h
  have hsm : ∃ m, db = setServiceMode db m := ⟨_, setServiceMode_self.symm⟩
  split at h
  · obtain ⟨rfl, rfl⟩ := Prod.mk.inj h
    exact .inl ⟨hsm, by simp⟩
  · split at h
    · split at h <;> obtain ⟨rfl, rfl⟩ := Prod.mk.inj h <;> exact .inl ⟨hsm, by simp⟩
    · next hn =>
      split at h
      · obtain ⟨rfl, rfl⟩ := Prod.mk.inj h
        exact .inl ⟨hsm, by simp⟩
      · next hkd =>
        split at h
        · next e _ =>
          obtain ⟨rfl, rfl⟩ := Prod.mk.inj h
          exact .inl ⟨afterUsageError_eq e, by simp⟩
        · next r hrs =>
          refine .inr ⟨r, hn, hkd, hrs, ?_⟩
          split at h
          · obtain ⟨rfl, rfl⟩ := Prod.mk.inj h
            exact .inl ⟨rfl, rfl⟩
          · obtain ⟨rfl, rfl⟩ := Prod.mk.inj h
            exact .inr ⟨_, rfl, rfl, rfl⟩

/-- The rows after `markReady`. -/
theorem mem_markReady : row ∈ (markReady db al oid).objects.rows ↔
      (row ∈ db.objects.rows ∧ ¬ (row.key = (al, oid) ∧ row.state = .pending)) ∨
      ∃ old ∈ db.objects.rows, old.key = (al, oid) ∧ old.state = .pending ∧
        row = old.madeReady := by
  simp only [markReady, Table.mem_rows_updateWhere, Bool.and_eq_true, decide_eq_true_eq]
  constructor
  · rintro ⟨old, hl, rfl⟩
    by_cases h : old.key = (al, oid) ∧ old.state = .pending
    · exact .inr ⟨old, hl, h.1, h.2, if_pos h⟩
    · rw [if_neg h]
      exact .inl ⟨hl, h⟩
  · rintro (⟨hr, h⟩ | ⟨old, hl, hk, hst, rfl⟩)
    · exact ⟨row, hr, if_neg h⟩
    · exact ⟨old, hl, if_pos ⟨hk, hst⟩⟩

theorem mem_deletePending : row ∈ (deletePending db al oid).objects.rows ↔
      row ∈ db.objects.rows ∧ ¬ (row.key = (al, oid) ∧ row.state = .pending) := by
  simp only [deletePending, Table.mem_rows_deleteWhere, Bool.and_eq_false_iff, decide_eq_false_iff_not]
  tauto

theorem prepareRoot_ok {r : PreparedRoot} (h : prepareRoot P vl = .ok r) :
    r.childObjectIds = vl.childObjectIds ∧
    vl.authenticatedHash P .root acsFixedRootId = .ok r.rootHash ∧
    r.storageBytes = rootStorageBytes r.ciphertext.length (childrenJson r.childObjectIds) := by
  simp only [prepareRoot, invalidRequest, bind_eq_ok, pure_eq_ok, mapError_eq_ok] at h
  obtain ⟨_, _, hs, hha, ct, _, rfl⟩ := h
  exact ⟨rfl, hha, rfl⟩

/-- `compare_and_swap_root` changes at most the mode of the service, or it replaces the root the
caller expected. -/
theorem compareAndSwapRoot_cases {req : AcsCompareAndSwapRootRequest} {now : Int} {f : Nat}
    {eg : StoreResult Unit} {res : StoreResult AcsCompareAndSwapRootResponse}
    (h : compareAndSwapRoot P cfg db al req now f eg = (res, db')) :
    ((∃ m, db' = setServiceMode db m) ∧ ∀ r, res ≠ .ok (.committed r)) ∨
    ∃ r rd c, prepareRoot P req.replacement = .ok r ∧
      req.expectedRevision = ((db.roots.get? al).map RootRow.revision).getD 0 ∧
      req.expectedRootHash = (db.roots.get? al).map RootRow.rootHash ∧
      ensureChildrenExist db al r.childObjectIds = .ok () ∧ replaceAccountRootUsage db al
        (((db.roots.get? al).map RootRow.storageBytes).getD 0) r.storageBytes
        cfg.globalStorageLimitBytes = .ok rd ∧ db' = writeRoot cfg rd al
        (r.row al (req.expectedRevision + 1) now) ∧
      res = .ok (.committed c) ∧ readRootRow P db' al = some c := by
  unfold compareAndSwapRoot at h
  split at h
  · next e db₁ hfr =>
    obtain ⟨rfl, rfl⟩ := Prod.mk.inj h
    have hmd := @ensureNewStorageWrite_snd cfg db f
    rw [hfr] at hmd
    exact .inl ⟨hmd, by simp⟩
  · next db₁ hfr =>
    obtain rfl := ensureNewStorageWrite_ok hfr
    have hsm : ∃ m, db₁ = setServiceMode db₁ m := ⟨_, setServiceMode_self.symm⟩
    have hout {e} (h : (.error e, db₁) = (res, db')) :
        (∃ m, db' = setServiceMode db₁ m) ∧ ∀ r, res ≠ .ok (.committed r) := by
      obtain ⟨rfl, rfl⟩ := Prod.mk.inj h
      exact ⟨hsm, by simp⟩
    split at h
    · exact .inl (hout h)
    · next r hrt =>
      unfold compareAndSwapRootTransaction at h
      split at h
      · exact .inl (hout h)
      · simp only at h
        split at h
        · obtain ⟨rfl, rfl⟩ := Prod.mk.inj h
          refine .inl ⟨hsm, fun r => ?_⟩
          cases eg <;> simp [Except.map]
        · next he =>
          rw [not_or, not_not, not_not] at he
          split at h
          · exact .inl (hout h)
          · next hkd =>
            split at h
            · next e _ =>
              obtain ⟨rfl, rfl⟩ := Prod.mk.inj h
              exact .inl ⟨afterUsageError_eq e, by simp⟩
            · next rd hrp =>
              rw [← he.1] at h
              split at h
              · exact .inl (hout h)
              · next c hcm =>
                split at h
                · exact .inl (hout h)
                · obtain ⟨rfl, rfl⟩ := Prod.mk.inj h
                  exact .inr ⟨r, rd, c, hrt, he.1, he.2, hkd, hrp, rfl, rfl, hcm⟩

/-- `create_account` registers a new account with nothing stored, or changes nothing. -/
theorem createAccount_snd (k : String) (pk : Bytes) : (createAccount cfg db al k pk).2 = db ∨
    ∃ q ol, q ≤ i64Max ∧ db.accounts.get? al = none ∧ (createAccount cfg db al k pk).2 = { db with
        accounts := db.accounts.insert ⟨al, k, pk, .normal, q, ol, 0, 0, 0⟩ } := by
  unfold createAccount
  split
  · exact .inl rfl
  · split
    · split <;> exact .inl rfl
    · next h =>
      split
      · next q ol hq _ =>
        obtain ⟨rfl, hm⟩ := bindU64_eq_ok.1 hq
        exact .inr ⟨_, ol, hm, h, rfl⟩
      · exact .inl rfl
      · exact .inl rfl

theorem setAccountQuota_snd (q : Nat) : (setAccountQuota db al q).2 = db ∨ q ≤ i64Max ∧
    (setAccountQuota db al q).2 = { db with
      accounts := db.accounts.updateWhere (fun a => a.accountLocator = al && decide (a.storedBytes ≤ q))
        (fun a => { a with quotaBytes := q }) fun _ => rfl } := by
  unfold setAccountQuota
  split
  · exact .inl rfl
  · next hq =>
    obtain ⟨rfl, hm⟩ := bindU64_eq_ok.1 hq
    split
    · exact .inr ⟨hm, rfl⟩
    · exact .inl rfl

theorem repairStorageAccounting_ok (h : repairStorageAccounting cfg db = .ok db') :
    ∃ m, db' = setServiceMode { db with
      accounts := db.accounts.updateWhere (fun _ => true)
        (fun a => { a with storedBytes := accountUsage db a.accountLocator }) fun _ => rfl } m := by
  simp only [repairStorageAccounting] at h
  repeat' split at h
  all_goals first | (simp at h; done) | skip
  · exact ⟨_, (Except.ok.inj h).symm⟩
  · exact ⟨_, (Except.ok.inj h).symm⟩

theorem foldl_gcDeleteRow_objects (d : List ObjectRow) (db : Database) (row : ObjectRow) :
    row ∈ (d.foldl gcDeleteRow db).objects.rows ↔
      row ∈ db.objects.rows ∧ ∀ o ∈ d, row.key ≠ o.key := by
  induction d generalizing db with
  | nil => simp
  | cons o d ih =>
    rw [foldl_cons, ih, forall_mem_cons, ← and_assoc]
    simp [gcDeleteRow, releaseAccountUsage, Database.adjustUsage]

/-- A collection keeps the rows that are not to be deleted. -/
theorem mem_gcAccount_objects : row ∈ (gcAccount db al co).1.objects.rows ↔
      row ∈ db.objects.rows ∧ gcDeletes db al co row = false := by
  simp only [gcAccount, foldl_gcDeleteRow_objects, mem_filter]
  refine and_congr_right fun hr => ⟨fun h => ?_, fun h o ho hk => ?_⟩
  · by_contra hdl
    exact h row ⟨hr, by simpa using hdl⟩ rfl
  · rw [Table.eq_of_key_eq hr ho.1 hk] at h
    simp [h] at ho

theorem foldl_gcDeleteRow_frame (d : List ObjectRow) (db : Database) :
    (d.foldl gcDeleteRow db).roots = db.roots ∧
    (d.foldl gcDeleteRow db).requestNonces = db.requestNonces ∧
    (d.foldl gcDeleteRow db).rootEvents = db.rootEvents := by
  induction d generalizing db with
  | nil => simp
  | cons o d ih => exact ih (gcDeleteRow db o)

@[simp] theorem gcAccount_roots : (gcAccount db al co).1.roots = db.roots :=
  (foldl_gcDeleteRow_frame _ db).1

@[simp] theorem gcAccount_requestNonces : (gcAccount db al co).1.requestNonces = db.requestNonces :=
  (foldl_gcDeleteRow_frame _ db).2.1

end Aerobag.Server
