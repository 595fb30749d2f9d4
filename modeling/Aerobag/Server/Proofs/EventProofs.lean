import Aerobag.Lib.Numbered
import Aerobag.Server.Events
import Aerobag.Server.Proofs.SystemProofs

/-!
# The history of an account's root

The committed roots of an account form a log. `Logged`: the root is its last entry, revision and
event sequence are its length, and the retained events are its last entries.
-/

open List Option

namespace Aerobag.Server

variable {P : Primitives} {cfg : StoreConfig} {db db' : Database} {acc : String} {log : List String}
  {s s' : Store} {l : Label}

/-- The events of a log of root hashes: revisions and sequences both count the entries. -/
def logEvents (account : String) (log : List String) : List RootEventRow :=
  (log.zipIdx 1).map fun entry => ⟨account, entry.2, entry.2, entry.1⟩

theorem numbered_logEvents (a : String) (log : List String) :
    Numbered.From RootEventRow.sequence 1 (logEvents a log) := by
  unfold logEvents
  generalize 1 = first
  induction log generalizing first with
  | nil => trivial
  | cons h log ih => exact ⟨rfl, ih (first + 1)⟩

@[simp] theorem length_logEvents : (logEvents acc log).length = log.length := by simp [logEvents]

theorem logEvents_append (h : String) : logEvents acc (log ++ [h]) =
    logEvents acc log ++ [⟨acc, log.length + 1, log.length + 1, h⟩] := by
  simp [logEvents, zipIdx_append, Nat.add_comm]

theorem getElem?_logEvents (i : Nat) : (logEvents acc log)[i]? =
    log[i]?.map fun h => ⟨acc, i + 1, i + 1, h⟩ := by
  rw [logEvents, getElem?_map, getElem?_zipIdx, Option.map_map, Nat.add_comm 1 i]
  rfl

theorem mem_logEvents {e : RootEventRow} (h : e ∈ logEvents acc log) :
    e.accountLocator = acc ∧ e.sequence ≤ log.length := by
  obtain ⟨i, hi⟩ := mem_iff_getElem?.1 h
  rw [getElem?_logEvents, map_eq_some_iff] at hi
  obtain ⟨hs, hha, rfl⟩ := hi
  exact ⟨rfl, (List.getElem?_eq_some_iff.1 hha).1⟩

/-- The root, the event sequence and the retained events of an account are those of its log. -/
structure Logged (cfg : StoreConfig) (db : Database) (account : String) (log : List String) :
    Prop where
  root : (db.roots.get? account).map (fun row => (row.revision, row.rootHash)) =
    log.getLast?.map (Prod.mk log.length)
  sequence : eventSequence db account = log.length
  events : ∀ event, event ∈ db.rootEvents.rows ∧ event.accountLocator = account ↔
    event ∈ logEvents account log ∧ log.length - cfg.eventRetention < event.sequence

namespace Logged

theorem revision (h : Logged cfg db acc log) :
    ((db.roots.get? acc).map RootRow.revision).getD 0 = log.length := by
  have hrt := h.root
  cases hg : db.roots.get? acc with
  | none =>
    rw [hg] at hrt
    have hl : log.getLast? = none := by
      cases hl : log.getLast? with
      | none => rfl
      | some hs => simp [hl] at hrt
    rw [getLast?_eq_none_iff.1 hl]
    rfl
  | some row =>
    rw [hg] at hrt
    obtain ⟨hs, -, hpr⟩ := map_eq_some_iff.1 hrt.symm
    exact (Prod.mk.inj hpr).1.symm

theorem rootHash (h : Logged cfg db acc log) :
    (db.roots.get? acc).map RootRow.rootHash = log.getLast? := by
  have hrt := congrArg (Option.map Prod.snd) h.root
  rw [Option.map_map, Option.map_map] at hrt
  exact hrt.trans (congrFun Option.map_id _)

theorem accountEvents_eq (h : Logged cfg db acc log) : accountEvents db acc =
    (logEvents acc log).drop (log.length - cfg.eventRetention) := by
  have hdr := (numbered_logEvents acc log).filter_lt (log.length - cfg.eventRetention)
  rw [Nat.add_sub_cancel] at hdr
  refine ((numbered_logEvents acc log).drop _).insertionSort_eq ?_ fun ev => ?_
  · exact (List.Nodup.of_map _ db.rootEvents.nodup_keys).filter _
  · rw [← hdr, mem_filter, mem_filter, decide_eq_true_eq, decide_eq_true_eq]
    exact h.events ev

end Logged

/-- The account's root, event sequence and events are the same, and the account is still there. -/
structure SameRoot (account : String) (db db' : Database) : Prop where
  remains : (db.accounts.get? account).isSome → (db'.accounts.get? account).isSome
  root : db'.roots.get? account = db.roots.get? account
  sequence : eventSequence db' account = eventSequence db account
  events : ∀ event, event.accountLocator = account →
    (event ∈ db'.rootEvents.rows ↔ event ∈ db.rootEvents.rows)

theorem SameRoot.logged_iff (h : SameRoot acc db db') :
    Logged cfg db' acc log ↔ Logged cfg db acc log := by
  have hev : ∀ ev, ev ∈ db'.rootEvents.rows ∧ ev.accountLocator = acc ↔
      ev ∈ db.rootEvents.rows ∧ ev.accountLocator = acc :=
    fun ev => and_congr_left (h.events ev)
  constructor
  · intro hl
    exact ⟨h.root ▸ hl.root, h.sequence ▸ hl.sequence, fun ev => (hev ev).symm.trans (hl.events ev)⟩
  · intro hl
    exact ⟨h.root ▸ hl.root, h.sequence ▸ hl.sequence, fun ev => (hev ev).trans (hl.events ev)⟩

namespace SameRoot

variable {oth : String}

theorem refl (a : String) (db : Database) : SameRoot a db db := ⟨id, rfl, rfl, fun _ _ => .rfl⟩

theorem of_accounts (hrt : db'.roots = db.roots) (hev : db'.rootEvents = db.rootEvents)
    (hsq : (db'.accounts.get? acc).map AccountRow.eventSequence =
      (db.accounts.get? acc).map AccountRow.eventSequence) : SameRoot acc db db' := by
  have hsm := congrArg Option.isSome hsq
  rw [isSome_map, isSome_map] at hsm
  exact ⟨fun h => hsm.trans h, by rw [hrt], by rw [eventSequence, hsq, eventSequence],
    by simp [hev]⟩

theorem of_eq (hrt : db'.roots = db.roots) (hev : db'.rootEvents = db.rootEvents)
    (hac : db'.accounts = db.accounts) : SameRoot acc db db' :=
  of_accounts hrt hev (by rw [hac])

theorem updateAccounts {p : AccountRow → Bool} {f : AccountRow → AccountRow}
    (hk : ∀ row, (f row).accountLocator = row.accountLocator)
    (hrt : db'.roots = db.roots) (hev : db'.rootEvents = db.rootEvents)
    (hac : db'.accounts = db.accounts.updateWhere p f hk)
    (hsq : ∀ row, (f row).eventSequence = row.eventSequence) : SameRoot acc db db' := by
  refine of_accounts hrt hev ?_
  rw [hac, Table.get?_updateWhere, Option.map_map]
  refine congrArg (Option.map · _) (funext fun row => ?_)
  by_cases hp : p row <;> simp [hp, hsq]

theorem trans {db'' : Database} (h : SameRoot acc db db') (h' : SameRoot acc db' db'') :
    SameRoot acc db db'' :=
  ⟨h'.remains ∘ h.remains, h'.root.trans h.root, h'.sequence.trans h.sequence,
    fun ev hev => (h'.events ev hev).trans (h.events ev hev)⟩

theorem adjustUsage {st n : Int → Int} (hdb : db' = db.adjustUsage oth st n) :
    SameRoot acc db db' := by
  subst hdb
  exact updateAccounts (by simp) rfl rfl rfl fun _ => rfl

theorem releaseAccountUsage (o : String) (bs n : Nat) :
    SameRoot acc db (releaseAccountUsage db o bs n) :=
  adjustUsage (Server.releaseAccountUsage.eq_1 db o bs n)

theorem removePendingObject (o oid : String) (bs : Nat) :
    SameRoot acc db (removePendingObject db o oid bs) := by
  have hd : SameRoot acc db (deletePending db o oid) := .of_eq rfl rfl rfl
  exact hd.trans (releaseAccountUsage _ _ _)

theorem insertAccount {row : AccountRow} (hn : db.accounts.get? row.accountLocator = none)
    (hsq : row.eventSequence = 0) :
    SameRoot acc db { db with accounts := db.accounts.insert row } := by
  refine ⟨fun h => ?_, rfl, ?_, fun _ _ => .rfl⟩
  · rw [Table.get?_insert hn]
    split
    · rfl
    · exact h
  · rw [eventSequence, eventSequence, Table.get?_insert hn]
    by_cases hrow : row.accountLocator = acc
    · rw [if_pos hrow, ← hrow, hn]
      exact hsq
    · rw [if_neg hrow]

theorem writeRoot {row : RootRow} (ho : oth ≠ acc) (hr : row.accountLocator = oth) :
    SameRoot acc db (writeRoot cfg db oth row) := by
  constructor
  · intro h
    rw [Server.writeRoot, Table.get?_updateWhere, isSome_map]
    exact h
  · rw [Server.writeRoot]
    rw [Table.get?_upsert, if_neg (hr ▸ ho)]
  · simp only [eventSequence, Server.writeRoot, Table.get?_updateWhere]
    cases hg : db.accounts.get? acc with
    | none => rfl
    | some f =>
      have hlc := (Table.get?_eq_some.1 hg).2
      simp [hlc, ho.symm]
  · intro ev hev
    have hk : ev.key ≠ (oth, eventSequence db oth + 1) := fun h =>
      ho (((Prod.mk.inj h).1.symm).trans hev)
    rw [Server.writeRoot]
    simp only [Table.mem_rows_deleteWhere]
    have hsp : (decide (ev.accountLocator = oth) &&
        decide (ev.sequence ≤ eventSequence db oth + 1 - cfg.eventRetention)) = false := by
      simp [hev, ho.symm]
    rw [hsp, eq_self, and_true]
    exact Table.mem_insert_of_key_ne hk

theorem gcAccount (o : String) (c : Int) : SameRoot acc db (gcAccount db o c).1 := by
  simp only [Server.gcAccount]
  generalize db.objects.rows.filter _ = d
  induction d generalizing db with
  | nil => exact .refl _ _
  | cons row d ih =>
    have hd : SameRoot acc db
        { db with objects := db.objects.deleteWhere fun o => o.key = row.key } :=
      .of_eq rfl rfl rfl
    have h : SameRoot acc db (gcDeleteRow db row) := hd.trans (.releaseAccountUsage _ _ _)
    exact h.trans ih

theorem deleteAccount (ho : oth ≠ acc) : SameRoot acc db (deleteAccount db oth) := by
  constructor
  · intro h
    rw [Server.deleteAccount,
      Table.get?_deleteWhere_of_spares fun row hr => by simpa [hr] using ho.symm]
    exact h
  · exact Table.get?_deleteWhere_of_spares fun row hr => by simpa [hr] using ho.symm
  · rw [eventSequence, eventSequence, Server.deleteAccount]
    rw [Table.get?_deleteWhere_of_spares fun row hr => by simpa [hr] using ho.symm]
  · intro ev hev
    simp [Server.deleteAccount, hev, ho.symm]

end SameRoot

/-- The step neither commits a root of the account nor deletes the account. -/
def Quiet (account : String) : Label → Prop
  | .compareAndSwapRoot accountLocator _ _ _ _ => accountLocator ≠ account
  | .deleteAccount accountLocator => accountLocator ≠ account
  | _ => True

/-- A quiet step leaves the account's root and events as they are. -/
theorem sameRoot_of_step (hqt : Quiet acc l) (hst : s.step P cfg l = some s') :
    SameRoot acc s.db s'.db := by
  cases Store.effect_of_step hst with
  | openStore _ hr =>
    obtain ⟨m, rfl⟩ := repairStorageAccounting_ok hr
    exact .updateAccounts (by simp) rfl rfl rfl fun _ => rfl
  | createAccount =>
    obtain hdb | ⟨_, _, _, h, hdb⟩ := createAccount_snd _ _
    · rw [hdb]
      exact .refl _ _
    · rw [hdb]
      exact .insertAccount h rfl
  | createObjectInline _ _ _ _ hre
  | createObjectPending _ _ _ _ _ hre =>
    obtain ⟨_, _, _, _, _, _, _, _, _, _, _, _, hrs⟩ := reserveAccountUsage_ok hre
    exact (SameRoot.adjustUsage hrs).trans (.of_eq rfl rfl rfl)
  | removePending => exact .removePendingObject _ _ _
  | rootCommitted _ _ _ _ _ hrp =>
    obtain ⟨_, _, _, _, _, _, _, _, _, hrd⟩ := replaceAccountRootUsage_ok hrp
    exact (SameRoot.adjustUsage hrd).trans (.writeRoot hqt rfl)
  | gcAccount => exact .gcAccount _ _
  | setAccountMode => exact .updateAccounts (by simp) rfl rfl rfl fun _ => rfl
  | setAccountQuota =>
    obtain hdb | ⟨_, hdb⟩ := setAccountQuota_snd _
    · rw [hdb]
      exact .refl _ _
    · rw [hdb]
      exact .updateAccounts (by simp) rfl rfl rfl fun _ => rfl
  | deleteAccount => exact .deleteAccount hqt
  | reconcileRelease =>
    apply SameRoot.adjustUsage
    dsimp only
  | _ => exact .of_eq rfl rfl rfl

namespace Logged

/-- The new root is one more entry, and the oldest event goes once there are too many. -/
theorem writeRoot {row : RootRow} {f : AccountRow} (h : Logged cfg db acc log)
    (hfd : db.accounts.get? acc = some f) (hro : row.accountLocator = acc)
    (hr : row.revision = log.length + 1) :
    Logged cfg (writeRoot cfg db acc row) acc (log ++ [row.rootHash]) := by
  have hl : (log ++ [row.rootHash]).length = log.length + 1 := by simp
  have hsq := h.sequence
  constructor
  · rw [Server.writeRoot, Table.get?_upsert, if_pos hro, hl, getLast?_concat, ← hr]
    rfl
  · have hlc := (Table.get?_eq_some.1 hfd).2
    rw [eventSequence] at hsq
    rw [hl, ← hsq, eventSequence, Server.writeRoot, Table.get?_updateWhere, hfd]
    simp [hlc]
  · intro ev
    have hn : db.rootEvents.get? (acc, log.length + 1) = none := by
      refine Table.get?_eq_none.2 fun o ho hk => ?_
      obtain ⟨ha, hnm⟩ := Prod.mk.inj hk
      have hle := (mem_logEvents ((h.events o).1 ⟨ho, ha⟩).1).2
      omega
    rw [hl, logEvents_append, Server.writeRoot, hsq, hr]
    simp only [Table.mem_rows_deleteWhere, mem_append, mem_singleton]
    rw [Table.mem_rows_insert hn]
    constructor
    · rintro ⟨⟨hm | rfl, hsp⟩, ha⟩
      · obtain ⟨hlg, -⟩ := (h.events ev).1 ⟨hm, ha⟩
        simp only [ha, decide_true, Bool.true_and, decide_eq_false_iff_not] at hsp
        exact ⟨.inl hlg, by omega⟩
      · simp only [decide_true, Bool.true_and, decide_eq_false_iff_not] at hsp
        exact ⟨.inr rfl, not_le.1 hsp⟩
    · rintro ⟨hlg | rfl, hrt⟩
      · obtain ⟨hm, ha⟩ := (h.events ev).2 ⟨hlg, by omega⟩
        exact ⟨⟨.inl hm, by simp [hrt]⟩, ha⟩
      · exact ⟨⟨.inr rfl, by simpa using hrt⟩, rfl⟩

theorem deleteAccount (db : Database) : Logged cfg (deleteAccount db acc) acc [] := by
  constructor
  · rw [Server.deleteAccount]
    rw [Table.get?_deleteWhere_key]
    rfl
  · rw [eventSequence, Server.deleteAccount]
    rw [Table.get?_deleteWhere_key]
    rfl
  · intro ev
    simp only [Server.deleteAccount, Table.mem_rows_deleteWhere, decide_eq_false_iff_not]
    exact ⟨fun h => absurd h.2 h.1.2, fun h => absurd h.1 not_mem_nil⟩

theorem initialized : Logged cfg .initialized acc [] :=
  ⟨rfl, rfl, fun ev => by simp [Database.initialized, logEvents]⟩

end Logged

theorem rootRow_of_writeRoot {row : RootRow} (h : row.accountLocator = acc) :
    (writeRoot cfg db acc row).roots.get? acc = some row := by
  rw [writeRoot, Table.get?_upsert, if_pos h]

variable {req : AcsCompareAndSwapRootRequest} {now : Int} {fr : Nat} {eg : StoreResult Unit}

/-- A root that is committed is added to the log. -/
theorem compareAndSwapRoot_logged {res : StoreResult AcsCompareAndSwapRootResponse}
    (h : Logged cfg db acc log) (hcs : compareAndSwapRoot P cfg db acc req now fr eg = (res, db')) :
    ((∃ m, db' = setServiceMode db m) ∧ ∀ r, res ≠ .ok (.committed r)) ∨
    ∃ r, res = .ok (.committed r) ∧ req.expectedRevision = log.length ∧
      r.revision = log.length + 1 ∧ Logged cfg db' acc (log ++ [r.rootHash]) := by
  obtain hrj | ⟨r, rd, c, -, hr, -, -, hrp, rfl, hrs, hcm⟩ := compareAndSwapRoot_cases hcs
  · exact .inl hrj
  · obtain ⟨f, _, _, hfd, _, _, _, _, _, hre⟩ := replaceAccountRootUsage_ok hrp
    have hus : SameRoot acc db rd := .adjustUsage hre
    have hl : Logged cfg rd acc log := hus.logged_iff.2 h
    obtain ⟨f', hfd'⟩ := isSome_iff_exists.1 (hus.remains (by rw [hfd]; rfl))
    rw [h.revision] at hr
    have hlc : (r.row acc (req.expectedRevision + 1) now).accountLocator = acc := rfl
    have hwr := hl.writeRoot hfd' hlc (congrArg (· + 1) hr)
    rw [readRootRow, rootRow_of_writeRoot hlc, map_some, some.injEq] at hcm
    have hc : c.revision = log.length + 1 := by
      rw [← hcm, ← hr]
      rfl
    exact .inr ⟨c, hrs, hr, hc, hcm ▸ hwr⟩

theorem Store.db_compareAndSwapRoot {a : String}
    (hst : s.step P cfg (.compareAndSwapRoot a req now fr eg) = some s') :
    s'.db = (compareAndSwapRoot P cfg s.db a req now fr eg).2 := by
  simp only [Store.step] at hst
  split at hst
  · exact some.inj hst ▸ rfl
  · simp [Store.openingStep] at hst
  · simp at hst

theorem commitsAfter_of_quiet {cs : List RootCommit} (h : Quiet acc l) :
    s.commitsAfter P cfg acc cs l = cs := by
  cases l with
  | compareAndSwapRoot a =>
    simp only [Store.commitsAfter]
    split
    · exact if_neg h
    · rfl
  | deleteAccount a => exact if_neg h
  | _ => rfl

/-- The commits of an account explain its database: each expected the revision that its predecessors
had reached, and the hashes are the history of the root. -/
structure Explains (cfg : StoreConfig) (account : String) (db : Database)
    (commits : List RootCommit) : Prop where
  logged : Logged cfg db account (commits.map RootCommit.rootHash)
  expected : commits.map RootCommit.expectedRevision = List.range commits.length

/-- Each commit adds one to the history. -/
theorem Explains.step {cs : List RootCommit} (h : Explains cfg acc s.db cs)
    (hst : s.step P cfg l = some s') : Explains cfg acc s'.db (s.commitsAfter P cfg acc cs l) := by
  by_cases hqt : Quiet acc l
  · rw [commitsAfter_of_quiet hqt]
    exact ⟨(sameRoot_of_step hqt hst).logged_iff.2 h.logged, h.expected⟩
  · cases l with
    | compareAndSwapRoot a req now f e =>
      obtain rfl : a = acc := not_not.1 hqt
      have hdb := Store.db_compareAndSwapRoot hst
      simp only [Store.commitsAfter]
      cases hcs : compareAndSwapRoot P cfg s.db a req now f e with
      | mk res db' =>
        rw [hcs] at hdb
        obtain ⟨⟨m, hmd⟩, hn⟩ | ⟨r, rfl, hr, -, hl⟩ := compareAndSwapRoot_logged h.logged hcs
        · have hsm : SameRoot a s.db s'.db := by
            rw [hdb, hmd]
            exact .of_eq rfl rfl rfl
          split
          · next r hrt => exact absurd hrt (hn r)
          · exact ⟨hsm.logged_iff.2 h.logged, h.expected⟩
        · simp only [if_pos]
          refine ⟨by simpa [hdb] using hl, ?_⟩
          simp [h.expected, hr, range_succ]
    | deleteAccount a =>
      obtain rfl : a = acc := not_not.1 hqt
      simp only [Store.commitsAfter]
      cases Store.effect_of_step hst
      exact ⟨.deleteAccount _, rfl⟩
    | _ => exact absurd trivial hqt

end Aerobag.Server
