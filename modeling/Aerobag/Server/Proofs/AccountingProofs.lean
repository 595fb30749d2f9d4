import Aerobag.Server.Proofs.BlobProofs

/-!
# Storage accounting

`stored_bytes` and `object_count` are kept by deltas. `Ledger` says that they are what the rows add
up to, within the limits. Each statement of the store that changes rows is one lemma.
-/

open List Option

namespace Aerobag.Server

variable {P : Primitives} {cfg : StoreConfig} {db db' : Database}

/-- The bytes of an account's objects, pending ones included. -/
def objectBytes (db : Database) (account : String) : Int :=
  db.objects.total fun row => if row.accountLocator = account then row.storageBytes else 0

def objectNumber (db : Database) (account : String) : Int :=
  db.objects.total fun row => if row.accountLocator = account then 1 else 0

def rootBytes (db : Database) (account : String) : Int :=
  ((db.roots.get? account).map fun root => (root.storageBytes : Int)).getD 0

/-- The weight of the object rows of an account: `objectBytes` and `objectNumber` are such weights. -/
def objectTotal (w : ObjectRow → Int) (db : Database) (account : String) : Int :=
  db.objects.total fun row => if row.accountLocator = account then w row else 0

variable {w : ObjectRow → Int}

theorem objectTotal_nonneg (hw : ∀ row, 0 ≤ w row) (a : String) :
    0 ≤ objectTotal w db a := by
  refine Table.total_nonneg fun row _ => ?_
  have h := hw row
  split <;> omega

theorem objectBytes_nonneg (a : String) : 0 ≤ objectBytes db a :=
  objectTotal_nonneg (fun _ => Int.natCast_nonneg _) a

theorem rootBytes_nonneg (a : String) : 0 ≤ rootBytes db a := by
  unfold rootBytes
  cases db.roots.get? a <;> simp

/-- The accounts of the table are charged for `bytes` and `number`, within their quotas and within
the limit of the service. -/
structure Ledger (limit : Nat) (accounts : Table AccountRow.accountLocator)
    (bytes number : String → Int) : Prop where
  stored : ∀ row ∈ accounts.rows, row.storedBytes = bytes row.accountLocator
  count : ∀ row ∈ accounts.rows, row.objectCount = number row.accountLocator
  quota : ∀ row ∈ accounts.rows, row.storedBytes ≤ row.quotaBytes ∧ row.quotaBytes ≤ i64Max
  global : accounts.total AccountRow.storedBytes ≤ limit

namespace Ledger

variable {lim : Nat} {accs : Table AccountRow.accountLocator} {bs nu bs' n' : String → Int}

theorem congr (h : Ledger lim accs bs nu) (hb : ∀ a, bs' a = bs a)
    (hnm : ∀ a, n' a = nu a) : Ledger lim accs bs' n' := by
  obtain rfl : bs' = bs := funext hb
  obtain rfl : n' = nu := funext hnm
  exact h

theorem of_rows (hrw : ∀ row ∈ accs.rows, row.storedBytes = bs row.accountLocator ∧
      row.objectCount = nu row.accountLocator ∧ row.storedBytes ≤ row.quotaBytes ∧
      row.quotaBytes ≤ i64Max) (hgl : accs.total AccountRow.storedBytes ≤ lim) :
    Ledger lim accs bs nu :=
  ⟨fun row h => (hrw row h).1, fun row h => (hrw row h).2.1, fun row h => (hrw row h).2.2, hgl⟩

theorem row (h : Ledger lim accs bs nu) {row : AccountRow} (hr : row ∈ accs.rows) :
    row.storedBytes = bs row.accountLocator ∧ row.objectCount = nu row.accountLocator ∧
      row.storedBytes ≤ row.quotaBytes ∧ row.quotaBytes ≤ i64Max :=
  ⟨h.stored row hr, h.count row hr, h.quota row hr⟩

/-- The counters of one account move with what they count. -/
theorem adjust (h : Ledger lim db.accounts bs nu) {acc : String} {f g : Int → Int} {δ ν : Int}
    (hf : ∀ row, db.accounts.get? acc = some row → f row.storedBytes = row.storedBytes + δ ∧
      g row.objectCount = row.objectCount + ν ∧ row.storedBytes + δ ≤ row.quotaBytes)
    (hlm : db.accounts.total AccountRow.storedBytes + δ ≤ lim ∨ δ ≤ 0)
    (hb : ∀ a, bs' a = bs a + if a = acc then δ else 0)
    (hnm : ∀ a, n' a = nu a + if a = acc then ν else 0) :
    Ledger lim (db.adjustUsage acc f g).accounts bs' n' := by
  refine of_rows (fun row hr => ?_) ?_
  · simp only [Database.adjustUsage, Table.mem_rows_updateWhere] at hr
    obtain ⟨old, hol, rfl⟩ := hr
    obtain ⟨hso, hc, hq, hm⟩ := h.row hol
    by_cases ha : old.accountLocator = acc
    · subst ha
      obtain ⟨hso', hc', hq'⟩ := hf old (Table.get?_key hol)
      simp [hso', hc', hq', hm, hb, hnm, ← hso, ← hc]
    · simp [ha, hb, hnm, ← hso, ← hc, hq, hm]
  · have htt := Table.total_eq_of_key db.accounts acc
      (fun row => if row.accountLocator = acc then f row.storedBytes - row.storedBytes else 0)
      (fun row hr => if_neg hr)
    have hgl := h.global
    simp only [Database.adjustUsage, Table.total_updateWhere, decide_eq_true_eq, htt]
    cases hg : db.accounts.get? acc with
    | none => simpa using hgl
    | some row =>
      have hl : row.accountLocator = acc := (Table.get?_eq_some.1 hg).2
      have hso := (hf row hg).1
      simp only [map_some, getD_some]
      omega

variable {p : AccountRow → Bool}

theorem update (h : Ledger lim accs bs nu)
    {f : AccountRow → AccountRow} (hk : ∀ row, (f row).accountLocator = row.accountLocator)
    (hf : ∀ row ∈ accs.rows, p row → (f row).storedBytes = row.storedBytes ∧
      (f row).objectCount = row.objectCount ∧ row.storedBytes ≤ (f row).quotaBytes ∧
      (f row).quotaBytes ≤ i64Max) : Ledger lim (accs.updateWhere p f hk) bs nu := by
  refine of_rows (fun row hr => ?_) ?_
  · obtain ⟨old, hl, rfl⟩ := Table.mem_rows_updateWhere.1 hr
    obtain ⟨hso, hc, hq, hm⟩ := h.row hl
    by_cases hp : p old
    · obtain ⟨hso', hc', hq', hm'⟩ := hf old hl hp
      simp [hp, hk, hso', hc', hq', hm', ← hso, ← hc]
    · simp [hp, ← hso, ← hc, hq, hm]
  · have htt : (accs.updateWhere p f hk).total AccountRow.storedBytes =
        accs.total AccountRow.storedBytes := by
      have hzr : (accs.total fun row =>
          if p row then (f row).storedBytes - row.storedBytes else 0) = accs.total fun _ => 0 := by
        refine Table.total_congr fun row hr => ?_
        by_cases hp : p row
        · simp [(hf row hr hp).1]
        · simp [hp]
      rw [Table.total_updateWhere, hzr, Table.total_zero, add_zero]
    exact htt ▸ h.global

theorem insert (h : Ledger lim accs bs nu) {row : AccountRow}
    (hn : accs.get? row.accountLocator = none) (hso : row.storedBytes = 0)
    (hc : row.objectCount = 0) (hq : row.quotaBytes ≤ i64Max)
    (hb : bs row.accountLocator = 0) (hnm : nu row.accountLocator = 0) :
    Ledger lim (accs.insert row) bs nu := by
  refine of_rows (fun o ho => ?_) ?_
  · rcases (Table.mem_rows_insert hn).1 ho with ho | rfl
    · exact h.row ho
    · exact ⟨by rw [hso, hb], by rw [hc, hnm], by omega, hq⟩
  · rw [Table.total_insert hn, hso, add_zero]
    exact h.global

theorem delete (h : Ledger lim accs bs nu) (hnn : ∀ a, 0 ≤ bs a)
    (hb : ∀ row ∈ accs.rows, p row = false → bs' row.accountLocator = bs row.accountLocator)
    (hnm : ∀ row ∈ accs.rows, p row = false → n' row.accountLocator = nu row.accountLocator) :
    Ledger lim (accs.deleteWhere p) bs' n' := by
  refine of_rows (fun row hr => ?_) ?_
  · obtain ⟨hr, hp⟩ := Table.mem_rows_deleteWhere.1 hr
    rw [hb row hr hp, hnm row hr hp]
    exact h.row hr
  · have hd : 0 ≤ accs.total fun row => if p row then row.storedBytes else 0 := by
      refine Table.total_nonneg fun row hr => ?_
      have hrw := hnn row.accountLocator
      rw [← h.stored row hr] at hrw
      split <;> omega
    have hgl := h.global
    rw [Table.total_deleteWhere]
    omega

end Ledger

section Rows

variable {row : ObjectRow} {al objectId : String}

theorem objectTotal_insert (w : ObjectRow → Int) (h : db.objects.get? row.key = none) (a : String) :
    objectTotal w { db with objects := db.objects.insert row } a =
      objectTotal w db a + if a = row.accountLocator then w row else 0 := by
  simp [objectTotal, Table.total_insert h, eq_comm]

theorem objectTotal_delete (w : ObjectRow → Int) {p : ObjectRow → Bool} (h : row ∈ db.objects.rows)
    (hp : ∀ o ∈ db.objects.rows, p o = true ↔ o = row) (a : String) :
    objectTotal w { db with objects := db.objects.deleteWhere p } a =
      objectTotal w db a + if a = row.accountLocator then -w row else 0 := by
  simp only [objectTotal, Table.total_deleteWhere_of_mem h hp, eq_comm (a := a)]
  split <;> omega

theorem total_markReady (hw : ∀ row, w row.madeReady = w row) :
    (markReady db al objectId).objects.total w = db.objects.total w := by
  simp [markReady, Table.total_updateWhere, hw]

theorem le_objectTotal (hw : ∀ row, 0 ≤ w row) (hro : row ∈ db.objects.rows) :
    w row ≤ objectTotal w db row.accountLocator := by
  have hr := @objectTotal_nonneg
    { db with objects := db.objects.deleteWhere fun o => o.key = row.key } w hw row.accountLocator
  rw [objectTotal_delete w hro, if_pos rfl] at hr
  · omega
  · intro o ho
    simpa using ⟨fun h => Table.eq_of_key_eq ho hro h, fun h => h ▸ rfl⟩

end Rows

/-- The bytes an account is charged for: its rows, its root, and a row `owed` that is deleted and
whose release is due. -/
def chargedBytes (db : Database) (owed : Option ObjectRow) (account : String) : Int :=
  objectBytes db account + rootBytes db account +
    (owed.map fun row => if account = row.accountLocator then (row.storageBytes : Int) else 0).getD 0

/-- The number of objects that the account is charged for; one may be owed. -/
def chargedNumber (db : Database) (owed : Option ObjectRow) (account : String) : Int :=
  objectNumber db account +
    (owed.map fun row => if account = row.accountLocator then (1 : Int) else 0).getD 0

/-- The accounts are charged for what the rows add up to, and every row has an account. -/
structure Accounted (limit : Nat) (db : Database) (owed : Option ObjectRow) : Prop where
  ledger : Ledger limit db.accounts (chargedBytes db owed) (chargedNumber db owed)
  objectOwner : ∀ row ∈ db.objects.rows, db.accounts.get? row.accountLocator ≠ none
  rootOwner : ∀ root ∈ db.roots.rows, db.accounts.get? root.accountLocator ≠ none

namespace Accounted

variable {lim : Nat} {owed : Option ObjectRow} {row : ObjectRow} {ac : String}

theorem congr (h : Accounted lim db owed) (hac : db'.accounts = db.accounts)
    (hob : db'.objects = db.objects) (hrt : db'.roots = db.roots) : Accounted lim db' owed := by
  have hb : ∀ a, chargedBytes db' owed a = chargedBytes db owed a := by
    simp [chargedBytes, objectBytes, rootBytes, hob, hrt]
  have hnm : ∀ a, chargedNumber db' owed a = chargedNumber db owed a := by
    simp [chargedNumber, objectNumber, hob]
  exact ⟨hac ▸ h.ledger.congr hb hnm, by rw [hob, hac]; exact h.objectOwner,
    by rw [hrt, hac]; exact h.rootOwner⟩

theorem adjust {o' : Option ObjectRow} (h : Accounted lim db owed) (acc : String)
    (f g : Int → Int) (δ ν : Int)
    (hf : ∀ row, db.accounts.get? acc = some row → f row.storedBytes = row.storedBytes + δ ∧
      g row.objectCount = row.objectCount + ν ∧ row.storedBytes + δ ≤ row.quotaBytes)
    (hlm : db.accounts.total AccountRow.storedBytes + δ ≤ lim ∨ δ ≤ 0)
    (hac : db'.accounts = (db.adjustUsage acc f g).accounts)
    (hb : ∀ a, chargedBytes db' o' a = chargedBytes db owed a + if a = acc then δ else 0)
    (hnm : ∀ a, chargedNumber db' o' a = chargedNumber db owed a + if a = acc then ν else 0)
    (hob : ∀ row ∈ db'.objects.rows, db.accounts.get? row.accountLocator ≠ none)
    (hro : ∀ r ∈ db'.roots.rows, db.accounts.get? r.accountLocator ≠ none) :
    Accounted lim db' o' := by
  have hg : ∀ a, db.accounts.get? a ≠ none → db'.accounts.get? a ≠ none := by
    intro a ha
    simpa [hac, Database.adjustUsage] using ha
  exact ⟨hac ▸ h.ledger.adjust hf hlm hb hnm,
    fun row hr => hg _ (hob row hr), fun r hrt => hg _ (hro r hrt)⟩

theorem insertObject (h : Accounted lim db none) {acc : AccountRow}
    (ha : db.accounts.get? row.accountLocator = some acc) (hn : db.objects.get? row.key = none)
    (hq : acc.storedBytes + row.storageBytes ≤ acc.quotaBytes)
    (hgl : db.accounts.total AccountRow.storedBytes + row.storageBytes ≤ lim) (hac : db'.accounts =
      (db.adjustUsage row.accountLocator (· + row.storageBytes) (· + 1)).accounts)
    (hob : db'.objects = db.objects.insert row) (hrt : db'.roots = db.roots) :
    Accounted lim db' none := by
  have hb := objectTotal_insert (fun row => row.storageBytes) hn
  have hnm := objectTotal_insert (fun _ => 1) hn
  refine h.adjust row.accountLocator _ _ row.storageBytes 1 ?_ (.inl hgl) hac (fun a => ?_)
    (fun a => ?_) ?_ ?_
  · intro o ho
    obtain rfl : acc = o := some.inj (ha.symm.trans ho)
    exact ⟨rfl, rfl, hq⟩
  · have := hb a
    simp only [chargedBytes, objectBytes, objectTotal, rootBytes, hob, hrt] at this ⊢
    omega
  · have := hnm a
    simp only [chargedNumber, objectNumber, objectTotal, hob] at this ⊢
    omega
  · intro o ho
    rw [hob] at ho
    rcases (Table.mem_rows_insert hn).1 ho with ho | rfl
    · exact h.objectOwner o ho
    · simp [ha]
  · rw [hrt]
    exact h.rootOwner

theorem deleteObject (h : Accounted lim db none) {p : ObjectRow → Bool}
    (hr : row ∈ db.objects.rows) (hp : ∀ o ∈ db.objects.rows, p o = true ↔ o = row) :
    Accounted lim (releaseAccountUsage { db with objects := db.objects.deleteWhere p }
      row.accountLocator row.storageBytes 1) none := by
  have hb := objectTotal_delete (fun row => row.storageBytes) hr hp
  have hnm := objectTotal_delete (fun _ => 1) hr hp
  refine h.adjust row.accountLocator (fun st => max (st - row.storageBytes) 0)
    (fun n => max (n - 1) 0) (-row.storageBytes) (-1) ?_ (.inr (by omega)) rfl
    (fun a => ?_) (fun a => ?_) ?_ h.rootOwner
  · -- the columns are large enough for the subtraction
    intro acc ha
    obtain ⟨hm, hl⟩ := Table.get?_eq_some.1 ha
    have hso := h.ledger.stored acc hm
    have hc := h.ledger.count acc hm
    have hq := (h.ledger.quota acc hm).1
    have hb : row.storageBytes ≤ objectBytes db _ := le_objectTotal (fun _ => Int.natCast_nonneg _) hr
    have hnm : 1 ≤ objectNumber db _ := le_objectTotal (fun _ => Int.one_nonneg) hr
    have hrt := @rootBytes_nonneg db row.accountLocator
    simp only [chargedBytes, chargedNumber, hl, map_none, getD_none] at hso hc
    refine ⟨?_, ?_, ?_⟩ <;> omega
  · have := hb a
    simp only [chargedBytes, objectBytes, objectTotal, rootBytes, releaseAccountUsage,
      Database.adjustUsage] at this ⊢
    omega
  · have := hnm a
    simp only [chargedNumber, objectNumber, objectTotal, releaseAccountUsage, Database.adjustUsage] at this ⊢
    omega
  · exact fun o ho => h.objectOwner o (Table.mem_rows_deleteWhere.1 ho).1

theorem markReady (h : Accounted lim db owed) (acc o : String) :
    Accounted lim (markReady db acc o) owed := by
  refine ⟨h.ledger.congr (fun a => ?_) (fun a => ?_), ?_, h.rootOwner⟩
  · rw [chargedBytes, objectBytes, total_markReady fun _ => rfl]
    rfl
  · rw [chargedNumber, objectNumber, total_markReady fun _ => rfl]
    rfl
  · intro row hr
    rcases mem_markReady.1 hr with ⟨hr, -⟩ | ⟨old, hl, -, -, rfl⟩
    · exact h.objectOwner row hr
    · exact h.objectOwner old hl

theorem deletePending_selects {oid : String} (hr : row ∈ db.objects.rows)
    (hk : row.key = (ac, oid)) (hst : row.state = .pending) :
    ∀ o ∈ db.objects.rows, (decide (o.key = (ac, oid)) &&
      decide (o.state = .pending)) = true ↔ o = row := by
  intro o ho
  rw [Bool.and_eq_true, decide_eq_true_eq, decide_eq_true_eq]
  constructor
  · exact fun h => Table.eq_of_key_eq ho hr (h.1.trans hk.symm)
  · rintro rfl
    exact ⟨hk, hst⟩

/-- Deleting a pending row without releasing it: the release is due. -/
theorem deletePending (h : Accounted lim db none) {o : String} (hr : row ∈ db.objects.rows)
    (hk : row.key = (ac, o)) (hst : row.state = .pending) :
    Accounted lim (deletePending db ac o) (some row) := by
  have hsl := deletePending_selects hr hk hst
  refine ⟨h.ledger.congr (fun a => ?_) (fun a => ?_), ?_, h.rootOwner⟩
  · have := objectTotal_delete (fun row => row.storageBytes) hr hsl a
    simp only [chargedBytes, objectBytes, objectTotal, rootBytes, Server.deletePending, map_some,
      getD_some, map_none, getD_none] at this ⊢
    rw [this]
    split <;> omega
  · have := objectTotal_delete (fun _ => 1) hr hsl a
    simp only [chargedNumber, objectNumber, objectTotal, Server.deletePending, map_some,
      getD_some, map_none, getD_none] at this ⊢
    rw [this]
    split <;> omega
  · exact fun oth ho => h.objectOwner oth (Table.mem_rows_deleteWhere.1 ho).1

theorem releaseOwed (h : Accounted lim db (some row)) :
    Accounted lim (db.adjustUsage row.accountLocator (· - row.storageBytes) (· - 1)) none := by
  refine h.adjust row.accountLocator _ _ (-row.storageBytes) (-1) ?_ (.inr (by omega)) rfl
    (fun a => ?_) (fun a => ?_) h.objectOwner h.rootOwner
  · intro acc ha
    have hq := (h.ledger.quota acc (Table.get?_eq_some.1 ha).1).1
    refine ⟨?_, ?_, ?_⟩ <;> omega
  · simp only [chargedBytes, objectBytes, rootBytes, Database.adjustUsage, map_some,
      getD_some, map_none, getD_none]
    split <;> omega
  · simp only [chargedNumber, objectNumber, Database.adjustUsage, map_some,
      getD_some, map_none, getD_none]
    split <;> omega

theorem gcAccount (h : Accounted lim db none) (a : String) (c : Int) :
    Accounted lim (gcAccount db a c).1 none := by
  -- the rows to delete are rows of the table and stay so until their turn comes
  have hfl : ∀ (d : List ObjectRow) db, Accounted lim db none →
      (d.map ObjectRow.key).Nodup → (∀ row ∈ d, row ∈ db.objects.rows) →
      Accounted lim (d.foldl gcDeleteRow db) none := by
    intro d
    induction d with
    | nil => exact fun db h _ _ => h
    | cons row d ih =>
      intro db h hnd hm
      rw [map_cons, nodup_cons] at hnd
      have hr := hm row mem_cons_self
      refine ih _ (h.deleteObject hr ?_) hnd.2 ?_
      · intro o ho
        simpa using ⟨fun hk => Table.eq_of_key_eq ho hr hk, fun h => h ▸ rfl⟩
      · intro o ho
        refine Table.mem_rows_deleteWhere.2 ⟨hm o (mem_cons_of_mem _ ho), ?_⟩
        rw [decide_eq_false_iff_not]
        exact fun hk => hnd.1 (hk ▸ List.mem_map_of_mem ho)
  exact hfl _ db h (db.objects.nodup_keys.sublist (filter_sublist.map _))
    fun row hr => (mem_filter.1 hr).1

theorem updateAccounts (h : Accounted lim db owed) (p : AccountRow → Bool)
    (f : AccountRow → AccountRow) (hk : ∀ row, (f row).accountLocator = row.accountLocator)
    (hf : ∀ row ∈ db.accounts.rows, p row → (f row).storedBytes = row.storedBytes ∧
      (f row).objectCount = row.objectCount ∧ row.storedBytes ≤ (f row).quotaBytes ∧
      (f row).quotaBytes ≤ i64Max) :
    Accounted lim { db with accounts := db.accounts.updateWhere p f hk } owed :=
  ⟨h.ledger.update hk hf, fun row hr => by simpa using h.objectOwner row hr,
    fun r hrt => by simpa using h.rootOwner r hrt⟩

theorem reserve {r : Database} (h : Accounted lim db none)
    (hrs : reserveAccountUsage db row.accountLocator row.storageBytes lim = .ok r)
    (hn : db.objects.get? row.key = none) :
    Accounted lim { r with objects := r.objects.insert row } none := by
  obtain ⟨a, stored, _, g, ha, hso, -, hq, -, hgl, hm, hlm, rfl⟩ := reserveAccountUsage_ok hrs
  have hqt := (h.ledger.quota a (Table.get?_eq_some.1 ha).1).2
  have hle := satAdd_le hq hqt
  rw [satAdd_eq hm (by omega)] at hlm
  exact h.insertObject ha hn (by omega) (by omega) rfl rfl rfl

theorem replaceRoot {acc : String} {rd : Database} {r : RootRow} (h : Accounted lim db none)
    (hl : r.accountLocator = acc)
    (hre : replaceAccountRootUsage db acc (((db.roots.get? acc).map RootRow.storageBytes).getD 0)
      r.storageBytes lim = .ok rd) :
    Accounted lim (writeRoot cfg rd acc r) none := by
  subst hl
  obtain ⟨acc, stored, g, hac, hso, hq, hgl, hmx, hlm, rfl⟩ := replaceAccountRootUsage_ok hre
  generalize hpr :
    ((db.roots.get? r.accountLocator).map RootRow.storageBytes).getD 0 = previous at *
  have hpr' : rootBytes db r.accountLocator = previous := by
    rw [← hpr, rootBytes]
    cases db.roots.get? r.accountLocator <;> rfl
  -- the previous root is part of what is stored, for the account and for all
  have hm := (Table.get?_eq_some.1 hac).1
  have hl := (Table.get?_eq_some.1 hac).2
  have hob := @objectBytes_nonneg db r.accountLocator
  have hch := h.ledger.stored acc hm
  have hqt := (h.ledger.quota acc hm).2
  have hle := satAdd_le hq hqt
  simp only [chargedBytes, hl, map_none, getD_none] at hch
  rw [satAdd_eq (by omega) (by omega)] at hlm
  generalize hsm : satAdd (stored - previous) r.storageBytes = sum at *
  have hsm' : sum = stored - previous + r.storageBytes := by
    rw [← hsm, satAdd_eq (by omega) (by omega)]
  have hrp : Accounted lim { db.adjustUsage r.accountLocator (fun _ => sum) id with
      roots := db.roots.upsert r } none := by
    refine h.adjust r.accountLocator (fun _ => sum) id (r.storageBytes - previous) 0 ?_
      (.inl (by omega)) rfl (fun a => ?_) (fun a => ?_) h.objectOwner ?_
    · intro o ho
      obtain rfl : acc = o := some.inj (hac.symm.trans ho)
      refine ⟨?_, ?_, ?_⟩
      · omega
      · simp
      · omega
    · simp only [chargedBytes, objectBytes, rootBytes, Database.adjustUsage, Table.get?_upsert,
        eq_comm (a := a)]
      by_cases ha : r.accountLocator = a
      · subst ha
        have := hpr'
        simp only [rootBytes] at this
        simp only [if_true, map_some, getD_some]
        omega
      · simp [ha]
    · simp [chargedNumber, objectNumber, Database.adjustUsage]
    · intro o ho
      rcases Table.mem_rows_upsert.1 ho with ⟨ho, -⟩ | rfl
      · exact h.rootOwner o ho
      · simp [hac]
  refine (hrp.updateAccounts (fun acc => acc.accountLocator = r.accountLocator)
    (fun acc => { acc with eventSequence := acc.eventSequence + 1 }) (fun _ => rfl)
    fun row hr _ => ?_).congr rfl rfl rfl
  exact ⟨rfl, rfl, hrp.ledger.quota row hr⟩

theorem createAccount (h : Accounted lim db none) (acc k : String) (pk : Bytes) :
    Accounted lim (createAccount cfg db acc k pk).2 none := by
  obtain hdb | ⟨q, ol, hq, hn, hdb⟩ := createAccount_snd k pk
  · rw [hdb]
    exact h
  · rw [hdb]
    have hg : ∀ a, db.accounts.get? a ≠ none → (db.accounts.insert ⟨acc, k, pk,
        .normal, q, ol, 0, 0, 0⟩).get? a ≠ none := by
      intro a ha
      rw [Table.get?_insert hn]
      split <;> simp_all
    -- an account that does not exist has no rows
    have hob : ∀ row ∈ db.objects.rows, row.accountLocator ≠ acc :=
      fun row hr hl => h.objectOwner row hr (hl ▸ hn)
    have hrt : db.roots.get? acc = none :=
      Table.get?_eq_none.2 fun r hrt hl => h.rootOwner r hrt (hl ▸ hn)
    have htt : ∀ w, objectTotal w db acc = 0 := fun w => by
      rw [objectTotal, Table.total_congr fun row hr => if_neg (hob row hr), Table.total_zero]
    refine ⟨(h.ledger.insert hn rfl rfl hq ?_ ?_).congr (fun _ => rfl) fun _ => rfl,
      fun row hr => hg _ (h.objectOwner row hr), fun r hrt => hg _ (h.rootOwner r hrt)⟩
    · simp [chargedBytes, show objectBytes db acc = 0 from htt _, rootBytes, hrt]
    · simp [chargedNumber, show objectNumber db acc = 0 from htt _]

theorem setAccountQuota (h : Accounted lim db none) (a : String) (q : Nat) :
    Accounted lim (setAccountQuota db a q).2 none := by
  obtain hdb | ⟨hq, hdb⟩ := @setAccountQuota_snd db a q
  · rw [hdb]
    exact h
  · rw [hdb]
    refine h.updateAccounts _ _ _ fun row _ hsl => ?_
    rw [Bool.and_eq_true, decide_eq_true_eq, decide_eq_true_eq] at hsl
    exact ⟨rfl, rfl, hsl.2, hq⟩

theorem setAccountMode (h : Accounted lim db none) (a : String) (m : AccountMode) :
    Accounted lim (setAccountMode db a m) none :=
  h.updateAccounts _ _ _ fun row hr _ => ⟨rfl, rfl, h.ledger.quota row hr⟩

theorem deleteAccount (h : Accounted lim db none) (acc : String) :
    Accounted lim (deleteAccount db acc) none := by
  have hg : ∀ a, a ≠ acc → db.accounts.get? a ≠ none →
      (Server.deleteAccount db acc).accounts.get? a ≠ none := by
    intro a hne ha
    rwa [Server.deleteAccount, Table.get?_deleteWhere_of_spares]
    exact fun row hr => by simp [hr, hne]
  -- the rows of the other accounts stay
  have hwg : ∀ a (w : ObjectRow → Int), a ≠ acc →
      ((Server.deleteAccount db acc).objects.total fun row =>
        if row.accountLocator = a then w row else 0) =
      db.objects.total fun row => if row.accountLocator = a then w row else 0 := by
    intro a w hne
    have hzr : (db.objects.total fun row => if decide (row.accountLocator = acc) then
        (if row.accountLocator = a then w row else 0) else 0) = db.objects.total fun _ => 0 := by
      refine Table.total_congr fun row _ => ?_
      by_cases hl : row.accountLocator = acc
      · simp [hl, Ne.symm hne]
      · simp [hl]
    simp only [Server.deleteAccount, Table.total_deleteWhere]
    rw [hzr, Table.total_zero, sub_zero]
  refine ⟨h.ledger.delete (fun a => ?_) (fun row _ hr => ?_) (fun row _ hr => ?_), ?_, ?_⟩
  · have hob := @objectBytes_nonneg db a
    have hrt := @rootBytes_nonneg db a
    simp only [chargedBytes, map_none, getD_none]
    omega
  · have hne : row.accountLocator ≠ acc := by simpa using hr
    have hro : (Server.deleteAccount db acc).roots.get? row.accountLocator =
        db.roots.get? row.accountLocator :=
      Table.get?_deleteWhere_of_spares fun r hrt => by simp [hrt, hne]
    simp [chargedBytes, objectBytes, rootBytes, hwg _ _ hne, hro]
  · have hne : row.accountLocator ≠ acc := by simpa using hr
    simp [chargedNumber, objectNumber, hwg _ _ hne]
  · intro row hr
    obtain ⟨hr, ho⟩ := Table.mem_rows_deleteWhere.1 hr
    exact hg _ (by simpa using ho) (h.objectOwner row hr)
  · intro r hrt
    obtain ⟨hrt, ho⟩ := Table.mem_rows_deleteWhere.1 hrt
    exact hg _ (by simpa using ho) (h.rootOwner r hrt)

end Accounted

theorem foldl_satAdd {xs : List Nat} {n : Nat} (h : n + xs.sum ≤ u64Max) :
    xs.foldl satAdd n = n + xs.sum := by
  induction xs generalizing n with
  | nil => simp
  | cons x xs ih =>
    rw [sum_cons] at h ⊢
    have hx : satAdd n x = n + x := by
      unfold satAdd
      omega
    rw [foldl_cons, ih (by omega)]
    omega

theorem accountUsage_eq {a : String} (h : objectBytes db a + rootBytes db a ≤ i64Max) :
    (accountUsage db a : Int) = objectBytes db a + rootBytes db a := by
  have hob : objectBytes db a = ((accountObjects db a).map ObjectRow.storageBytes).sum :=
    Table.total_ite db.objects (·.accountLocator = a) ObjectRow.storageBytes
  have hro : rootBytes db a = ((db.roots.rows.filter fun r =>
      r.accountLocator = a).map RootRow.storageBytes).sum := by
    rw [← Table.total_ite db.roots (·.accountLocator = a) RootRow.storageBytes,
      Table.total_eq_of_key db.roots a _ fun r hrt => if_neg hrt, rootBytes]
    cases hg : db.roots.get? a with
    | none => rfl
    | some r => simp [(Table.get?_eq_some.1 hg).2]
  have hm : i64Max ≤ u64Max := by decide
  simp only [accountUsage]
  rw [foldl_satAdd (n := 0) (by omega), foldl_satAdd (by omega)]
  omega

theorem Accounted.repair {l : Nat} (h : Accounted l db none)
    (hrp : repairStorageAccounting cfg db = .ok db') : Accounted l db' none := by
  obtain ⟨m, rfl⟩ := repairStorageAccounting_ok hrp
  refine (h.updateAccounts (fun _ => true) (fun a => { a with
    storedBytes := accountUsage db a.accountLocator }) (fun _ => rfl)
    fun a ha _ => ?_).congr rfl rfl rfl
  have hso := h.ledger.stored a ha
  obtain ⟨hq, hm⟩ := h.ledger.quota a ha
  simp only [chargedBytes, map_none, getD_none, add_zero] at hso
  refine ⟨?_, rfl, hq, hm⟩
  rw [hso, accountUsage_eq (by omega)]

def Process.owed : Process → Option ObjectRow
  | .opening _ owed => owed
  | _ => none

/-- The accounts are in balance, but for the row that `open` is about to release. -/
structure AccountingInv (cfg : StoreConfig) (s : Store) : Prop where
  accounted : Accounted cfg.globalStorageLimitBytes s.db s.process.owed
  opening : OpenInv s

/-- The condition on a step under which it keeps the accounts: a failed call finds the pending row
that it reserved space for, or its account is gone; and the process does not crash between the two
statements with which `open` settles a row. -/
def Store.keepsAccounts (s : Store) : Label → Bool
  | .removePending callId => (s.calls.get? callId).all fun call =>
      (s.db.accounts.get? call.accountLocator).isNone ||
      (s.db.objects.get? call.rowKey).any fun row =>
        row.state = .pending && row.storageBytes = call.storageBytes
  | .crash => s.process.owed.isNone
  | _ => true

namespace AccountingInv

variable {s s' : Store}

/-- A running process owes nothing. -/
theorem running (h : AccountingInv cfg s) (hpr : s.process = .running) :
    Accounted cfg.globalStorageLimitBytes s.db none := by
  have hac := h.accounted
  rwa [hpr] at hac

theorem removePending {cid : Nat} {c : CreateCall}
    (h : Accounted cfg.globalStorageLimitBytes s.db none) (hcl : s.calls.get? cid = some c)
    (hok : s.keepsAccounts (.removePending cid) = true) : Accounted cfg.globalStorageLimitBytes
      (removePendingObject s.db c.accountLocator c.objectId c.storageBytes) none := by
  simp only [Store.keepsAccounts, hcl, all_some, Bool.or_eq_true, isNone_iff_eq_none,
    Option.any_eq_true, Bool.and_eq_true, decide_eq_true_eq] at hok
  rcases hok with hgn | ⟨row, hr, hst, hb⟩
  · -- without the account there is neither a row to delete nor a column to change
    refine h.congr (Table.updateWhere_eq_self (by exact fun _ => rfl) fun a ha => ?_)
      (Table.deleteWhere_eq_self fun row hr => ?_) rfl
    · exact decide_eq_false (Table.get?_eq_none.1 hgn a ha)
    · have hne : row.accountLocator ≠ c.accountLocator := fun hl => h.objectOwner row hr (hl ▸ hgn)
      simp [ObjectRow.key, hne]
  · obtain ⟨hm, hk⟩ := Table.get?_eq_some.1 hr
    have hd := h.deleteObject hm (Accounted.deletePending_selects hm hk hst)
    rw [hb, (Prod.mk.inj hk).1] at hd
    exact hd

private theorem owing_none (hpr : s.process = .running)
    (h : Accounted cfg.globalStorageLimitBytes s.db none) :
    Accounted cfg.globalStorageLimitBytes s.db s.process.owed := by
  rwa [hpr]

theorem step {l : Label} (hst : s.step P cfg l = some s')
    (hok : s.keepsAccounts l = true) (h : AccountingInv cfg s) : AccountingInv cfg s' := by
  refine ⟨?_, h.opening.step hst⟩
  have hac := h.accounted
  cases Store.effect_of_step hst with
  | tick => exact hac
  | crash =>
    rw [isNone_iff_eq_none.1 hok] at hac
    exact hac
  | openStore hpr hr =>
    rw [hpr] at hac
    exact hac.repair hr
  | createAccount hpr => exact owing_none hpr ((h.running hpr).createAccount _ _ _)
  | createObjectInline hpr ho hn _ hrs
  | createObjectPending hpr ho _ hn _ hrs =>
    obtain ⟨-, rfl, -, -, -, hb⟩ := prepareObject_ok ho
    rw [hb] at hrs
    refine owing_none hpr ((h.running hpr).reserve hrs ?_)
    exact hn
  | markReady hpr => exact owing_none hpr ((h.running hpr).markReady _ _)
  | removePending hpr hcl => exact owing_none hpr (removePending (h.running hpr) hcl hok)
  | rootCommitted hpr hrt _ _ _ hrp =>
    obtain ⟨-, -, hb⟩ := prepareRoot_ok hrt
    rw [hb] at hrp
    exact owing_none hpr ((h.running hpr).replaceRoot rfl hrp)
  | gcAccount hpr => exact owing_none hpr ((h.running hpr).gcAccount _ _)
  | setAccountMode hpr => exact owing_none hpr ((h.running hpr).setAccountMode _ _)
  | setAccountQuota hpr => exact owing_none hpr ((h.running hpr).setAccountQuota _ _)
  | deleteAccount hpr => exact owing_none hpr ((h.running hpr).deleteAccount _)
  | reconcileReady hpr =>
    rw [hpr] at hac
    exact hac.markReady _ _
  | reconcileDelete hpr =>
    rw [hpr] at hac
    obtain ⟨hm, hs⟩ := (h.opening.remaining _ _ hpr).2 _ mem_cons_self
    exact hac.deletePending hm rfl hs
  | reconcileRelease hpr =>
    rw [hpr] at hac
    exact hac.releaseOwed
  | opened hpr =>
    rw [hpr] at hac
    exact hac
  | requestRejected hpr | requestStarted hpr | verifyRequest hpr | verifyCreation hpr
  | createObjectRejected _ hpr | rootRejected _ hpr | blobWritten hpr
  | blobFailed hpr | abandonCall hpr | startGc hpr | gcReferenced hpr
  | gcUnlink hpr | gcList hpr | gcKeep hpr | gcSweep hpr | gcDone hpr
  | gcAbort hpr | setServiceMode hpr => exact owing_none hpr ((h.running hpr).congr rfl rfl rfl)

theorem created : AccountingInv cfg .created := by
  refine ⟨⟨⟨?_, ?_, ?_, ?_⟩, ?_, ?_⟩, .created⟩ <;> simp [Store.created, Database.initialized]

end AccountingInv

/-- In every run from a new store in which failed calls find their pending rows and no crash falls
between the two statements that settle a pending row, every account is charged for exactly its rows
and its root, within its quota, and all accounts together within the limit of the service. -/
theorem storage_accounting_exact {s : Store} {labels : List Label}
    (hrun : Run.exec (Store.step P cfg) .created labels = some s)
    (hok : Run.Steps (Store.step P cfg) (fun s label => s.keepsAccounts label = true) .created labels)
    (hprocess : s.process = .running) :
    (∀ account ∈ s.db.accounts.rows,
      account.storedBytes = objectBytes s.db account.accountLocator +
        rootBytes s.db account.accountLocator ∧
      account.objectCount = objectNumber s.db account.accountLocator ∧
      account.storedBytes ≤ account.quotaBytes) ∧
    s.db.accounts.total AccountRow.storedBytes ≤ cfg.globalStorageLimitBytes := by
  have hin := Run.exec_inv_of_steps (AccountingInv cfg) .step .created hrun hok
  have hld := (hin.running hprocess).ledger
  refine ⟨fun account ha => ⟨?_, ?_, (hld.quota account ha).1⟩, hld.global⟩
  · simpa [chargedBytes] using hld.stored account ha
  · simpa [chargedNumber] using hld.count account ha

def largeValue : AcsEncryptedValue := valueOf "large" []

/-- Calls that store a large object, fail to store another, and commit a root, and a collection. -/
def busyRun : List Label :=
  [.createAccount "account" "key" [], .createObject 0 "account" "stored" largeValue 0 1,
    .createObject 1 "account" "failed" largeValue 0 1, .writeBlob 0 (.completed 0), .markReady 0,
    .writeBlob 1 .failedBefore, .removePending 1,
    .compareAndSwapRoot "account" ⟨0, none, valueOf "r" ["stored"]⟩ 10 1 (.ok ()),
    .startGc 1000 0, .gcStep [], .gcStep [], .gcStep [], .gcStep []]

/-- One object is stored, one creation fails, a root is set and a collection runs. -/
theorem storage_accounting_exact_busyRun :
    ∃ s, Run.exec (Store.step .transparent .small) .created busyRun = some s ∧
      ∃ account ∈ s.db.accounts.rows, account.storedBytes = 1048 ∧
        account.storedBytes = objectBytes s.db account.accountLocator +
          rootBytes s.db account.accountLocator := by
  have hch : (Run.exec (Store.step .transparent .small) .created busyRun).any (fun s =>
      decide (s.process = .running) &&
        s.db.accounts.rows.any fun account => decide (account.storedBytes = 1048)) = true := by decide +kernel
  obtain ⟨s, hr, h⟩ := Run.exists_of_any hch
  simp only [Bool.and_eq_true, decide_eq_true_eq, List.any_eq_true] at h
  obtain ⟨hprocess, account, ha, hso⟩ := h
  exact ⟨s, hr, account, ha, hso,
    ((storage_accounting_exact hr (by decide +kernel) hprocess).1 account ha).1⟩

/-- A collection deletes the pending row of a call that then fails to write its blob. -/
def doubleRelease : List Label :=
  [.createAccount "account" "key" [], .createObject 0 "account" "young" (valueOf "y" []) 100 1,
    .createObject 1 "account" "large" largeValue 0 1,
    .startGc 50 0, .gcStep [], .gcStep [], .gcStep [], .gcStep [],
    .writeBlob 1 .failedBefore, .removePending 1]

/-- A crash between the two statements that settle a pending row. -/
def crashInReconcile : List Label :=
  [.createAccount "account" "key" [], .createObject 0 "account" "large" largeValue 0 1, .crash,
    .openStore, .reconcile true, .crash, .openStore, .opened]

/-- Some account's columns are not what its rows add up to, with no call in progress. -/
def accountsDrift (s : Store) : Bool :=
  decide (s.process = .running) && s.calls.rows.isEmpty && s.db.accounts.rows.any fun account =>
    decide (account.storedBytes ≠ objectBytes s.db account.accountLocator +
      rootBytes s.db account.accountLocator ∨
      account.objectCount ≠ objectNumber s.db account.accountLocator)

/-- In `doubleRelease` the reservation of the large object is released twice. In `crashInReconcile`
the row is deleted and its count stays. -/
theorem storage_accounting_drifts :
    (Run.exec (Store.step .transparent .small) .created doubleRelease).any accountsDrift = true ∧
    (Run.exec (Store.step .transparent .small) .created crashInReconcile).any accountsDrift = true := by
  decide +kernel

end Aerobag.Server
