import Aerobag.Server.Proofs.SystemProofs

/-!
# The object graph

Every write checks that its direct children are `ready`. This is enough because the children of
every row are (`GraphClosed`), which a collection keeps when young rows do not refer to older ones
that it deletes.
-/

namespace Aerobag.Server

variable {P : Primitives} {cfg : StoreConfig} {db db' : Database} {account : String}

def childrenOf (objects : List ObjectRow) (objectId : String) : List String :=
  ((objects.find? fun row => row.objectId = objectId).map ObjectRow.childObjectIds).getD []

theorem accountObjects_find? (oid : String) :
    ((accountObjects db account).find? fun row => row.objectId = oid) =
      db.objects.get? (account, oid) := by
  simp [accountObjects, List.find?_filter, Table.get?, ObjectRow.key]

theorem unmarkedChildren_cons {os : List ObjectRow} {marked : List String} {oid : String}
    (h : oid ∉ marked) : (childrenOf os oid).length + unmarkedChildren os (oid :: marked) ≤
      unmarkedChildren os marked := by
  induction os with
  | nil => simp [childrenOf, unmarkedChildren]
  | cons row os ih =>
    simp only [unmarkedChildren] at ih
    by_cases hid : row.objectId = oid
    · -- the row itself: it leaves the sum, and the rest of the sum does not grow
      have hr : ((os.filter fun row => !(oid :: marked).contains row.objectId).map
          fun row => row.childObjectIds.length).sum ≤ ((os.filter fun row =>
            !marked.contains row.objectId).map fun row => row.childObjectIds.length).sum := by
        omega
      simpa [childrenOf, unmarkedChildren, hid, h] using hr
    · by_cases hmr : row.objectId ∈ marked
      · simpa [childrenOf, unmarkedChildren, hid, hmr] using ih
      · simp only [childrenOf, unmarkedChildren, hid, decide_false, Bool.false_eq_true,
          not_false_eq_true, List.find?_cons_of_neg, List.contains_eq_mem, List.mem_cons, hmr,
          or_self, Bool.not_false, List.filter_cons_of_pos, List.map_cons, List.sum_cons] at ih ⊢
        omega

/-- With enough rounds the marking loop ends with every queued and every marked id marked, and
with the children of everything marked. -/
theorem markLoop_closed {os : List ObjectRow} {n : Nat} {p m : List String}
    (hfu : p.length + unmarkedChildren os m ≤ n)
    (hmr : ∀ id ∈ m, ∀ c ∈ childrenOf os id, c ∈ m ∨ c ∈ p) : (∀ id ∈ p, id ∈ markLoop os n p m) ∧
    (∀ id ∈ m, id ∈ markLoop os n p m) ∧ ∀ id ∈ markLoop os n p m, ∀ c ∈ childrenOf os id,
      c ∈ markLoop os n p m := by
  induction n generalizing p m with
  | zero =>
    obtain rfl : p = [] := List.length_eq_zero_iff.1 (by omega)
    simpa [markLoop] using hmr
  | succ n ih =>
    cases p with
    | nil => simpa [markLoop] using hmr
    | cons o p =>
      rw [List.length_cons] at hfu
      by_cases hin : o ∈ m
      · have hlp : markLoop os (n + 1) (o :: p) m = markLoop os n p m := by simp [markLoop, hin]
        rw [hlp]
        have hnx : ∀ id ∈ m, ∀ c ∈ childrenOf os id, c ∈ m ∨ c ∈ p := by
          intro id hid c hch
          rcases hmr id hid c hch with h | h
          · exact .inl h
          · rcases List.mem_cons.1 h with rfl | h
            · exact .inl hin
            · exact .inr h
        obtain ⟨hpn, hkp, hcl⟩ := ih (by omega) hnx
        refine ⟨?_, hkp, hcl⟩
        rintro id (_ | ⟨_, hid⟩)
        · exact hkp o hin
        · exact hpn id hid
      · have hlp : markLoop os (n + 1) (o :: p) m =
            markLoop os n (p ++ childrenOf os o) (o :: m) := by
          simp [markLoop, hin, childrenOf]
        rw [hlp]
        have hms := @unmarkedChildren_cons os _ _ hin
        have hnx : ∀ id ∈ o :: m, ∀ c ∈ childrenOf os id,
            c ∈ o :: m ∨ c ∈ p ++ childrenOf os o := by
          intro id hid c hch
          rcases List.mem_cons.1 hid with rfl | hid
          · exact .inr (List.mem_append_right _ hch)
          · rcases hmr id hid c hch with h | h
            · exact .inl (List.mem_cons_of_mem _ h)
            · rcases List.mem_cons.1 h with rfl | h
              · exact .inl List.mem_cons_self
              · exact .inr (List.mem_append_left _ h)
        obtain ⟨hpn, hkp, hcl⟩ := ih (by rw [List.length_append]; omega) hnx
        refine ⟨?_, fun id hid => hkp id (List.mem_cons_of_mem _ hid), hcl⟩
        rintro id (_ | ⟨_, hid⟩)
        · exact hkp o List.mem_cons_self
        · exact hpn id (List.mem_append_left _ hid)

/-- What is marked has the roots and is closed under children. -/
theorem markObjects_closed (os : List ObjectRow) (rs : List String) :
    (∀ id ∈ rs, id ∈ markObjects os rs) ∧
    ∀ id ∈ markObjects os rs, ∀ c ∈ childrenOf os id, c ∈ markObjects os rs := by
  obtain ⟨hrt, -, hcl⟩ := @markLoop_closed os _ rs [] (le_refl _) (by simp)
  exact ⟨hrt, hcl⟩

/-- The object is there and complete. -/
def Ready (db : Database) (account objectId : String) : Prop :=
  ∃ row, db.objects.get? (account, objectId) = some row ∧ row.state = .ready

/-- The ids reachable from the account's root through child ids. -/
inductive Reachable (db : Database) (account : String) : String → Prop
  | root {root : RootRow} {child : String} (hroot : db.roots.get? account = some root)
      (hchild : child ∈ root.childObjectIds) : Reachable db account child
  | child {objectId child : String} {row : ObjectRow} (hparent : Reachable db account objectId)
      (hrow : db.objects.get? (account, objectId) = some row)
      (hchild : child ∈ row.childObjectIds) : Reachable db account child

/-- The children of every object row and of every root are `ready`. -/
structure GraphClosed (db : Database) : Prop where
  objects : ∀ row ∈ db.objects.rows, ∀ child ∈ row.childObjectIds, Ready db row.accountLocator child
  roots : ∀ root ∈ db.roots.rows, ∀ child ∈ root.childObjectIds, Ready db root.accountLocator child

/-- In a closed graph every reachable object is ready. -/
theorem GraphClosed.ready (h : GraphClosed db) {o : String}
    (hrc : Reachable db account o) : Ready db account o := by
  induction hrc with
  | root hrt hch =>
    obtain ⟨hm, rfl⟩ := Table.get?_eq_some.1 hrt
    exact h.roots _ hm _ hch
  | child _ hr hch _ =>
    obtain ⟨hm, hk⟩ := Table.get?_eq_some.1 hr
    obtain ⟨rfl, -⟩ := Prod.mk.inj hk
    exact h.objects _ hm _ hch

/-- A reachable object is marked. -/
theorem Reachable.marked {o : String} (h : Reachable db account o) :
    o ∈ markObjects (accountObjects db account) (rootChildren db account) := by
  obtain ⟨hro, hcl⟩ := markObjects_closed (accountObjects db account) (rootChildren db account)
  induction h with
  | root hrt hch => exact hro _ (by simpa [rootChildren, hrt] using hch)
  | @child o c row _ hr hch ih =>
    refine hcl o ih c ?_
    simpa [childrenOf, accountObjects_find?, hr] using hch

theorem GraphClosed.congr (h : GraphClosed db) (hob : db'.objects = db.objects)
    (hrt : db'.roots = db.roots) : GraphClosed db' := by
  constructor
  · simpa [Ready, hob] using h.objects
  · rw [hrt]
    simpa [Ready, hob] using h.roots

theorem GraphClosed.insert (h : GraphClosed db) {row : ObjectRow}
    (hn : db.objects.get? row.key = none)
    (hkd : ∀ c ∈ row.childObjectIds, Ready db row.accountLocator c) :
    GraphClosed { db with objects := db.objects.insert row } := by
  have hr : ∀ {a o}, Ready db a o → Ready { db with objects := db.objects.insert row } a o := by
    rintro a o ⟨old, hl, hst⟩
    refine ⟨old, ?_, hst⟩
    rw [Table.get?_insert hn, if_neg, hl]
    intro hk
    simp [← hk, hn] at hl
  constructor
  · intro oth ho c hch
    rcases (Table.mem_rows_insert hn).1 ho with ho | rfl
    · exact hr (h.objects oth ho c hch)
    · exact hr (hkd c hch)
  · exact fun r hrt c hch => hr (h.roots r hrt c hch)

theorem GraphClosed.markReady (h : GraphClosed db) (a' oi' : String) :
    GraphClosed (markReady db a' oi') := by
  have hr : ∀ {a o}, Ready db a o → Ready (Server.markReady db a' oi') a o := by
    rintro a o ⟨row, hro, hst⟩
    exact ⟨row, by simp [Server.markReady, hro, hst], hst⟩
  constructor
  · intro row hro c hch
    rcases mem_markReady.1 hro with ⟨hro, -⟩ | ⟨old, hl, -, -, rfl⟩
    · exact hr (h.objects row hro c hch)
    · exact hr (h.objects old hl c hch)
  · exact fun r hrt c hch => hr (h.roots r hrt c hch)

theorem GraphClosed.deletePending (h : GraphClosed db) (a' oi' : String) :
    GraphClosed (deletePending db a' oi') := by
  have hr : ∀ {a o}, Ready db a o → Ready (Server.deletePending db a' oi') a o := by
    rintro a o ⟨row, hro, hst⟩
    exact ⟨row, Table.get?_deleteWhere_eq_some.2 ⟨hro, by simp [hst]⟩, hst⟩
  constructor
  · intro row hro c hch
    exact hr (h.objects row (Table.mem_rows_deleteWhere.1 hro).1 c hch)
  · exact fun r hrt c hch => hr (h.roots r hrt c hch)

theorem GraphClosed.upsertRoot (h : GraphClosed db) {r : RootRow}
    (hkd : ∀ c ∈ r.childObjectIds, Ready db r.accountLocator c) :
    GraphClosed { db with roots := db.roots.upsert r } := by
  refine ⟨h.objects, fun o ho c hch => ?_⟩
  rcases Table.mem_rows_upsert.1 ho with ⟨ho, -⟩ | rfl
  · exact h.roots o ho c hch
  · exact hkd c hch

theorem GraphClosed.deleteAccount (h : GraphClosed db) (a' : String) :
    GraphClosed (deleteAccount db a') := by
  have hr : ∀ {a o}, a ≠ a' → Ready db a o → Ready (Server.deleteAccount db a') a o := by
    rintro a o hne ⟨row, hro, hst⟩
    have ha : row.accountLocator = a := (Prod.mk.inj (Table.get?_eq_some.1 hro).2).1
    exact ⟨row, Table.get?_deleteWhere_eq_some.2 ⟨hro, by simp [ha, hne]⟩, hst⟩
  constructor
  · intro row hro c hch
    obtain ⟨hro, ho⟩ := Table.mem_rows_deleteWhere.1 hro
    exact hr (by simpa using ho) (h.objects row hro c hch)
  · intro r hrt c hch
    obtain ⟨hrt, ho⟩ := Table.mem_rows_deleteWhere.1 hrt
    exact hr (by simpa using ho) (h.roots r hrt c hch)

/-- No row of the account that is younger than the cutoff refers to an older one, unless the latter
is reachable from the root. -/
def YoungSparesChildren (db : Database) (account : String) (cutoff : Int) : Prop :=
  ∀ row ∈ db.objects.rows, row.accountLocator = account → cutoff < row.createdAtEpochMs →
    ∀ child ∈ row.childObjectIds, ∀ old, db.objects.get? (account, child) = some old →
      cutoff < old.createdAtEpochMs ∨ Reachable db account child

/-- A row is kept if it is marked or young. -/
theorem gcDeletes_eq_false {c : Int} {row : ObjectRow} (ha : row.accountLocator = account) :
    gcDeletes db account c row = false ↔
      row.objectId ∈ markObjects (accountObjects db account) (rootChildren db account) ∨
        c < row.createdAtEpochMs := by
  simp [gcDeletes]
  tauto

/-- An account transaction of the collection keeps the graph closed if it spares the children of
the rows that it spares for their age. -/
theorem GraphClosed.gcAccount (h : GraphClosed db) {co : Int}
    (hyo : YoungSparesChildren db account co) : GraphClosed (gcAccount db account co).1 := by
  have hr : ∀ {a' c old}, db.objects.get? (a', c) = some old →
      old.state = .ready → gcDeletes db account co old = false →
      Ready (Server.gcAccount db account co).1 a' c := by
    intro a' c old hl hst hkp
    obtain ⟨hm, hk⟩ := Table.get?_eq_some.1 hl
    exact ⟨old, Table.get?_eq_some.2 ⟨mem_gcAccount_objects.2 ⟨hm, hkp⟩, hk⟩, hst⟩
  obtain ⟨hro, hcl⟩ := markObjects_closed (accountObjects db account) (rootChildren db account)
  constructor
  · intro row hrow c hch
    obtain ⟨hrow, hkp⟩ := mem_gcAccount_objects.1 hrow
    obtain ⟨old, hl, hst⟩ := h.objects row hrow c hch
    obtain ⟨ha, hid⟩ := Prod.mk.inj (Table.get?_eq_some.1 hl).2
    refine hr hl hst ?_
    by_cases haccount : row.accountLocator = account
    · rw [gcDeletes_eq_false (ha.trans haccount), hid]
      rcases (gcDeletes_eq_false haccount).1 hkp with hmr | hyn
      · -- a marked row has marked children
        refine .inl (hcl _ hmr c ?_)
        have hg : db.objects.get? (account, row.objectId) = some row :=
          Table.get?_eq_some.2 ⟨hrow, by rw [ObjectRow.key, haccount]⟩
        simpa [childrenOf, accountObjects_find?, hg] using hch
      · -- the children of a young row are young or reachable
        rcases hyo row hrow haccount hyn c hch old (haccount ▸ hl) with h | h
        · exact .inr h
        · exact .inl h.marked
    · simp [gcDeletes, ha, haccount]
  · intro r hrt c hch
    rw [gcAccount_roots] at hrt
    obtain ⟨old, hl, hst⟩ := h.roots r hrt c hch
    obtain ⟨ha, hid⟩ := Prod.mk.inj (Table.get?_eq_some.1 hl).2
    refine hr hl hst ?_
    by_cases haccount : r.accountLocator = account
    · rw [gcDeletes_eq_false (ha.trans haccount), hid]
      have hg : db.roots.get? account = some r := haccount ▸ Table.get?_key hrt
      exact .inl (Reachable.root hg hch).marked
    · simp [gcDeletes, ha, haccount]

/-- The condition on a step under which it keeps the graph closed: when it is an account transaction
of the collection, the account's young rows refer to no older unreachable ones. -/
def Store.CollectsClosed (s : Store) : Label → Prop
  | .gcStep _ => match s.gc with
    | some (.accounts cutoff (account :: _) _) => YoungSparesChildren s.db account cutoff
    | _ => True
  | _ => True

/-- A step keeps the graph closed, if a collection keeps the children of young rows. -/
theorem GraphClosed.step {s s' : Store} {l : Label} (hst : s.step P cfg l = some s')
    (hok : s.CollectsClosed l) (h : GraphClosed s.db) : GraphClosed s'.db := by
  cases Store.effect_of_step hst with
  | openStore _ hr =>
    obtain ⟨m, rfl⟩ := repairStorageAccounting_ok hr
    exact h.congr rfl rfl
  | createAccount =>
    obtain hdb | ⟨_, _, _, _, hdb⟩ := createAccount_snd _ _ <;> rw [hdb] <;> exact h.congr rfl rfl
  | createObjectInline _ ho hn hkd hrs
  | createObjectPending _ ho _ hn hkd hrs =>
    obtain ⟨_, _, _, _, _, _, _, _, _, _, _, _, rfl⟩ := reserveAccountUsage_ok hrs
    obtain ⟨-, rfl, -⟩ := prepareObject_ok ho
    refine .congr (h.insert ?_ ?_) rfl rfl
    · exact hn
    · exact fun c => ensureChildrenExist_ok hkd
  | markReady => exact h.markReady _ _
  | removePending => exact (h.deletePending _ _).congr rfl rfl
  | rootCommitted _ _ _ _ hkd hrp =>
    obtain ⟨_, _, _, _, _, _, _, _, _, rfl⟩ := replaceAccountRootUsage_ok hrp
    exact (h.upsertRoot fun c => ensureChildrenExist_ok hkd).congr rfl rfl
  | gcAccount _ hgc => exact h.gcAccount (by simpa [Store.CollectsClosed, hgc] using hok)
  | setAccountQuota =>
    obtain hdb | ⟨_, hdb⟩ := setAccountQuota_snd _ <;> rw [hdb] <;> exact h.congr rfl rfl
  | deleteAccount => exact h.deleteAccount _
  | reconcileReady => exact h.markReady _ _
  | reconcileDelete => exact h.deletePending _ _
  | _ => exact h.congr rfl rfl

/-- In every run from a new store in which no collection runs while a young row refers to an older
unreachable one, everything reachable from an account's root is a `ready` object of the account. -/
theorem reachable_objects_ready {s : Store} {labels : List Label}
    (hrun : Run.exec (Store.step P cfg) .created labels = some s)
    (hok : Run.Steps (Store.step P cfg) Store.CollectsClosed .created labels) {objectId : String}
    (hreach : Reachable s.db account objectId) : Ready s.db account objectId := by
  have hcr : GraphClosed Store.created.db := ⟨by simp [Store.created, Database.initialized],
    by simp [Store.created, Database.initialized]⟩
  have hcl := Run.exec_inv_of_steps (fun s => GraphClosed s.db) .step hcr hrun hok
  exact hcl.ready hreach

def valueOf (ciphertext : String) (children : List String) : AcsEncryptedValue :=
  ⟨ciphertext, Primitives.transparent.sha256Hex (strBytes ciphertext), children⟩

/-- An account whose root refers to `page`, which refers to `leaf`, and a collection that deletes
the unreachable object `stray`. -/
def collectStray : List Label :=
  [.createAccount "account" "key" [], .createObject 0 "account" "leaf" (valueOf "l" []) 0 1,
    .createObject 1 "account" "page" (valueOf "p" ["leaf"]) 10 1,
    .createObject 2 "account" "stray" (valueOf "s" []) 20 1,
    .compareAndSwapRoot "account" ⟨0, none, valueOf "r" ["page"]⟩ 30 1 (.ok ()),
    .startGc 1000 100, .gcStep [], .gcStep [], .gcStep [], .gcStep []]

def refersThrough (db : Database) (account objectId child : String) : Bool :=
  (db.roots.get? account).any (fun root => root.childObjectIds.contains objectId) &&
    (db.objects.get? (account, objectId)).any fun row => row.childObjectIds.contains child

theorem Reachable.of_refersThrough {oid c : String}
    (h : refersThrough db account oid c = true) : Reachable db account c := by
  simp only [refersThrough, Bool.and_eq_true, Option.any_eq_true_iff_get, List.contains_eq_mem,
    decide_eq_true_eq] at h
  obtain ⟨⟨hrt, ho⟩, hr, hch⟩ := h
  exact .child (.root (Option.some_get hrt).symm ho) (Option.some_get hr).symm hch

/-- No row is younger than the cutoff of the account transaction that the collection is at. -/
def nothingYoung (s : Store) : Bool :=
  match s.gc with
  | some (.accounts cutoff _ _) =>
    s.db.objects.rows.all fun row => decide (row.createdAtEpochMs ≤ cutoff)
  | _ => true

theorem collectsClosed_of_nothingYoung {s : Store} (h : nothingYoung s = true) (l : Label) :
    s.CollectsClosed l := by
  cases l with
  | gcStep ls =>
    unfold Store.CollectsClosed
    simp only
    split
    · next hgc =>
      simp only [nothingYoung, hgc, List.all_eq_true, decide_eq_true_eq] at h
      exact fun row hr _ hyn => absurd hyn (not_lt.2 (h row hr))
    · trivial
  | _ => trivial

/-- The theorem at the run `collectStray`: `leaf` is reachable through `page`, and ready. -/
theorem reachable_objects_ready_collectStray :
    ∃ s, Run.exec (Store.step .transparent .small) .created collectStray = some s ∧
      Reachable s.db "account" "leaf" ∧ Ready s.db "account" "leaf" := by
  have hch : (Run.exec (Store.step .transparent .small) .created collectStray).any
      (fun s => refersThrough s.db "account" "page" "leaf") = true := by decide +kernel
  have hok : Run.Steps (Store.step .transparent .small) (fun s _ => nothingYoung s = true) .created
      collectStray := by decide +kernel
  obtain ⟨s, hr, h⟩ := Run.exists_of_any hch
  have hrc : Reachable s.db "account" "leaf" := .of_refersThrough h
  exact ⟨s, hr, hrc, reachable_objects_ready hr
    (hok.mono fun s l h => collectsClosed_of_nothingYoung h l) hrc⟩

/-- A collection while the young object `young` refers to the older object `old`, and a new root
that refers to `young`. -/
def collectChild : List Label :=
  [.createAccount "account" "key" [], .createObject 0 "account" "old" (valueOf "o" []) 0 1,
    .createObject 1 "account" "young" (valueOf "y" ["old"]) 100 1,
    .startGc 100 50, .gcStep [], .gcStep [], .gcStep [], .gcStep [],
    .compareAndSwapRoot "account" ⟨0, none, valueOf "r" ["young"]⟩ 100 1 (.ok ())]

/-- The collection deletes `old` and keeps `young`; the new root is accepted and reaches `old`. -/
theorem reachable_object_collected :
    ∃ s, Run.exec (Store.step .transparent .small) .created collectChild = some s ∧
      Reachable s.db "account" "old" ∧ ¬ Ready s.db "account" "old" := by
  have hch : (Run.exec (Store.step .transparent .small) .created collectChild).any
      (fun s => refersThrough s.db "account" "young" "old" &&
        (s.db.objects.get? ("account", "old")).isNone) = true := by decide +kernel
  obtain ⟨s, hr, h⟩ := Run.exists_of_any hch
  rw [Bool.and_eq_true, Option.isNone_iff_eq_none] at h
  refine ⟨s, hr, .of_refersThrough h.1, ?_⟩
  rintro ⟨row, hrow, -⟩
  simp [h.2] at hrow

end Aerobag.Server
