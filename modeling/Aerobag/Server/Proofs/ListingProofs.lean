import Aerobag.Server.Proofs.GcProofs

/-!
# Listing objects page by page

A client asks for one page after another while the server goes on with other work. The ids ascend,
and an object that is ready all the time is on one page.
-/

open List Except

namespace Aerobag.Server

variable {P : Primitives} {cfg : StoreConfig} {account : String}

/-- The first elements of a sorted list, and the last of them if there are more. -/
theorem take_page {xs : List String} (hxs : xs.Pairwise (· < ·)) {lim : Nat} (hp : 0 < lim) :
    let next := if lim < xs.length then (xs.take lim).getLast? else none
    (∀ x ∈ xs.take lim, ∀ la ∈ next, x ≤ la) ∧ (∀ la ∈ next, la ∈ xs.take lim) ∧
      ∀ x ∈ xs, (∀ la ∈ next, x ≤ la) → x ∈ xs.take lim := by
  intro next
  by_cases hm : lim < xs.length
  · obtain ⟨f, la, ht⟩ : ∃ f la, xs.take lim = f ++ [la] := by
      refine ⟨_, _, (dropLast_append_getLast (l := xs.take lim) ?_).symm⟩
      rw [← length_pos_iff, length_take]
      omega
    have hnx : next = some la := by simp [next, hm, ht]
    have hsp := take_append_drop lim xs
    rw [ht] at hsp
    rw [← hsp, append_assoc, pairwise_append, singleton_append, pairwise_cons] at hxs
    simp only [hnx, ht, Option.mem_some_iff, forall_eq', mem_append, mem_singleton, or_true, true_and]
    refine ⟨fun x hx => ?_, fun x hx hle => ?_⟩
    · rcases hx with hx | rfl
      · exact (hxs.2.2 x hx la mem_cons_self).le
      · exact le_rfl
    · rw [← hsp, mem_append, mem_append, mem_singleton] at hx
      exact hx.resolve_right fun hd => absurd (hxs.2.1.1 x hd) (not_lt.2 hle)
  · have hnx : next = none := if_neg hm
    simp [hnx, take_of_length_le (not_lt.1 hm)]

/-- What a page has: the ready ids after a cursor, in order, up to the next cursor. -/
structure Page (db : Database) (account after : String) (response : AcsListObjectsResponse) : Prop where
  ascending : (response.objects.map (·.objectId)).Pairwise (· < ·)
  after_lt : ∀ id ∈ response.objects.map (·.objectId), after < id
  le_next : ∀ id ∈ response.objects.map (·.objectId), ∀ next ∈ response.nextCursor, id ≤ next
  next_mem : ∀ next ∈ response.nextCursor, next ∈ response.objects.map (·.objectId)
  complete : ∀ id, Ready db account id → after < id → (∀ next ∈ response.nextCursor, id ≤ next) →
    id ∈ response.objects.map (·.objectId)

theorem truncatePage_eq (l : Nat) (rs : List ObjectRow) :
    let p := truncatePage l ((rs.take (l + 1)).map ObjectRow.summary)
    let ids := rs.map (·.objectId)
    p.1.map (·.objectId) = ids.take l ∧
      p.2 = if l < ids.length then (ids.take l).getLast? else none := by
  have hid : (fun obj : AcsObjectSummary => obj.objectId) ∘ ObjectRow.summary = (·.objectId) := rfl
  have hl : l < min (l + 1) rs.length ↔ l < rs.length := by omega
  simp only [truncatePage, length_map, length_take, hl]
  split
  · rw [← map_take, take_take, Nat.min_eq_left (Nat.le_succ l), getLast?_map, List.map_map,
      Option.map_map, hid, ← getLast?_map, map_take]
    exact ⟨rfl, by rw [map_take]⟩
  · rename_i hm
    rw [List.map_map, take_of_length_le (by omega), take_of_length_le (by simp; omega)]
    exact ⟨rfl, rfl⟩

variable {c : Option String}

/-- A response is such a page, whatever state each of its queries has read. -/
theorem page_of_listObjects {ch cn ls : Database} {l : Nat}
    {e : StoreResult Unit} {r : AcsListObjectsResponse}
    (h : listObjects ch cn ls account c l e = .ok r) : Page ls account (c.getD "") r := by
  simp only [listObjects, bind_eq_ok, pure_eq_ok] at h
  obtain ⟨_, -, _, -, _, -, _, -, rfl⟩ := h
  have hp : 0 < (if l = 0 then defaultListLimit else l) := by
    split
    · decide
    · omega
  generalize (if l = 0 then defaultListLimit else l) = l at hp ⊢
  let f := (readyObjects ls account).filter (c.getD "" < ·.objectId)
  let rs := f.insertionSort fun a b => a.objectId ≤ b.objectId
  obtain ⟨his, hnx⟩ := truncatePage_eq l rs
  have hm : ∀ id, id ∈ rs.map (·.objectId) ↔ Ready ls account id ∧ c.getD "" < id := by
    intro id
    simp only [rs, f, readyObjects, List.mem_map, mem_insertionSort, mem_filter, Bool.and_eq_true,
      decide_eq_true_eq, Ready, Table.get?_eq_some, ObjectRow.key, Prod.mk.injEq]
    constructor
    · rintro ⟨row, ⟨⟨hro, ha, hr⟩, hlt⟩, rfl⟩
      exact ⟨⟨row, ⟨hro, ha, rfl⟩, hr⟩, hlt⟩
    · rintro ⟨⟨row, ⟨hro, ha, rfl⟩, hr⟩, hlt⟩
      exact ⟨row, ⟨⟨hro, ha, hr⟩, hlt⟩, rfl⟩
  have hac : (rs.map (·.objectId)).Pairwise (· < ·) := by
    have hky : f.map ObjectRow.key = (f.map (·.objectId)).map (account, ·) := by
      rw [List.map_map]
      refine map_congr_left fun row hro => ?_
      simp only [f, readyObjects, mem_filter, Bool.and_eq_true, decide_eq_true_eq] at hro
      simp [ObjectRow.key, hro.1.2.1]
    have hnd : (f.map (·.objectId)).Nodup := by
      refine .of_map (account, ·) (hky ▸ ls.objects.nodup_keys.sublist ?_)
      exact (filter_sublist.trans filter_sublist).map _
    have hsr := pairwise_insertionSort (fun a b : ObjectRow => a.objectId ≤ b.objectId) f
    have hne := ((perm_insertionSort (fun a b : ObjectRow => a.objectId ≤ b.objectId) f).map
      (·.objectId)).nodup_iff.2 hnd
    exact ((pairwise_map.2 hsr).and hne).imp fun h => lt_of_le_of_ne h.1 h.2
  obtain ⟨hle, hme, hal⟩ := take_page hac hp
  rw [← hnx, ← his] at hle hme hal
  refine ⟨his ▸ hac.sublist (take_sublist ..), fun id hid => ?_, hle, hme, fun id hr hlt =>
    hal id ((hm id).2 ⟨hr, hlt⟩)⟩
  rw [his] at hid
  exact ((hm id).1 (mem_of_mem_take hid)).2

def Identified (db : Database) : Prop := ∀ row ∈ db.objects.rows, row.objectId ≠ ""

variable {s : Store}

theorem Identified.step {s' : Store} {l : Label} (hst : s.step P cfg l = some s')
    (h : Identified s.db) : Identified s'.db := by
  have hrd {a oid : String} : Identified (markReady s.db a oid) := by
    intro row hro
    obtain ⟨hro, -⟩ | ⟨old, hl, -, -, rfl⟩ := mem_markReady.1 hro
    · exact h row hro
    · exact h old hl
  cases Store.effect_of_step hst with
  | openStore _ hr =>
    obtain ⟨m, rfl⟩ := repairStorageAccounting_ok hr
    exact h
  | createAccount => obtain hdb | ⟨_, _, _, _, hdb⟩ := createAccount_snd _ _ <;> rw [hdb] <;> exact h
  | @createObjectInline _ _ _ _ _ _ obj _ _ ho hn _ hrs
  | @createObjectPending _ _ _ _ _ _ obj _ _ _ ho _ hn _ hrs =>
    obtain ⟨_, _, _, _, _, _, _, _, _, _, _, _, rfl⟩ := reserveAccountUsage_ok hrs
    obtain ⟨hid, rfl, -⟩ := prepareObject_ok ho
    intro row hro
    obtain hro | rfl := (Table.mem_rows_insert hn).1 hro
    · exact h row hro
    · intro hem
      rw [show obj.objectId = "" from hem] at hid
      exact absurd hid (by decide)
  | markReady => exact hrd
  | removePending => exact fun row hro => h row (mem_deletePending.1 hro).1
  | rootCommitted _ _ _ _ _ hrp =>
    obtain ⟨_, _, _, _, _, _, _, _, _, rfl⟩ := replaceAccountRootUsage_ok hrp
    exact h
  | gcAccount => exact fun row hro => h row (mem_gcAccount_objects.1 hro).1
  | setAccountQuota => obtain hdb | ⟨_, hdb⟩ := setAccountQuota_snd _ <;> rw [hdb] <;> exact h
  | deleteAccount => exact fun row hro => h row (Table.mem_rows_deleteWhere.1 hro).1
  | reconcileReady => exact hrd
  | reconcileDelete => exact fun row hro => h row (mem_deletePending.1 hro).1
  | _ => exact h

/-- From a state on, the server takes steps until the account is checked, until its objects are counted, and
until the page is read. -/
def Fetches (P : Primitives) (cfg : StoreConfig) (account : String) (s : Store) (cursor : Option String)
    (listed : Store) (response : AcsListObjectsResponse) : Prop :=
  ∃ labels labels' labels'' checked counted limit egress,
    Run.exec (Store.step P cfg) s labels = some checked ∧
    Run.exec (Store.step P cfg) checked labels' = some counted ∧
    Run.exec (Store.step P cfg) counted labels'' = some listed ∧
    listObjects checked.db counted.db listed.db account cursor limit egress = .ok response

theorem Fetches.identified {l : Store} {r : AcsListObjectsResponse}
    (h : Fetches P cfg account s c l r) (hs : Identified s.db) : Identified l.db := by
  have hin {s s' : Store} {ls : List Label} (hr : Run.exec (Store.step P cfg) s ls = some s')
      hs : Identified s'.db :=
    Run.exec_inv (fun s => Identified s.db) .step hs hr
  obtain ⟨_, _, _, _, _, _, _, hch, hco, hli, -⟩ := h
  exact hin hli (hin hco (hin hch hs))

/-- A client follows the cursors until there is none. -/
inductive Traversal (P : Primitives) (cfg : StoreConfig) (account : String) :
    Store → Option String → List (Store × AcsListObjectsResponse) → Prop
  | last {s listed : Store} {cursor : Option String} {response : AcsListObjectsResponse}
      (hpage : Fetches P cfg account s cursor listed response) (hnone : response.nextCursor = none) :
      Traversal P cfg account s cursor [(listed, response)]
  | next {s listed : Store} {cursor : Option String} {response : AcsListObjectsResponse} {next : String}
      {pages : List (Store × AcsListObjectsResponse)}
      (hpage : Fetches P cfg account s cursor listed response) (hnext : response.nextCursor = some next)
      (hrest : Traversal P cfg account listed (some next) pages) :
      Traversal P cfg account s cursor ((listed, response) :: pages)

def pageIds (pages : List (Store × AcsListObjectsResponse)) : List String :=
  pages.flatMap fun page => page.2.objects.map (·.objectId)

/-- The ids ascend over all pages, and an object that stays ready is among them. -/
theorem Traversal.ids {ps : List (Store × AcsListObjectsResponse)}
    (h : Traversal P cfg account s c ps) :
    (pageIds ps).Pairwise (· < ·) ∧ (∀ id ∈ pageIds ps, c.getD "" < id) ∧
      ∀ id, (∀ p ∈ ps, Ready p.1.db account id) → c.getD "" < id → id ∈ pageIds ps := by
  induction h with
  | last hpg hn =>
    obtain ⟨_, _, _, _, _, _, _, -, -, -, hpg⟩ := hpg
    have hp := page_of_listObjects hpg
    simp only [pageIds, flatMap_singleton]
    exact ⟨hp.ascending, hp.after_lt, fun id hr hlt =>
      hp.complete id (hr _ mem_cons_self) hlt (by simp [hn])⟩
  | @next _ _ _ r next ps hpg hnx _ ih =>
    obtain ⟨_, _, _, _, _, _, _, -, -, -, hpg⟩ := hpg
    have hp := page_of_listObjects hpg
    have hlt := hp.after_lt next (hp.next_mem next hnx)
    obtain ⟨hac, haf, hal⟩ := ih
    refine ⟨pairwise_append.2 ⟨hp.ascending, hac, fun id hid o ho =>
      (hp.le_next id hid next hnx).trans_lt (haf o ho)⟩, forall_mem_append.2 ⟨hp.after_lt, fun id hid =>
      hlt.trans (haf id hid)⟩, fun id hr hid => ?_⟩
    rw [forall_mem_cons] at hr
    rcases le_or_gt id next with hle | hgt
    · exact mem_append_left _ (hp.complete id hr.1 hid fun l hl => (Option.mem_unique hnx hl) ▸ hle)
    · exact mem_append_right _ (hal id hr.2 hgt)

/-- **Listing under change.** Whatever the server does between the requests, the ids ascend over all pages, and
an object that is ready whenever a page is read is listed once. -/
theorem listing_complete {s : Store} {labels : List Label}
    {pages : List (Store × AcsListObjectsResponse)}
    (hrun : Run.exec (Store.step P cfg) .created labels = some s)
    (h : Traversal P cfg account s none pages) :
    (pageIds pages).Pairwise (· < ·) ∧ ∀ id, (∀ page ∈ pages, Ready page.1.db account id) →
      (pageIds pages).count id = 1 := by
  obtain ⟨hac, -, hal⟩ := h.ids
  refine ⟨hac, fun id hr => count_eq_one_of_mem (hac.imp ne_of_lt) (hal id hr ?_)⟩
  have hs : Identified s.db := Run.exec_inv (fun s => Identified s.db) .step
    (by simp [Identified, Store.created, Database.initialized]) hrun
  have han : ∃ page ∈ pages, Identified page.1.db := by
    cases h with
    | last hpg => exact ⟨_, mem_cons_self, hpg.identified hs⟩
    | next hpg => exact ⟨_, mem_cons_self, hpg.identified hs⟩
  obtain ⟨page, hm, hid⟩ := han
  obtain ⟨row, hrow, -⟩ := hr page hm
  obtain ⟨hrow, hk⟩ := Table.get?_eq_some.1 hrow
  have hne : id ≠ "" := fun hem => hid row hrow ((congrArg Prod.snd hk).trans hem)
  rw [String.lt_iff_toList_lt]
  obtain ⟨c, cs, hc⟩ := exists_cons_of_ne_nil (mt String.toList_eq_nil_iff.1 hne)
  rw [hc]
  exact nil_lt_cons c cs

/-- Between the two pages the collection deletes `stray`, and the objects that are kept are listed. -/
theorem listing_complete_collectStray : ∃ s s' first second,
    Run.exec (Store.step .transparent .small) .created (collectStray.take 5) = some s ∧
      Run.exec (Store.step .transparent .small) s (collectStray.drop 5) = some s' ∧
      Traversal .transparent .small "account" s none [(s, first), (s', second)] ∧
      (pageIds [(s, first), (s', second)]).Pairwise (· < ·) ∧
      (pageIds [(s, first), (s', second)]).count "page" = 1 := by
  let ready (db : Database) := (db.objects.get? ("account", "page")).any (·.state = .ready)
  have hch : (Run.exec (Store.step .transparent .small) .created (collectStray.take 5)).any (fun s =>
      (listObjects s.db s.db s.db "account" none 1 (.ok ())).toOption.any
        (·.nextCursor = some "leaf") && ready s.db &&
      (Run.exec (Store.step .transparent .small) s (collectStray.drop 5)).any fun s' =>
        (listObjects s'.db s'.db s'.db "account" (some "leaf") 1 (.ok ())).toOption.any
          (·.nextCursor = none) && ready s'.db) = true := by decide +kernel
  obtain ⟨s, hr, h⟩ := Run.exists_of_any hch
  simp only [ready, Bool.and_eq_true, Option.any_eq_true, decide_eq_true_eq,
    Except.toOption_eq_some] at h
  obtain ⟨⟨⟨first, hf, hnx⟩, hrd⟩, s', hr', ⟨second, hs, hn⟩, hrd'⟩ := h
  have htr : Traversal .transparent .small "account" s none [(s, first), (s', second)] :=
    .next ⟨[], [], [], s, s, 1, .ok (), rfl, rfl, rfl, hf⟩ hnx
      (.last ⟨collectStray.drop 5, [], [], s', s', 1, .ok (), hr', rfl, rfl, hs⟩ hn)
  obtain ⟨hac, hal⟩ := listing_complete hr htr
  exact ⟨s, s', first, second, hr, hr', htr, hac, hal "page" (by simpa [Ready] using ⟨hrd, hrd'⟩)⟩

end Aerobag.Server
