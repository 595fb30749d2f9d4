import Aerobag.Lib.Walk
import Aerobag.NavKv.Proofs.ScanProofs

/-!
# Readers on arbitrary pages

The readers follow the page numbers that stand in the pages. Each of their loops is a walk, and it ends
exactly if the walk does not come to a page twice; a node that is its own child is read again and again.
-/

open List Except Walk

namespace Aerobag.NavKv

namespace NavKvRoot

variable (self : NavKvRoot) (provider : Nat → Option Bytes)

def nodeAt (page : Nat) : Option Node := (self.readNode provider page).value

/-- The child that a descent goes to, and none on a leaf or a page that cannot be read. -/
def childBy (choose : InternalNode → Option Nat) (page : Nat) : Option Nat :=
  match self.nodeAt provider page with
  | some (.internal node) => choose node
  | _ => none

/-- The choice of `find_leaf_page_for_key`. -/
def childForKey (key : Bytes) (node : InternalNode) : Option Nat :=
  node.children[Search.partitionPoint (fun pivot => decide (pivot ≤ key)) node.pivots]?

/-- The leaf that a scan goes to, if it goes on after the one on this page. -/
def nextBy (goesOn : LeafNode → Bool) (page : Nat) : Option Nat :=
  match self.nodeAt provider page with
  | some (.leaf leaf) => if goesOn leaf then leaf.nextLeaf else none
  | _ => none

/-- The page, if there is a leaf on it. -/
def leafAt (page : Nat) : Option Nat :=
  match self.nodeAt provider page with
  | some (.leaf _) => some page
  | _ => none

/-- The scans for a prefix go on while all entries match. -/
def allMatch (keyPrefix : Bytes) (leaf : LeafNode) : Bool := (matchingEntries keyPrefix leaf.entries).2

/-- The scan of all pairs goes on while the values can be read. -/
def allRead (repair : Bytes → String) (leaf : LeafNode) : Bool :=
  (self.readPairs provider repair leaf.entries).value.isSome

end NavKvRoot

/-- The child that `find_leaf_page_for_key_ref` goes to. -/
def NavKvStore.childRef (self : NavKvStore) (key : Bytes) (page : Nat) : Option Nat :=
  if self.root.valuePageStart ≤ page then none
  else self.pages[page]?.bind fun bytes =>
    if readU32 bytes 0 = .ok nodeKindInternal then (internalChildForKeyRef bytes key).toOption else none

/-- With enough rounds the reading is the same for any number of them. -/
def Returns {α : Type} (reading : Nat → α) : Prop :=
  ∃ enough, ∀ fuel, enough ≤ fuel → reading fuel = reading enough

section Loops

variable {α β : Type} {rt : NavKvRoot} {pv : Nat → Option Bytes} {pg n : Nat} {rds : List Nat}
  {x y : Reading α} {res : Option α} {f : α → Reading β} {a : α}

theorem Gives.ext (h : Gives x res rds) (h' : Gives y res rds) : x = y :=
  funext fun s => (h s).trans (h' s).symm

theorem Gives.run_bind (h : Gives x (some a) rds) (s : List Nat) :
    (x >>= f).run s = (f a).run (s ++ rds) := by
  rw [Command.run_bind, h s]

theorem Gives.mapOption (h : Gives x res rds) (g : α → β) :
    Gives (x >>= fun a => Pure.pure (g a)) (res.map g) rds := by
  cases res with
  | none => exact h.bind_none
  | some a => exact h.map g

theorem exists_gives_bind (hx : ∃ r rs, Gives x r rs) (hf : ∀ a, ∃ r rs, Gives (f a) r rs) :
    ∃ r rs, Gives (x >>= f) r rs := by
  obtain ⟨_ | a, rs, hx⟩ := hx
  · exact ⟨none, rs, hx.bind_none⟩
  · obtain ⟨r, rs', hf⟩ := hf a
    exact ⟨r, _, hx.bind hf⟩

theorem exists_silent_bind (hx : ∃ r, Gives x r []) (hf : ∀ a, ∃ r, Gives (f a) r []) :
    ∃ r, Gives (x >>= f) r [] := by
  obtain ⟨_ | a, hx⟩ := hx
  · exact ⟨none, hx.bind_none⟩
  · obtain ⟨r, hf⟩ := hf a
    exact ⟨r, hx.bind hf⟩

theorem gives_fetch (pv : Nat → Option Bytes) (pg : Nat) : Gives (Reading.fetch pv pg) (pv pg)
    [pg] := by
  intro ask
  simp only [Reading.fetch]
  cases pv pg <;> rfl

theorem exists_gives_readPairs (rt : NavKvRoot) (pv : Nat → Option Bytes) (r : Bytes → String)
    (es : List LeafEntry) :
    ∃ res rs, Gives (rt.readPairs pv r es) res rs := by
  have hvp (st sp : Nat) (ps : List Nat) : ∃ res rs, Gives (rt.readValuePages pv st sp ps) res rs := by
    induction ps with
    | nil => exact ⟨_, _, .pure _⟩
    | cons p ps ih =>
      refine exists_gives_bind ⟨_, _, gives_fetch _ _⟩ fun bs => ?_
      dsimp only
      split
      · exact ⟨_, _, .throw⟩
      · exact exists_gives_bind ih fun os => ⟨_, _, .pure _⟩
  have hev (o len : Nat) : ∃ res rs, Gives (rt.readExternalValue pv o len) res rs := by
    unfold NavKvRoot.readExternalValue
    split_ifs
    · exact ⟨_, _, .pure _⟩
    · exact ⟨_, _, .throw⟩
    · exact ⟨_, _, .throw⟩
    · exact hvp _ _ _
  induction es with
  | nil => exact ⟨_, _, .pure _⟩
  | cons e es ih =>
    refine exists_gives_bind ?_ fun p => exists_gives_bind ih fun ps => ⟨_, _, .pure _⟩
    unfold NavKvRoot.readPair
    cases e.value with
    | inline bs => exact ⟨_, _, .pure _⟩
    | external o len => exact exists_gives_bind (hev o len) fun v => ⟨_, _, .pure _⟩

/-- A node that can be read is a page below the value pages, and one page is read for it. -/
theorem gives_readNode (rt : NavKvRoot) (pv : Nat → Option Bytes) (pg : Nat) :
    ∃ rs, Gives (rt.readNode pv pg) (rt.nodeAt pv pg) rs ∧
      (rt.nodeAt pv pg ≠ none → rs = [pg] ∧ pg < rt.valuePageStart) := by
  suffices ∃ r rs, Gives (rt.readNode pv pg) r rs ∧ (r ≠ none → rs = [pg] ∧ pg < rt.valuePageStart) by
    obtain ⟨r, rs, h, hr⟩ := this
    obtain rfl : rt.nodeAt pv pg = r := h.value
    exact ⟨rs, h, hr⟩
  rw [NavKvRoot.readNode]
  split_ifs with hpg
  · exact ⟨none, [], .throw, fun h => absurd rfl h⟩
  · have hfe := gives_fetch pv pg
    have hlt : pg < rt.valuePageStart := not_le.1 hpg
    cases hb : pv pg with
    | none => exact ⟨none, [pg], (hb ▸ hfe).bind_none, fun h => absurd rfl h⟩
    | some bs =>
      suffices ∃ r, Gives (do
          let kind ← Reading.ofExcept (readU32 bs 0)
          if kind = nodeKindLeaf then return Node.leaf (← Reading.ofExcept (parseLeafNode bs))
          else if kind = nodeKindInternal then
            return Node.internal (← Reading.ofExcept (parseInternalNode bs))
          else throw ()) r [] by
        obtain ⟨r, hr⟩ := this
        exact ⟨r, [pg], Gives.bind (a := bs) (hb ▸ hfe) hr, fun _ => ⟨rfl, hlt⟩⟩
      refine exists_silent_bind ⟨_, .ofOption rfl⟩ fun kind => ?_
      split_ifs
      · exact exists_silent_bind ⟨_, .ofOption rfl⟩ fun l => ⟨_, .pure _⟩
      · exact exists_silent_bind ⟨_, .ofOption rfl⟩ fun l => ⟨_, .pure _⟩
      · exact ⟨_, .throw⟩

/-- A loop that is a walk: each round reads a page, and the outcome is made of that of the rest. -/
structure Loop (loop : Nat → Nat → Reading α) (next : Nat → Option Nat) : Prop where
  zero : ∀ page, Gives (loop 0 page) none []
  stop : ∀ page, next page = none → ∃ res rds, ∀ fuel, Gives (loop (fuel + 1) page) res rds
  go : ∀ page page', next page = some page' → ∃ rds, ∃ join : α → α, rds ≠ [] ∧ ∀ fuel res rest,
    Gives (loop fuel page') res rest → Gives (loop (fuel + 1) page) (res.map join) (rds ++ rest)

variable {l : Nat → Nat → Reading α} {next : Nat → Option Nat}

theorem Loop.exists_gives (hl : Loop l next) (h : Ends next pg) :
    ∃ m res rs, ∀ n, m ≤ n → Gives (l n pg) res rs := by
  obtain ⟨m, hm⟩ := h
  induction m generalizing pg with
  | zero => cases hm
  | succ m ih =>
    cases hn : next pg with
    | none =>
      obtain ⟨res, rs, h⟩ := hl.stop pg hn
      refine ⟨1, res, rs, fun n hle => ?_⟩
      obtain ⟨n, rfl⟩ := Nat.exists_eq_add_of_le' hle
      exact h n
    | some p =>
      rw [place, hn, Option.bind_some] at hm
      obtain ⟨k, res, rs, h⟩ := ih hm
      obtain ⟨rs', g, -, hgo⟩ := hl.go pg p hn
      refine ⟨k + 1, res.map g, rs' ++ rs, fun n hle => ?_⟩
      obtain ⟨n, rfl⟩ := Nat.exists_eq_add_of_le' (Nat.le_of_add_left_le hle)
      exact hgo n res rs (h n (Nat.le_of_succ_le_succ hle))

/-- A walk without an end uses up every number of rounds, each on a page. -/
theorem Loop.exists_reads (hl : Loop l next) (h : ¬ Ends next pg) (n : Nat) :
    ∃ rs, Gives (l n pg) none rs ∧ n ≤ rs.length := by
  induction n generalizing pg with
  | zero => exact ⟨[], hl.zero pg, le_rfl⟩
  | succ n ih =>
    cases hn : next pg with
    | none => exact absurd ⟨1, by rw [place, hn]; rfl⟩ h
    | some p =>
      have hp : ¬ Ends next p := by
        rintro ⟨m, hm⟩
        exact h ⟨m + 1, by rw [place, hn, Option.bind_some, hm]⟩
      obtain ⟨rs, hrs, hle⟩ := ih hp
      obtain ⟨rs', g, hne, hgo⟩ := hl.go pg p hn
      refine ⟨rs' ++ rs, hgo n none rs hrs, ?_⟩
      have := length_pos_iff.2 hne
      rw [length_append]
      omega

theorem not_returns {x : Nat → Reading α} {m : Nat}
    (h : ∀ n, m ≤ n → ∃ rs, Gives (x n) none rs ∧ n ≤ rs.length) : ¬ Returns x := by
  rintro ⟨k, hk⟩
  obtain ⟨rs, hrs, -⟩ := h (max m k) (le_max_left _ _)
  obtain ⟨rs', hrs', hle⟩ := h (max m k + rs.length + 1) (by omega)
  have heq : x (max m k + rs.length + 1) = x (max m k) :=
    (hk _ (by omega)).trans (hk _ (le_max_right _ _)).symm
  have hln : rs'.length = rs.length := by rw [← hrs'.asked, heq, hrs.asked]
  omega

/-- A reader that does the rest without a loop. -/
theorem Loop.returns_bind_iff (hl : Loop l next) :
    Returns (fun n => l n pg >>= f) ↔ Ends next pg := by
  constructor
  · intro hr
    by_contra h
    refine not_returns (m := 0) (fun n _ => ?_) hr
    obtain ⟨rs, hrs, hle⟩ := hl.exists_reads h n
    exact ⟨rs, hrs.bind_none, hle⟩
  · intro h
    obtain ⟨m, res, rs, hg⟩ := hl.exists_gives h
    exact ⟨m, fun n hle => congrArg (· >>= f) ((hg n hle).ext (hg m le_rfl))⟩

/-- A loop that goes down from node to node to a leaf. -/
structure Descent (root : NavKvRoot) (provider : Nat → Option Bytes)
    (choose : InternalNode → Option Nat) (loop : Nat → Nat → Reading Nat) : Prop where
  zero : ∀ page, loop 0 page = throw ()
  succ : ∀ fuel page, loop (fuel + 1) page = root.readNode provider page >>= fun
    | .leaf _ => pure page
    | .internal node => Reading.ofOption (choose node) >>= loop fuel

variable {ch : InternalNode → Option Nat} {go : LeafNode → Bool} {d : Nat → Nat → Reading Nat}

theorem descent_findLeafPageForKey (key : Bytes) : Descent rt pv (NavKvRoot.childForKey key)
    (rt.findLeafPageForKey pv key) where
  zero _ := rfl
  succ _ _ := rfl

theorem descent_firstLeafPage : Descent rt pv (·.children.head?) (rt.firstLeafPage pv) where
  zero _ := rfl
  succ _ _ := rfl

theorem nextBy_eq_none (h : rt.leafAt pv pg = none) : rt.nextBy pv go pg = none := by
  unfold NavKvRoot.leafAt at h
  unfold NavKvRoot.nextBy
  split at h
  next => cases h
  next => rfl

theorem eq_of_leafAt {p : Nat} (h : rt.leafAt pv pg = some p) : pg = p := by
  unfold NavKvRoot.leafAt at h
  split at h
  · exact Option.some.inj h
  · cases h

namespace Descent

theorem gives_stop (hd : Descent rt pv ch d) (h : rt.childBy pv ch pg = none) :
    ∃ rs, ∀ n, Gives (d (n + 1) pg) (rt.leafAt pv pg) rs := by
  obtain ⟨rs, hrd, -⟩ := gives_readNode rt pv pg
  simp only [hd.succ, NavKvRoot.leafAt, NavKvRoot.childBy] at h ⊢
  cases hn : rt.nodeAt pv pg with
  | none => exact ⟨rs, fun _ => (hn ▸ hrd).bind_none⟩
  | some node =>
    rw [hn] at hrd h
    cases node with
    | leaf l => exact ⟨_, fun _ => hrd.bind (.pure pg)⟩
    | internal node => exact ⟨_, fun _ => hrd.bind (Gives.ofOption h).bind_none⟩

theorem gives_go (hd : Descent rt pv ch d) {p : Nat} (h : rt.childBy pv ch pg = some p)
    {res : Option Nat} (hg : Gives (d n p) res rds) : Gives (d (n + 1) pg) res ([pg] ++ rds) := by
  obtain ⟨rs, hrd, hpg⟩ := gives_readNode rt pv pg
  rw [hd.succ]
  unfold NavKvRoot.childBy at h
  split at h
  next node hn =>
    rw [(hpg (by simp [hn])).1, hn] at hrd
    exact hrd.bind ((Gives.ofOption h).bind hg)
  next => cases h

theorem loop (hd : Descent rt pv ch d) : Loop d (rt.childBy pv ch) where
  zero p := hd.zero p ▸ .throw
  stop p h := ⟨_, hd.gives_stop h⟩
  go p q h := ⟨[p], id, by simp, fun n res rs hg => by simpa using hd.gives_go h hg⟩

/-- With enough rounds the descent gives the page where it ends, if that is a leaf. -/
theorem exists_gives_last (hd : Descent rt pv ch d) {p : Nat} (h : Last (rt.childBy pv ch) pg p) :
    ∃ m rs, ∀ n, m ≤ n → Gives (d n pg) (rt.leafAt pv p) rs := by
  obtain ⟨m, hp, hno⟩ := h
  induction m generalizing pg with
  | zero =>
    obtain rfl := Option.some.inj hp
    obtain ⟨rs, hrs⟩ := hd.gives_stop hno
    refine ⟨1, rs, fun n hle => ?_⟩
    obtain ⟨n, rfl⟩ := Nat.exists_eq_add_of_le' hle
    exact hrs n
  | succ m ih =>
    obtain ⟨q, hq, hp⟩ := Option.bind_eq_some_iff.1 hp
    obtain ⟨k, rs, hrs⟩ := ih hp
    refine ⟨k + 1, [pg] ++ rs, fun n hle => ?_⟩
    obtain ⟨n, rfl⟩ := Nat.exists_eq_add_of_le' (Nat.le_of_add_left_le hle)
    exact hd.gives_go hq (hrs n (Nat.le_of_succ_le_succ hle))

/-- A reader that descends to a leaf and then scans from there. -/
theorem returns_scan_iff (hd : Descent rt pv ch d) (hl : Loop l (rt.nextBy pv go)) :
    Returns (fun n => d n pg >>= fun p => l n p >>= f) ↔
      Ends (rt.childBy pv ch) pg ∧ ∀ p, Last (rt.childBy pv ch) pg p → Ends (rt.nextBy pv go) p := by
  by_cases hends : Ends (rt.childBy pv ch) pg
  · obtain ⟨p, hp⟩ := hends.exists_last
    obtain ⟨m, rs, hg⟩ := hd.exists_gives_last hp
    have honly : (∀ q, Last (rt.childBy pv ch) pg q → Ends (rt.nextBy pv go) q) ↔
        Ends (rt.nextBy pv go) p :=
      ⟨fun h => h p hp, fun h q hq => hp.unique hq ▸ h⟩
    rw [honly, and_iff_right hends]
    cases hlf : rt.leafAt pv p with
    | none =>
      refine iff_of_true ⟨m, fun n hle => ?_⟩ ⟨1, ?_⟩
      · exact (hlf ▸ hg n hle).bind_none.ext (hlf ▸ hg m le_rfl).bind_none
      · rw [place, nextBy_eq_none hlf]
        rfl
    | some q =>
      rw [hlf] at hg
      obtain rfl := eq_of_leafAt hlf
      by_cases hscan : Ends (rt.nextBy pv go) p
      · obtain ⟨k, res, rs', hg'⟩ := hl.exists_gives hscan
        have hrun (n : Nat) (hle : max m k ≤ n) (s : List Nat) :
            (d n pg >>= fun p => l n p >>= f).run s = (l k p >>= f).run (s ++ rs) := by
          rw [(hg n ((le_max_left m k).trans hle)).run_bind s,
            (hg' n ((le_max_right m k).trans hle)).ext (hg' k le_rfl)]
        exact iff_of_true ⟨max m k, fun n hle => funext fun s =>
          (hrun n hle s).trans (hrun _ le_rfl s).symm⟩ hscan
      · refine iff_of_false (not_returns (m := m) fun n hle => ?_) hscan
        obtain ⟨rs', hrs', hln⟩ := hl.exists_reads hscan n
        refine ⟨rs ++ rs', (hg n hle).bind hrs'.bind_none, ?_⟩
        rw [length_append]
        omega
  · refine iff_of_false (not_returns (m := 0) fun n _ => ?_) fun h => hends h.1
    obtain ⟨rs, hrs, hle⟩ := hd.loop.exists_reads hends n
    exact ⟨rs, hrs.bind_none, hle⟩

end Descent

theorem gives_readLeaf_of_nodeAt {lf : LeafNode} (h : rt.nodeAt pv pg = some (.leaf lf)) :
    Gives (rt.readLeaf pv pg) (some lf) [pg] := by
  obtain ⟨rs, hrd, hpg⟩ := gives_readNode rt pv pg
  rw [(hpg (by simp [h])).1, h] at hrd
  exact hrd.bind (.pure lf)

theorem exists_gives_readLeaf (h : ∀ lf, rt.nodeAt pv pg ≠ some (.leaf lf)) :
    ∃ rs, Gives (rt.readLeaf pv pg) none rs := by
  obtain ⟨rs, hrd, -⟩ := gives_readNode rt pv pg
  cases hn : rt.nodeAt pv pg with
  | none => exact ⟨_, (hn ▸ hrd).bind_none⟩
  | some node =>
    rw [hn] at hrd
    cases node with
    | leaf lf => exact absurd hn (h lf)
    | internal node => exact ⟨_, hrd.bind .throw⟩

theorem exists_of_nextBy {p : Nat} (h : rt.nextBy pv go pg = some p) :
    ∃ lf, rt.nodeAt pv pg = some (.leaf lf) ∧ go lf = true ∧ lf.nextLeaf = some p := by
  unfold NavKvRoot.nextBy at h
  split at h
  next lf hn =>
    split_ifs at h with hgo
    exact ⟨lf, hn, hgo, h⟩
  next => cases h

theorem nextBy_of_leaf {lf : LeafNode} (hlf : rt.nodeAt pv pg = some (.leaf lf))
    (h : rt.nextBy pv go pg = none) : go lf = false ∨ lf.nextLeaf = none := by
  unfold NavKvRoot.nextBy at h
  rw [hlf] at h
  cases hgo : go lf <;> simp_all

/-- What a scan does when it does not go on is the same in every round. -/
theorem exists_gives_stop {work : LeafNode → Nat → Reading α} {p : Nat}
    (h : ∀ lf, rt.nodeAt pv p = some (.leaf lf) → ∃ res rs, ∀ n, Gives (work lf n) res rs) :
    ∃ res rs, ∀ n, Gives (rt.readLeaf pv p >>= fun lf => work lf n) res rs := by
  by_cases hlf : ∃ lf, rt.nodeAt pv p = some (.leaf lf)
  · obtain ⟨lf, hlf⟩ := hlf
    obtain ⟨res, rs, hg⟩ := h lf hlf
    exact ⟨res, _, fun n => (gives_readLeaf_of_nodeAt hlf).bind (hg n)⟩
  · obtain ⟨rs, hrs⟩ := exists_gives_readLeaf (not_exists.1 hlf)
    exact ⟨none, rs, fun n => hrs.bind_none⟩

theorem loop_scanLeaves (kp : Bytes) :
    Loop (rt.scanLeaves pv kp) (rt.nextBy pv (NavKvRoot.allMatch kp)) where
  zero _ := .throw
  stop p h := by
    refine exists_gives_stop fun lf hlf =>
      ⟨some [(p, (NavKvRoot.matchingEntries kp lf.entries).1)], [], fun n => ?_⟩
    have hor := nextBy_of_leaf hlf h
    unfold NavKvRoot.allMatch at hor
    rcases hm : NavKvRoot.matchingEntries kp lf.entries with ⟨found, more⟩
    rw [hm] at hor
    rcases hor with hno | hno
    · obtain rfl : more = false := hno
      cases lf.nextLeaf <;> exact .pure _
    · rw [hno]
      cases more <;> exact .pure _
  go p q h := by
    obtain ⟨lf, hlf, hgo, hq⟩ := exists_of_nextBy h
    unfold NavKvRoot.allMatch at hgo
    rcases hm : NavKvRoot.matchingEntries kp lf.entries with ⟨found, more⟩
    obtain rfl : more = true := by rw [hm] at hgo; exact hgo
    refine ⟨[p], ((p, found) :: ·), by simp, fun n res rs hg => ?_⟩
    refine (gives_readLeaf_of_nodeAt hlf).bind ?_
    simp only [hm, hq]
    exact hg.mapOption _

theorem loop_pairsFrom (r : Bytes → String) :
    Loop (rt.pairsFrom pv r) (rt.nextBy pv (rt.allRead pv r)) where
  zero _ := .throw
  stop p h := by
    refine exists_gives_stop fun lf hlf => ?_
    obtain ⟨res, rs, hps⟩ := exists_gives_readPairs rt pv r lf.entries
    cases res with
    | none => exact ⟨none, rs, fun n => hps.bind_none⟩
    | some ps =>
      have hno : lf.nextLeaf = none := (nextBy_of_leaf hlf h).resolve_left (by
        simp [NavKvRoot.allRead, hps.value])
      refine ⟨some ps, rs ++ [], fun n => hps.bind ?_⟩
      rw [hno]
      exact .pure ps
  go p q h := by
    obtain ⟨lf, hlf, hgo, hq⟩ := exists_of_nextBy h
    obtain ⟨_ | ps, rs, hps⟩ := exists_gives_readPairs rt pv r lf.entries
    · simp [NavKvRoot.allRead, hps.value] at hgo
    · refine ⟨[p] ++ rs, (ps ++ ·), by simp, fun n res rs' hg => ?_⟩
      rw [append_assoc]
      refine (gives_readLeaf_of_nodeAt hlf).bind (hps.bind ?_)
      simp only [hq]
      exact hg.mapOption _

/-- Only pages below the value pages lead to others. -/
theorem finite_of_nodeAt (h : ∀ p, rt.nodeAt pv p = none → next p = none) :
    {p | next p ≠ none}.Finite := by
  refine (Set.finite_lt_nat rt.valuePageStart).subset fun p hp => ?_
  obtain ⟨_, _, hpg⟩ := gives_readNode rt pv p
  exact (hpg fun hn => hp (h p hn)).2

theorem finite_childBy (rt : NavKvRoot) (pv : Nat → Option Bytes) (ch : InternalNode → Option Nat) :
    {p | rt.childBy pv ch p ≠ none}.Finite :=
  finite_of_nodeAt fun p hn => by rw [NavKvRoot.childBy, hn]

theorem finite_nextBy (rt : NavKvRoot) (pv : Nat → Option Bytes) (go : LeafNode → Bool) :
    {p | rt.nextBy pv go p ≠ none}.Finite :=
  finite_of_nodeAt fun p hn => by rw [NavKvRoot.nextBy, hn]

end Loops

section Store

variable {s : NavKvStore} {key : Bytes} {pg n : Nat} {m : Missing}

/-- The model's own error for a loop that has used up its rounds; no function has it otherwise. -/
def outOfFuel {α : Type} : Except String α := .error "out of fuel"

section OutOfFuel

variable {α β : Type} {x : Except String α}

@[simp] theorem bind_eq_outOfFuel {f : α → Except String β} :
    x >>= f = outOfFuel ↔ x = outOfFuel ∨ ∃ a, x = .ok a ∧ f a = outOfFuel := by
  cases x with
  | error e => simp [outOfFuel, bind, Except.bind]
  | ok a => simp [outOfFuel]

@[simp] theorem map_eq_outOfFuel {f : α → β} : f <$> x = outOfFuel ↔ x = outOfFuel := by
  cases x <;> simp [outOfFuel, Functor.map, Except.map]

@[simp] theorem ok_ne_outOfFuel (a : α) : (.ok a : Except String α) ≠ outOfFuel := by simp [outOfFuel]

@[simp] theorem pure_ne_outOfFuel (a : α) : (pure a : Except String α) ≠ outOfFuel :=
  ok_ne_outOfFuel a

@[simp] theorem throw_eq_outOfFuel (e : String) :
    (throw e : Except String α) = outOfFuel ↔ e = "out of fuel" :=
  ⟨Except.error.inj, congrArg _⟩

@[simp] theorem readU32_ne_outOfFuel (bs : Bytes) (o : Nat) : readU32 bs o ≠ outOfFuel := by
  unfold readU32
  split <;> simp [outOfFuel]

@[simp] theorem getSlice_eq_outOfFuel (bs : Bytes) (i j : Nat) (e : String) :
    getSlice bs i j e = outOfFuel ↔ slice bs i j = none ∧ e = "out of fuel" := by
  unfold getSlice
  split <;> simp_all [outOfFuel]

@[simp] theorem rejectIf_eq_outOfFuel (bad : Prop) [Decidable bad] (e : String) :
    Except.rejectIf bad e = outOfFuel ↔ bad ∧ e = "out of fuel" := by
  by_cases hb : bad <;> simp [Except.rejectIf, hb, outOfFuel]

@[simp] theorem scanPivots_ne_outOfFuel (bs : Bytes) (count i o : Nat) :
    scanPivots bs key count i o ≠ outOfFuel := by
  induction count generalizing i o with
  | zero => simp [scanPivots]
  | succ count ih =>
    simp [scanPivots]
    intro _ _ _ _
    split <;> simp [ih]

@[simp] theorem scanLeaf_ne_outOfFuel (bs : Bytes) (count o : Nat) :
    scanLeaf bs key count o ≠ outOfFuel := by
  induction count generalizing o with
  | zero => simp [scanLeaf]
  | succ count ih =>
    simp [scanLeaf]
    intro _ _ _ _ _ _ _ _ _ _
    split
    · split_ifs <;> simp
    · simp
    · split_ifs <;> simp [ih]

@[simp] theorem internalChildForKeyRef_ne_outOfFuel (bs : Bytes) :
    internalChildForKeyRef bs key ≠ outOfFuel := by
  simp [internalChildForKeyRef]

@[simp] theorem leafEntryValueRefForKey_ne_outOfFuel (bs : Bytes) :
    leafEntryValueRefForKey bs key ≠ outOfFuel := by
  simp [leafEntryValueRefForKey]

end OutOfFuel

theorem findLeafPageForKeyRef_go {p : Nat} (h : s.childRef key pg = some p) :
    s.findLeafPageForKeyRef key (n + 1) pg m = s.findLeafPageForKeyRef key n p m := by
  unfold NavKvStore.childRef at h
  split_ifs at h with hv
  obtain ⟨bs, hb, h⟩ := Option.bind_eq_some_iff.1 h
  split_ifs at h with hk
  have hc := toOption_eq_some.1 h
  have hne : nodeKindInternal ≠ nodeKindLeaf := by decide
  simp only [NavKvStore.findLeafPageForKeyRef, NavKvStore.nodePageBytesOrRecordMissing, if_neg hv, hb, hk,
    ok_bind, if_neg hne, if_true, hc]

theorem findLeafPageForKeyRef_stop (h : s.childRef key pg = none) :
    s.findLeafPageForKeyRef key (n + 1) pg m ≠ outOfFuel := by
  simp only [NavKvStore.findLeafPageForKeyRef, NavKvStore.nodePageBytesOrRecordMissing]
  unfold NavKvStore.childRef at h
  split_ifs at h ⊢ with hv
  · exact pure_ne_outOfFuel _
  · cases hb : s.pages[pg]? with
    | none => exact pure_ne_outOfFuel _
    | some bs =>
      simp only [bind_eq_outOfFuel, ne_eq, readU32_ne_outOfFuel, false_or, not_exists, not_and]
      intro kind hk
      split_ifs with hl hi
      · exact pure_ne_outOfFuel _
      · rw [hb, Option.bind_some, hk, if_pos (congrArg _ hi)] at h
        rw [bind_eq_outOfFuel, or_iff_right (internalChildForKeyRef_ne_outOfFuel bs)]
        rintro ⟨c, hc, -⟩
        rw [hc] at h
        cases h
      · simp

/-- The loop of the store has a result exactly if its walk ends. -/
theorem findLeafPageForKeyRef_ends :
    (∃ n, s.findLeafPageForKeyRef key n pg m ≠ outOfFuel) ↔ Ends (s.childRef key) pg := by
  constructor
  · rintro ⟨n, hn⟩
    induction n generalizing pg with
    | zero => exact absurd rfl hn
    | succ n ih =>
      cases hc : s.childRef key pg with
      | none => exact ⟨1, by rw [place, hc]; rfl⟩
      | some p =>
        rw [findLeafPageForKeyRef_go hc] at hn
        obtain ⟨k, hk⟩ := ih hn
        exact ⟨k + 1, by rw [place, hc, Option.bind_some, hk]⟩
  · rintro ⟨n, hn⟩
    induction n generalizing pg with
    | zero => cases hn
    | succ n ih =>
      cases hc : s.childRef key pg with
      | none => exact ⟨1, findLeafPageForKeyRef_stop hc⟩
      | some p =>
        rw [place, hc, Option.bind_some] at hn
        obtain ⟨k, hk⟩ := ih hn
        exact ⟨k + 1, by rwa [findLeafPageForKeyRef_go hc]⟩

/-- After the way down the store has no loop. -/
theorem getBytes_eq_outOfFuel (key : String) : s.getBytes n key = outOfFuel ↔
    s.findLeafPageForKeyRef (strBytes key) n s.root.rootPage ∅ = outOfFuel := by
  have hentry : s.findLeafEntryRef n (strBytes key) ∅ = outOfFuel ↔
      s.findLeafPageForKeyRef (strBytes key) n s.root.rootPage ∅ = outOfFuel := by
    rw [NavKvStore.findLeafEntryRef, bind_eq_outOfFuel, or_iff_left]
    rintro ⟨⟨_ | page, missing⟩, -, h⟩
    · simp at h
    · dsimp only at h
      split at h <;> simp at h
  rw [NavKvStore.getBytes, bind_eq_outOfFuel, hentry, or_iff_left]
  rintro ⟨⟨_ | ⟨bs⟩ | ⟨o, len⟩, missing⟩, -, h⟩
  · simp at h
  · simp at h
  · obtain h | ⟨missing, -, h⟩ := bind_eq_outOfFuel.1 h
    · unfold NavKvStore.recordMissingExternalValuePages at h
      split_ifs at h <;> simp at h
    · split_ifs at h
      · split at h
        · simp at h
        · split_ifs at h <;> simp at h
      · simp at h

theorem finite_childRef (s : NavKvStore) (key : Bytes) : {p | s.childRef key p ≠ none}.Finite := by
  refine (Set.finite_lt_nat s.root.valuePageStart).subset fun p hp => ?_
  by_contra hle
  exact hp (by rw [NavKvStore.childRef, if_pos (not_lt.1 hle)])

end Store

/-- Two leaves, and a node over them. -/
def linkedPages : List Bytes :=
  [[1, 0, 1].flatMap pushU32, [1, 0, noPage].flatMap pushU32,
    [2, 1, 2, 0, 1, 1].flatMap pushU32 ++ strBytes "m"]

end Aerobag.NavKv
