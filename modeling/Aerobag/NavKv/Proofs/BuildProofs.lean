import Aerobag.NavKv.Build
import Aerobag.NavKv.Proofs.ReaderProofs

/-!
# What the builder builds

Every level stands for all entries, in order; the last level has one node. So the pages are a `Tree`
whose entries represent the pairs.
-/

open List Except

namespace Aerobag.NavKv

variable {psz height flf : Nat} {prs : List NavKvPair} {ents : List LeafEntry}
  {pages ps' : List Bytes} {lv : List NodeSummary}

/-- The keys ascend. -/
def PairsAscend (pairs : List NavKvPair) : Prop :=
  pairs.Pairwise fun a b => strBytes a.key < strBytes b.key

theorem validatePairsFrom_eq_ok {pr : Option String} (h : validatePairsFrom psz pr prs = .ok ()) :
    (∀ p ∈ prs, p.value ≠ []) ∧ PairsAscend prs ∧
      ∀ b ∈ pr, ∀ p ∈ prs, strBytes b < strBytes p.key := by
  induction prs generalizing pr with
  | nil => exact ⟨by simp, .nil, by simp⟩
  | cons p r ih =>
    simp only [validatePairsFrom, bind_eq_ok] at h
    obtain ⟨_, -, _, hv, _, -, h⟩ := h
    have hbt : (∀ b ∈ pr, strBytes b < strBytes p.key) ∧
        validatePairsFrom psz (some p.key) r = .ok () := by
      cases pr with
      | none => exact ⟨by simp, h⟩
      | some b =>
        cases hcm : compareBytes (strBytes b) (strBytes p.key) with
        | lt =>
          simp only [hcm] at h
          exact ⟨by rintro _ ⟨⟩; exact compareBytes_eq_lt.1 hcm, h⟩
        | eq => simp [hcm, bind_eq_ok] at h
        | gt => simp [hcm, bind_eq_ok] at h
    obtain ⟨hls, hr⟩ := hbt
    obtain ⟨hvl, hac, hla⟩ := ih hr
    have haf := hla p.key rfl
    refine ⟨forall_mem_cons.2 ⟨by simpa using hv, hvl⟩, pairwise_cons.2 ⟨haf, hac⟩, fun b hbf => ?_⟩
    exact forall_mem_cons.2 ⟨hls b hbf, fun l hm => (hls b hbf).trans (haf l hm)⟩

/-- The entry of a pair: its key, and its value inline or within the value bytes. -/
structure Represents (valueBytes : Bytes) (pair : NavKvPair) (entry : LeafEntry) : Prop where
  key : entry.key = strBytes pair.key
  value : entry.value.bytesIn valueBytes = pair.value
  stored : entry.value.Stored valueBytes
  short : ∀ bytes, entry.value = .inline bytes → bytes.length < 2 ^ 32

variable {es : List LeafEntry}

/-- The builder makes one entry for each pair. -/
theorem leafEntriesFrom_eq_ok {vb vb' : Bytes} (hvl : ∀ p ∈ prs, p.value ≠ [])
    (h : leafEntriesFrom vb prs = .ok (es, vb')) : (∃ m, vb' = vb ++ m) ∧
      List.Forall₂ (Represents vb') prs es := by
  induction prs generalizing vb es with
  | nil =>
    obtain ⟨rfl, rfl⟩ := h
    exact ⟨⟨[], (append_nil _).symm⟩, .nil⟩
  | cons p r ih =>
    rw [forall_mem_cons] at hvl
    simp only [leafEntriesFrom, bind_eq_ok, toU32_eq_ok] at h
    obtain ⟨_, ⟨hl, rfl⟩, h⟩ := h
    split at h
    · simp only [bind_eq_ok, pure_eq_ok] at h
      obtain ⟨⟨es', vb''⟩, hr, hrs⟩ := h
      obtain ⟨rfl, rfl⟩ := Prod.mk.inj hrs
      obtain ⟨hmr, hos⟩ := ih hvl.2 hr
      refine ⟨hmr, .cons ⟨rfl, rfl, trivial, ?_⟩ hos⟩
      rintro _ ⟨⟩
      exact hl
    · simp only [bind_eq_ok, toU32_eq_ok, pure_eq_ok] at h
      obtain ⟨_, ⟨-, rfl⟩, ⟨es', vb''⟩, hr, hrs⟩ := h
      obtain ⟨rfl, rfl⟩ := Prod.mk.inj hrs
      obtain ⟨⟨m, hmr⟩, hos⟩ := ih hvl.2 hr
      have hat : At vb'' vb.length p.value := ⟨vb, m, hmr, rfl⟩
      refine ⟨⟨p.value ++ m, by rw [hmr, append_assoc]⟩,
        .cons ⟨rfl, hat.between_eq, ⟨?_, hat.length_le⟩, by rintro _ ⟨⟩⟩ hos⟩
      exact length_pos_iff.2 hvl.1

theorem Represents.fits {vb : Bytes} {p : NavKvPair} {e : LeafEntry}
    (h : Represents vb p e) (hl : vb.length < 2 ^ 32) : e.Fits := by
  obtain ⟨key, v⟩ := e
  cases v with
  | inline bs => exact ⟨h.short bs rfl, Nat.two_pow_pos 32⟩
  | external off len =>
    have hin := h.stored.2
    constructor <;> simp only [LeafEntryValue.first, LeafEntryValue.second] <;> omega

abbrev RepresentsAll (valueBytes : Bytes) : List NavKvPair → List LeafEntry → Prop :=
  List.Forall₂ (Represents valueBytes)

namespace RepresentsAll

variable {valueBytes : Bytes}

theorem exists_pair {ps : List NavKvPair} (h : RepresentsAll valueBytes ps es) :
    ∀ e ∈ es, ∃ p ∈ ps, Represents valueBytes p e := by
  induction h with
  | nil => nofun
  | @cons p e ps es hf hr ih =>
    refine forall_mem_cons.2 ⟨⟨p, by simp, hf⟩, fun l hla => ?_⟩
    obtain ⟨o, ho, hrp⟩ := ih l hla
    exact ⟨o, mem_cons_of_mem _ ho, hrp⟩

theorem keysAscend {ps : List NavKvPair}
    (h : RepresentsAll valueBytes ps es) (hac : PairsAscend ps) : KeysAscend es := by
  induction h with
  | nil => exact .nil
  | @cons p e ps es hf hr ih =>
    obtain ⟨hls, hos⟩ := pairwise_cons.1 hac
    refine pairwise_cons.2 ⟨fun l hla => ?_, ih hos⟩
    obtain ⟨o, ho, hrp⟩ := exists_pair hr l hla
    rw [hf.key, hrp.key]
    exact hls o ho

end RepresentsAll

variable {gs : List (List LeafEntry)}

/-- Packing keeps the entries in order, and no group is empty. -/
theorem packLeafGroups_eq_ok {s : Nat} {c : List LeafEntry}
    (h : packLeafGroups psz ents c s = .ok gs) : gs.flatten = c ++ ents ∧ ∀ g ∈ gs, g ≠ [] := by
  induction ents generalizing c s gs with
  | nil =>
    rw [packLeafGroups, pure_eq_ok] at h
    subst h
    cases c <;> simp
  | cons e r ih =>
    rw [packLeafGroups] at h
    split at h
    · rename_i hfu
      simp only [bind_eq_ok, pure_eq_ok] at h
      obtain ⟨_, -, gs', hgr', rfl⟩ := h
      obtain ⟨hfl, hne⟩ := ih hgr'
      refine ⟨by rw [flatten_cons, hfl]; simp, forall_mem_cons.2 ⟨?_, hne⟩⟩
      simpa using hfu.1
    · simp only [bind_eq_ok] at h
      obtain ⟨_, -, hgr⟩ := h
      obtain ⟨hfl, hne⟩ := ih hgr
      exact ⟨by rw [hfl]; simp, hne⟩

/-- The nodes of a level stand for the entries, in order. -/
def Level (pages : List Bytes) (height : Nat) (level : List NodeSummary) (firstLeaf : Nat)
    (entries : List LeafEntry) : Prop :=
  ∃ nodes : List (NodeSummary × Contents), nodes.map Prod.fst = level ∧
    (∀ node ∈ nodes, Denotes pages height node.1 node.2) ∧
    nodes.flatMap (·.2.entries) = entries ∧ ∀ node ∈ nodes.head?, node.2.firstLeaf = firstLeaf

/-- The leaf pages hold the groups and are chained. -/
theorem emitLeafPages_eq_ok {ls : List (NodeSummary × Bytes)}
    {b : List Bytes} (hne : ∀ g ∈ gs, g ≠ []) (h : emitLeafPages b.length gs = .ok ls) :
    Level (b ++ ls.map Prod.snd) 0 (ls.map Prod.fst) b.length gs.flatten ∧
      Chain (b ++ ls.map Prod.snd) b.length gs ∧ ls.length = gs.length := by
  induction gs generalizing ls b with
  | nil =>
    rw [emitLeafPages, pure_eq_ok] at h
    subst h
    exact ⟨⟨[], rfl, by simp, rfl, by simp⟩, trivial, rfl⟩
  | cons g r ih =>
    simp only [emitLeafPages, bind_eq_ok, pure_eq_ok] at h
    obtain ⟨bs, hb, os, hos, rfl⟩ := h
    rw [forall_mem_cons] at hne
    have hnx : b.length + 1 = (b ++ [bs]).length := by simp
    rw [hnx] at hos
    obtain ⟨⟨ns, hnd, hd, hen, -⟩, hcn, hc⟩ := ih hne.2 hos
    have hps : b ++ List.map Prod.snd ((.of b.length (g.map (·.key)), bs)
        :: os) = b ++ [bs] ++ os.map Prod.snd := by
      simp
    have hpg : (b ++ [bs] ++ os.map Prod.snd)[b.length]? = some bs := by simp
    rw [hps]
    refine ⟨⟨(.of b.length (g.map (·.key)), ⟨b.length, g⟩) :: ns, ?_, ?_, ?_, ?_⟩,
      ⟨⟨bs, hpg, hb⟩, hnx ▸ hcn⟩, by simp [hc]⟩
    · simp [hnd]
    · refine forall_mem_cons.2 ⟨⟨rfl, ?_, bs, _, hpg, hb, ?_⟩, hd⟩
      · obtain ⟨e, t, rfl⟩ := exists_cons_of_ne_nil hne.1
        rfl
      · cases r with
        | nil => simp
        | cons s r =>
          rintro _ ⟨⟩
          simp [hc]
    · simp [hen]
    · rintro _ ⟨⟩
      rfl

def Internal (pages : List Bytes) : Prop := ∀ bytes ∈ pages, ∃ group, InternalAt bytes group

variable {gs : List (List NodeSummary)}

/-- One level of internal pages over the level below. -/
theorem emitInternalPages_eq_ok {ps : List Bytes} {fl : Nat} {ss : List NodeSummary}
    (hlv : Level ps height gs.flatten fl es) (h : emitInternalPages gs ps = .ok (ss, ps')) :
    (∃ m, ps' = ps ++ m ∧ Internal m ∧ m.length = gs.length) ∧
      ss.length = gs.length ∧ Level ps' (height + 1) ss fl es := by
  induction gs generalizing ps ss fl es with
  | nil =>
    obtain ⟨rfl, rfl⟩ := h
    obtain ⟨ns, hno, -, rfl, -⟩ := hlv
    obtain rfl := map_eq_nil_iff.1 hno
    exact ⟨⟨[], (append_nil _).symm, by simp [Internal], rfl⟩, rfl, [], rfl, by simp, rfl, by simp⟩
  | cons g r ih =>
    simp only [emitInternalPages, bind_eq_ok, pure_eq_ok, toU32_eq_ok] at h
    obtain ⟨_, ⟨-, rfl⟩, bs, hb, ⟨ss', ps''⟩, hr, hrs⟩ := h
    obtain ⟨rfl, rfl⟩ := Prod.mk.inj hrs
    obtain ⟨ns, hno, hd, rfl, hf⟩ := hlv
    -- the nodes of the group, and the others
    rw [flatten_cons] at hno
    obtain ⟨cs, os, rfl, rfl, hos⟩ := map_eq_append_iff.1 hno
    rw [forall_mem_append] at hd
    obtain ⟨first, t, rfl⟩ : ∃ first t, cs = first :: t := by
      cases cs with
      | nil => exact absurd (internalAt_of_encode hb).two (by simp)
      | cons first t => exact ⟨first, t, rfl⟩
    obtain ⟨fl', hla⟩ : ∃ fl', ∀ n ∈ os.head?, n.2.firstLeaf = fl' := by cases os <;> simp
    obtain ⟨⟨m, rfl, hin, hc⟩, hl, ns', rfl, hd', hen', -⟩ :=
      ih ⟨os, hos, fun n hnd => (hd.2 n hnd).append [bs], rfl, hla⟩ hr
    have hpg : (ps ++ [bs] ++ m)[ps.length]? = some bs := by simp
    have hkp : ∀ c ∈ first :: t, Denotes (ps ++ [bs] ++ m) height c.1 c.2 :=
      fun c hch => ((hd.1 c hch).append [bs]).append m
    refine ⟨⟨bs :: m, by simp, forall_mem_cons.2 ⟨⟨_, internalAt_of_encode hb⟩, hin⟩,
      by simp [hc]⟩, by simpa using hl,
      (.of ps.length (((first :: t).map Prod.fst).map (·.firstKey)),
        ⟨first.2.firstLeaf, (first :: t).flatMap (·.2.entries)⟩) :: ns', rfl, ?_, ?_, ?_⟩
    · exact forall_mem_cons.2 ⟨⟨bs, first :: t, hpg, hb, hkp, ⟨first, rfl, rfl, rfl⟩, rfl⟩, hd'⟩
    · rw [flatMap_cons, hen', flatMap_append]
    · rintro _ ⟨⟩
      exact hf first rfl

theorem packInternalGroups_flatten {cs : List NodeSummary}
    (h : packInternalGroups cs psz = .ok gs) : gs.flatten = cs := by
  simp only [packInternalGroups, bind_eq_ok] at h
  obtain ⟨p, hpc, hgr⟩ := h
  rw [regroup_flatten hgr, packChildren_flatten hpc, nil_append]

variable {l' : List NodeSummary}

theorem buildInternalLevel_eq_ok (hlv : Level pages height lv flf ents)
    (h : buildInternalLevel lv psz pages = .ok (l', ps')) (hne : lv ≠ []) :
    (∃ m, ps' = pages ++ m ∧ Internal m ∧ m ≠ []) ∧ l' ≠ [] ∧
      Level ps' (height + 1) l' flf ents := by
  simp only [buildInternalLevel, bind_eq_ok] at h
  obtain ⟨gs, hgr, hps⟩ := h
  rw [← packInternalGroups_flatten hgr] at hlv hne
  obtain ⟨⟨m, hmr, hin, hc⟩, hl, hnx⟩ := emitInternalPages_eq_ok hlv hps
  have hp : 0 < gs.length := by
    refine length_pos_iff.2 ?_
    rintro rfl
    exact hne rfl
  rw [← hc] at hl
  rw [← hc] at hp
  exact ⟨⟨m, hmr, hin, length_pos_iff.1 hp⟩, length_pos_iff.1 (hl ▸ hp), hnx⟩

theorem Level.denotes (h : Level pages height lv flf ents) (ho : lv.length = 1) :
    ∃ n, lv = [n] ∧ Denotes pages height n ⟨flf, ents⟩ := by
  obtain ⟨ns, rfl, hd, rfl, hf⟩ := h
  rw [length_map] at ho
  obtain ⟨⟨n, cts⟩, rfl⟩ := length_eq_one_iff.1 ho
  refine ⟨n, rfl, ?_⟩
  rw [flatMap_singleton, ← hf _ rfl]
  exact hd _ (mem_singleton_self _)

/-- The levels end in one node, from which every leaf can be reached. -/
theorem buildLevels_eq_ok {ps : List Bytes} {n : Nat} {l : List NodeSummary}
    (hlv : Level ps n l flf ents) (hne : l ≠ [])
    (hhg : n < ps.length) (h : buildLevels psz l ps = .ok (l', ps')) :
    ∃ heg' nd m, l' = [nd] ∧ ps' = ps ++ m ∧ Internal m ∧
      heg' < ps'.length ∧ Denotes ps' heg' nd ⟨flf, ents⟩ := by
  fun_induction buildLevels psz l ps generalizing n with
  | case1 l ps hmn e hnx => cases h
  | case2 l ps hmn next hnx hsh ih =>
    obtain ⟨⟨m, hmr, hin, hp⟩, hnn, hlv'⟩ := buildInternalLevel_eq_ok hlv hnx hne
    have hhi : n + 1 < next.2.length := by
      rw [hmr, length_append]
      have := length_pos_iff.2 hp
      omega
    obtain ⟨heg', nd, os, rfl, rfl, hin', hlt, hd⟩ := ih hlv' hnn hhi h
    exact ⟨heg', nd, m ++ os, rfl, by rw [hmr, append_assoc],
      forall_mem_append.2 ⟨hin, hin'⟩, hlt, hd⟩
  | case3 l ps hfw =>
    obtain ⟨rfl, rfl⟩ := Prod.mk.inj (Except.ok.inj h)
    have ho : l.length = 1 := by
      have := length_pos_iff.2 hne
      omega
    obtain ⟨nd, rfl, hd⟩ := hlv.denotes ho
    exact ⟨n, nd, [], rfl, (append_nil _).symm, by simp [Internal], hhg, hd⟩

section Prefetch

def startupKeys : List String :=
  ["contract/nav-db", "chart/catalog", "resource/families", "weather/metar-important-stations",
    "weather/station-catalog", "vector/manifest"]

def startupPrefixes : List String :=
    ["package/by-id/", "chart-reference/", "plate/by-id/chart-reference%3A"]

variable (repair : Bytes → String) (root : NavKvRoot) (pages : List Bytes)

/-- The pages that the builder's own requests touch. -/
def startupAsked (extra : List NavKvPrefetch) : List Nat :=
  let asked (key : String) := (root.extractValue (pages[·]?) pages.length key).asked
  startupKeys.flatMap asked ++
    startupPrefixes.flatMap (fun keyPrefix =>
      let scan := root.prefixKeys (pages[·]?) repair pages.length keyPrefix
      scan.asked ++ (scan.value.getD []).flatMap asked) ++
    extra.flatMap fun
      | .value key => asked key
      | .lookup key => (root.getValueRange (pages[·]?) pages.length key).asked

variable {repair root pages} {tc t' : List Nat} {ex : List NavKvPrefetch}

theorem traceKeys_eq {t : List Nat} (ks : List String) : traceKeys root pages ks t =
    t ++ ks.flatMap fun key => (root.extractValue (pages[·]?) pages.length key).asked := by
  induction ks generalizing t with
  | nil => simp [traceKeys]
  | cons key r ih =>
    rw [flatMap_cons, ← append_assoc]
    exact ih

theorem tracePrefix_eq_ok {kp : String} (h : tracePrefix repair root pages kp tc = .ok t') :
    let s := root.prefixKeys (pages[·]?) repair pages.length kp
    t' = tc ++ s.asked ++ (s.value.getD []).flatMap fun key =>
      (root.extractValue (pages[·]?) pages.length key).asked := by
  unfold tracePrefix at h
  simp only at h
  split at h
  · cases h
  · rename_i ks hks
    cases h
    simp only [hks]
    exact traceKeys_eq ks

theorem traceExtra_eq_ok {t : List Nat}
    (h : traceExtra root pages ex t = .ok t') : t' = t ++ ex.flatMap fun
      | .value key => (root.extractValue (pages[·]?) pages.length key).asked
      | .lookup key => (root.getValueRange (pages[·]?) pages.length key).asked := by
  induction ex generalizing t with
  | nil =>
    rw [traceExtra, pure_eq_ok] at h
    simp [h]
  | cons req r ih =>
    rw [flatMap_cons, ← append_assoc]
    cases req with
    | value key =>
      simp only [traceExtra, bind_eq_ok] at h
      exact ih h.choose_spec.2
    | lookup key =>
      simp only [traceExtra, bind_eq_ok] at h
      exact ih h.choose_spec.2

theorem startupAsked_lt (hv : root.Valid) :
    ∀ p ∈ startupAsked repair root pages ex, p < root.pageCount := by
  have hk key := (asks_extractValue hv (pages[·]?) key pages.length).asked
  simp only [startupAsked, forall_mem_append, forall_mem_flatMap]
  refine ⟨⟨fun key _ => hk key, fun kp _ =>
    ⟨(asks_prefixKeys hv _ repair _ kp).asked, fun key _ => hk key⟩⟩, fun req _ => ?_⟩
  cases req with
  | value key => exact hk key
  | lookup key => exact (asks_getValueRange hv _ key _).asked

theorem mem_btreeSet {p : Nat} : p ∈ btreeSet tc ↔ p ∈ tc := by
  rw [btreeSet, Std.ExtTreeSet.mem_toList, Std.ExtTreeSet.mem_ofList, contains_iff_mem]

theorem startupPrefetchPages_eq_ok {pps : List Nat}
    (h : startupPrefetchPages repair root pages ex = .ok pps) : pps.Pairwise (· < ·) ∧
      ((root.extractValue (pages[·]?) pages.length "chart/catalog").value = none ∧ pps = [] ∨
        ∀ p, p ∈ pps ↔ p ∈ startupAsked repair root pages ex) := by
  unfold startupPrefetchPages at h
  simp only at h
  split at h
  · rename_i hn
    cases h
    exact ⟨.nil, .inl ⟨Option.isNone_iff_eq_none.1 hn, rfl⟩⟩
  · simp only [bind_eq_ok, pure_eq_ok] at h
    obtain ⟨ps, hpc, rs, hrf, pls, hpl, all, hal, rfl⟩ := h
    refine ⟨(Std.ExtTreeSet.ordered_toList).imp fun hls => Nat.compare_eq_lt.1 hls,
      .inr fun p => mem_btreeSet.trans ?_⟩
    rw [traceExtra_eq_ok hal, tracePrefix_eq_ok hpl, tracePrefix_eq_ok hrf, tracePrefix_eq_ok hpc]
    simp only [traceKeys_eq, touch, startupAsked, startupKeys, startupPrefixes, mem_append, flatMap_cons]
    tauto

end Prefetch

theorem nodes_of_build {ls : List NodeSummary} {lp nps : List Bytes}
    (hne : ents ≠ []) (hl : buildLeafPages ents psz [] = .ok (ls, lp))
    (hlv : buildLevels psz ls lp = .ok (lv, nps)) : ∃ n nd gs, lv = [nd] ∧ gs.flatten = ents ∧
      Denotes nps n nd ⟨0, gs.flatten⟩ ∧ Chain nps 0 gs ∧
      n < nps.length ∧ (∀ g ∈ gs, g ≠ []) ∧ Internal (nps.drop gs.length) := by
  simp only [buildLeafPages, bind_eq_ok, pure_eq_ok] at hl
  obtain ⟨gs, hgr, _, ⟨-, rfl⟩, e, hem, hr⟩ := hl
  obtain ⟨rfl, rfl⟩ := Prod.mk.inj hr
  obtain ⟨hfl, hnn⟩ := packLeafGroups_eq_ok hgr
  obtain ⟨h, hcn, hc⟩ := emitLeafPages_eq_ok hnn hem
  have hp : 0 < e.length := by
    rw [hc]
    refine length_pos_iff.2 ?_
    rintro rfl
    exact hne hfl.symm
  have hmn : e.map Prod.fst ≠ [] := by
    rw [← length_pos_iff, length_map]
    exact hp
  obtain ⟨n, nd, m, rfl, rfl, hin, hlt, hd⟩ := buildLevels_eq_ok h hmn (by simpa using hp) hlv
  refine ⟨n, nd, gs, rfl, hfl, hd, hcn.append m, hlt, hnn, ?_⟩
  rwa [drop_left' (by simpa using hc)]

abbrev NavKvRoot.bare (root : NavKvRoot) : NavKvRoot := { root with prefetchPages := [] }

/-- A build that succeeds has made a tree of the pairs. -/
theorem exists_tree_of_build {rp : Bytes → String} {x : List NavKvPrefetch} {out : NavKvBuildOutput}
    (h : buildNavKvStrictWithExtraPrefetchKeys rp prs psz x = .ok out) :
    ∃ rt, NavKvRoot.parse out.rootBytes = .ok rt ∧ PairsAscend prs ∧
      ∃ t : Tree rt, t.pages = out.pages ∧ RepresentsAll t.valueBytes prs t.entries ∧
        (∀ g ∈ t.groups, g ≠ []) ∧ Internal (t.nodePages.drop t.groups.length) ∧
        startupPrefetchPages rp rt.bare out.pages x = .ok rt.prefetchPages := by
  simp only [buildNavKvStrictWithExtraPrefetchKeys, validatePairs, bind_eq_ok,
    rejectIf_eq_ok, toU32_eq_ok] at h
  obtain ⟨_, ⟨_, hsz, _, hps, hvl⟩, ⟨es, vb⟩, hes, _, ⟨hb, rfl⟩, ⟨ls, lp⟩, hl, ⟨l, np⟩, hlv, h⟩ := h
  obtain ⟨hva, hac, -⟩ := validatePairsFrom_eq_ok hvl
  obtain ⟨-, hr⟩ := leafEntriesFrom_eq_ok hva hes
  have hne : es ≠ [] := by
    rintro rfl
    rw [forall₂_nil_right_iff.1 hr] at hps
    exact hps rfl
  obtain ⟨ht, n, gs, rfl, rfl, hd, hcn, hhg, hne', hin⟩ := nodes_of_build hne hl hlv
  simp only [head?_cons, bind_eq_ok, toU32_eq_ok, pure_eq_ok] at h
  obtain ⟨_, ⟨hnd, rfl⟩, _, ⟨hpa, rfl⟩, _, ⟨hlg, rfl⟩, _, ⟨hen, rfl⟩,
    b, hba, rt, hrt, pp, hp, rb, hro, rfl⟩ := h
  -- the record of the root, without and with the prefetch pages
  let r pp : NavKvRoot := ⟨prs.length, psz, n.page,
    (np ++ pieces psz vb).length, np.length, vb.length, pp⟩
  have hc : (np ++ pieces psz vb).length = np.length + (vb.length + psz - 1) / psz := by
    rw [length_append, length_pieces]
  have hpg : n.page < (np ++ pieces psz vb).length := by
    rw [length_append]
    exact Nat.lt_add_right _ hd.page_lt
  have hv pp : (r pp).Valid := by
    refine ⟨hen, hpa, ?_, hb, Nat.pos_of_ne_zero hsz, hpg, hc.symm⟩
    exact (Nat.le_mul_of_pos_left _ (Nat.zero_lt_of_lt hpg)).trans_lt hlg
  have hbr : NavKvRoot.parse b = .ok (r []) :=
    parse_buildRootBytes (hv []) (forall_mem_nil _) .nil hba
  obtain rfl := Except.ok.inj (hrt.symm.trans hbr)
  obtain ⟨hsr, had⟩ := startupPrefetchPages_eq_ok hp
  have hbd : ∀ p ∈ pp, p < (r pp).pageCount := by
    rcases had with ⟨-, rfl⟩ | had
    · exact forall_mem_nil _
    · exact fun p hm => startupAsked_lt (hv []) p ((had p).1 hm)
  refine ⟨r pp, parse_buildRootBytes (hv _) hbd hsr hro, hac,
    ⟨np, vb, ht, n, gs, ⟨hv _, hlg, rfl⟩, rfl, rfl, hd, hcn,
      hhg, RepresentsAll.keysAscend hr hac, ?_, ?_⟩, rfl, hr, hne', hin, hp⟩
  · intro e he
    obtain ⟨pr, -, hpr⟩ := RepresentsAll.exists_pair hr e he
    exact hpr.fits hb
  · intro e he
    obtain ⟨pr, -, hpr⟩ := RepresentsAll.exists_pair hr e he
    exact hpr.stored

end Aerobag.NavKv
