import Aerobag.Lib.Run
import Aerobag.NodeCache.Node

/-!
# Who owns the directory of a build node

The lock file is removed, created and the record read in separate operations. When none is
overtaken, only the call that has created the lock changes the directory.
-/

open List Option

namespace Aerobag.NodeCache

variable {node : PreparedNode} {s t : State} {c : Nat} {p q : Phase}

def Phase.looks : Phase → Bool
  | .looking .. => true
  | _ => false

def Phase.searches (phase : Phase) : Bool := !phase.owns && !phase.looks && phase ≠ .failed

def RecordFile.isComplete : RecordFile → Bool
  | .complete _ => true
  | .incomplete _ => false

/-- The operation is not overtaken: a stale lock is not removed when a call owns the lock, a lock is not
created when there is a finished build or a record is being compared with the outputs, a record is read
when it is complete and no call rebuilds the directory, and no process gets the number in the lock. -/
def InTime (node : PreparedNode) (s : State) : Label → Prop
  | .act c (.go _) =>
    (s.phase c = .removing → ∀ d < s.calls, (s.phase d).owns = false) ∧
    (s.phase c = .claiming → s.lock = none →
      s.hasBuild node = false ∧ ∀ d < s.calls, (s.phase d).looks = false) ∧
    (s.phase c = .reading → s.record.any (·.isComplete) = true ∧
      ∀ d < s.calls, (s.phase d).rebuilds = false)
  | .spawn pid => s.lock.all (fun file => file.pid ≠ some pid) = true
  | _ => True

instance : (label : Label) → Decidable (InTime node s label)
  | .act _ (.go _) => inferInstanceAs (Decidable (_ ∧ _ ∧ _))
  | .spawn _ => inferInstanceAs (Decidable (_ = true))
  | .crash _ | .call _ | .act _ (.remove _) | .act _ (.write _) | .act _ .finish | .act _ .giveUp =>
    inferInstanceAs (Decidable True)

/-- The call that owns the directory has created the lock file, and the process in the file is alive only
while that call owns it. -/
structure Guarded (s : State) : Prop where
  beyond : ∀ c, s.calls ≤ c → s.phase c = .over
  owner : ∀ c, (s.phase c).owns = true → s.lock.map (·.creator) = some c
  created : ∀ file, s.lock = some file → file.creator < s.calls ∧
    ∀ p, file.pid = some p → p = s.pid file.creator ∧ (p ∈ s.alive → (s.phase file.creator).owns = true)

/-- What a call in this phase knows of the directory. -/
def Knows (node : PreparedNode) (s : State) : Phase → Prop
  | .resetting entries => ∀ e, e ∈ entries ↔ e ∈ s.entries
  | .building build => s.record = none ∧ ∀ (path : String) b, s.outputs[path]? = some b → b = build
  | .recording build => s.record = some (.incomplete build) ∧
      ∀ (path : String) b, s.outputs[path]? = some b → b = build
  | .looking record paths => s.record = some (.complete record) ∧
      ∀ path ∈ node.expectedOutputs, path ∉ paths → path ∈ s.outputs
  | .failed => False
  | _ => True

/-- A call that rebuilds the directory is alone with it; a complete record is that of the outputs, and a
record that was handed out is still there with them. -/
structure Kept (node : PreparedNode) (s : State) : Prop where
  knows : ∀ c, Knows node s (s.phase c)
  alone : ∀ c, (s.phase c).rebuilds = true → (∀ d, (s.phase d).looks = false) ∧ s.handed = []
  written : ∀ record, s.record = some (.complete record) → record.fingerprint = node.fingerprint ∧
    record.cacheHit = false ∧ record.build ∈ s.finished ∧
    ∀ (path : String) b, s.outputs[path]? = some b → b = record.build
  handed : ∀ record ∈ s.handed, s.record = some (.complete { record with cacheHit := false }) ∧
    ∀ path ∈ node.expectedOutputs, path ∈ s.outputs

/-- What holds in every state when no operation is overtaken. -/
structure Inv (node : PreparedNode) (s : State) : Prop extends Guarded s, Kept node s

theorem inv_initial : Inv node .initial := by
  refine ⟨⟨?_, ?_, ?_⟩, ⟨?_, ?_, ?_, ?_⟩⟩ <;>
    simp [State.initial, Phase.owns, Phase.rebuilds, Knows]

theorem mem_entries_record : Entry.record ∈ s.entries ↔ s.record ≠ none := by simp [State.entries]

theorem mem_entries_output {path : String} : Entry.output path ∈ s.entries ↔ path ∈ s.outputs := by
  simp [State.entries]

theorem mem_entries_remove {en e : Entry} : e ∈ (s.remove en).entries ↔ e ∈ s.entries ∧ e ≠ en := by
  cases en <;> cases e <;> simp [State.remove, State.entries, and_comm, ne_comm]

theorem phase_goto_self : (s.goto c q).phase c = q := Function.update_self ..

theorem phase_goto_of_ne {d : Nat} (hd : d ≠ c) : (s.goto c q).phase d = s.phase d :=
  Function.update_of_ne hd ..

theorem Phase.of_searches (h : q.searches = true) : q.owns = false ∧ q.looks = false ∧ q ≠ .failed := by
  simpa [Phase.searches, and_assoc] using h

theorem knows_of_idle (how : q.owns = false) (hlk : q.looks = false) (hfl : q ≠ .failed) :
    Knows node s q := by
  cases q <;> trivial

theorem phase_goto_of_searches (hq : q.searches = true) (d : Nat) :
    (s.goto c q).phase d = s.phase d ∨ ((s.goto c q).phase d).searches = true := by
  by_cases hd : d = c
  · exact .inr (by rwa [hd, phase_goto_self])
  · exact .inl (phase_goto_of_ne hd)

theorem forall_goto {P : Phase → Prop} (hq : P q) (h : ∀ d, P (s.phase d)) (d : Nat) :
    P ((s.goto c q).phase d) := by
  by_cases hd : d = c
  · rwa [hd, phase_goto_self]
  · rw [phase_goto_of_ne hd]
    exact h d

namespace Guarded

variable (h : Guarded s)

include h

theorem only (hc : (s.phase c).owns = true) {d : Nat} (hd : (s.phase d).owns = true) : c = d :=
  some.inj ((h.owner c hc).symm.trans (h.owner d hd))

theorem all {P : Phase → Prop} (hov : P .over) (hP : ∀ d < s.calls, P (s.phase d)) (d : Nat) :
    P (s.phase d) := by
  rcases lt_or_ge d s.calls with hlt | hge
  · exact hP d hlt
  · rwa [h.beyond d hge]

theorem beyond_goto (hlt : c < s.calls) (d : Nat) (hd : s.calls ≤ d) : (s.goto c q).phase d = .over :=
  (phase_goto_of_ne (hlt.trans_le hd).ne').trans (h.beyond d hd)

/-- A call goes on with the lock, or without. -/
theorem goto (hlt : c < s.calls) (hq : q.owns = (s.phase c).owns) : Guarded (s.goto c q) := by
  have how (d : Nat) : ((s.goto c q).phase d).owns = (s.phase d).owns := by
    by_cases hd : d = c
    · rw [hd, phase_goto_self, hq]
    · rw [phase_goto_of_ne hd]
  refine ⟨h.beyond_goto hlt, fun d hd => h.owner d (how d ▸ hd), fun file hf => ?_⟩
  obtain ⟨hcr, hpid⟩ := h.created file hf
  exact ⟨hcr, fun p hp => ⟨(hpid p hp).1, fun ha => (how _).trans ((hpid p hp).2 ha)⟩⟩

theorem unlock (hlt : c < s.calls) (hq : q.owns = false)
    (hos : ∀ d, d ≠ c → (s.phase d).owns = false) : Guarded { s.goto c q with lock := none } where
  beyond := h.beyond_goto hlt
  owner d hd := by
    have hno : ((s.goto c q).phase d).owns = false := by
      by_cases hdc : d = c
      · rwa [hdc, phase_goto_self]
      · rw [phase_goto_of_ne hdc, hos d hdc]
    exact absurd hd (by simp [hno])
  created _ hf := by cases hf

/-- No call has owned the lock, since it was not there. -/
theorem create (hlt : c < s.calls) (hlc : s.lock = none) {nm : Nat} :
    Guarded { s.goto c .locked with lock := some ⟨c, none, nm⟩ } where
  beyond := h.beyond_goto hlt
  owner d hd := by
    by_cases hdc : d = c
    · rw [hdc]
      rfl
    · have how := h.owner d (by rwa [← phase_goto_of_ne (s := s) (q := .locked) hdc])
      rw [hlc] at how
      cases how
  created file hf := by
    cases hf
    exact ⟨hlt, fun p hp => by cases hp⟩

theorem stamp (hlt : c < s.calls) (hc : s.phase c = .locked) {nm : Nat} :
    Guarded (writePid s c nm) := by
  have how : (s.phase c).owns = true := by
    rw [hc]
    rfl
  obtain ⟨f, hfl, hcr⟩ := map_eq_some_iff.1 (h.owner c how)
  have hlock : (writePid s c nm).lock = some ⟨c, some (s.pid c), nm⟩ := by simp [writePid, hfl, hcr]
  refine ⟨h.beyond_goto hlt, fun d hd => ?_, fun file hf => ?_⟩
  · rw [hlock, map_some, some.injEq]
    exact (h.goto hlt (q := .listing) how.symm).only (by rw [phase_goto_self]; rfl) hd
  · obtain rfl := some.inj (hlock.symm.trans hf)
    refine ⟨hlt, fun p hp => ⟨(some.inj hp).symm, fun _ => ?_⟩⟩
    exact congrArg Phase.owns phase_goto_self

theorem spawn {pid : Nat} (hok : s.lock.all (fun file => file.pid ≠ some pid) = true) :
    Guarded { s with alive := insert pid s.alive } where
  beyond := h.beyond
  owner := h.owner
  created file hf := by
    obtain ⟨hcr, hpid⟩ := h.created file hf
    refine ⟨hcr, fun p hp => ⟨(hpid p hp).1, fun ha => (hpid p hp).2 ?_⟩⟩
    -- the process in the lock is not the new one
    refine (Finset.mem_insert.1 ha).resolve_left ?_
    rintro rfl
    simp [show s.lock = some file from hf, hp] at hok

theorem crash {pid : Nat} : Guarded { s with
    alive := s.alive.erase pid, phase := fun c => if s.pid c = pid then .over else s.phase c } where
  beyond d hd := by simp [h.beyond d hd]
  owner d hd := h.owner d (by
    dsimp only at hd
    split at hd
    · cases hd
    · exact hd)
  created file hf := by
    obtain ⟨hcr, hpid⟩ := h.created file hf
    refine ⟨hcr, fun p hp => ⟨(hpid p hp).1, fun ha => ?_⟩⟩
    obtain ⟨hne, ha⟩ := Finset.mem_erase.1 ha
    dsimp only
    rw [if_neg ((hpid p hp).1 ▸ hne)]
    exact (hpid p hp).2 ha

theorem call {pid : Nat} : Guarded { s with
    calls := s.calls + 1, pid := Function.update s.pid s.calls pid,
    phase := Function.update s.phase s.calls .checking } where
  beyond d (hd : s.calls + 1 ≤ d) :=
    (Function.update_of_ne (by omega) ..).trans (h.beyond d (by omega))
  owner d (hd : (Function.update s.phase s.calls .checking d).owns = true) := h.owner d (by
    by_cases hdc : d = s.calls
    · rw [hdc, Function.update_self] at hd
      cases hd
    · rwa [Function.update_of_ne hdc] at hd)
  created file hf := by
    obtain ⟨hcr, hpid⟩ := h.created file hf
    refine ⟨hcr.trans (Nat.lt_succ_self _), fun p hp => ?_⟩
    simp only [Function.update_of_ne hcr.ne]
    exact hpid p hp

end Guarded

namespace Kept

variable (h : Kept node s)

include h

theorem unseen {r : NodeRecord} {ps : List String} (hc : s.phase c = .looking r ps) (d : Nat) :
    (s.phase d).rebuilds = false := by
  refine Bool.eq_false_iff.2 fun hd => ?_
  simpa [hc, Phase.looks] using (h.alone d hd).1 c

/-- The directory is as it was, and the calls that have moved search. -/
theorem searches {al : Finset Nat} {cs : Nat} {pd : Nat → Nat} {lk : Option LockFile} {f : Nat → Phase}
    (hf : ∀ d, f d = s.phase d ∨ (f d).searches = true) :
    Kept node { s with alive := al, calls := cs, pid := pd, lock := lk, phase := f } := by
  have hall {P : Phase → Prop} (hP : ∀ d, P (s.phase d)) (hs : ∀ q, q.searches = true → P q) (d : Nat) :
      P (f d) := (hf d).elim (fun he => he ▸ hP d) (hs _)
  refine ⟨hall h.knows fun q hq => ?_, fun c (hc : (f c).rebuilds = true) => ?_, h.written, h.handed⟩
  · obtain ⟨how, hlk, hfl⟩ := q.of_searches hq
    exact knows_of_idle how hlk hfl
  · obtain hsame | hse := hf c
    · rw [hsame] at hc
      exact ⟨hall (h.alone c hc).1 fun q hq => (q.of_searches hq).2.1, (h.alone c hc).2⟩
    · simpa [Phase.owns, hc] using ((f c).of_searches hse).1

/-- A call compares the record with the outputs. -/
theorem looks {r : NodeRecord} {ps : List String} (hrb : ∀ d, (s.phase d).rebuilds = false)
    (hk : Knows node s (.looking r ps)) : Kept node (s.goto c (.looking r ps)) where
  knows := forall_goto (P := Knows node s) hk h.knows
  alone d hd := absurd hd (by
    simp [forall_goto (c := c) (P := (·.rebuilds = false)) (rfl : (Phase.looking r ps).rebuilds = _) hrb d])
  written := h.written
  handed := h.handed

/-- A hit hands out the record of the build whose outputs are there. -/
theorem hits {r : NodeRecord} (hc : s.phase c = .looking r []) :
    Kept node { s.goto c (.hit { r with cacheHit := true }) with
      handed := { r with cacheHit := true } :: s.handed } := by
  obtain ⟨hrc, hin⟩ : Knows node s (.looking r []) := hc ▸ h.knows c
  have hsm : { r with cacheHit := false } = r := by rw [← (h.written r hrc).2.1]
  have hrb := forall_goto (c := c) (q := .hit { r with cacheHit := true }) (P := (·.rebuilds = false)) rfl
    (h.unseen hc)
  refine ⟨forall_goto (P := Knows node s) trivial h.knows, fun d hd => absurd hd (by simp [hrb d]),
    h.written, forall_mem_cons.2 ⟨⟨?_, fun pt hpt => hin pt hpt not_mem_nil⟩, h.handed⟩⟩
  exact hrc.trans (by rw [← hsm])

/-- Only one call changes the directory, and no other one knows anything of it. -/
theorem rebuild {rec : Option RecordFile} {os : Std.ExtTreeMap String Nat} {b : Nat} {f : Finset Nat}
    (how : ∀ d, d ≠ c → (s.phase d).owns = false) (hq : q.owns = true)
    (hun : (∀ d, (s.phase d).looks = false) ∧ s.handed = [])
    (hk : Knows node { s with record := rec, outputs := os } q)
    (hwr : ∀ r, rec = some (.complete r) → r.fingerprint = node.fingerprint ∧
      r.cacheHit = false ∧ r.build ∈ f ∧ ∀ (pt : String) b, os[pt]? = some b → b = r.build) :
    Kept node { s.goto c q with record := rec, outputs := os, builds := b, finished := f } := by
  have hlk : q.looks = false := by cases q <;> first | rfl | cases hq
  refine ⟨fun d => ?_, fun _ _ => ⟨forall_goto (P := (·.looks = false)) hlk hun.1, hun.2⟩, hwr,
    fun r hr => absurd (hun.2 ▸ hr : r ∈ []) not_mem_nil⟩
  by_cases hd : d = c
  · exact hd ▸ (phase_goto_self (s := s) (q := q)).symm ▸ hk
  · rw [show State.phase _ d = s.phase d from phase_goto_of_ne hd]
    exact knows_of_idle (how d hd) (hun.1 d) fun hfl => by simpa [hfl, Knows] using h.knows d

end Kept

namespace Inv

variable (h : Inv node s) (hlt : c < s.calls)

include h hlt

theorem search (hc : s.phase c = p) (hp : p.owns = false) (hq : q.searches = true) :
    Inv node (s.goto c q) :=
  ⟨h.goto hlt (by rw [hc, hp, (q.of_searches hq).1]),
    h.searches (phase_goto_of_searches hq)⟩

theorem unlock (hq : q.searches = true) (hos : ∀ d, d ≠ c → (s.phase d).owns = false) :
    Inv node { s.goto c q with lock := none } :=
  ⟨h.toGuarded.unlock hlt (q.of_searches hq).1 hos,
    h.searches (phase_goto_of_searches hq)⟩

theorem rebuild {rec : Option RecordFile} {os : Std.ExtTreeMap String Nat} {b : Nat} {f : Finset Nat}
    (hc : s.phase c = p) (hp : p.rebuilds = true) (hq : q.owns = true)
    (hk : Knows node { s with record := rec, outputs := os } q)
    (hwr : ∀ r, rec = some (.complete r) → r.fingerprint = node.fingerprint ∧
      r.cacheHit = false ∧ r.build ∈ f ∧ ∀ (pt : String) b, os[pt]? = some b → b = r.build) :
    Inv node { s.goto c q with record := rec, outputs := os, builds := b, finished := f } := by
  subst hc
  have how : (s.phase c).owns = true := by simp [Phase.owns, hp]
  have hg := h.goto hlt (hq.trans how.symm)
  refine ⟨⟨hg.beyond, hg.owner, hg.created⟩, h.toKept.rebuild (fun d hd => ?_) hq (h.alone c hp) hk hwr⟩
  exact Bool.eq_false_iff.2 fun hd' => hd (h.only hd' how)

/-- Nothing has been handed out, or the node had a build. -/
theorem create {nm : Nat} (hlc : s.lock = none)
    (hbl : s.hasBuild node = false) (hlk : ∀ d < s.calls, (s.phase d).looks = false) :
    Inv node { s.goto c .locked with lock := some ⟨c, none, nm⟩ } := by
  have hhd : s.handed = [] := eq_nil_iff_forall_not_mem.2 fun r hr => by
    obtain ⟨hrc, hin⟩ := h.handed r hr
    refine absurd hbl (Bool.eq_false_iff.not.2 ?_)
    simp only [State.hasBuild, hrc, decide_eq_true_eq, not_not]
    exact ⟨(h.written _ hrc).1, hin⟩
  have hno (d : Nat) (_ : d ≠ c) : (s.phase d).owns = false := Bool.eq_false_iff.2 fun hd => by
    simpa [hlc] using h.owner d hd
  have hk := h.toKept.rebuild (q := .locked) (b := s.builds) hno rfl
    ⟨h.all (P := fun ph => ph.looks = false) rfl hlk, hhd⟩ trivial h.written
  exact ⟨h.toGuarded.create hlt hlc, { hk with }⟩

theorem stamp {nm : Nat} (hc : s.phase c = .locked) : Inv node (writePid s c nm) :=
  ⟨h.toGuarded.stamp hlt hc,
    { (h.rebuild hlt hc rfl (q := .listing) (b := s.builds) rfl trivial h.written).toKept with }⟩

theorem next {act : Act} (hok : InTime node s (.act c act))
    (hst : next node s c (s.phase c) act = some t) : Inv node t := by
  have hkn := h.knows c
  unfold NodeCache.next at hst
  split at hst <;> rename_i hph <;> try rw [hph] at hkn <;> try obtain rfl := some.inj hst
  · exact h.search hlt hph rfl (by split <;> rfl)
  · -- the record is complete, and is compared with the outputs if it is that of the node
    obtain ⟨hcm, hrb⟩ := hok.2.2 hph
    unfold loadNodeRecord
    split
    · rename_i r hrc
      split
      · exact ⟨h.goto hlt (by rw [hph]; rfl), h.looks (h.all (P := fun ph => ph.rebuilds = false) rfl hrb)
          ⟨hrc, fun path hpt hnt => absurd hpt hnt⟩⟩
      · exact h.search hlt hph rfl rfl
    · rename_i hrc
      obtain ⟨f, hfl, hcm⟩ := (Option.any_eq_true _ _).1 hcm
      cases f with
      | complete r => exact absurd hfl (hrc r)
      | incomplete bl => simp [RecordFile.isComplete] at hcm
  · rename_i _ path _ _
    split
    · rename_i hin
      refine ⟨h.goto hlt (by rw [hph]; rfl), h.looks (h.unseen hph) ⟨hkn.1, fun pt hpt hnt => ?_⟩⟩
      by_cases he : pt = path
      · exact he ▸ hin
      · exact hkn.2 pt hpt (by simp [he, hnt])
    · exact h.search hlt hph rfl rfl
  · rename_i r _
    have hg := h.goto (q := .hit { r with cacheHit := true }) hlt (by rw [hph]; rfl)
    exact ⟨⟨hg.beyond, hg.owner, hg.created⟩, h.hits hph⟩
  · unfold createLock
    split
    · rename_i hlc
      exact h.create hlt hlc (hok.2.1 hph hlc).1 (hok.2.1 hph hlc).2
    · exact h.search hlt hph rfl rfl
  · exact h.search hlt hph rfl (by split <;> rfl)
  · exact h.search hlt hph rfl rfl
  · exact h.search hlt hph rfl (by split <;> rfl)
  · unfold judgeMalformed
    split
    · exact h.search hlt hph rfl rfl
    · split <;> exact h.search hlt hph rfl rfl
  · exact h.unlock hlt rfl fun d _ => h.all (P := fun ph => ph.owns = false) rfl (hok.1 hph) d
  · exact h.stamp hlt hph
  · exact h.rebuild hlt hph rfl rfl (fun _ => Iff.rfl) h.written
  · -- an entry is removed
    rename_i es en
    by_cases he : en ∉ es
    · simp [he] at hst
    rw [if_neg he, if_pos ((hkn en).1 (not_not.1 he))] at hst
    obtain rfl := some.inj hst
    have hlf : ∀ e, e ∈ es.filter (· ≠ en) ↔ e ∈ (s.remove en).entries := fun e => by
      rw [mem_entries_remove, mem_filter, hkn, decide_eq_true_eq]
    cases en with
    | record => exact h.rebuild hlt hph rfl rfl hlf (by simp [State.remove])
    | output path =>
      refine h.rebuild hlt hph rfl rfl hlf fun r hrc => ?_
      obtain ⟨hpr, hh, hfn, hbl⟩ := h.written r hrc
      refine ⟨hpr, hh, hfn, fun o b ho => hbl o b ?_⟩
      simp only [State.remove, Std.ExtTreeMap.getElem?_erase] at ho
      split at ho <;> simp_all
  · -- the directory is empty
    have hrc : s.record = none := by simpa [mem_entries_record] using hkn .record
    have hot : ∀ path : String, path ∉ s.outputs := fun path => by
      simpa [mem_entries_output] using hkn (.output path)
    refine h.rebuild hlt hph rfl rfl ⟨hrc, fun path b hpt => absurd ?_ (hot path)⟩ h.written
    rw [Std.ExtTreeMap.mem_iff_isSome_getElem?]
    exact isSome_iff_exists.2 ⟨b, hpt⟩
  · rename_i bl path
    have hw : Inv node { s.goto c (.building bl) with outputs := s.outputs.insert path bl } := by
      refine h.rebuild hlt hph rfl rfl ⟨hkn.1, fun o b ho => ?_⟩ (by simp [State.goto, hkn.1])
      rw [Std.ExtTreeMap.getElem?_insert] at ho
      split at ho
      · exact (some.inj ho).symm
      · exact hkn.2 o b ho
    rwa [State.goto, ← hph, Function.update_eq_self] at hw
  · exact h.rebuild hlt hph rfl rfl ⟨rfl, hkn.2⟩ (by simp)
  · exact h.rebuild hlt hph rfl rfl trivial h.written
  · -- the record is that of the build, whose outputs are there
    refine h.rebuild hlt hph rfl rfl trivial fun r hcm => ?_
    rw [if_pos hkn.1, some.injEq, RecordFile.complete.injEq] at hcm
    subst hcm
    exact ⟨rfl, rfl, Finset.mem_insert_self _ _, hkn.2⟩
  · refine h.unlock hlt rfl fun d hd => ?_
    by_contra how
    exact hd (h.only (by simpa using how) (by rw [hph]; rfl))
  · simp at hst

omit hlt

/-- Every step in time keeps the invariant. -/
theorem step {l : Label} (hok : InTime node s l) (hst : step node s l = some t) : Inv node t := by
  cases l with
  | act c act =>
    refine h.next ?_ hok hst
    by_contra hge
    simp [NodeCache.step, h.beyond c (not_lt.1 hge), NodeCache.next] at hst
  | spawn pid =>
    obtain rfl := some.inj hst
    exact ⟨h.spawn hok, h.searches fun _ => .inl rfl⟩
  | crash pid =>
    obtain rfl := some.inj hst
    refine ⟨h.crash, h.searches fun d => ?_⟩
    split
    · exact .inr rfl
    · exact .inl rfl
  | call pid =>
    obtain ⟨-, hst⟩ := ite_none_right_eq_some.1 hst
    obtain rfl := some.inj hst
    refine ⟨h.call, h.searches fun d => ?_⟩
    by_cases hd : d = s.calls
    · exact .inr (by rw [hd, Function.update_self]; rfl)
    · exact .inl (Function.update_of_ne hd ..)

end Inv

/-- Left alone, the call comes to a cache hit or to the build. -/
def Obtains (node : PreparedNode) (c : Nat) (s : State) : Prop :=
  ∃ (acts : List Act) (t : State), Run.exec (step node) s (acts.map (Label.act c)) = some t ∧
    ((∃ record, t.phase c = .hit record) ∨ ∃ build, t.phase c = .building build)

namespace Obtains

theorem after (act : Act) (hst : next node s c (s.phase c) act = some t) (h : Obtains node c t) :
    Obtains node c s := by
  obtain ⟨acs, u, hr, hu⟩ := h
  exact ⟨act :: acs, u, Run.exec_cons_eq_some.2 ⟨t, hst, hr⟩, hu⟩

theorem resetting {es : List Entry} (hph : s.phase c = .resetting es)
    (hen : ∀ e ∈ es, e ∈ s.entries) : Obtains node c s := by
  induction hn : es.length using Nat.strong_induction_on generalizing s es with
  | _ n ih =>
    cases es with
    | nil =>
      refine after (.go 0) (by rw [hph]; rfl) ⟨[], _, rfl, .inr ⟨s.builds, ?_⟩⟩
      simp [State.goto]
    | cons e r =>
      have he := hen e (by simp)
      refine after (.remove e) (by rw [hph, next, if_neg (by simp), if_pos he]) ?_
      refine ih _ ?_ (by simp only [State.goto, Function.update_self]; rfl) (fun e' he' => ?_) rfl
      · rw [← hn, filter_cons_of_neg (by simp)]
        exact Nat.lt_succ_of_le (length_filter_le _ _)
      · obtain ⟨hm, hne⟩ := mem_filter.1 he'
        exact mem_entries_remove.2 ⟨hen e' hm, by simpa using hne⟩

theorem claiming (hph : s.phase c = .claiming) (hlc : s.lock = none) : Obtains node c s := by
  refine after (.go 0) (by rw [hph]; rfl) ?_
  simp only [createLock, hlc]
  refine after (.go 0) (by simp only [State.goto, Function.update_self]; rfl) ?_
  refine after (.go 0) (by simp only [writePid, State.goto, Function.update_self]; rfl) ?_
  exact resetting (by simp only [State.goto, Function.update_self]; rfl) fun _ => id

theorem checking (hph : s.phase c = .checking) (hrc : ∀ b, s.record ≠ some (.incomplete b))
    (hcl : Obtains node c (s.goto c .claiming)) : Obtains node c s := by
  have hgo : ∀ p q, (s.goto c p).goto c q = s.goto c q := fun p q => by simp [State.goto]
  have hsl : ∀ p, (s.goto c p).phase c = p := fun p => by simp [State.goto]
  have hlk : ∀ r ps, Obtains node c (s.goto c (.looking r ps)) := by
    intro r ps
    induction ps with
    | nil => exact after (.go 0) (by rw [hsl]; rfl) ⟨[], _, rfl, .inl ⟨_, Function.update_self ..⟩⟩
    | cons pt ps ih =>
      refine after (.go 0) (by rw [hsl]; rfl) ?_
      rw [hgo]
      split
      · exact ih
      · exact hcl
  refine after (.go 0) (by rw [hph]; rfl) ?_
  cases hfl : s.record with
  | none => simpa using hcl
  | some f =>
    refine after (.go 0) (by rw [hsl]; rfl) ?_
    cases f with
    | incomplete b => exact absurd hfl (hrc b)
    | complete r =>
      have hld : loadNodeRecord node (s.goto c .reading) c =
          if r.fingerprint = node.fingerprint then s.goto c (.looking r node.expectedOutputs)
          else s.goto c .claiming := by
        simp only [loadNodeRecord, hgo]
        rw [show (s.goto c .reading).record = s.record from rfl, hfl]
      rw [isSome_some, if_pos rfl, hld]
      split
      · exact hlk r _
      · exact hcl

end Obtains

/-- Once no call owns the lock, a call gets it or a cache hit, unless the record is incomplete. -/
theorem Inv.obtains (h : Inv node s) (hph : s.phase c = .checking)
    (hfr : ∀ d, (s.phase d).owns = false) (hrc : ∀ b, s.record ≠ some (.incomplete b)) :
    Obtains node c s := by
  have hgo : ∀ p q, (s.goto c p).goto c q = s.goto c q := fun p q => by simp [State.goto]
  have hsl : ∀ p, (s.goto c p).phase c = p := fun p => by simp [State.goto]
  refine .checking hph hrc ?_
  cases hlc : s.lock with
  | none => exact .claiming (hsl _) hlc
  | some f =>
    have hlc' : ∀ p, (s.goto c p).lock = some f := fun _ => hlc
    -- the lock is found to be stale and is removed, and the call begins again
    have hrm : Obtains node c (s.goto c .removing) := by
      refine .after (.go 0) (by rw [hsl]; rfl) ?_
      refine .checking (by simp [State.goto]) hrc (.claiming (by simp [State.goto]) rfl)
    refine .after (.go 0) (t := s.goto c .inspecting)
      (by simp [hsl, NodeCache.next, createLock, hlc', hgo]) ?_
    refine .after (.go 0) (t := s.goto c .readingPid) (by simp [hsl, NodeCache.next, hlc', hgo]) ?_
    refine .after (.go 0) (t := s.goto c (.judging f.pid))
      (by simp [hsl, NodeCache.next, hlc', hgo]) ?_
    cases hp : f.pid with
    | some pid =>
      have hdd : pid ∉ s.alive := fun hal => by simpa [hfr] using ((h.created f hlc).2 pid hp).2 hal
      refine .after (.go 0) (by rw [hsl]; rfl) ?_
      rw [hgo, if_neg (show pid ∉ (s.goto c _).alive from hdd)]
      exact hrm
    | none =>
      refine .after (.go (f.modifiedMs + malformedLockGraceMs)) (by rw [hsl]; rfl) ?_
      simp only [judgeMalformed, hlc', hgo]
      rw [if_neg (by omega)]
      exact hrm

namespace Sample

def zipNode : PreparedNode := ⟨"f", ["zip"]⟩

def goes (c n : Nat) : List Label := List.replicate n (.act c (.go 0))

def builds (c : Nat) : List Label := goes c 3 ++ [.act c (.write "zip"), .act c .finish]

/-- A process ends while it builds the node. Another one removes its lock and its output and builds the
node, and a third one, which has met the second one's lock, has a cache hit. -/
def staleThenHit : List Label :=
  [.spawn 1, .spawn 2, .spawn 3, .call 1] ++ goes 0 5 ++
    [.act 0 (.write "zip"), .crash 1, .call 2, .call 3] ++ goes 1 8 ++ goes 2 5 ++ goes 1 2 ++
    [.act 1 (.remove (.output "zip")), .act 1 (.go 0), .act 1 (.write "zip"), .act 1 .finish] ++
    goes 1 2 ++ goes 2 4

/-- The build of the first process ends with it. Two others find its lock to be stale. -/
def staleTwice : List Label :=
  [.spawn 1, .spawn 2, .spawn 3, .call 1] ++ goes 0 3 ++ [.crash 1, .call 2, .call 3] ++ goes 1 5 ++
    goes 2 5 ++ goes 1 3 ++ goes 2 3

/-- The second call has found no record before the first has written it. -/
def hitThenReset : List Label :=
  [.spawn 1, .spawn 2, .spawn 3, .call 1, .call 2] ++ goes 0 2 ++ goes 1 1 ++ builds 0 ++ goes 0 2 ++
    [.call 3] ++ goes 2 4 ++ goes 1 3 ++ [.act 1 (.remove .record)]

/-- The process ends while it writes the record. -/
def crashInRecord : List Label :=
  [.spawn 1, .spawn 2, .call 1] ++ goes 0 2 ++ builds 0 ++ [.crash 1, .call 2] ++ goes 1 2

end Sample

open Sample

end Aerobag.NodeCache
