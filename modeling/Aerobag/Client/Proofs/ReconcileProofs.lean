import Aerobag.Client.Proofs.EngineProofs

/-!
# Reconciliation with a page

`reconcile_page` decides key by key. `Visited` says what holds at the keys visited so far. The
records of a decoded page are valid, so that the loop never stops half-way.
-/

open List

namespace Aerobag.Client

open Command Sync

variable {J F : Type} {env : CloudEnv J F} {e : CloudEngine J} {pu : ReadPurpose} {key : String}

/-- The engine's decision is the one of `Wins`. -/
theorem CloudEngine.remoteWins_iff {r : CloudRecord J} :
    e.remoteWins env pu key r = true ↔
      Wins env pu (key ∈ e.sync.pending) e.sync.cached[key]? r := by
  simp [CloudEngine.remoteWins, Wins, CloudEngine.sync, CloudPersistentState.sync,
    Option.all_eq_true, ← Bool.not_eq_true]

/-- The records of `entries` have been reconciled, and nothing else has changed. -/
structure Visited (env : CloudEnv J F) (purpose : ReadPurpose)
    (entries : List (String × CloudRecord J)) (s t : Sync J) : Prop where
  adopted : ∀ {key remote}, (key, remote) ∈ entries →
    Wins env purpose (key ∈ s.pending) s.cached[key]? remote →
      t.cached[key]? = some remote ∧ key ∉ t.pending
  kept : ∀ {key remote}, (key, remote) ∈ entries →
    ¬ Wins env purpose (key ∈ s.pending) s.cached[key]? remote →
      t.cached[key]? = s.cached[key]? ∧ key ∈ t.pending
  other : ∀ {key}, key ∉ entries.map Prod.fst →
    t.cached[key]? = s.cached[key]? ∧ (key ∈ t.pending ↔ key ∈ s.pending)
  rest : t = { s with cached := t.cached, pending := t.pending }

namespace Visited

variable {s t u : Sync J} {key : String} {remote : CloudRecord J}
  {ents : List (String × CloudRecord J)}

/-- A record that wins is cached and no longer pending. -/
theorem adopt (hwn : Wins env pu (key ∈ s.pending) s.cached[key]? remote) :
    Visited env pu [(key, remote)] s
      { s with cached := s.cached.insert key remote, pending := s.pending.erase key } := by
  refine ⟨?_, ?_, ?_, rfl⟩
  · rintro key' r' hm -
    obtain ⟨rfl, rfl⟩ := Prod.mk.inj (mem_singleton.1 hm)
    simp
  · rintro key' r' hm hls
    obtain ⟨rfl, rfl⟩ := Prod.mk.inj (mem_singleton.1 hm)
    exact absurd hwn hls
  · intro key' hne
    have hne : key ≠ key' := fun h => hne (by simp [h])
    simp [Std.ExtTreeMap.getElem?_insert, hne]

/-- A record that loses makes the local one pending. -/
theorem keep (hls : ¬ Wins env pu (key ∈ s.pending) s.cached[key]? remote) :
    Visited env pu [(key, remote)] s { s with pending := s.pending.insert key } := by
  refine ⟨?_, ?_, ?_, rfl⟩
  · rintro key' r' hm hwn
    obtain ⟨rfl, rfl⟩ := Prod.mk.inj (mem_singleton.1 hm)
    exact absurd hwn hls
  · rintro key' r' hm -
    obtain ⟨rfl, rfl⟩ := Prod.mk.inj (mem_singleton.1 hm)
    simp
  · intro key' hne
    have hne : key ≠ key' := fun h => hne (by simp [h])
    simp [hne]

/-- A record and then others: each key is visited once, so that the later visits find at their keys
what was there at the start. -/
theorem cons (hk : key ∉ ents.map Prod.fst) (hf : Visited env pu [(key, remote)] s t)
    (hr : Visited env pu ents t u) : Visited env pu ((key, remote) :: ents) s u := by
  have hsm : ∀ {key' r'}, (key', r') ∈ ents →
      t.cached[key']? = s.cached[key']? ∧ (key' ∈ t.pending ↔ key' ∈ s.pending) := by
    intro key' r' hm
    refine hf.other fun h => hk ?_
    obtain rfl : key' = key := by simpa using h
    exact List.mem_map_of_mem hm
  refine ⟨?_, ?_, ?_, ?_⟩
  · intro key' r' hm hwn
    rcases mem_cons.1 hm with heq | hm
    · obtain ⟨rfl, rfl⟩ := Prod.mk.inj heq
      obtain ⟨hcc, hpn⟩ := hf.adopted mem_cons_self hwn
      obtain ⟨hcc', hpn'⟩ := hr.other hk
      exact ⟨hcc'.trans hcc, mt hpn'.1 hpn⟩
    · obtain ⟨hcc, hpn⟩ := hsm hm
      rw [← hcc, ← hpn] at hwn
      exact hr.adopted hm hwn
  · intro key' r' hm hls
    rcases mem_cons.1 hm with heq | hm
    · obtain ⟨rfl, rfl⟩ := Prod.mk.inj heq
      obtain ⟨hcc, hpn⟩ := hf.kept mem_cons_self hls
      obtain ⟨hcc', hpn'⟩ := hr.other hk
      exact ⟨hcc'.trans hcc, hpn'.2 hpn⟩
    · obtain ⟨hcc, hpn⟩ := hsm hm
      rw [← hcc, ← hpn] at hls
      obtain ⟨hcc', hpn'⟩ := hr.kept hm hls
      exact ⟨hcc'.trans hcc, hpn'⟩
  · intro key' hnt
    simp only [map_cons, mem_cons, not_or] at hnt
    obtain ⟨hcc, hpn⟩ := hf.other (by simpa using hnt.1)
    obtain ⟨hcc', hpn'⟩ := hr.other hnt.2
    exact ⟨hcc'.trans hcc, hpn'.trans hpn⟩
  · rw [hr.rest, hf.rest]

end Visited

section Loop

variable [DecidableEq J] {c : RecordMap J}

theorem reconcileRecord_visited {r : CloudRecord J}
    (hv : validateKnownRecord env.primitives env.codec.toRecordCodec key r = .ok ()) :
    Ends (reconcileRecord env pu c key r) e fun res e' =>
      (∃ c', res = .ok c') ∧ Visited env pu [(key, r)] e.sync e'.sync := by
  refine ends_attempt_bind.2 ⟨fun _ _ => ?_, fun _ h => nomatch hv.symm.trans h⟩
  simp only [ends_get_bind]
  split
  · rename_i hwn
    have hvs := Visited.adopt (CloudEngine.remoteWins_iff.1 hwn)
    split <;> exact ⟨⟨_, rfl⟩, hvs⟩
  · rename_i hls
    exact ⟨⟨_, rfl⟩, .keep (mt CloudEngine.remoteWins_iff.2 hls)⟩

/-- The loop over a page visits each of its keys once. -/
theorem reconcileRecords_visited {es : List (String × CloudRecord J)}
    (hks : (es.map Prod.fst).Nodup) (hv : ∀ en ∈ es,
      validateKnownRecord env.primitives env.codec.toRecordCodec en.1 en.2 = .ok ())
    {e : CloudEngine J} : Ends (reconcileRecords env pu es c) e fun res e' =>
      (∃ c', res = .ok c') ∧ Visited env pu es e.sync e'.sync := by
  induction es generalizing e c with
  | nil => exact ⟨⟨_, rfl⟩, nofun, nofun, fun _ => ⟨rfl, .rfl⟩, rfl⟩
  | cons en es ih =>
    obtain ⟨hk, hks⟩ := nodup_cons.1 hks
    apply (reconcileRecord_visited (hv _ mem_cons_self)).bind
    · rintro c' e' ⟨-, hf⟩
      refine (ih hks fun en hm => hv en (mem_cons_of_mem _ hm)).imp ?_
      rintro res e'' ⟨hok, hr⟩
      exact ⟨hok, hf.cons hk hr⟩
    · rintro _ _ ⟨⟨_, h⟩, -⟩
      cases h

end Loop

theorem RecordMap.nodup_keys (rs : RecordMap J) : (rs.toList.map Prod.fst).Nodup := by
  refine pairwise_map.2 (Std.ExtTreeMap.distinct_keys_toList.imp fun {a b} hne => ?_)
  intro heq
  simp [heq] at hne

theorem mem_keepLocalKeys {p : RecordMap J} {lk : List String} :
    key ∈ (keepLocalKeys lk p e).sync.pending ↔
      key ∈ e.sync.pending ∨ (key ∈ lk ∧ p[key]? = none) := by
  simp [keepLocalKeys, CloudEngine.sync, CloudPersistentState.sync, ← Bool.not_eq_true]

/-- A page whose records are valid is reconciled without an error. -/
theorem reconcilePage_reconciled [DecidableEq J] {p : CloudPage J}
    (hv : validateCloudRecords env.primitives env.codec.toRecordCodec p.records = .ok ()) :
    Ends (reconcilePage env p pu) e fun res e' =>
      (∃ c, res = .ok c) ∧ Reconciled env pu p.records e.sync e'.sync ∧
        e'.sync = { e.sync with cached := e'.sync.cached, pending := e'.sync.pending } := by
  unfold reconcilePage
  simp only [ends_get_bind]
  apply (reconcileRecords_visited p.records.nodup_keys (Except.forM_eq_ok.1 hv)).bind
  · rintro ch e' ⟨-, hvs⟩
    have hm : ∀ {key r}, p.records[key]? = some r → (key, r) ∈ p.records.toList := fun h =>
      Std.ExtTreeMap.mem_toList_iff_getElem?_eq_some.2 h
    have hpn : ∀ {key},
        key ∈ (keepLocalKeys e.persistent.records.cached.keys p.records e').sync.pending ↔
          key ∈ e'.sync.pending ∨ (e.sync.cached[key]?.isSome ∧ p.records[key]? = none) := by
      intro key
      rw [mem_keepLocalKeys, Std.ExtTreeMap.mem_keys, Std.ExtTreeMap.mem_iff_isSome_getElem?]
      rfl
    refine ⟨⟨_, rfl⟩, ⟨?_, ?_, ?_⟩, ?_⟩
    · intro key r hpg hwn
      obtain ⟨hcc, hnt⟩ := hvs.adopted (hm hpg) hwn
      refine ⟨hcc, fun h => ?_⟩
      rcases hpn.1 h with h | ⟨-, h⟩
      · exact hnt h
      · simp [hpg] at h
    · intro key r hpg hls
      obtain ⟨hcc, hin⟩ := hvs.kept (hm hpg) hls
      exact ⟨hcc, hpn.2 (.inl hin)⟩
    · intro key hpg
      have hk : key ∉ p.records.toList.map Prod.fst := by
        rintro hk
        obtain ⟨⟨key', r⟩, he, rfl⟩ := List.mem_map.1 hk
        have h := Std.ExtTreeMap.mem_toList_iff_getElem?_eq_some.1 he
        simp [hpg] at h
      obtain ⟨hcc, hif⟩ := hvs.other hk
      refine ⟨hcc, ?_⟩
      rw [hpn, hif]
      simp [hpg]
    · exact congrArg (fun t : Sync J => { t with
        pending := (keepLocalKeys e.persistent.records.cached.keys p.records e').sync.pending })
        hvs.rest
  · rintro _ _ ⟨⟨_, h⟩, -⟩
    cases h

end Aerobag.Client
