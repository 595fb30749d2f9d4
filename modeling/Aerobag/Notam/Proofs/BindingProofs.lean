import Aerobag.Notam.Proofs.IdentityProofs

/-!
# The identity binds the records

States with the same identity hold the same records, unless SHA-256 collides: at every place of the
tree the two messages with the same digest are the same.
-/

open List

namespace Aerobag.Notam

variable {R : Type} {env : NotamEnv R} {s t : NotamState R}

/-- The ids of the records, with their canonical bytes. -/
def canonicalRecords (env : NotamEnv R) (s : NotamState R) : Set (String × Bytes) :=
  { entry | ∃ record, s.records[entry.1]? = some record ∧
    canonicalRecordBytes env record = .ok entry.2 }

/-- No two different messages hashed at the same place of the trees of two states collide. -/
structure NoCollision (env : NotamEnv R) (s t : NotamState R) : Prop where
  state : env.sha256 (stateMessage s.merkle.groupHashes s.counters) =
      env.sha256 (stateMessage t.merkle.groupHashes t.counters) →
    stateMessage s.merkle.groupHashes s.counters = stateMessage t.merkle.groupHashes t.counters
  group : ∀ group, env.sha256 (groupMessage group s.merkle.bucketHashes) =
      env.sha256 (groupMessage group t.merkle.bucketHashes) →
    groupMessage group s.merkle.bucketHashes = groupMessage group t.merkle.bucketHashes
  bucket : ∀ bucket : Fin bucketCount,
    env.sha256 (bucketMessage bucket (s.merkle.bucketMembers bucket)) =
      env.sha256 (bucketMessage bucket (t.merkle.bucketMembers bucket)) →
    bucketMessage bucket (s.merkle.bucketMembers bucket) =
      bucketMessage bucket (t.merkle.bucketMembers bucket)
  leaf : ∀ id bytes bytes', (id, bytes) ∈ canonicalRecords env s →
    (id, bytes') ∈ canonicalRecords env t →
    env.sha256 (leafMessage id bytes) = env.sha256 (leafMessage id bytes') →
    leafMessage id bytes = leafMessage id bytes'

/-- The texts of a state are shorter than the largest `u64`, as all texts in memory are. -/
def InMemory (env : NotamEnv R) (s : NotamState R) : Prop :=
  ∀ id bytes, (id, bytes) ∈ canonicalRecords env s →
    (strBytes id).length < 256 ^ 8 ∧ bytes.length < 256 ^ 8

theorem frame_inj {bs bs' r r' : Bytes} (hb : bs.length < 256 ^ 8)
    (hb' : bs'.length < 256 ^ 8) (h : frame bs ++ r = frame bs' ++ r') : bs = bs' ∧ r = r' := by
  simp only [frame, append_assoc] at h
  obtain ⟨hln, htl⟩ := append_inj h (by simp)
  exact append_inj htl (beBytes_inj hb hb' hln)

theorem leafMessage_inj {id : String} {bs bs' : Bytes} (hb : bs.length < 256 ^ 8)
    (hb' : bs'.length < 256 ^ 8) (h : leafMessage id bs = leafMessage id bs') : bs = bs' := by
  have htl := append_cancel_left h
  have hfr : frame bs ++ [] = frame bs' ++ [] := by simpa using htl
  exact (frame_inj hb hb' hfr).1

/-- A bucket's message determines its members. -/
theorem bucketMessage_inj {b : Nat} {ms ms' : Bucket}
    (hmm : ∀ id l, ms[id]? = some l → (strBytes id).length < 256 ^ 8 ∧ l.length = 32)
    (hmm' : ∀ id l, ms'[id]? = some l → (strBytes id).length < 256 ^ 8 ∧ l.length = 32)
    (h : bucketMessage b ms = bucketMessage b ms') : ms = ms' := by
  have hen := (append_inj h (by simp)).2
  have hcd : ∀ e ∈ ms.toList, ∀ e' ∈ ms'.toList, ∀ r r',
      (frame (strBytes e.1) ++ e.2) ++ r = (frame (strBytes e'.1) ++ e'.2) ++ r' →
        e = e' ∧ r = r' := by
    intro e he e' he' r r' heq
    rw [Std.ExtTreeMap.mem_toList_iff_getElem?_eq_some] at he he'
    obtain ⟨hid, hlf⟩ := hmm _ _ he
    obtain ⟨hid', hlf'⟩ := hmm' _ _ he'
    rw [append_assoc, append_assoc] at heq
    obtain ⟨hsm, htl⟩ := frame_inj hid hid' heq
    obtain ⟨hl, hr⟩ := append_inj htl (hlf.trans hlf'.symm)
    exact ⟨Prod.ext (strBytes_injective hsm) hl, hr⟩
  have hls := flatMap_inj_of_code hcd (fun e => by simp [frame, beBytes_succ]) hen
  refine Std.ExtTreeMap.ext_getElem? fun id => Option.ext fun l => ?_
  rw [← Std.ExtTreeMap.mem_toList_iff_getElem?_eq_some, hls,
    Std.ExtTreeMap.mem_toList_iff_getElem?_eq_some]

theorem groupMessage_inj {g : Fin groupCount} {hashes has' : Fin bucketCount → Bytes}
    (hln : ∀ b, (hashes b).length = (has' b).length)
    (h : groupMessage g hashes = groupMessage g has') (i : Fin bucketsPerGroup) :
    hashes (bucketAt g i) = has' (bucketAt g i) := by
  have htl := append_cancel_left h
  exact flatMap_inj_of_length (fun i _ => hln _) htl i (mem_finRange i)

theorem stateMessage_inj {hashes has' : Fin groupCount → Bytes} {cs cs' : NotamCounters}
    (hln : ∀ g, (hashes g).length = (has' g).length)
    (h : stateMessage hashes cs = stateMessage has' cs') : hashes = has' := by
  have htl := (append_inj h (by simp)).2
  funext g
  exact flatMap_inj_of_length (fun g _ => hln g) htl g (mem_finRange g)

theorem leaf_of_mem_canonicalRecords (hs : Identified env s) {id : String} {bs : Bytes}
    (h : (id, bs) ∈ canonicalRecords env s) :
    (s.merkle.bucketMembers (bucketForId env id))[id]? = some (leafHash env id bs) := by
  obtain ⟨r, hrc, hb⟩ := h
  rw [hs.leaves, if_pos rfl, leafOf_eq_some]
  refine ⟨r, hrc, recordLeafHash_eq_ok.2 ⟨bs, hb, ?_⟩⟩
  rw [hs.valid.keyed hrc]

theorem mem_canonicalRecords_of_leaf (hs : Identified env s) {b : Fin bucketCount}
    {id : String} {l : Bytes} (h : (s.merkle.bucketMembers b)[id]? = some l) :
    ∃ bs, (id, bs) ∈ canonicalRecords env s ∧ l = leafHash env id bs := by
  rw [hs.leaves] at h
  split at h
  · obtain ⟨r, hrc, hlf⟩ := leafOf_eq_some.1 h
    obtain ⟨bs, hb, rfl⟩ := recordLeafHash_eq_ok.1 hlf
    exact ⟨bs, ⟨r, hrc, hb⟩, by rw [hs.valid.keyed hrc]⟩
  · cases h

theorem bucketHashes_eq (hs : Identified env s) (b : Fin bucketCount) : s.merkle.bucketHashes b =
      env.sha256 (bucketMessage b (s.merkle.bucketMembers b)) :=
  (congrFun (congrArg NotamMerkleIndex.bucketHashes hs.hashed) b).symm

theorem groupHashes_eq (hs : Identified env s) (g : Fin groupCount) :
    s.merkle.groupHashes g = env.sha256 (groupMessage g s.merkle.bucketHashes) := by
  have hbu : s.merkle.bucketHashes = fun b : Fin bucketCount =>
      bucketHash env b (s.merkle.bucketMembers b) := funext (bucketHashes_eq hs)
  rw [hbu]
  exact (congrFun (congrArg NotamMerkleIndex.groupHashes hs.hashed) g).symm

theorem exists_bucketAt (b : Fin bucketCount) : ∃ g i, bucketAt g i = b := by
  have hbc := b.isLt
  simp only [bucketCount] at hbc
  refine ⟨⟨b / bucketsPerGroup, ?_⟩, ⟨b % bucketsPerGroup, ?_⟩, Fin.ext ?_⟩ <;>
    simp only [bucketAt, bucketsPerGroup, bucketCount, groupCount] <;> omega

section Binding

variable (hs : Identified env s) (ht : Identified env t)
  (hlng : ∀ message, (env.sha256 message).length = 32) (hnn : NoCollision env s t)

include hs ht hlng hnn

theorem groupHashes_of_stateId (hid : s.stateId = t.stateId) :
    s.merkle.groupHashes = t.merkle.groupHashes := by
  have hha : s.stateHash = t.stateHash := hexBytes_injective (by rw [← hs.stateId, ← ht.stateId, hid])
  rw [hs.stateHash, ht.stateHash] at hha
  refine stateMessage_inj (fun g => ?_) (hnn.state hha)
  rw [groupHashes_eq hs, groupHashes_eq ht, hlng, hlng]

theorem bucketHashes_of_groupHashes (hgr : s.merkle.groupHashes = t.merkle.groupHashes) :
    s.merkle.bucketHashes = t.merkle.bucketHashes := by
  funext b
  obtain ⟨g, i, rfl⟩ := exists_bucketAt b
  have h := congrFun hgr g
  rw [groupHashes_eq hs, groupHashes_eq ht] at h
  refine groupMessage_inj (fun b => ?_) (hnn.group g h) i
  rw [bucketHashes_eq hs, bucketHashes_eq ht, hlng, hlng]

theorem bucketMembers_of_bucketHashes (hsm : InMemory env s) (hsm' : InMemory env t)
    (hbu : s.merkle.bucketHashes = t.merkle.bucketHashes) :
    s.merkle.bucketMembers = t.merkle.bucketMembers := by
  funext b
  have hbc := congrFun hbu b
  rw [bucketHashes_eq hs, bucketHashes_eq ht] at hbc
  refine bucketMessage_inj (fun id l hlf => ?_) (fun id l hlf => ?_) (hnn.bucket b hbc)
  · obtain ⟨bs, hm, rfl⟩ := mem_canonicalRecords_of_leaf hs hlf
    exact ⟨(hsm id bs hm).1, hlng _⟩
  · obtain ⟨bs, hm, rfl⟩ := mem_canonicalRecords_of_leaf ht hlf
    exact ⟨(hsm' id bs hm).1, hlng _⟩

/-- Down the tree: equal ids have equal groups, buckets, leaves and records. -/
theorem canonicalRecords_subset (hsl : InMemory env s) (hsl' : InMemory env t)
    (hid : s.stateId = t.stateId) : canonicalRecords env s ⊆ canonicalRecords env t := by
  have hgr := groupHashes_of_stateId hs ht hlng hnn hid
  have hbu := bucketHashes_of_groupHashes hs ht hlng hnn hgr
  have hmm := bucketMembers_of_bucketHashes hs ht hlng hnn hsl hsl' hbu
  rintro ⟨id, bs⟩ hm
  have hlf := leaf_of_mem_canonicalRecords hs hm
  rw [hmm] at hlf
  obtain ⟨bs', hm', hsm⟩ := mem_canonicalRecords_of_leaf ht hlf
  have hms := hnn.leaf id bs bs' hm hm' hsm
  rwa [leafMessage_inj (hsl id bs hm).2 (hsl' id bs' hm').2 hms]

end Binding

theorem NoCollision.symm (h : NoCollision env s t) : NoCollision env t s where
  state heq := (h.state heq.symm).symm
  group group heq := (h.group group heq.symm).symm
  bucket bucket heq := (h.bucket bucket heq.symm).symm
  leaf id bytes bytes' hm hm' heq := (h.leaf id bytes' bytes hm' hm heq.symm).symm

/-- Two states with the same identity hold the same identifiers and canonical record bytes, unless
two messages hashed at the same place collide. -/
theorem stateId_binds_records (hs : Identified env s) (ht : Identified env t)
    (hlength : ∀ message, (env.sha256 message).length = 32) (hnone : NoCollision env s t)
    (hsmall : InMemory env s) (hsmall' : InMemory env t) (hid : s.stateId = t.stateId) :
    canonicalRecords env s = canonicalRecords env t :=
  Set.Subset.antisymm (canonicalRecords_subset hs ht hlength hnone hsmall hsmall' hid)
    (canonicalRecords_subset ht hs hlength hnone.symm hsmall' hsmall hid.symm)

theorem NoCollision.refl (env : NotamEnv R) (s : NotamState R) : NoCollision env s s where
  state _ := rfl
  group _ _ := rfl
  bucket _ _ := rfl
  leaf _ _ _ := fun ⟨_, hrc, hb⟩ ⟨_, hrc', hb'⟩ _ => by
    rw [hrc] at hrc'
    cases hrc'
    rw [hb] at hb'
    cases hb'
    rfl

theorem inMemory_of_check {ms : List (NotamMutation R)}
    (hs : s.records = actAll ms ∅) (hv : AllValid env s.records) (hch : ms.all (fun
      | .upsert r => decide ((strBytes r.id).length < 256 ^ 8) &&
          ((canonicalRecordBytes env r).toOption.all fun bs => bs.length < 256 ^ 8)
      | .remove _ => true) = true) : InMemory env s := by
  rintro id bs ⟨r, hrc, hb⟩
  obtain rfl := hv.keyed hrc
  rw [hs] at hrc
  rcases actAll_eq_some hrc with hnn | hm
  · simp at hnn
  · simpa [hb, Except.toOption] using List.all_eq_true.1 hch _ hm

namespace Sample

def inOrder : List (NotamMutation NotamDetails) :=
  [.upsert (record "A" (some "KSEA") [] "first"), .upsert (record "B" (some "KPAE") [] "second")]

def inReverse : List (NotamMutation NotamDetails) := inOrder.reverse

theorem actAll_inReverse : actAll inReverse ∅ = actAll inOrder ∅ := by
  refine Std.ExtTreeMap.ext_getElem? fun id => ?_
  simp only [inReverse, inOrder, actAll, reverse_cons, reverse_nil, nil_append,
    cons_append, foldl_cons, foldl_nil, NotamMutation.getElem?_act]
  by_cases hA : "A" = id
  · subst hA
    rfl
  · have hne : ∀ text a, (NotamMutation.upsert (record "A" a [] text)).notamId ≠ id := fun _ _ => hA
    simp [hne]

theorem inOrder_admissible : ∀ m ∈ inOrder, m.Admissible Sample.env :=
  admissible_of_check (by decide +kernel)

end Sample

/-- The same notices, applied in the other order. -/
theorem stateId_binds_records_reordered : ∃ s t,
    (applyMutations Sample.env Sample.inOrder).run (.empty Sample.env) = .ok () s ∧
    (applyMutations Sample.env Sample.inReverse).run (.empty Sample.env) = .ok () t ∧
    canonicalRecords Sample.env s = canonicalRecords Sample.env t := by
  obtain ⟨s, hr⟩ := applyMutations_exists .empty Sample.inOrder_admissible
  obtain ⟨t, hr'⟩ := applyMutations_exists .empty fun m hm =>
    Sample.inOrder_admissible m (mem_reverse.1 hm)
  obtain ⟨-, hs, hrc⟩ := (applyMutations_run .empty).1 hr
  obtain ⟨-, ht, hrc'⟩ := (applyMutations_run .empty).1 hr'
  have hsm : s.records = t.records := hrc.trans (Sample.actAll_inReverse.symm.trans hrc'.symm)
  refine ⟨s, t, hr, hr', ?_⟩
  refine stateId_binds_records hs.toIdentified ht.toIdentified Sha256.length_digest
    (hs.eq ht hsm ▸ .refl _ _) ?_ ?_ (by rw [hs.eq ht hsm])
  · exact inMemory_of_check hrc hs.valid (by decide +kernel)
  · exact inMemory_of_check hrc' ht.valid (by decide +kernel)

end Aerobag.Notam
